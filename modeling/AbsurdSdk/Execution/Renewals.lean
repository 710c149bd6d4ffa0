import AbsurdSdk.Model.Discipline
import AbsurdSdk.Model.Methods

/-! Which durations the operations of a context renew the claim for. A renewal that has taken
effect in the database is at once sent to the watchdog, for the duration whose whole seconds the
database was given. -/

namespace AbsurdSdk.Execution

open Interaction Model

def renewed : (call : Call) → Answer call → Option ℕ
  | .query (.extendClaim _ _ seconds), .ok _ => some seconds
  | .query (.setTaskCheckpointState _ _ _ _ _ seconds), .ok _ => some seconds
  | _, _ => none

def Ready (durations : Duration → Prop) : Option ℕ → Call → Prop
  | pending, .sendLease d => durations d ∧ pending = some (durationSecondsCeil d)
  | pending, _ => pending = none

/-- Every renewal of the program is for one of the durations and is sent to the watchdog;
`pending` is the renewal it has not sent yet. -/
def Renews {α : Type} (durations : Duration → Prop) (post : α → Prop) :
    Option ℕ → Process α → Prop
  | pending, .done a => pending = none ∧ post a
  | pending, .call call next =>
    Ready durations pending call ∧ ∀ r, Renews durations post (renewed call r) (next r)

section Rules

variable {durations : Duration → Prop} {α β : Type} {pending : Option ℕ}

lemma Renews.bind {p : Process α} {f : α → Process β} {mid : α → Prop} {post : β → Prop}
    (hp : Renews durations mid pending p)
    (hf : ∀ a, mid a → Renews durations post none (f a)) :
    Renews durations post pending (p.bind f) := by
  induction p generalizing pending with
  | done a =>
    obtain ⟨rfl, ha⟩ := hp
    exact hf a ha
  | call call next ih => exact ⟨hp.1, fun r => ih r (hp.2 r)⟩

abbrev AsyncRenews (durations : Duration → Prop) (x : Async α) : Prop :=
  Renews durations (fun _ => True) none x.run

namespace AsyncRenews

lemma bind {x : Async α} {f : α → Async β} (hx : AsyncRenews durations x)
    (hf : ∀ a, AsyncRenews durations (f a)) : AsyncRenews durations (x >>= f) := by
  apply Renews.bind hx
  rintro (err | a) -
  · exact ⟨rfl, trivial⟩
  · exact hf a

lemma ofResult (r : Result α) : AsyncRenews durations (Async.ofResult r) := ⟨rfl, trivial⟩

lemma panic (text : String) : AsyncRenews durations (Async.panic text : Async α) :=
  ⟨rfl, fun r => r.elim⟩

lemma hang : AsyncRenews durations (Async.hang : Async α) := ⟨rfl, fun r => r.elim⟩

lemma now : AsyncRenews durations Async.now := ⟨rfl, fun _ => ⟨rfl, trivial⟩⟩

lemma sleep (d : Duration) : AsyncRenews durations (Async.sleep d) :=
  ⟨rfl, fun _ => ⟨rfl, trivial⟩⟩

lemma closure (T : Type) : AsyncRenews durations (Async.closure T) := by
  refine ⟨rfl, ?_⟩
  rintro (text | r)
  · exact panic text
  · exact ⟨rfl, trivial⟩

lemma supply (T : Type) : AsyncRenews durations (Async.supply T) := by
  refine ⟨rfl, ?_⟩
  rintro (text | v)
  · exact panic text
  · exact ⟨rfl, trivial⟩

lemma query {statement : Statement α} (h : ∀ r, renewed (.query statement) r = none) :
    AsyncRenews durations (Async.query statement) := by
  apply bind
  · exact ⟨rfl, fun _ => ⟨rfl, trivial⟩⟩
  intro _
  refine ⟨rfl, fun r => ?_⟩
  rw [h r]
  exact ⟨rfl, trivial⟩

lemma query_bind {statement : Statement Unit} {f : Unit → Async β} {d : Duration}
    (h : ∀ r, renewed (.query statement) (.ok r) = some (durationSecondsCeil d))
    (herror : ∀ err, renewed (.query statement) (.error err) = none)
    (hf : Renews durations (fun _ => True) (some (durationSecondsCeil d)) (f ()).run) :
    AsyncRenews durations (Async.query statement >>= f) := by
  refine ⟨rfl, ?_⟩
  rintro (err | _)
  · exact ⟨rfl, trivial⟩
  refine ⟨rfl, ?_⟩
  rintro (err | _)
  · rw [herror]
    exact ⟨rfl, trivial⟩
  · rw [h]
    exact hf

end AsyncRenews

end Rules

def HeartbeatsWithin (durations : Duration → Prop) : Method → Prop
  | .heartbeatFor duration => durations duration
  | _ => True

section Context

variable {durations : Duration → Prop} {claimTimeout : Duration} {α β : Type} {c : TaskContext}

structure Held (claimTimeout : Duration) (c : TaskContext) : Prop where
  sends : c.leaseTx = true
  timeout : c.claimTimeout = claimTimeout
  seconds : c.claimTimeoutSeconds = durationSecondsCeil claimTimeout

abbrev ContextRenews (durations : Duration → Prop) (claimTimeout : Duration) (m : ContextM α)
    (c : TaskContext) : Prop :=
  Renews durations (fun r => Held claimTimeout r.2) none (m.run c)

namespace ContextRenews

lemma bind {m : ContextM α} {f : α → ContextM β} (hm : ContextRenews durations claimTimeout m c)
    (hf : ∀ a d, Held claimTimeout d → ContextRenews durations claimTimeout (f a) d) :
    ContextRenews durations claimTimeout (m >>= f) c := by
  apply Renews.bind hm
  rintro ⟨err | a, d⟩ hd
  · exact ⟨rfl, hd⟩
  · exact hf a d hd

lemma lift {x : Async α} (hx : AsyncRenews durations x) (hc : Held claimTimeout c) :
    ContextRenews durations claimTimeout (liftM x) c :=
  Renews.bind hx fun _ _ => ⟨rfl, hc⟩

lemma lift_bind {x : Async α} {f : α → ContextM β} (hx : AsyncRenews durations x)
    (hc : Held claimTimeout c) (hf : ∀ a, ContextRenews durations claimTimeout (f a) c) :
    ContextRenews durations claimTimeout (liftM x >>= f) c := by
  change Renews durations _ none ((x.run.bind _).bind _)
  rw [Program.bind_assoc]
  apply Renews.bind hx
  rintro (err | a) -
  · exact ⟨rfl, hc⟩
  · exact hf a

lemma pure (a : α) (hc : Held claimTimeout c) :
    ContextRenews durations claimTimeout (pure a : ContextM α) c :=
  ⟨rfl, hc⟩

lemma throw (err : Error) (hc : Held claimTimeout c) :
    ContextRenews durations claimTimeout (ContextM.throw err : ContextM α) c :=
  ⟨rfl, hc⟩

lemma modify {f : TaskContext → TaskContext} (hc : Held claimTimeout (f c)) :
    ContextRenews durations claimTimeout (ContextM.modify f) c :=
  ⟨rfl, hc⟩

lemma context_bind {f : TaskContext → ContextM β}
    (hf : ContextRenews durations claimTimeout (f c) c) :
    ContextRenews durations claimTimeout (ContextM.context >>= f) c :=
  hf

lemma nextName_bind {name : String} {f : String → ContextM β} (hc : Held claimTimeout c)
    (hf : ∀ slot d, Held claimTimeout d → ContextRenews durations claimTimeout (f slot) d) :
    ContextRenews durations claimTimeout (TaskContext.nextCheckpointName name >>= f) c := by
  apply bind
  · apply context_bind
    apply bind (modify ⟨hc.sends, hc.timeout, hc.seconds⟩)
    intro _ e he
    split
    · exact pure _ he
    · exact pure _ he
  · exact hf

end ContextRenews

lemma notifyLeaseExtended_renews {d : Duration} (hc : Held claimTimeout c) (hd : durations d) :
    Renews durations (fun r : Result Unit × TaskContext => Held claimTimeout r.2)
      (some (durationSecondsCeil d)) ((TaskContext.notifyLeaseExtended d).run c) := by
  change Renews durations _ _ ((if c.leaseTx then _ else _ : ContextM Unit).run c)
  rw [if_pos hc.sends]
  exact ⟨⟨hd, rfl⟩, fun _ => ⟨rfl, hc⟩⟩

variable (hc : Held claimTimeout c) (hdurations : durations claimTimeout)

include hc

lemma lookupCheckpoint_renews (name : String) :
    ContextRenews durations claimTimeout (TaskContext.lookupCheckpoint name) c := by
  rw [TaskContext.lookupCheckpoint]
  apply ContextRenews.context_bind
  split
  · exact .pure _ hc
  · apply ContextRenews.lift_bind _ hc
    · intro row
      cases row with
      | none => exact .pure _ hc
      | some value =>
        apply ContextRenews.bind (.modify ⟨hc.sends, hc.timeout, hc.seconds⟩)
        exact fun _ _ hd => .pure _ hd
    · exact .query fun r => by cases r <;> rfl

lemma heartbeatFor_renews {d : Duration} (hd : durations d) :
    ContextRenews durations claimTimeout (TaskContext.heartbeatFor d) c := by
  refine ⟨rfl, ?_⟩
  rintro (err | _)
  · exact ⟨rfl, hc⟩
  refine ⟨rfl, ?_⟩
  rintro (err | _)
  · exact ⟨rfl, hc⟩
  · exact notifyLeaseExtended_renews hc hd

include hdurations

lemma heartbeat_renews : ContextRenews durations claimTimeout TaskContext.heartbeat c := by
  change ContextRenews _ _ (TaskContext.heartbeatFor c.claimTimeout) c
  rw [hc.timeout]
  exact heartbeatFor_renews hc hdurations

lemma persistCheckpoint_renews (name : String) (value : Json) :
    ContextRenews durations claimTimeout (TaskContext.persistCheckpoint name value) c := by
  have hheld : Held claimTimeout { c with
      checkpointCache := Function.update c.checkpointCache name (some value) } :=
    ⟨hc.sends, hc.timeout, hc.seconds⟩
  refine ⟨rfl, ?_⟩
  rintro (err | _)
  · exact ⟨rfl, hc⟩
  refine ⟨rfl, ?_⟩
  rintro (err | _)
  · exact ⟨rfl, hc⟩
  change Renews durations _ (some c.claimTimeoutSeconds)
    ((TaskContext.notifyLeaseExtended c.claimTimeout).run _)
  rw [hc.seconds, hc.timeout]
  exact notifyLeaseExtended_renews hheld hdurations

omit hc in
def renewing : Discipline where
  async x := AsyncRenews durations x
  context m c := ContextRenews durations claimTimeout m c
  sound := Held claimTimeout
  slots _ := True
  takes _ _ := True
  futures := ⟨.bind, .ofResult, .now, .sleep, .hang⟩
  panic := .panic
  closure := .closure
  passive statement h := .query fun r => by cases statement <;> cases r <;> trivial
  awaitEvent _ _ _ _ _ _ := .query fun r => by cases r <;> rfl
  beat := by
    intro c hc next
    rw [hc.timeout, if_pos hc.sends]
    apply AsyncRenews.query_bind (d := claimTimeout) (fun _ => rfl) fun _ => rfl
    exact ⟨⟨hdurations, rfl⟩, fun _ => ⟨rfl, trivial⟩⟩
  pure a _ hc := .pure a hc
  throw err _ hc := .throw err hc
  bind := .bind
  lift_bind hc hx := .lift_bind hx hc
  context_bind := .context_bind
  next_bind hc _ hf := .nextName_bind hc fun slot d hd => hf slot d trivial hd
  lookup _ hc := lookupCheckpoint_renews hc _
  persist _ hc := persistCheckpoint_renews hc hdurations _
  cache _ hc _ := .modify ⟨hc.sends, hc.timeout, hc.seconds⟩
  timeOut hc _ := .modify ⟨hc.sends, hc.timeout, hc.seconds⟩
  forget hc _ := .modify ⟨hc.sends, hc.timeout, hc.seconds⟩

lemma method_renews (chrono : Serde DateTime) (turns : ℕ) {m : Method}
    (hm : HeartbeatsWithin durations m) :
    ContextRenews durations claimTimeout (m.run chrono turns) c := by
  cases m with
  | step serde name => exact (renewing hdurations).step serde hc trivial
  | beginStep serde name => exact (renewing hdurations).beginStep serde hc trivial
  | completeStep serde handle value => exact (renewing hdurations).completeStep serde value hc trivial
  | sleepFor name duration => exact (renewing hdurations).sleepFor chrono duration hc trivial
  | sleepUntil name wakeAt => exact (renewing hdurations).sleepUntil chrono wakeAt hc trivial
  | awaitEvent serde eventName options =>
    exact (renewing hdurations).awaitEventWithOptions serde hc trivial
  | awaitTaskResult taskId options => exact (renewing hdurations).awaitTaskResult turns hc trivial
  | emitEvent serde eventName payload =>
    exact (renewing hdurations).emitEvent serde eventName payload hc
  | heartbeat => exact heartbeat_renews hc hdurations
  | heartbeatFor duration => exact heartbeatFor_renews hc hm
  | supply T => exact .lift (.supply T) hc

omit hc in
lemma process_renews (hc : Held claimTimeout c) (chrono : Serde DateTime) (turns : ℕ)
    {handler : MethodHandler (Result Json)} (hhandler : handler.Calls (HeartbeatsWithin durations)) :
    Renews durations (fun _ => True) none (MethodHandler.process chrono turns handler c) := by
  induction handler generalizing c with
  | done result => exact ⟨rfl, trivial⟩
  | call m next ih =>
    apply Renews.bind (method_renews hc hdurations chrono turns hhandler.1)
    intro r hr
    exact ih r.1 hr (hhandler.2 r.1)

end Context

lemma taskContext_renews {durations : Duration → Prop} {claimTimeout : Duration}
    (queueName : String) (task : ClaimedTask) :
    Renews durations (fun r => ∀ c, r = .ok c → Held claimTimeout c) none
      (TaskContext.new queueName task claimTimeout true).run := by
  have hquery : AsyncRenews durations
      (Async.query (.getTaskCheckpointStates queueName task.taskId task.runId)) :=
    .query fun r => by cases r <;> rfl
  apply Renews.bind hquery
  rintro (err | rows) -
  · exact ⟨rfl, by simp⟩
  · dsimp only
    split
    · refine ⟨rfl, ?_⟩
      rintro c ⟨⟩
      exact ⟨rfl, rfl, rfl⟩
    · refine ⟨rfl, ?_⟩
      rintro c ⟨⟩
      exact ⟨rfl, rfl, rfl⟩
    · refine ⟨rfl, ?_⟩
      rintro c ⟨⟩
      exact ⟨rfl, rfl, rfl⟩
    · exact ⟨rfl, by simp⟩

end AbsurdSdk.Execution
