import AbsurdSdk.Execution.Reports
import AbsurdSdk.Execution.Watchdog
import AbsurdSdk.Model.Methods

namespace AbsurdSdk.Execution

open Interaction Model

def lostRace {α : Type} : Except PgError α → Prop
  | .ok _ => False
  | .error err => (mapDatabaseError err).isTerminalStateRace = true

def Raced : (call : Call) → Answer call → Prop
  | .query _, r => lostRace r
  | _, _ => False

def Lost {α : Type} (r : Result α) : Prop := ∃ err, r = .error err ∧ err.isTerminalStateRace = true

/-- After a lost race the program is done, with a result that tells of it. -/
def Relays {α : Type} (tells : α → Prop) : Process α → Prop
  | .done _ => True
  | .call e next => ∀ r, (Raced e r → ∃ a, next r = .done a ∧ tells a) ∧ Relays tells (next r)

section Methods

variable {α β : Type}

lemma Relays.bind {p : Process α} {f : α → Process β} {tells : α → Prop} {tells' : β → Prop}
    (hp : Relays tells p) (hdone : ∀ a, tells a → ∃ b, f a = .done b ∧ tells' b)
    (hf : ∀ a, Relays tells' (f a)) : Relays tells' (p.bind f) := by
  induction p with
  | done a => exact hf a
  | call e next ih =>
    intro r
    obtain ⟨hrace, hnext⟩ := hp r
    refine ⟨?_, ih r hnext⟩
    intro hr
    obtain ⟨a, ha, htells⟩ := hrace hr
    simp only [ha, Program.done_bind]
    exact hdone a htells

abbrev AsyncRelays (x : Async α) : Prop := Relays Lost x.run

namespace AsyncRelays

lemma bind {x : Async α} {f : α → Async β} (hx : AsyncRelays x) (hf : ∀ a, AsyncRelays (f a)) :
    AsyncRelays (x >>= f) := by
  apply Relays.bind hx
  · rintro r ⟨err, rfl, hrace⟩
    exact ⟨_, rfl, err, rfl, hrace⟩
  · intro r
    cases r with
    | error err => exact trivial
    | ok a => exact hf a

lemma ofResult (r : Result α) : AsyncRelays (Async.ofResult r) := trivial

lemma pure (a : α) : AsyncRelays (pure a : Async α) := trivial

lemma throw (err : Error) : AsyncRelays (Async.throw err : Async α) := trivial

lemma panic (text : String) : AsyncRelays (Async.panic text : Async α) := fun r => r.elim

lemma hang : AsyncRelays (Async.hang : Async α) := fun r => r.elim

lemma now : AsyncRelays Async.now := fun _ => ⟨False.elim, trivial⟩

lemma sleep (d : Duration) : AsyncRelays (Async.sleep d) := fun _ => ⟨False.elim, trivial⟩

lemma sendLease (d : Duration) : AsyncRelays (Async.sendLease d) := fun _ => ⟨False.elim, trivial⟩

lemma closure (T : Type) : AsyncRelays (Async.closure T) := by
  intro r
  refine ⟨False.elim, ?_⟩
  cases r with
  | error text => exact panic text
  | ok r => exact trivial

lemma supply (T : Type) : AsyncRelays (Async.supply T) := by
  intro r
  refine ⟨False.elim, ?_⟩
  cases r with
  | error text => exact panic text
  | ok v => exact trivial

lemma query (statement : Statement α) : AsyncRelays (Async.query statement) := by
  apply bind
  · exact fun _ => ⟨False.elim, trivial⟩
  · intro _ r
    refine ⟨?_, trivial⟩
    intro hr
    cases r with
    | ok a => exact hr.elim
    | error err => exact ⟨_, rfl, _, rfl, hr⟩

end AsyncRelays

lemma Relays.context_bind {m : ContextM α} {f : α → ContextM β} {c : TaskContext}
    (hm : Relays (fun r => Lost r.1) (m.run c))
    (hf : ∀ a d, Relays (fun r => Lost r.1) ((f a).run d)) :
    Relays (fun r => Lost r.1) ((m >>= f).run c) := by
  apply Relays.bind hm
  · rintro ⟨r, d⟩ ⟨err, rfl, hrace⟩
    exact ⟨_, rfl, err, rfl, hrace⟩
  · rintro ⟨err | a, d⟩
    · exact trivial
    · exact hf a d

lemma Relays.lift_bind {x : Async α} {f : α → ContextM β} {c : TaskContext} (hx : AsyncRelays x)
    (hf : ∀ a, Relays (fun r => Lost r.1) ((f a).run c)) :
    Relays (fun r => Lost r.1) ((liftM x >>= f).run c) := by
  change Relays _ ((x.run.bind _).bind _)
  rw [Program.bind_assoc]
  apply Relays.bind hx
  · rintro r ⟨err, rfl, hrace⟩
    exact ⟨_, rfl, err, rfl, hrace⟩
  · intro r
    cases r with
    | error err => exact trivial
    | ok a => exact hf a

abbrev ContextRelays (m : ContextM α) : Prop :=
  ∀ c, Relays (fun r : Result α × TaskContext => Lost r.1) (m.run c)

namespace ContextRelays

lemma bind {m : ContextM α} {f : α → ContextM β} (hm : ContextRelays m)
    (hf : ∀ a, ContextRelays (f a)) : ContextRelays (m >>= f) :=
  fun c => (hm c).context_bind hf

lemma lift {x : Async α} (hx : AsyncRelays x) : ContextRelays (liftM x) :=
  fun _ => Relays.bind hx (fun _ hr => ⟨_, rfl, hr⟩) fun _ => trivial

lemma pure (a : α) : ContextRelays (pure a : ContextM α) := fun _ => trivial

lemma modify (f : TaskContext → TaskContext) : ContextRelays (ContextM.modify f) := fun _ => trivial

lemma context : ContextRelays ContextM.context := fun _ => trivial

end ContextRelays

open ContextRelays

lemma nextCheckpointName_relays (name : String) :
    ContextRelays (TaskContext.nextCheckpointName name) := by
  apply bind context
  intro c
  apply bind (modify _)
  intro _
  split
  · exact pure _
  · exact pure _

lemma notifyLeaseExtended_relays (d : Duration) :
    ContextRelays (TaskContext.notifyLeaseExtended d) := by
  apply bind context
  intro c
  split
  · exact lift (.sendLease d)
  · exact pure ()

lemma lookupCheckpoint_relays (name : String) : ContextRelays (TaskContext.lookupCheckpoint name) := by
  apply bind context
  intro c
  split
  · exact pure _
  · apply bind (lift (.query _))
    intro row
    cases row with
    | none => exact pure _
    | some value => exact bind (modify _) fun _ => pure _

lemma persistCheckpoint_relays (name : String) (value : Json) :
    ContextRelays (TaskContext.persistCheckpoint name value) := by
  apply bind context
  intro c
  apply bind (lift (.query _))
  intro _
  exact bind (modify _) fun _ => notifyLeaseExtended_relays _

def relaying : Discipline where
  async x := AsyncRelays x
  context m c := Relays (fun r => Lost r.1) (m.run c)
  sound _ := True
  slots _ := True
  takes _ _ := True
  futures := ⟨.bind, .ofResult, .now, .sleep, .hang⟩
  panic := .panic
  closure := .closure
  passive statement _ := .query statement
  awaitEvent _ _ _ _ _ _ := .query _
  beat := by
    intro c _ next
    apply AsyncRelays.bind (.query _)
    intro _
    split
    · exact .bind (.sendLease _) fun _ => .pure _
    · exact .pure _
  pure _ _ _ := trivial
  throw _ _ _ := trivial
  bind hm hf := hm.context_bind fun a d => hf a d trivial
  lift_bind _ hx hf := .lift_bind hx hf
  context_bind := id
  next_bind _ _ hf := (nextCheckpointName_relays _ _).context_bind fun slot d => hf slot d trivial trivial
  lookup _ _ := lookupCheckpoint_relays _ _
  persist _ _ value := persistCheckpoint_relays _ value _
  cache _ _ _ := trivial
  timeOut _ _ := trivial
  forget _ _ := trivial

lemma heartbeatFor_relays (d : Duration) : ContextRelays (TaskContext.heartbeatFor d) := by
  apply bind context
  intro c
  exact bind (lift (.query _)) fun _ => notifyLeaseExtended_relays d

lemma method_relays (chrono : Serde DateTime) (turns : ℕ) (m : Method) :
    ContextRelays (m.run chrono turns) := by
  cases m with
  | step serde name => exact fun _ => relaying.step serde trivial trivial
  | beginStep serde name => exact fun _ => relaying.beginStep serde trivial trivial
  | completeStep serde handle value =>
    exact fun _ => relaying.completeStep serde value trivial trivial
  | sleepFor name duration => exact fun _ => relaying.sleepFor chrono duration trivial trivial
  | sleepUntil name wakeAt => exact fun _ => relaying.sleepUntil chrono wakeAt trivial trivial
  | awaitEvent serde eventName options =>
    exact fun _ => relaying.awaitEventWithOptions serde trivial trivial
  | awaitTaskResult taskId options => exact fun _ => relaying.awaitTaskResult turns trivial trivial
  | emitEvent serde eventName payload =>
    exact fun _ => relaying.emitEvent serde eventName payload trivial
  | heartbeat => exact bind context fun c => heartbeatFor_relays c.claimTimeout
  | heartbeatFor duration => exact heartbeatFor_relays duration
  | supply T => exact lift (.supply T)

end Methods

def Propagates : MethodHandler (Result Json) → Prop
  | .done _ => True
  | .call _ next => (∀ err, next (.error err) = .done (.error err)) ∧ ∀ r, Propagates (next r)

lemma handler_relays (chrono : Serde DateTime) (turns : ℕ) {handler : MethodHandler (Result Json)}
    (h : Propagates handler) (c : TaskContext) :
    Relays Lost (handler.process chrono turns c) := by
  induction handler generalizing c with
  | done result => exact trivial
  | call m next ih =>
    apply Relays.bind (method_relays chrono turns m c)
    · rintro ⟨r, d⟩ ⟨err, rfl, hrace⟩
      refine ⟨.error err, ?_, err, rfl, hrace⟩
      rw [h.1]
      rfl
    · exact fun r => ih r.1 (h.2 r.1) r.2

lemma taskContext_relays (queueName : String) (task : ClaimedTask) (claimTimeout : Duration)
    (leaseTx : Bool) : AsyncRelays (TaskContext.new queueName task claimTimeout leaseTx) := by
  apply AsyncRelays.bind (.query _)
  intro rows
  dsimp only
  split
  · exact .pure _
  · exact .pure _
  · exact .pure _
  · exact .throw _

def RaceReply : (Σ call : ExecutorCall, ExecutorAnswer call) → Prop
  | ⟨.context call, r⟩ => Raced call r
  | ⟨.settle _, r⟩ => lostRace r
  | _ => False

def Idle : ExecutorCall → Prop
  | .abortWatchdog | .onError _ _ => True
  | _ => False

def Winds {α : Type} (post : α → Prop) : Execute α → Prop
  | .done a => post a
  | .call e next => Idle e ∧ ∀ r, Returns e r → Winds post (next r)

/-- After a lost race the program only winds down; without one it ends in such a result. -/
def Absorbs {α : Type} (post ends : α → Prop) : Execute α → Prop
  | .done a => ends a
  | .call e next => ∀ r, Returns e r →
      (RaceReply ⟨e, r⟩ → Winds post (next r)) ∧ Absorbs post ends (next r)

section Absorbs

variable {α β : Type} {post ends : α → Prop} {post' ends' : β → Prop} {p : Execute α}

lemma Winds.bind {f : α → Execute β} (hp : Winds post p) (hf : ∀ a, post a → Winds post' (f a)) :
    Winds post' (p.bind f) := by
  induction p with
  | done a => exact hf a hp
  | call e next ih => exact ⟨hp.1, fun r hr => ih r (hp.2 r hr)⟩

lemma Winds.caught (hp : Winds post p) :
    Winds (fun x => ∃ a, x = .ok a ∧ post a) (p.caught joinError) := by
  induction p with
  | done a => exact ⟨a, rfl, hp⟩
  | call e next ih =>
    obtain ⟨hidle, hnext⟩ := hp
    have hnone : joinError e = none := by
      cases e with
      | abortWatchdog | onError => rfl
      | _ => exact hidle.elim
    rw [Program.caught_call, hnone]
    exact ⟨hidle, fun r hr => ih r (hnext r hr)⟩

lemma Absorbs.bind {f : α → Execute β} (hp : Absorbs post ends p)
    (hwinds : ∀ a, post a → Winds post' (f a)) (hf : ∀ a, ends a → Absorbs post' ends' (f a)) :
    Absorbs post' ends' (p.bind f) := by
  induction p with
  | done a => exact hf a hp
  | call e next ih =>
    intro r hr
    obtain ⟨hrace, hnext⟩ := hp r hr
    exact ⟨fun h => (hrace h).bind hwinds, ih r hnext⟩

lemma Absorbs.caught (hp : Absorbs post ends p) :
    Absorbs (fun x => ∃ a, x = .ok a ∧ post a) (fun x => ∀ a, x = .ok a → ends a)
      (p.caught joinError) := by
  induction p with
  | done a =>
    intro b hb
    cases hb
    exact hp
  | call e next ih =>
    rw [Program.caught_call]
    cases joinError e with
    | some x => exact fun a ha => nomatch ha
    | none =>
      intro r hr
      obtain ⟨hrace, hnext⟩ := hp r hr
      exact ⟨fun h => (hrace h).caught, ih r hnext⟩

lemma absorbs_context {p : Process α} (h : Relays post p) :
    Absorbs post (fun _ => True) (Execute.context p) := by
  induction p with
  | done a => exact trivial
  | call e next ih =>
    intro r _
    obtain ⟨hrace, hnext⟩ := h r
    refine ⟨?_, ih r hnext⟩
    intro hr
    obtain ⟨a, ha, hpost⟩ := hrace hr
    simp only [ha]
    exact hpost

lemma absorbs_settle (s : Settlement) : Absorbs Lost (fun _ => True) (settle s) := by
  intro r _
  refine ⟨False.elim, ?_⟩
  cases r with
  | error err => exact trivial
  | ok =>
    intro r _
    refine ⟨?_, trivial⟩
    intro hr
    cases r with
    | ok => exact hr.elim
    | error err => exact ⟨_, rfl, hr⟩

lemma winds_report (onError : Bool) (err : Error) :
    Winds (fun _ => True) (reportExecutionError onError err) := by
  cases onError with
  | false => exact trivial
  | true =>
    refine ⟨trivial, ?_⟩
    rintro r rfl
    exact trivial

lemma absorbs_report (onError : Bool) (err : Error) :
    Absorbs (fun _ => False) (fun _ => True) (reportExecutionError onError err) := by
  cases onError with
  | false => exact trivial
  | true =>
    rintro r rfl
    exact ⟨False.elim, trivial⟩

lemma absorbRace_lost {r : Result Unit} (h : Lost r) : absorbRace r = .ok () := by
  obtain ⟨err, rfl, hrace⟩ := h
  rw [absorbRace, if_pos hrace]

lemma absorbs_settlement (s : Settlement) :
    Absorbs (· = .ok ()) (fun _ => True) ((settle s).bind fun r => .done (absorbRace r)) :=
  (absorbs_settle s).bind (fun _ hr => absorbRace_lost hr) fun _ _ => trivial

end Absorbs

section Execution

variable {workerQueue : String} {registry : Registry} {task : ClaimedTask}
  {config : TaskExecutionConfig}

lemma absorbs_failure (payload : Json) (err : Error) :
    Absorbs (· = .ok ()) (fun _ => True)
      ((failRunPayload workerQueue task.runId payload).bind fun result =>
        (reportExecutionError config.onError err).bind fun _ => .done result) := by
  rw [failRunPayload_eq]
  apply (absorbs_settlement _).bind
  · rintro _ rfl
    exact (winds_report config.onError err).bind fun _ _ => rfl
  · intro result _
    exact (absorbs_report config.onError err).bind (fun _ h => h.elim) fun _ _ => trivial

def RaceOutcome (o : Outcome) : Prop :=
  ∃ err, o = .executed (.error err) ∧ err.isTerminalStateRace = true

lemma outcome_absorbs
    (hhandler : ∀ registration c, registry task.taskName = some registration →
      Relays Lost (runHandler registration.handler task.params c config.hooks)) :
    Absorbs RaceOutcome (fun o => o = .unregistered → registry task.taskName = none)
      (outcome workerQueue registry task config) := by
  simp only [outcome]
  cases hr : registry task.taskName with
  | none => exact fun _ => rfl
  | some registration =>
    by_cases hq : registration.queueName ≠ workerQueue
    · simp only [if_pos hq]
      intro he
      cases he
    · simp only [if_neg hq]
      have habort : ∀ result : Result Json, Absorbs RaceOutcome
          (fun o => o = .unregistered → some registration = none)
          (abortWatchdog.bind fun _ => .done (.executed result)) := by
        intro result _ _
        refine ⟨False.elim, ?_⟩
        intro he
        cases he
      have hwinds : ∀ result : Result Json, Lost result →
          Winds RaceOutcome (abortWatchdog.bind fun _ => .done (.executed result)) := by
        rintro _ ⟨err, rfl, hrace⟩
        exact ⟨trivial, fun _ _ => ⟨err, rfl, hrace⟩⟩
      intro _ _
      refine ⟨False.elim, ?_⟩
      apply (absorbs_context (taskContext_relays _ _ _ _)).bind
      · rintro _ ⟨err, rfl, hrace⟩
        exact hwinds _ ⟨err, rfl, hrace⟩
      · intro ctx _
        cases ctx with
        | error err => exact habort _
        | ok c =>
          exact (absorbs_context (hhandler registration c hr)).bind hwinds fun result _ => habort _

lemma settleOutcome_absorbs {o : Outcome}
    (ho : ¬ (o = .unregistered ∧ config.unknownTaskPolicy = .defer)) :
    Absorbs (· = .ok ()) (fun _ => True) (settleOutcome workerQueue task config o) := by
  cases o with
  | unregistered =>
    simp only [settleOutcome, handleUnknownTask]
    cases hp : config.unknownTaskPolicy with
    | defer => exact absurd ⟨rfl, hp⟩ ho
    | fail =>
      simp only [failRunPayload_eq]
      exact absorbs_settlement _
  | queueMismatch err =>
    simp only [settleOutcome, failRunError, failRunPayload_eq]
    exact absorbs_settlement _
  | executed result =>
    cases result with
    | ok value =>
      simp only [settleOutcome, completeRun_eq]
      exact absorbs_settlement _
    | error err =>
      simp only [settleOutcome]
      split
      · exact trivial
      · exact absorbs_failure _ err

lemma afterJoin_absorbs (ending : Except JoinError (Result Unit)) :
    Absorbs (· = .ok ()) (fun _ => True) (afterJoin workerQueue task config ending) := by
  rcases ending with (message | _) | result
  · exact absorbs_failure _ _
  · exact trivial
  · exact trivial

lemma afterOutcome_absorbs {ending : Except JoinError Outcome}
    (ho : ¬ (ending = .ok .unregistered ∧ config.unknownTaskPolicy = .defer)) :
    Absorbs (· = .ok ()) (fun _ => True) (afterOutcome workerQueue task config ending) := by
  cases ending with
  | error err => exact afterJoin_absorbs (.error err)
  | ok o =>
    have hsettle : Absorbs (· = .ok ()) (fun _ => True) (settleOutcome workerQueue task config o) := by
      apply settleOutcome_absorbs
      rintro ⟨rfl, hp⟩
      exact ho ⟨rfl, hp⟩
    apply hsettle.caught.bind
    · rintro _ ⟨_, rfl, rfl⟩
      exact rfl
    · exact fun joined _ => afterJoin_absorbs joined

lemma execution_absorbs
    (hhandler : ∀ registration c, registry task.taskName = some registration →
      Relays Lost (runHandler registration.handler task.params c config.hooks))
    (hknown : ¬ (registry task.taskName = none ∧ config.unknownTaskPolicy = .defer)) :
    Absorbs (· = .ok ()) (fun _ => True)
      (executeClaimedCatching workerQueue (some registry) task config) := by
  rw [executeClaimedCatching_eq]
  apply (outcome_absorbs hhandler).caught.bind
  · rintro _ ⟨_, rfl, err, rfl, hrace⟩
    have hflow : err.isControlFlow = true := by
      cases err with
      | cancelled | alreadyFailed => rfl
      | _ => cases hrace
    simp only [afterOutcome, settleOutcome, hflow, if_true]
    exact rfl
  · intro ending hending
    apply afterOutcome_absorbs
    rintro ⟨rfl, hp⟩
    exact hknown ⟨hending _ rfl rfl, hp⟩

def ReportsNoRace (e : ExecutorCall) : Prop :=
  ∀ kind err, e = .onError kind err → err.isTerminalStateRace = false

lemma settle_reportsNoRace (s : Settlement) (f : Result Unit → Result Unit) :
    ((settle s).bind fun r => .done (f r)).Calls ReportsNoRace := by
  refine ⟨nofun, fun r => ?_⟩
  cases r with
  | error err => exact trivial
  | ok => exact ⟨nofun, fun _ => trivial⟩

lemma report_reportsNoRace {err : Error} (h : err.isTerminalStateRace = false) :
    (reportExecutionError config.onError err).Calls ReportsNoRace := by
  cases config.onError with
  | false => exact trivial
  | true =>
    refine ⟨?_, ?_⟩
    · rintro _ _ ⟨⟩
      exact h
    · intro r
      cases r with
      | ok => exact trivial
      | error text => exact ⟨nofun, fun r => r.elim⟩

lemma failure_reportsNoRace (payload : Json) {err : Error} (h : err.isTerminalStateRace = false) :
    ((failRunPayload workerQueue task.runId payload).bind fun result =>
      (reportExecutionError config.onError err).bind fun _ => .done result).Calls ReportsNoRace := by
  rw [failRunPayload_eq]
  exact (settle_reportsNoRace _ _).bind fun _ => (report_reportsNoRace h).bind fun _ => trivial

lemma afterJoin_reportsNoRace (ending : Except JoinError (Result Unit)) :
    (afterJoin workerQueue task config ending).Calls ReportsNoRace := by
  rcases ending with (message | _) | result
  · exact failure_reportsNoRace _ rfl
  · exact trivial
  · exact trivial

lemma settleOutcome_reportsNoRace (o : Outcome) :
    (settleOutcome workerQueue task config o).Calls ReportsNoRace := by
  cases o with
  | unregistered =>
    simp only [settleOutcome, handleUnknownTask]
    cases config.unknownTaskPolicy with
    | defer => exact Program.bind_done (settle _) ▸ settle_reportsNoRace _ id
    | fail =>
      simp only [failRunPayload_eq]
      exact settle_reportsNoRace _ _
  | queueMismatch err =>
    simp only [settleOutcome, failRunError, failRunPayload_eq]
    exact settle_reportsNoRace _ _
  | executed result =>
    cases result with
    | ok value =>
      simp only [settleOutcome, completeRun_eq]
      exact settle_reportsNoRace _ _
    | error err =>
      simp only [settleOutcome]
      split
      · exact trivial
      · apply failure_reportsNoRace
        cases err with
        | cancelled | alreadyFailed => contradiction
        | _ => rfl

lemma execution_reportsNoRace :
    (executeClaimedCatching workerQueue (some registry) task config).Calls ReportsNoRace := by
  rw [executeClaimedCatching_eq]
  apply ((outcome_calls (fun _ => nofun) (fun _ _ _ => nofun) nofun workerQueue registry task
    config).caught joinError).bind
  intro ending
  cases ending with
  | error err => exact afterJoin_reportsNoRace (.error err)
  | ok o => exact ((settleOutcome_reportsNoRace o).caught joinError).bind afterJoin_reportsNoRace

end Execution

section Runs

variable {p q : Execute (Result Unit)} {post ends : Result Unit → Prop} {log log' : Log}

lemma Winds.run (hp : Winds post p) (h : Run replies p log q log') :
    Winds post q ∧ ∃ newer, log' = newer ++ log ∧ ∀ e ∈ newer, Idle e.1 := by
  induction h with
  | refl => exact ⟨hp, [], rfl, fun e he => nomatch he⟩
  | @step e next r log log₁ log₂ q he _ ih =>
    obtain ⟨hr, rfl⟩ := he
    obtain ⟨hq, newer, rfl, hidle⟩ := ih (hp.2 r hr)
    refine ⟨hq, newer ++ [⟨e, r⟩], by simp, ?_⟩
    intro x hx
    rcases List.mem_append.mp hx with hx | hx
    · exact hidle x hx
    · obtain rfl := List.mem_singleton.mp hx
      exact hp.1

lemma Absorbs.run (hp : Absorbs post ends p) (h : Run replies p log q log') :
    ∃ newer, log' = newer ++ log ∧ ∀ after e before, newer = after ++ e :: before → RaceReply e →
      Winds post q ∧ ∀ x ∈ after, Idle x.1 := by
  induction h with
  | refl =>
    refine ⟨[], rfl, ?_⟩
    intro after e before hnil
    simp at hnil
  | @step e next r log log₁ log₂ q he hrun ih =>
    obtain ⟨hr, rfl⟩ := he
    obtain ⟨hrace, hnext⟩ := hp r hr
    obtain ⟨newer, rfl, hall⟩ := ih hnext
    refine ⟨newer ++ [⟨e, r⟩], by simp, ?_⟩
    intro after x before hsplit hx
    rcases before.eq_nil_or_concat with rfl | ⟨before, last, rfl⟩
    · obtain ⟨rfl, hlast⟩ := List.append_inj' hsplit rfl
      obtain rfl := List.singleton_inj.mp hlast
      obtain ⟨hq, newer', heq, hidle⟩ := (hrace hx).run hrun
      rw [List.append_cancel_right heq]
      exact ⟨hq, hidle⟩
    · have hsplit' : newer ++ [⟨e, r⟩] = (after ++ x :: before) ++ [last] := by
        simpa using hsplit
      obtain ⟨rfl, -⟩ := List.append_inj' hsplit' rfl
      exact hall after x before rfl hx

lemma reports_of_calls {P : WorkerErrorKind → Error → Prop}
    (hp : p.Calls fun e => ∀ kind err, e = .onError kind err → P kind err)
    (h : Run replies p log q log') (hlog : ∀ report ∈ reports log, P report.1 report.2) :
    ∀ report ∈ reports log', P report.1 report.2 := by
  have hsafe : Safe replies (fun log => ∀ report ∈ reports log, P report.1 report.2)
      (fun _ _ => True) p log := by
    apply Safe.of_calls hp hlog
    rintro log e r log' he hlog ⟨-, rfl⟩
    intro report hreport
    cases e with
    | onError kind err =>
      rcases List.mem_cons.mp hreport with rfl | hold
      · exact he kind err rfl
      · exact hlog report hold
    | _ => exact hlog report hreport
  exact hsafe.cut h

lemma idle_settles_nothing {log : Log} (h : ∀ e ∈ log, Idle e.1) :
    attempts log = [] ∧ statements log = [] := by
  constructor
  · apply List.filterMap_eq_nil_iff.mpr
    rintro ⟨e, r⟩ he
    have hidle := h _ he
    cases e with
    | abortWatchdog | onError => rfl
    | _ => exact hidle.elim
  · apply List.filterMap_eq_nil_iff.mpr
    rintro ⟨e, r⟩ he
    have hidle := h _ he
    cases e with
    | abortWatchdog | onError => rfl
    | _ => exact hidle.elim

end Runs

structure Absorbed (q : Execute (Result Unit)) (after log : Log) : Prop where
  returns : Winds (· = .ok ()) q
  settles : attempts after = [] ∧ statements after = []
  reports : ∀ report ∈ reports log, report.2.isTerminalStateRace = false
  joined : ∀ result, q = .done result → joinedReport (.ok result) = none

lemma deferral_raced {workerQueue : String} {registry : Registry} {task : ClaimedTask}
    {config : TaskExecutionConfig} (hnone : registry task.taskName = none)
    (hdefer : config.unknownTaskPolicy = .defer) :
    ∃ result log, Run replies (executeClaimedCatching workerQueue (some registry) task config) []
        (.done result) log ∧
      result = .error .cancelled ∧ ∃ e before, log = e :: before ∧ RaceReply e := by
  have hexecute : executeClaimed workerQueue (some registry) task config =
      settle (.scheduleRunIn workerQueue task.runId (unknownTaskDeferDelay task.runId)) := by
    simp only [executeClaimed, hnone, handleUnknownTask, hdefer]
  have hreach : Reaches replies
      (fun result log => result = .error .cancelled ∧ ∃ e before, log = e :: before ∧ RaceReply e)
      (executeClaimedCatching workerQueue (some registry) task config) [] := by
    simp only [executeClaimedCatching, hexecute]
    exact ⟨Except.ok (), _, ⟨trivial, rfl⟩, Except.error ⟨some "AB001", "cancelled"⟩, _,
      ⟨trivial, rfl⟩, rfl, _, _, rfl, rfl⟩
  exact hreach.exists_run

/-- Whatever call of an execution with a propagating handler loses a race, the execution settles
nothing from then on, returns `Ok` and never reports the race, exactly if the task is registered or
the worker fails tasks it does not know. -/
theorem races_absorbed_iff {workerQueue : String} {registry : Registry} {task : ClaimedTask}
    {config : TaskExecutionConfig} {chrono : Serde DateTime}
    (hhandler : ∀ registration c, registry task.taskName = some registration →
      ∃ turns, ∃ handler : MethodHandler (Result Json), Propagates handler ∧
        runHandler registration.handler task.params c config.hooks =
          handler.process chrono turns c) :
    (∀ q log, Run replies (executeClaimedCatching workerQueue (some registry) task config) [] q log →
      ∀ after e before, log = after ++ e :: before → RaceReply e → Absorbed q after log) ↔
    ¬ (registry task.taskName = none ∧ config.unknownTaskPolicy = .defer) := by
  constructor
  · rintro hall ⟨hnone, hdefer⟩
    obtain ⟨result, log, hrun, rfl, e, before, hlog, hrace⟩ := deferral_raced hnone hdefer
    cases (hall _ log hrun [] e before hlog hrace).returns
  · intro hknown q log hrun after e before hlog hrace
    have hrelays : ∀ registration c, registry task.taskName = some registration →
        Relays Lost (runHandler registration.handler task.params c config.hooks) := by
      intro registration c hr
      obtain ⟨turns, handler, hpropagates, heq⟩ := hhandler registration c hr
      rw [heq]
      exact handler_relays chrono turns hpropagates c
    obtain ⟨newer, hnewer, hall⟩ := (execution_absorbs hrelays hknown).run hrun
    rw [List.append_nil] at hnewer
    subst hnewer
    obtain ⟨hwinds, hidle⟩ := hall after e before hlog hrace
    refine ⟨hwinds, idle_settles_nothing hidle, ?_, ?_⟩
    · exact reports_of_calls (P := fun _ err => err.isTerminalStateRace = false)
        execution_reportsNoRace hrun (fun report hr => nomatch hr)
    · rintro result rfl
      rw [show result = .ok () from hwinds]
      rfl

section Sample

def heartbeatHandler : MethodHandler (Result Json) :=
  .call .heartbeat fun
    | .ok () => .done (.ok .null)
    | .error err => .done (.error err)

def heartbeatRegistry : Registry := fun _ =>
  some ⟨"default", fun _ c => heartbeatHandler.process dateless 0 c⟩

theorem races_absorbed_heartbeat : ∃ log after,
    Run replies (executeClaimedCatching "default" (some heartbeatRegistry) sampleTask sampleConfig)
      [] (.done (.ok ())) log ∧ (∃ e before, log = after ++ e :: before ∧ RaceReply e) ∧
    Absorbed (.done (.ok ())) after log := by
  have hreach : Reaches replies (fun result log => result = .ok () ∧
        ∃ e before, log = [⟨.abortWatchdog, ()⟩] ++ e :: before ∧ RaceReply e)
      (executeClaimedCatching "default" (some heartbeatRegistry) sampleTask sampleConfig) [] :=
    ⟨(), _, ⟨trivial, rfl⟩, Except.ok (), _, ⟨trivial, rfl⟩, Except.ok [], _, ⟨trivial, rfl⟩,
      Except.ok (), _, ⟨trivial, rfl⟩, Except.error ⟨some "AB001", "cancelled"⟩, _, ⟨trivial, rfl⟩,
      (), _, ⟨trivial, rfl⟩, rfl, _, _, rfl, rfl⟩
  obtain ⟨_, log, hrun, rfl, e, before, hlog, hrace⟩ := hreach.exists_run
  refine ⟨log, _, hrun, ⟨e, before, hlog, hrace⟩, ?_⟩
  have habsorbed := @races_absorbed_iff "default" heartbeatRegistry sampleTask sampleConfig dateless
    (by
      rintro registration c ⟨⟩
      refine ⟨0, heartbeatHandler, ⟨fun _ => rfl, ?_⟩, rfl⟩
      rintro (err | _)
      · exact trivial
      · exact trivial)
  exact habsorbed.mpr (fun h => nomatch h.1) _ log hrun _ e before hlog hrace

theorem deferral_race_unabsorbed : ¬ ∀ q log,
    Run replies (executeClaimedCatching "default" (some fun _ => none) sampleTask sampleConfig)
      [] q log → ∀ after e before, log = after ++ e :: before → RaceReply e → Absorbed q after log := by
  intro hall
  obtain ⟨result, log, hrun, rfl, e, before, hlog, hrace⟩ :=
    @deferral_raced "default" (fun _ => none) sampleTask sampleConfig rfl rfl
  cases (hall _ log hrun [] e before hlog hrace).returns

end Sample

end AbsurdSdk.Execution
