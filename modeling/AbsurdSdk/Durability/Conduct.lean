import AbsurdSdk.Durability.Operations
import AbsurdSdk.Model.Discipline
import AbsurdSdk.Model.Methods

namespace AbsurdSdk.Durability

open Interaction Model

def Unpersisting : Call → Prop
  | .query (.setTaskCheckpointState _ _ _ _ _ _) => False
  | _ => True

def cached (c : TaskContext) (name : String) (value : Json) : TaskContext :=
  withCache c (Function.update c.checkpointCache name (some value))

inductive Gives (name : String) (value : Json) : (call : Call) → Answer call → Prop
  | found (queue : String) (taskId : Uuid) :
      Gives name value (.query (.getTaskCheckpointState queue taskId name)) (.ok (some value))
  | kept (queue : String) (taskId runId : Uuid) (seconds : ℕ) :
      Gives name value (.query (.setTaskCheckpointState queue taskId name value runId seconds)) (.ok ())
  | received (queue : String) (taskId runId : Uuid) (event : String) (timeout : Option ℕ)
      {payload : Option Json} (h : payload.getD .null = value) :
      Gives name value (.query (.awaitEvent queue taskId runId name event timeout)) (.ok (false, payload))

/-- What a method may make of its context, and the calls it may make in it, as long as the answers
to them are granted. -/
structure Conduct where
  rel : TaskContext → TaskContext → Prop
  may : TaskContext → Call → Prop
  grants : (call : Call) → Answer call → Prop
  refl : ∀ c, rel c c
  trans : ∀ {c d e}, rel c d → rel d e → rel c e
  back : ∀ {c d call}, rel c d → may d call → may c call
  unpersisting : ∀ c {call}, Unpersisting call → may c call
  fills : ∀ {c name value call r}, c.checkpointCache name = none → Gives name value call r →
    grants call r → rel c (cached c name value)
  persists : ∀ {c name} value, c.checkpointCache name = none → ∀ queue taskId runId seconds,
    may c (.query (.setTaskCheckpointState queue taskId name value runId seconds))

def Conduct.Counts (D : Conduct) : Prop := ∀ c name, D.rel c (advance c name)

def Conduct.Times (D : Conduct) : Prop :=
  ∀ c task reported, D.rel c { c with task := task, reportedTimeouts := reported }

def Obeys {α : Type} (D : Conduct) (m : ContextM α) (c : TaskContext) : Prop :=
  (m.run c).Yields D.grants (D.may c) fun r => D.rel c r.2

section Rules

variable {D : Conduct} {α β : Type} {c d : TaskContext}

lemma Obeys.after {m : ContextM α} (h : Obeys D m d) (hd : D.rel c d) :
    (m.run d).Yields D.grants (D.may c) fun r => D.rel c r.2 :=
  Program.Yields.mono h (fun _ => D.back hd) fun _ => D.trans hd

namespace Obeys

lemma bind {m : ContextM α} {f : α → ContextM β} (hm : Obeys D m c)
    (hf : ∀ a d, Obeys D (f a) d) : Obeys D (m >>= f) c := by
  apply Program.Yields.bind hm
  rintro ⟨err | a, d⟩ hd
  · exact hd
  · exact (hf a d).after hd

lemma pure (a : α) : Obeys D (pure a : ContextM α) c := D.refl c

lemma throw (err : Error) : Obeys D (ContextM.throw err : ContextM α) c := D.refl c

lemma lift {x : Async α} (hx : x.run.Calls Unpersisting) : Obeys D (liftM x) c := by
  apply Program.Yields.bind (hx.yields.mono (fun _ => D.unpersisting c) fun _ => id)
  exact fun _ _ => D.refl c

lemma lift_bind {x : Async α} {f : α → ContextM β} (hx : x.run.Calls Unpersisting)
    (hf : ∀ a, Obeys D (f a) c) : Obeys D (liftM x >>= f) c := by
  change Program.Yields _ _ _ ((x.run.bind _).bind _)
  rw [Program.bind_assoc]
  apply Program.Yields.bind (hx.yields.mono (fun _ => D.unpersisting c) fun _ => id)
  rintro (err | a) -
  · exact D.refl c
  · exact hf a

lemma query_bind {statement : Statement α} {f : α → ContextM β}
    (hs : Unpersisting (.query statement))
    (hf : ∀ a, D.grants (.query statement) (.ok a) → Obeys D (f a) c) :
    Obeys D (liftM (Async.query statement) >>= f) c := by
  refine ⟨D.unpersisting c trivial, fun r _ => ?_⟩
  cases r with
  | error err => exact D.refl c
  | ok =>
    refine ⟨D.unpersisting c hs, fun r hr => ?_⟩
    cases r with
    | error err => exact D.refl c
    | ok a => exact hf a hr

lemma context_bind {f : TaskContext → ContextM β} (hf : Obeys D (f c) c) :
    Obeys D (ContextM.context >>= f) c := hf

lemma modify_bind {f : TaskContext → TaskContext} {g : Unit → ContextM β} (h : D.rel c (f c))
    (hg : Obeys D (g ()) (f c)) : Obeys D (ContextM.modify f >>= g) c :=
  hg.after h

end Obeys

lemma calls_closure (T : Type) : (Async.closure T).run.Calls Unpersisting := by
  refine ⟨trivial, fun r => ?_⟩
  cases r with
  | error text => exact ⟨trivial, fun r => r.elim⟩
  | ok r => exact trivial

lemma calls_supply (T : Type) : (Async.supply T).run.Calls Unpersisting := by
  refine ⟨trivial, fun r => ?_⟩
  cases r with
  | error text => exact ⟨trivial, fun r => r.elim⟩
  | ok r => exact trivial

lemma notifyLeaseExtended_obeys (duration : Duration) :
    Obeys D (TaskContext.notifyLeaseExtended duration) c := by
  apply Obeys.context_bind
  split
  · exact .lift ⟨trivial, fun _ => trivial⟩
  · exact .pure _

lemma lookup_yields {G : (call : Call) → Answer call → Prop} {P : Call → Prop}
    {post : Result β × TaskContext → Prop} {name : String} {f : Option Json → ContextM β}
    (hP : ∀ call, Unpersisting call → P call) (herror : ∀ err, post (.error err, c))
    (hnone : c.checkpointCache name = none → ((f none).run c).Yields G P post)
    (hcached : ∀ value, c.checkpointCache name = some value →
      ((f (some value)).run c).Yields G P post)
    (hfound : ∀ value call r, c.checkpointCache name = none → Gives name value call r → G call r →
      ((f (some value)).run (cached c name value)).Yields G P post) :
    ((TaskContext.lookupCheckpoint name >>= f).run c).Yields G P post := by
  rw [TaskContext.lookupCheckpoint, context_bind_assoc]
  change Program.Yields G P post ((_ >>= f).run c)
  cases hname : c.checkpointCache name with
  | some value => exact hcached value hname
  | none =>
    refine ⟨hP _ trivial, fun r _ => ?_⟩
    cases r with
    | error err => exact herror _
    | ok =>
      refine ⟨hP _ trivial, fun r hr => ?_⟩
      rcases r with err | _ | value
      · exact herror _
      · exact hnone hname
      · exact hfound value _ _ hname (.found _ _) hr

lemma lookup_bind {name : String} {f : Option Json → ContextM β}
    (hnone : c.checkpointCache name = none → Obeys D (f none) c)
    (hsome : ∀ value d, d.checkpointCache name = some value → D.rel c d → Obeys D (f (some value)) d) :
    Obeys D (TaskContext.lookupCheckpoint name >>= f) c := by
  apply lookup_yields (fun _ => D.unpersisting c) (fun _ => D.refl c) hnone
  · exact fun value hname => hsome value c hname (D.refl c)
  · intro value call r hname hgives hr
    have hfills : D.rel c (cached c name value) := D.fills hname hgives hr
    exact (hsome value _ (Function.update_self _ _ _) hfills).after hfills

lemma persistCheckpoint_obeys {name : String} {value : Json}
    (hmay : ∀ queue taskId runId seconds,
      D.may c (.query (.setTaskCheckpointState queue taskId name value runId seconds)))
    (hrel : ∀ call r, Gives name value call r → D.grants call r → D.rel c (cached c name value)) :
    Obeys D (TaskContext.persistCheckpoint name value) c := by
  refine ⟨D.unpersisting c trivial, fun r _ => ?_⟩
  cases r with
  | error err => exact D.refl c
  | ok =>
    refine ⟨hmay _ _ _ _, fun r hr => ?_⟩
    cases r with
    | error err => exact D.refl c
    | ok => exact (notifyLeaseExtended_obeys c.claimTimeout).after (hrel _ _ (.kept _ _ _ _) hr)

lemma fills_obeys {name : String} (value : Json) (h : c.checkpointCache name = none) :
    Obeys D (TaskContext.persistCheckpoint name value) c :=
  persistCheckpoint_obeys (fun _ _ _ _ => D.persists value h _ _ _ _) fun _ _ => D.fills h

def Continues (D : Conduct) (m : ContextM α) (name : String) : Prop :=
  ∃ body, m = TaskContext.nextCheckpointName name >>= body ∧ ∀ slot c, Obeys D (body slot) c

lemma Continues.yields {m : ContextM α} {name : String} (h : Continues D m name) (c : TaskContext) :
    (m.run c).Yields D.grants (D.may (advance c name)) fun r => D.rel (advance c name) r.2 := by
  obtain ⟨body, rfl, hbody⟩ := h
  change Program.Yields _ _ _ (((TaskContext.nextCheckpointName name).run c).bind _)
  rw [nextCheckpointName_run]
  exact hbody _ _

lemma Continues.obeys {m : ContextM α} {name : String} (h : Continues D m name) (hD : D.Counts)
    (c : TaskContext) : Obeys D m c :=
  (h.yields c).mono (fun _ => D.back (hD c name)) fun _ => D.trans (hD c name)

end Rules

section Methods

variable {D : Conduct} {c : TaskContext} {T : Type}

lemma beginStep_continues (serde : Serde T) (name : String) :
    Continues D (TaskContext.beginStep serde name) name := by
  refine ⟨_, rfl, ?_⟩
  intro slot c
  apply lookup_bind
  · exact fun _ => .pure _
  · intro value d _ _
    apply Obeys.lift_bind
    · exact trivial
    · exact fun _ => .pure _

lemma saved_obeys (serde : Serde T) {slot : String} (value : T)
    (h : c.checkpointCache slot = none) : Obeys D (saved serde slot value) c := by
  apply Obeys.lift_bind
  · exact trivial
  · intro json
    exact .bind (fills_obeys json h) fun _ _ => .pure _

lemma step_continues (serde : Serde T) (name : String) :
    Continues D (TaskContext.step serde name) name := by
  rw [TaskContext.step, TaskContext.beginStep]
  simp only [context_bind_assoc]
  refine ⟨_, rfl, ?_⟩
  intro slot c
  apply lookup_bind
  · intro hnone
    apply Obeys.lift_bind
    · exact calls_closure T
    · exact fun value => saved_obeys serde value hnone
  · intro value d _ _
    dsimp only
    rw [context_bind_assoc]
    apply Obeys.lift_bind
    · exact trivial
    · exact fun _ => .lift trivial

lemma wake_obeys (now actual : DateTime) :
    Obeys D (if now < actual then do
      TaskContext.scheduleRun actual
      ContextM.throw .suspended
    else
      pure () : ContextM Unit) c := by
  split
  · apply Obeys.bind
    · exact .lift (calls_query trivial trivial)
    · exact fun _ _ => .throw _
  · exact .pure _

lemma sleepUntilAtCurrentTime_continues (chrono : Serde DateTime) (name : String)
    (wakeAt now : DateTime) :
    Continues D (TaskContext.sleepUntilAtCurrentTime chrono name wakeAt now) name := by
  refine ⟨_, rfl, ?_⟩
  intro slot c
  apply lookup_bind
  · intro hnone
    apply Obeys.lift_bind
    · exact trivial
    · intro json
      exact .bind (fills_obeys json hnone) fun _ _ => wake_obeys now _
  · intro value d _ _
    apply Obeys.lift_bind
    · exact trivial
    · exact fun actual => wake_obeys now actual

lemma awaitEvent_continues (hD : D.Times) (serde : Serde T) {eventName : String}
    (options : AwaitEventOptions) (hblank : ¬ isBlank eventName = true) :
    Continues D (TaskContext.awaitEventWithOptions serde eventName options)
      (awaitEventName eventName options) := by
  rw [TaskContext.awaitEventWithOptions, if_neg hblank]
  refine ⟨_, rfl, ?_⟩
  intro slot c
  apply lookup_bind
  · intro hnone
    apply Obeys.context_bind
    split
    · exact .modify_bind (hD _ _ _) (.throw _)
    · apply Obeys.query_bind
      · exact trivial
      · rintro ⟨shouldSuspend, payload⟩ hr
        cases shouldSuspend with
        | true => exact .throw _
        | false =>
          dsimp only
          rw [if_neg Bool.false_ne_true]
          split
          · exact .throw _
          · apply Obeys.modify_bind (hD _ c.task _)
            apply Obeys.modify_bind
            · exact D.fills (c := { c with reportedTimeouts := _ }) hnone (.received _ _ _ _ _ rfl) hr
            · exact .lift trivial
  · exact fun value d _ _ => .lift trivial

lemma unpersisting_futures : Futures fun x => x.run.Calls Unpersisting where
  bind := calls_async_bind
  ofResult _ := trivial
  now := ⟨trivial, fun _ => trivial⟩
  sleep _ := ⟨trivial, fun _ => trivial⟩
  hang := ⟨trivial, fun r => r.elim⟩

lemma awaitTaskResultIn_obeys (c d : TaskContext) (turns : ℕ) (taskId : Uuid)
    (options : AwaitTaskResultOptions) (slot : String) :
    Obeys D (awaitTaskResultIn c turns taskId options slot) d := by
  apply lookup_bind
  · intro hnone
    apply Obeys.lift_bind
    · exact ⟨trivial, fun _ => trivial⟩
    · intro now
      apply Obeys.lift_bind
      · apply unpersisting_futures.awaitTaskResultWithBackoff
        · exact calls_query trivial trivial
        · apply unpersisting_futures.heartbeatBeforeSleep
          intro next
          apply calls_async_bind
          · exact calls_query trivial trivial
          · intro _
            split
            · exact ⟨trivial, fun _ => trivial⟩
            · exact trivial
      · intro snapshot
        apply Obeys.lift_bind
        · exact trivial
        · intro json
          exact .bind (fills_obeys json hnone) fun _ _ => .pure _
  · exact fun value e _ _ => .lift trivial

lemma awaitTaskResult_continues (c : TaskContext) (turns : ℕ) (taskId : Uuid)
    (options : AwaitTaskResultOptions) :
    Continues D (TaskContext.nextCheckpointName (awaitTaskResultName taskId options) >>=
      awaitTaskResultIn c turns taskId options) (awaitTaskResultName taskId options) :=
  ⟨_, rfl, fun slot d => awaitTaskResultIn_obeys c d turns taskId options slot⟩

lemma awaitTaskResult_obeys (hD : D.Counts) (turns : ℕ) (taskId : Uuid)
    (options : AwaitTaskResultOptions) :
    Obeys D (TaskContext.awaitTaskResult turns taskId options) c := by
  by_cases h : Unwaitable c options
  · obtain ⟨err, herr⟩ := awaitTaskResult_refused turns taskId h
    rw [Obeys, herr]
    exact D.refl c
  · rw [Obeys, awaitTaskResult_run turns taskId h]
    exact (awaitTaskResult_continues c turns taskId options).obeys hD c

lemma sleepFor_obeys (hD : D.Counts) (chrono : Serde DateTime) (name : String)
    (duration : Duration) : Obeys D (TaskContext.sleepFor chrono name duration) c := by
  rw [TaskContext.sleepFor]
  split
  · exact .throw _
  · apply Obeys.lift_bind
    · exact calls_query trivial trivial
    · intro now
      split
      · exact .lift ⟨trivial, fun r => r.elim⟩
      · exact (sleepUntilAtCurrentTime_continues chrono name _ now).obeys hD c

lemma sleepUntil_obeys (hD : D.Counts) (chrono : Serde DateTime) (name : String)
    (wakeAt : DateTime) : Obeys D (TaskContext.sleepUntil chrono name wakeAt) c := by
  apply Obeys.lift_bind
  · exact calls_query trivial trivial
  · exact fun now => (sleepUntilAtCurrentTime_continues chrono name wakeAt now).obeys hD c

lemma awaitEvent_obeys (hD : D.Counts) (hT : D.Times) (serde : Serde T) (eventName : String)
    (options : AwaitEventOptions) :
    Obeys D (TaskContext.awaitEventWithOptions serde eventName options) c := by
  by_cases hblank : isBlank eventName = true
  · rw [TaskContext.awaitEventWithOptions, if_pos hblank]
    exact .throw _
  · exact (awaitEvent_continues hT serde options hblank).obeys hD c

lemma emitEvent_obeys (serde : Serde T) (eventName : String) (payload : T) :
    Obeys D (TaskContext.emitEvent serde eventName payload) c := by
  rw [TaskContext.emitEvent]
  split
  · exact .throw _
  · apply Obeys.lift_bind
    · exact trivial
    · intro json
      apply Obeys.context_bind
      exact .lift (calls_query trivial trivial)

lemma heartbeatFor_obeys (duration : Duration) : Obeys D (TaskContext.heartbeatFor duration) c := by
  apply Obeys.context_bind
  apply Obeys.lift_bind
  · exact calls_query trivial trivial
  · exact fun _ => notifyLeaseExtended_obeys duration

def Conduct.Completes (D : Conduct) (c : TaskContext) : Method → Prop
  | .completeStep serde handle value => handle.done = true ∨ ∀ j, serde.toValue value = .ok j →
      D.rel c (cached c handle.checkpointName j) ∧ ∀ queue taskId runId seconds,
        D.may c (.query (.setTaskCheckpointState queue taskId handle.checkpointName j runId seconds))
  | _ => True

lemma completeStep_obeys (serde : Serde T) (handle : StepHandle T) (value : T)
    (h : D.Completes c (.completeStep serde handle value)) :
    Obeys D (TaskContext.completeStep serde handle value) c := by
  rw [TaskContext.completeStep]
  split
  · exact .lift trivial
  · have hkeep := h.resolve_left ‹_›
    cases hv : serde.toValue value with
    | error text =>
      rw [Async.encode, hv]
      exact D.refl c
    | ok j =>
      rw [Async.encode, hv]
      obtain ⟨hrel, hmay⟩ := hkeep j hv
      change Obeys D (TaskContext.persistCheckpoint handle.checkpointName j >>= fun _ => pure value) c
      exact .bind (persistCheckpoint_obeys hmay fun _ _ _ _ => hrel) fun _ _ => .pure _

def IsWait : Method → Prop
  | .awaitEvent _ _ _ => True
  | _ => False

theorem method_obeys (chrono : Serde DateTime) (turns : ℕ) (m : Method) (hC : D.Counts)
    (hT : IsWait m → D.Times) (hm : D.Completes c m) : Obeys D (m.run chrono turns) c := by
  cases m with
  | step serde name => exact (step_continues serde name).obeys hC c
  | beginStep serde name => exact (beginStep_continues serde name).obeys hC c
  | completeStep serde handle value => exact completeStep_obeys serde handle value hm
  | sleepFor name duration => exact sleepFor_obeys hC chrono name duration
  | sleepUntil name wakeAt => exact sleepUntil_obeys hC chrono name wakeAt
  | awaitEvent serde eventName options => exact awaitEvent_obeys hC (hT trivial) serde eventName options
  | awaitTaskResult taskId options => exact awaitTaskResult_obeys hC turns taskId options
  | emitEvent serde eventName payload => exact emitEvent_obeys serde eventName payload
  | heartbeat => exact .context_bind (heartbeatFor_obeys c.claimTimeout)
  | heartbeatFor duration => exact heartbeatFor_obeys duration
  | supply T => exact .lift (calls_supply T)

end Methods

end AbsurdSdk.Durability
