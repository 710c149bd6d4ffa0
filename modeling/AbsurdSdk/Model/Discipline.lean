import AbsurdSdk.Model.Rules

/-! What the methods of a context are made of. A property that the primitive futures have and that
sequencing keeps holds of every future and of every method built from them. -/

namespace AbsurdSdk.Model

open Interaction

structure Futures (P : ∀ {α : Type}, Async α → Prop) : Prop where
  bind : ∀ {α β : Type} {x : Async α} {f : α → Async β}, P x → (∀ a, P (f a)) → P (x >>= f)
  ofResult : ∀ {α : Type} (r : Result α), P (Async.ofResult r)
  now : P Async.now
  sleep : ∀ d, P (Async.sleep d)
  hang : ∀ {α : Type}, P (Async.hang : Async α)

namespace Futures

variable {P : ∀ {α : Type}, Async α → Prop} (hP : Futures P) {α : Type}

include hP

lemma pure (a : α) : P (pure a : Async α) := hP.ofResult (.ok a)

lemma throw (err : Error) : P (Async.throw err : Async α) := hP.ofResult (.error err)

lemma fetchTaskResultSnapshot {queueName : String} {taskId : Uuid}
    (hquery : P (Async.query (.getTaskResult queueName taskId))) :
    P (Model.fetchTaskResultSnapshot queueName taskId) := by
  apply hP.bind hquery
  intro row
  cases row with
  | none => exact hP.pure _
  | some row => exact hP.bind (hP.ofResult _) fun _ => hP.pure _

lemma nextSleepDuration (startedAt : Instant) (timeout : Option Duration) (delay : Duration)
    (taskId : Uuid) : P (Model.nextSleepDuration startedAt timeout delay taskId) := by
  cases timeout with
  | none => exact hP.pure _
  | some timeout =>
    apply hP.bind hP.now
    intro now
    dsimp only
    split
    · exact hP.throw _
    · exact hP.pure _

lemma backoffLoop {B : Type} {fetchSnapshot : Async (Option TaskResultSnapshot)} (taskId : Uuid)
    (timeout : Option Duration) {beforeSleep : B → Async B} (startedAt : Instant)
    (hfetch : P fetchSnapshot) (hbefore : ∀ b, P (beforeSleep b)) (turns : ℕ) (delay : Duration)
    (b : B) :
    P (Model.backoffLoop fetchSnapshot taskId timeout beforeSleep startedAt turns delay b) := by
  induction turns generalizing delay b with
  | zero => exact hP.hang
  | succ turns ih =>
    apply hP.bind hfetch
    intro snapshot
    cases snapshot with
    | none => exact hP.throw _
    | some snapshot =>
      dsimp only
      split
      · exact hP.pure _
      · apply hP.bind (hP.nextSleepDuration startedAt timeout delay taskId)
        intro sleepFor
        apply hP.bind (hbefore b)
        intro b'
        exact hP.bind (hP.sleep _) fun _ => ih _ b'

lemma awaitTaskResultWithBackoff {B : Type} {queueName : String} {taskId : Uuid}
    {timeout : Option Duration} {beforeSleep : B → Async B}
    (hquery : P (Async.query (.getTaskResult queueName taskId)))
    (hbefore : ∀ b, P (beforeSleep b)) (turns : ℕ) (b : B) :
    P (Model.awaitTaskResultWithBackoff (Model.fetchTaskResultSnapshot queueName taskId) taskId
      timeout beforeSleep turns b) := by
  apply hP.bind hP.now
  intro startedAt
  exact hP.backoffLoop taskId timeout startedAt (hP.fetchTaskResultSnapshot hquery) hbefore turns _ b

lemma heartbeatBeforeSleep {c : TaskContext} {interval : Duration}
    (hbeat : ∀ next : Instant, P (do
      extendClaim c.queueName c.task.runId c.claimTimeout
      if c.leaseTx then Async.sendLease c.claimTimeout
      return next)) (next : Instant) : P (TaskContext.heartbeatBeforeSleep c interval next) := by
  apply hP.bind hP.now
  intro now
  dsimp only
  split
  · exact hP.bind hP.now fun now => hbeat _
  · exact hP.pure _

end Futures

def Passive : {α : Type} → Statement α → Prop
  | _, .setTaskCheckpointState _ _ _ _ _ _ | _, .awaitEvent _ _ _ _ _ _ | _, .extendClaim _ _ _ =>
    False
  | _, _ => True

/-- A property of the futures and methods of a task that sequencing keeps. It is about the contexts
that satisfy `sound`; a name may be taken in a context that `takes` it, which gives a slot that
satisfies `slots`. -/
structure Discipline where
  async : ∀ {α : Type}, Async α → Prop
  context : ∀ {α : Type}, ContextM α → TaskContext → Prop
  sound : TaskContext → Prop
  slots : String → Prop
  takes : TaskContext → String → Prop
  futures : Futures async
  panic : ∀ {α : Type} text, async (Async.panic text : Async α)
  closure : ∀ T, async (Async.closure T)
  passive : ∀ {α : Type} (statement : Statement α), Passive statement → async (Async.query statement)
  awaitEvent : ∀ {slot}, slots slot → ∀ queue taskId runId event timeout,
    async (Async.query (.awaitEvent queue taskId runId slot event timeout))
  beat : ∀ {c}, sound c → ∀ next : Instant, async (do
    extendClaim c.queueName c.task.runId c.claimTimeout
    if c.leaseTx then Async.sendLease c.claimTimeout
    return next)
  pure : ∀ {α : Type} (a : α) {c}, sound c → context (pure a) c
  throw : ∀ {α : Type} err {c}, sound c → context (ContextM.throw err : ContextM α) c
  bind : ∀ {α β : Type} {m : ContextM α} {f : α → ContextM β} {c}, context m c →
    (∀ a d, sound d → context (f a) d) → context (m >>= f) c
  lift_bind : ∀ {α β : Type} {x : Async α} {f : α → ContextM β} {c}, sound c → async x →
    (∀ a, context (f a) c) → context (liftM x >>= f) c
  context_bind : ∀ {α : Type} {f : TaskContext → ContextM α} {c}, context (f c) c →
    context (ContextM.context >>= f) c
  next_bind : ∀ {α : Type} {name} {f : String → ContextM α} {c}, sound c → takes c name →
    (∀ slot d, slots slot → sound d → context (f slot) d) →
    context (TaskContext.nextCheckpointName name >>= f) c
  lookup : ∀ {slot c}, slots slot → sound c → context (TaskContext.lookupCheckpoint slot) c
  persist : ∀ {slot c}, slots slot → sound c → ∀ value,
    context (TaskContext.persistCheckpoint slot value) c
  cache : ∀ {slot c}, slots slot → sound c → ∀ value,
    context (TaskContext.cacheCheckpoint slot value) c
  timeOut : ∀ {c}, sound c → ∀ event, context (ContextM.modify fun c => { c with
    task := { c.task with wakeEvent := none, eventPayload := none }
    reportedTimeouts := Function.update c.reportedTimeouts event true }) c
  forget : ∀ {c}, sound c → ∀ event, context (ContextM.modify fun c => { c with
    reportedTimeouts := Function.update c.reportedTimeouts event false }) c

namespace Discipline

variable (D : Discipline) {c : TaskContext} {α β T : Type}

lemma lift {x : Async α} (hc : D.sound c) (hx : D.async x) : D.context (liftM x) c := by
  have hbind : (liftM x : ContextM α) = liftM x >>= Pure.pure := by
    ext d
    change x.run.bind _ = (x.run.bind _).bind _
    rw [Program.bind_assoc]
    apply Program.bind_congr
    intro r
    cases r with
    | error err => rfl
    | ok a => rfl
  rw [hbind]
  exact D.lift_bind hc hx fun a => D.pure a hc

lemma result (r : Result α) (hc : D.sound c) : D.context (liftM (Async.ofResult r)) c :=
  D.lift hc (D.futures.ofResult r)

lemma scheduleRun (hc : D.sound c) (wakeAt : DateTime) :
    D.context (TaskContext.scheduleRun wakeAt) c :=
  D.context_bind (D.lift hc (D.passive (.scheduleRun _ _ _) trivial))

lemma beginStep (serde : Serde T) {name : String} (hc : D.sound c) (hname : D.takes c name) :
    D.context (TaskContext.beginStep serde name) c := by
  apply D.next_bind hc hname
  intro slot d hslot hd
  apply D.bind (D.lookup hslot hd)
  intro found e he
  cases found with
  | none => exact D.pure _ he
  | some cached => exact D.lift_bind he (D.futures.ofResult _) fun _ => D.pure _ he

lemma completeStep (serde : Serde T) {handle : StepHandle T} (value : T) (hc : D.sound c)
    (hslot : D.slots handle.checkpointName) :
    D.context (TaskContext.completeStep serde handle value) c := by
  rw [TaskContext.completeStep]
  split
  · exact D.result _ hc
  · apply D.lift_bind hc (D.futures.ofResult _)
    intro json
    exact D.bind (D.persist hslot hc json) fun _ _ hd => D.pure _ hd

lemma step (serde : Serde T) {name : String} (hc : D.sound c) (hname : D.takes c name) :
    D.context (TaskContext.step serde name) c := by
  rw [TaskContext.step, TaskContext.beginStep]
  simp only [context_bind_assoc]
  apply D.next_bind hc hname
  intro slot d hslot hd
  apply D.bind (D.lookup hslot hd)
  intro found e he
  cases found with
  | none =>
    apply D.lift_bind he (D.closure T)
    exact fun value => D.completeStep serde value he hslot
  | some cached =>
    dsimp only
    rw [context_bind_assoc]
    exact D.lift_bind he (D.futures.ofResult _) fun _ => D.result _ he

lemma wake (hc : D.sound c) (now actual : DateTime) :
    D.context (if now < actual then do
      TaskContext.scheduleRun actual
      ContextM.throw .suspended
    else
      Pure.pure () : ContextM Unit) c := by
  split
  · exact D.bind (D.scheduleRun hc actual) fun _ _ hd => D.throw _ hd
  · exact D.pure _ hc

lemma sleepUntilAtCurrentTime (chrono : Serde DateTime) {name : String} (wakeAt now : DateTime)
    (hc : D.sound c) (hname : D.takes c name) :
    D.context (TaskContext.sleepUntilAtCurrentTime chrono name wakeAt now) c := by
  apply D.next_bind hc hname
  intro slot d hslot hd
  apply D.bind (D.lookup hslot hd)
  intro found e he
  cases found with
  | some cached => exact D.lift_bind he (D.futures.ofResult _) fun actual => D.wake he now actual
  | none =>
    apply D.lift_bind he (D.futures.ofResult _)
    intro json
    exact D.bind (D.persist hslot he json) fun _ _ hf => D.wake hf now _

lemma sleepFor (chrono : Serde DateTime) {name : String} (duration : Duration) (hc : D.sound c)
    (hname : D.takes c name) : D.context (TaskContext.sleepFor chrono name duration) c := by
  rw [TaskContext.sleepFor]
  cases chronoFromStd duration with
  | none => exact D.throw _ hc
  | some delta =>
    apply D.lift_bind hc (D.passive .currentTime trivial)
    intro now
    cases now.checkedAdd delta with
    | none => exact D.lift hc (D.panic _)
    | some wakeAt => exact D.sleepUntilAtCurrentTime chrono wakeAt now hc hname

lemma sleepUntil (chrono : Serde DateTime) {name : String} (wakeAt : DateTime) (hc : D.sound c)
    (hname : D.takes c name) : D.context (TaskContext.sleepUntil chrono name wakeAt) c := by
  apply D.lift_bind hc (D.passive .currentTime trivial)
  exact fun now => D.sleepUntilAtCurrentTime chrono wakeAt now hc hname

lemma awaitEventWithOptions (serde : Serde T) {eventName : String} {options : AwaitEventOptions}
    (hc : D.sound c) (hname : D.takes c (options.stepName.getD s!"$awaitEvent:{eventName}")) :
    D.context (TaskContext.awaitEventWithOptions serde eventName options) c := by
  rw [TaskContext.awaitEventWithOptions]
  split
  · exact D.throw _ hc
  · apply D.next_bind hc hname
    intro slot d hslot hd
    apply D.bind (D.lookup hslot hd)
    intro found e he
    cases found with
    | some cached => exact D.result _ he
    | none =>
      apply D.context_bind
      split
      · exact D.bind (D.timeOut he eventName) fun _ _ hf => D.throw _ hf
      · apply D.lift_bind he (D.awaitEvent hslot _ _ _ _ _)
        intro answer
        dsimp only
        split
        · exact D.throw _ he
        · split
          · exact D.throw _ he
          · apply D.bind (D.forget he eventName)
            intro _ f hf
            exact D.bind (D.cache hslot hf _) fun _ _ hg => D.result _ hg

lemma awaitTaskResult (turns : ℕ) {taskId : Uuid} {options : AwaitTaskResultOptions}
    (hc : D.sound c)
    (hname : D.takes c (options.stepName.getD s!"$awaitTaskResult:{taskId.toString}")) :
    D.context (TaskContext.awaitTaskResult turns taskId options) c := by
  apply D.context_bind
  apply D.lift_bind hc (D.futures.ofResult _)
  intro _
  dsimp only
  split
  · exact D.throw _ hc
  · apply D.next_bind hc hname
    intro slot d hslot hd
    apply D.bind (D.lookup hslot hd)
    intro found e he
    cases found with
    | some cached => exact D.result _ he
    | none =>
      apply D.lift_bind he D.futures.now
      intro now
      apply D.lift_bind he
      · apply D.futures.awaitTaskResultWithBackoff
        · exact D.passive (.getTaskResult _ taskId) trivial
        · exact D.futures.heartbeatBeforeSleep (D.beat hc)
      · intro snapshot
        apply D.lift_bind he (D.futures.ofResult _)
        intro json
        exact D.bind (D.persist hslot he json) fun _ _ hf => D.pure _ hf

lemma emitEvent (serde : Serde T) (eventName : String) (payload : T) (hc : D.sound c) :
    D.context (TaskContext.emitEvent serde eventName payload) c := by
  rw [TaskContext.emitEvent]
  split
  · exact D.throw _ hc
  · apply D.lift_bind hc (D.futures.ofResult _)
    intro json
    exact D.context_bind (D.lift hc (D.passive (.emitEvent _ _ _) trivial))

end Discipline

end AbsurdSdk.Model
