import AbsurdSdk.Execution.Settlement
import AbsurdSdk.Interaction.Transcript
import AbsurdSdk.Model.Discipline
import AbsurdSdk.Model.Methods

namespace AbsurdSdk.Execution

open Interaction Model

structure Owner where
  queueName : String
  taskId : Uuid
  runId : Uuid

def Owner.OwnsStatement (o : Owner) : {α : Type} → Statement α → Prop
  | _, .getTaskCheckpointStates queue taskId runId =>
    queue = o.queueName ∧ taskId = o.taskId ∧ runId = o.runId
  | _, .getTaskCheckpointState queue taskId _ => queue = o.queueName ∧ taskId = o.taskId
  | _, .setTaskCheckpointState queue taskId _ _ runId _ =>
    queue = o.queueName ∧ taskId = o.taskId ∧ runId = o.runId
  | _, .awaitEvent queue taskId runId _ _ _ =>
    queue = o.queueName ∧ taskId = o.taskId ∧ runId = o.runId
  | _, .emitEvent queue event _ => queue = o.queueName ∧ isBlank event = false
  | _, .getTaskResult queue _ => queue ≠ o.queueName ∧ validateQueueName queue = .ok ()
  | _, .scheduleRun queue runId _ => queue = o.queueName ∧ runId = o.runId
  | _, .extendClaim queue runId _ => queue = o.queueName ∧ runId = o.runId
  | _, .currentTime => True

def Owner.Owns (o : Owner) : Call → Prop
  | .query statement => o.OwnsStatement statement
  | _ => True

def Owner.OwnsSettlement (o : Owner) : Settlement → Prop
  | .completeRun queue runId _ => queue = o.queueName ∧ runId = o.runId
  | .failRun queue runId _ _ => queue = o.queueName ∧ runId = o.runId
  | .scheduleRunIn queue runId _ => queue = o.queueName ∧ runId = o.runId

def Owner.Executes (o : Owner) : ExecutorCall → Prop
  | .context call => o.Owns call
  | .getPool settlement | .settle settlement => o.OwnsSettlement settlement
  | _ => True

structure Belongs (o : Owner) (c : TaskContext) : Prop where
  queueName : c.queueName = o.queueName
  taskId : c.task.taskId = o.taskId
  runId : c.task.runId = o.runId

section Rules

variable {o : Owner} {α β T : Type} {c : TaskContext}

abbrev Confined (o : Owner) (x : Async α) : Prop := x.run.Calls o.Owns

abbrev ContextConfined (o : Owner) (m : ContextM α) (c : TaskContext) : Prop :=
  (m.run c).Yields (fun _ _ => True) o.Owns fun r => Belongs o r.2

lemma query_confined {statement : Statement α} (h : o.OwnsStatement statement) :
    Confined o (Async.query statement) :=
  calls_query trivial h

lemma ofResult_confined (r : Result α) : Confined o (Async.ofResult r) := trivial

lemma closure_confined : Confined o (Async.closure T) := by
  refine ⟨trivial, ?_⟩
  rintro (text | r)
  · exact ⟨trivial, fun r => r.elim⟩
  · trivial

lemma supply_confined : Confined o (Async.supply T) := by
  refine ⟨trivial, ?_⟩
  rintro (text | v)
  · exact ⟨trivial, fun r => r.elim⟩
  · trivial

namespace ContextConfined

lemma bind {m : ContextM α} {f : α → ContextM β} (hm : ContextConfined o m c)
    (hf : ∀ a d, Belongs o d → ContextConfined o (f a) d) : ContextConfined o (m >>= f) c := by
  apply Program.Yields.bind hm
  rintro ⟨err | a, d⟩ hd
  · exact hd
  · exact hf a d hd

lemma lift {x : Async α} (hx : Confined o x) (hc : Belongs o c) :
    ContextConfined o (liftM x) c :=
  hx.yields.bind fun _ _ => hc

lemma lift_bind {x : Async α} {f : α → ContextM β} (hx : Confined o x) (hc : Belongs o c)
    (hf : ∀ a, ContextConfined o (f a) c) : ContextConfined o (liftM x >>= f) c := by
  change Program.Yields _ _ _ ((x.run.bind _).bind _)
  rw [Program.bind_assoc]
  apply hx.yields.bind
  rintro (err | a) -
  · exact hc
  · exact hf a

lemma context_bind {f : TaskContext → ContextM β} (hf : ContextConfined o (f c) c) :
    ContextConfined o (ContextM.context >>= f) c := hf

end ContextConfined

open ContextConfined

lemma nextCheckpointName_confined (name : String) (hc : Belongs o c) :
    ContextConfined o (TaskContext.nextCheckpointName name) c := by
  change ContextConfined o (if c.stepNameCounter name + 1 = 1 then _ else _) _
  split
  · exact ⟨hc.queueName, hc.taskId, hc.runId⟩
  · exact ⟨hc.queueName, hc.taskId, hc.runId⟩

lemma notifyLeaseExtended_confined (d : Duration) (hc : Belongs o c) :
    ContextConfined o (TaskContext.notifyLeaseExtended d) c := by
  change ContextConfined o (if c.leaseTx then _ else _) c
  split
  · exact lift ⟨trivial, fun _ => trivial⟩ hc
  · exact hc

lemma lookupCheckpoint_confined (name : String) (hc : Belongs o c) :
    ContextConfined o (TaskContext.lookupCheckpoint name) c := by
  rw [TaskContext.lookupCheckpoint]
  apply context_bind
  split
  · exact hc
  · have hquery : Confined o
        (Async.query (.getTaskCheckpointState c.queueName c.task.taskId name)) :=
      query_confined ⟨hc.queueName, hc.taskId⟩
    apply lift_bind hquery hc
    intro row
    cases row with
    | none => exact hc
    | some value => exact ⟨hc.queueName, hc.taskId, hc.runId⟩

lemma persistCheckpoint_confined (name : String) (value : Json) (hc : Belongs o c) :
    ContextConfined o (TaskContext.persistCheckpoint name value) c := by
  have hquery : Confined o (Async.query (.setTaskCheckpointState c.queueName c.task.taskId name
      value c.task.runId c.claimTimeoutSeconds)) :=
    query_confined ⟨hc.queueName, hc.taskId, hc.runId⟩
  apply lift_bind hquery hc
  intro _
  exact notifyLeaseExtended_confined _ ⟨hc.queueName, hc.taskId, hc.runId⟩

lemma beginStep_confined (serde : Serde T) (name : String) (hc : Belongs o c) :
    ContextConfined o (TaskContext.beginStep serde name) c := by
  apply bind (nextCheckpointName_confined name hc)
  intro slot d hd
  apply bind (lookupCheckpoint_confined slot hd)
  rintro (_ | cached) e he
  · exact he
  · exact lift_bind (ofResult_confined _) he fun _ => he

lemma completeStep_confined (serde : Serde T) (handle : StepHandle T) (value : T)
    (hc : Belongs o c) : ContextConfined o (TaskContext.completeStep serde handle value) c := by
  rw [TaskContext.completeStep]
  split
  · exact lift (ofResult_confined _) hc
  · apply lift_bind (ofResult_confined _) hc
    intro json
    exact bind (persistCheckpoint_confined _ json hc) fun _ _ hd => hd

lemma step_confined (serde : Serde T) (name : String) (hc : Belongs o c) :
    ContextConfined o (TaskContext.step serde name) c := by
  apply bind (beginStep_confined serde name hc)
  intro handle d hd
  split
  · exact lift (ofResult_confined _) hd
  · exact lift_bind closure_confined hd fun value => completeStep_confined serde handle value hd

lemma scheduleRun_confined (wakeAt : DateTime) (hc : Belongs o c) :
    ContextConfined o (TaskContext.scheduleRun wakeAt) c := by
  have hquery : Confined o (Async.query (.scheduleRun c.queueName c.task.runId wakeAt)) :=
    query_confined ⟨hc.queueName, hc.runId⟩
  exact lift hquery hc

lemma wake_confined (now actual : DateTime) (hc : Belongs o c) :
    ContextConfined o (if now < actual then do
      TaskContext.scheduleRun actual
      ContextM.throw .suspended
    else
      pure () : ContextM Unit) c := by
  split
  · exact bind (scheduleRun_confined actual hc) fun _ _ hd => hd
  · exact hc

lemma sleepUntilAtCurrentTime_confined (chrono : Serde DateTime) (name : String)
    (wakeAt now : DateTime) (hc : Belongs o c) :
    ContextConfined o (TaskContext.sleepUntilAtCurrentTime chrono name wakeAt now) c := by
  apply bind (nextCheckpointName_confined name hc)
  intro slot d hd
  apply bind (lookupCheckpoint_confined slot hd)
  rintro (_ | cached) e he
  · apply lift_bind (ofResult_confined _) he
    intro json
    exact bind (persistCheckpoint_confined slot json he) fun _ _ hf => wake_confined now _ hf
  · exact lift_bind (ofResult_confined _) he fun actual => wake_confined now actual he

lemma currentTime_confined : Confined o (Async.query .currentTime) := query_confined trivial

lemma sleepFor_confined (chrono : Serde DateTime) (name : String) (duration : Duration)
    (hc : Belongs o c) : ContextConfined o (TaskContext.sleepFor chrono name duration) c := by
  rw [TaskContext.sleepFor]
  cases chronoFromStd duration with
  | none => exact hc
  | some delta =>
    apply lift_bind currentTime_confined hc
    intro now
    cases now.checkedAdd delta with
    | none => exact ⟨trivial, fun r => r.elim⟩
    | some wakeAt => exact sleepUntilAtCurrentTime_confined chrono name wakeAt now hc

lemma sleepUntil_confined (chrono : Serde DateTime) (name : String) (wakeAt : DateTime)
    (hc : Belongs o c) : ContextConfined o (TaskContext.sleepUntil chrono name wakeAt) c := by
  apply lift_bind currentTime_confined hc
  exact fun now => sleepUntilAtCurrentTime_confined chrono name wakeAt now hc

lemma awaitEventWithOptions_confined (serde : Serde T) (eventName : String)
    (options : AwaitEventOptions) (hc : Belongs o c) :
    ContextConfined o (TaskContext.awaitEventWithOptions serde eventName options) c := by
  rw [TaskContext.awaitEventWithOptions]
  split
  · exact hc
  · apply bind (nextCheckpointName_confined _ hc)
    intro slot d hd
    apply bind (lookupCheckpoint_confined slot hd)
    rintro (_ | cached) e he
    · change ContextConfined o (if e.task.wakeEvent = some eventName ∧ e.task.eventPayload.isNone
        then _ else _) e
      split
      · exact ⟨he.queueName, he.taskId, he.runId⟩
      · have hquery : Confined o (Async.query (.awaitEvent e.queueName e.task.taskId e.task.runId
            slot eventName (options.timeout.map durationSecondsCeil))) :=
          query_confined ⟨he.queueName, he.taskId, he.runId⟩
        apply lift_bind hquery he
        rintro ⟨shouldSuspend, payload⟩
        dsimp only
        split
        · exact he
        · split
          · exact he
          · exact ⟨he.queueName, he.taskId, he.runId⟩
    · exact lift (ofResult_confined _) he

lemma extendClaim_confined (duration : Duration) (hc : Belongs o c) :
    Confined o (extendClaim c.queueName c.task.runId duration) :=
  query_confined ⟨hc.queueName, hc.runId⟩

lemma confined_futures (o : Owner) : Futures (Confined o) where
  bind := calls_async_bind
  ofResult := ofResult_confined
  now := ⟨trivial, fun _ => trivial⟩
  sleep _ := ⟨trivial, fun _ => trivial⟩
  hang := ⟨trivial, fun r => r.elim⟩

lemma beat_confined (hc : Belongs o c) (next : Instant) : Confined o (do
    extendClaim c.queueName c.task.runId c.claimTimeout
    if c.leaseTx then Async.sendLease c.claimTimeout
    return next) := by
  apply calls_async_bind (extendClaim_confined _ hc)
  intro _
  split
  · exact ⟨trivial, fun _ => trivial⟩
  · trivial

lemma awaitTaskResult_confined (turns : ℕ) (taskId : Uuid) (options : AwaitTaskResultOptions)
    (hc : Belongs o c) :
    ContextConfined o (TaskContext.awaitTaskResult turns taskId options) c := by
  change ContextConfined o (liftM (Async.ofResult
    (validateQueueName (options.queue.getD c.queueName))) >>= _) c
  cases hvalid : validateQueueName (options.queue.getD c.queueName) with
  | error err => exact hc
  | ok =>
    change ContextConfined o (if options.queue.getD c.queueName = c.queueName then _ else _) c
    split
    · exact hc
    · rename_i hother
      have hresult : Confined o
          (Async.query (.getTaskResult (options.queue.getD c.queueName) taskId)) :=
        query_confined ⟨hc.queueName ▸ hother, hvalid⟩
      apply bind (nextCheckpointName_confined _ hc)
      intro slot d hd
      apply bind (lookupCheckpoint_confined slot hd)
      rintro (_ | cached) e he
      · apply lift_bind (confined_futures o).now he
        intro now
        apply lift_bind ((confined_futures o).awaitTaskResultWithBackoff hresult
          ((confined_futures o).heartbeatBeforeSleep (beat_confined hc)) turns _) he
        intro snapshot
        apply lift_bind (ofResult_confined _) he
        intro json
        exact bind (persistCheckpoint_confined slot json he) fun _ _ hf => hf
      · exact lift (ofResult_confined _) he

lemma emitEvent_confined (serde : Serde T) (eventName : String) (payload : T)
    (hc : Belongs o c) : ContextConfined o (TaskContext.emitEvent serde eventName payload) c := by
  rw [TaskContext.emitEvent]
  split
  · exact hc
  · rename_i hblank
    apply lift_bind (ofResult_confined _) hc
    intro json
    have hquery : Confined o (Async.query (.emitEvent c.queueName eventName json)) :=
      query_confined ⟨hc.queueName, by simpa using hblank⟩
    exact lift hquery hc

lemma heartbeatFor_confined (duration : Duration) (hc : Belongs o c) :
    ContextConfined o (TaskContext.heartbeatFor duration) c := by
  apply lift_bind (extendClaim_confined duration hc) hc
  exact fun _ => notifyLeaseExtended_confined duration hc

lemma method_confined (chrono : Serde DateTime) (turns : ℕ) (m : Method) (hc : Belongs o c) :
    ContextConfined o (m.run chrono turns) c := by
  cases m with
  | step serde name => exact step_confined serde name hc
  | beginStep serde name => exact beginStep_confined serde name hc
  | completeStep serde handle value => exact completeStep_confined serde handle value hc
  | sleepFor name duration => exact sleepFor_confined chrono name duration hc
  | sleepUntil name wakeAt => exact sleepUntil_confined chrono name wakeAt hc
  | awaitEvent serde eventName options =>
    exact awaitEventWithOptions_confined serde eventName options hc
  | awaitTaskResult taskId options => exact awaitTaskResult_confined turns taskId options hc
  | emitEvent serde eventName payload => exact emitEvent_confined serde eventName payload hc
  | heartbeat => exact heartbeatFor_confined c.claimTimeout hc
  | heartbeatFor duration => exact heartbeatFor_confined duration hc
  | supply T => exact lift supply_confined hc

lemma process_confined {R : Type} (chrono : Serde DateTime) (turns : ℕ)
    (handler : MethodHandler R) (hc : Belongs o c) :
    (MethodHandler.process chrono turns handler c).Yields (fun _ _ => True) o.Owns
      fun _ => True := by
  induction handler generalizing c with
  | done result => trivial
  | call m next ih =>
    apply Program.Yields.bind (method_confined chrono turns m hc)
    rintro ⟨r, d⟩ hd
    exact ih r hd

end Rules

section Execution

variable {workerQueue : String} {registry : Option Registry} {task : ClaimedTask}
  {config : TaskExecutionConfig} {o : Owner}

lemma settle_owned {s : Settlement} (h : o.OwnsSettlement s) : (settle s).Calls o.Executes := by
  refine ⟨h, ?_⟩
  rintro (err | _)
  · trivial
  · exact ⟨h, fun _ => trivial⟩

lemma completeRun_owned (result : Json) :
    (completeRun o.queueName o.runId result).Calls o.Executes := by
  have hown : o.OwnsSettlement (.completeRun o.queueName o.runId result) := ⟨rfl, rfl⟩
  apply (settle_owned hown).bind
  rintro (err | _)
  · trivial
  · trivial

lemma failRunPayload_owned (payload : Json) :
    (failRunPayload o.queueName o.runId payload).Calls o.Executes := by
  have hown : o.OwnsSettlement (.failRun o.queueName o.runId payload none) := ⟨rfl, rfl⟩
  apply (settle_owned hown).bind
  rintro (err | _)
  · trivial
  · trivial

lemma reportExecutionError_owned (onError : Bool) (err : Error) :
    (reportExecutionError onError err).Calls o.Executes := by
  rw [reportExecutionError]
  split
  · refine ⟨trivial, ?_⟩
    rintro (text | _)
    · exact ⟨trivial, fun r => r.elim⟩
    · trivial
  · trivial

lemma taskContext_owned (claimTimeout : Duration) (sends : Bool)
    (htask : task.taskId = o.taskId ∧ task.runId = o.runId) :
    (TaskContext.new o.queueName task claimTimeout sends).run.Yields (fun _ _ => True) o.Owns
      fun r => ∀ c, r = .ok c → Belongs o c := by
  have hquery : Confined o
      (Async.query (.getTaskCheckpointStates o.queueName task.taskId task.runId)) :=
    query_confined ⟨rfl, htask⟩
  apply hquery.yields.bind
  rintro (err | rows) -
  · rintro c ⟨⟩
  · dsimp only
    split
    · rintro c ⟨⟩
      exact ⟨rfl, htask.1, htask.2⟩
    · rintro c ⟨⟩
      exact ⟨rfl, htask.1, htask.2⟩
    · rintro c ⟨⟩
      exact ⟨rfl, htask.1, htask.2⟩
    · rintro c ⟨⟩

def owner (workerQueue : String) (task : ClaimedTask) : Owner :=
  ⟨workerQueue, task.taskId, task.runId⟩

/-- The handler, and the hook around it, use their context through its methods. -/
def UsesMethods (chrono : Serde DateTime) (turns : ℕ) (registry : Option Registry)
    (task : ClaimedTask) (config : TaskExecutionConfig) : Prop :=
  ∀ tasks registration, registry = some tasks → tasks task.taskName = some registration →
    ∀ ctx, ∃ handler : MethodHandler (Result Json),
      runHandler registration.handler task.params ctx config.hooks =
        MethodHandler.process chrono turns handler ctx

lemma handleUnknownTask_owned (policy : UnknownTaskPolicy) :
    (handleUnknownTask workerQueue task policy).Calls (owner workerQueue task).Executes := by
  cases policy with
  | defer =>
    have hown : (owner workerQueue task).OwnsSettlement
        (.scheduleRunIn workerQueue task.runId (unknownTaskDeferDelay task.runId)) := ⟨rfl, rfl⟩
    exact settle_owned hown
  | fail => exact failRunPayload_owned (o := owner workerQueue task) _

abbrev Owning {α : Type} (workerQueue : String) (task : ClaimedTask) (p : Execute α)
    (post : α → Prop) : Prop :=
  p.Yields (fun _ _ => True) (owner workerQueue task).Executes post

lemma context_owned {α : Type} {p : Process α} {post : α → Prop}
    (h : p.Yields (fun _ _ => True) (owner workerQueue task).Owns post) :
    Owning workerQueue task (Execute.context p) post :=
  Program.Yields.relabel ExecutorCall.context (fun _ r => r) h

lemma outcome_owned {tasks : Registry} {chrono : Serde DateTime} {turns : ℕ}
    (h : UsesMethods chrono turns (some tasks) task config) :
    Owning workerQueue task (outcome workerQueue tasks task config) fun _ => True := by
  rw [outcome]
  cases hregistered : tasks task.taskName with
  | none => trivial
  | some registration =>
    by_cases hqueue : registration.queueName = workerQueue
    · simp only [hqueue, ne_eq, not_true_eq_false, if_false]
      refine ⟨trivial, fun _ _ => ?_⟩
      let bare : ClaimedTask := { task with params := .null }
      have hids : bare.taskId = (owner workerQueue task).taskId ∧
          bare.runId = (owner workerQueue task).runId := ⟨rfl, rfl⟩
      have hctx := taskContext_owned config.claimTimeout true hids
      apply (context_owned hctx).bind
      rintro (err | ctx) hbelongs
      · exact ⟨trivial, fun _ _ => trivial⟩
      · obtain ⟨handler, he⟩ := h tasks registration rfl hregistered ctx
        have hprocess := process_confined chrono turns handler (hbelongs ctx rfl)
        rw [← he] at hprocess
        apply (context_owned hprocess).bind
        exact fun _ _ => ⟨trivial, fun _ _ => trivial⟩
    · simp only [ne_eq, hqueue, not_false_eq_true, if_true]
      trivial

lemma settleOutcome_owned (o : Outcome) :
    (settleOutcome workerQueue task config o).Calls (owner workerQueue task).Executes := by
  rcases o with _ | err | (err | value)
  · exact handleUnknownTask_owned _
  · exact failRunPayload_owned (o := owner workerQueue task) _
  · rw [settleOutcome]
    split
    · trivial
    · apply (failRunPayload_owned (o := owner workerQueue task) _).bind
      intro result
      exact (reportExecutionError_owned _ _).bind fun _ => trivial
  · exact completeRun_owned (o := owner workerQueue task) _

lemma afterJoin_owned (ending : Except JoinError (Result Unit)) :
    (afterJoin workerQueue task config ending).Calls (owner workerQueue task).Executes := by
  rcases ending with (message | _) | result
  · apply (failRunPayload_owned (o := owner workerQueue task) _).bind
    intro result
    exact (reportExecutionError_owned _ _).bind fun _ => trivial
  · trivial
  · trivial

/-- Every statement that the execution of a claimed task sends, cut anywhere and whatever it is
answered, names the queue of the worker, the task and its run; only the result of a task that it
waits for is looked up in another queue, with a name that is accepted. -/
theorem execution_isolated {chrono : Serde DateTime} {turns : ℕ} {q : Execute (Result Unit)}
    {log : Log} (hmethods : UsesMethods chrono turns registry task config)
    (h : Run transcribed (executeClaimedCatching workerQueue registry task config) [] q log) :
    ∀ x ∈ log, (owner workerQueue task).Executes x.1 := by
  have hcalls : (executeClaimedCatching workerQueue registry task config).Calls
      (owner workerQueue task).Executes := by
    cases registry with
    | none => trivial
    | some tasks =>
      rw [executeClaimedCatching_eq]
      apply ((outcome_owned hmethods).calls.caught joinError).bind
      rintro (err | o)
      · exact afterJoin_owned _
      · exact ((settleOutcome_owned o).caught joinError).bind afterJoin_owned
  obtain ⟨-, hlog⟩ := h.yields (fun _ _ => trivial) (hcalls.yields (G := fun _ _ => True))
  exact fun x hx => (hlog x hx).resolve_left List.not_mem_nil

def unreadable : Serde DateTime := ⟨fun _ => .ok .null, fun _ => .error "not a timestamp"⟩

def beatingRegistry : Registry := fun _ =>
  some ⟨"default", fun _ => MethodHandler.process unreadable 0
    (.call .heartbeat fun _ => .done (.ok .null))⟩

lemma beating_usesMethods :
    UsesMethods unreadable 0 (some beatingRegistry) sampleTask sampleConfig := by
  rintro _ registration ⟨⟩ ⟨⟩ ctx
  exact ⟨_, rfl⟩

theorem execution_isolated_sample : ∃ q log,
    Run transcribed (executeClaimedCatching "default" (some beatingRegistry) sampleTask sampleConfig) []
      q log ∧ log.length = 6 ∧ ∀ x ∈ log, (owner "default" sampleTask).Executes x.1 := by
  refine ⟨?q, ?log, ?run, ?length, execution_isolated beating_usesMethods ?run⟩
  case run =>
    apply Run.step (A := ExecutorAnswer) (e := .spawnWatchdog _ _ _) (r := ())
    · exact rfl
    apply Run.step (A := ExecutorAnswer) (e := .context .poolGet) (r := Except.ok ())
    · exact rfl
    apply Run.step (A := ExecutorAnswer)
      (e := .context (.query (.getTaskCheckpointStates _ _ _))) (r := Except.ok [])
    · exact rfl
    apply Run.step (A := ExecutorAnswer) (e := .context .poolGet) (r := Except.ok ())
    · exact rfl
    apply Run.step (A := ExecutorAnswer) (e := .context (.query (.extendClaim _ _ _)))
      (r := Except.ok ())
    · exact rfl
    apply Run.step (A := ExecutorAnswer) (e := .context (.sendLease _)) (r := ())
    · exact rfl
    exact .refl _ _
  case length => rfl

end Execution

end AbsurdSdk.Execution
