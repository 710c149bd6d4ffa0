import AbsurdSdk.Model.TaskResult

/-! The durable operations of a task. `ContextM` is a method of `&mut TaskContext`: what it
changed in the context stays changed when it returns an error. -/

namespace AbsurdSdk.Model

open Interaction

structure TaskContext where
  queueName : String
  task : ClaimedTask
  headers : List (String × Json)
  checkpointCache : String → Option Json
  stepNameCounter : String → ℕ
  reportedTimeouts : String → Bool
  claimTimeout : Duration
  claimTimeoutSeconds : ℕ
  leaseTx : Bool

@[ext] structure ContextM (α : Type) where
  run : TaskContext → Process (Result α × TaskContext)

namespace ContextM

variable {α β : Type}

instance : Monad ContextM where
  pure a := ⟨fun c => .done (.ok a, c)⟩
  bind m f := ⟨fun c => (m.run c).bind fun
    | (.ok a, c) => (f a).run c
    | (.error err, c) => .done (.error err, c)⟩

def context : ContextM TaskContext := ⟨fun c => .done (.ok c, c)⟩

def modify (f : TaskContext → TaskContext) : ContextM Unit := ⟨fun c => .done (.ok (), f c)⟩

def throw (err : Error) : ContextM α := ⟨fun c => .done (.error err, c)⟩

instance : MonadLift Async ContextM where
  monadLift x := ⟨fun c => x.run.bind fun r => .done (r, c)⟩

end ContextM

namespace TaskContext

open ContextM

def insertRows (rows : List (String × Json)) : String → Option Json :=
  rows.foldl (fun cache row => Function.update cache row.1 (some row.2)) fun _ => none

def new (queueName : String) (task : ClaimedTask) (claimTimeout : Duration) (leaseTx : Bool) :
    Async TaskContext := do
  let rows ← Async.query (.getTaskCheckpointStates queueName task.taskId task.runId)
  let context (headers : List (String × Json)) : TaskContext :=
    { queueName, task := { task with headers := none }, headers
      checkpointCache := insertRows rows
      stepNameCounter := fun _ => 0
      reportedTimeouts := fun _ => false
      claimTimeout
      claimTimeoutSeconds := durationSecondsCeil claimTimeout
      leaseTx }
  match task.headers with
  | none | some .null => return context []
  | some (.object headers) => return context headers
  | some _ => Async.throw .invalidHeaders

def nextCheckpointName (name : String) : ContextM String := do
  let count := (← context).stepNameCounter name + 1
  modify fun c => { c with stepNameCounter := Function.update c.stepNameCounter name count }
  if count = 1 then return name else return name ++ "#" ++ toString count

def cacheCheckpoint (name : String) (state : Json) : ContextM Unit :=
  modify fun c => { c with checkpointCache := Function.update c.checkpointCache name (some state) }

def notifyLeaseExtended (duration : Duration) : ContextM Unit := do
  if (← context).leaseTx then Async.sendLease duration else return ()

def lookupCheckpoint (checkpointName : String) : ContextM (Option Json) := do
  let c ← context
  match c.checkpointCache checkpointName with
  | some value => return some value
  | none =>
    let row ← Async.query (.getTaskCheckpointState c.queueName c.task.taskId checkpointName)
    match row with
    | none => return none
    | some value =>
      cacheCheckpoint checkpointName value
      return some value

def persistCheckpoint (checkpointName : String) (value : Json) : ContextM Unit := do
  let c ← context
  Async.query (.setTaskCheckpointState c.queueName c.task.taskId checkpointName value
    c.task.runId c.claimTimeoutSeconds)
  cacheCheckpoint checkpointName value
  notifyLeaseExtended c.claimTimeout

def scheduleRun (wakeAt : DateTime) : ContextM Unit := do
  let c ← context
  Async.query (.scheduleRun c.queueName c.task.runId wakeAt)

def currentTime : ContextM DateTime := Async.query .currentTime

end TaskContext

structure StepHandle (T : Type) where
  name : String
  checkpointName : String
  done : Bool
  state : Option T

def completedStepMissingState (checkpointName : String) : Error :=
  .config ("completed step handle " ++ debugStr checkpointName ++ " is missing cached state")

def StepHandle.intoCachedState {T : Type} (handle : StepHandle T) : Result T :=
  match handle.state with
  | some state => .ok state
  | none => .error (completedStepMissingState handle.checkpointName)

def extendClaim (queueName : String) (runId : Uuid) (duration : Duration) : Async Unit :=
  Async.query (.extendClaim queueName runId (durationSecondsCeil duration))

namespace TaskContext

open ContextM

variable {T : Type} (serde : Serde T)

def beginStep (name : String) : ContextM (StepHandle T) := do
  let checkpointName ← nextCheckpointName name
  match ← lookupCheckpoint checkpointName with
  | some cached =>
    let state ← Async.decode serde cached
    return { name, checkpointName, done := true, state := some state }
  | none => return { name, checkpointName, done := false, state := none }

def completeStep (handle : StepHandle T) (value : T) : ContextM T := do
  if handle.done then
    Async.ofResult handle.intoCachedState
  else
    let valueJson ← Async.encode serde value
    persistCheckpoint handle.checkpointName valueJson
    return value

def step (name : String) : ContextM T := do
  let handle ← beginStep serde name
  if handle.done then
    Async.ofResult handle.intoCachedState
  else
    let result ← Async.closure T
    completeStep serde handle result

section Sleep

variable (chrono : Serde DateTime)

def sleepUntilAtCurrentTime (name : String) (wakeAt now : DateTime) : ContextM Unit := do
  let checkpointName ← nextCheckpointName name
  let wakeAt := postgresTimestampPrecision wakeAt
  let actualWakeAt ← do
    match ← lookupCheckpoint checkpointName with
    | some cached => Async.decode chrono cached
    | none =>
      let value ← Async.encode chrono wakeAt
      persistCheckpoint checkpointName value
      pure wakeAt
  if now < actualWakeAt then
    scheduleRun actualWakeAt
    throw .suspended
  else
    return ()

def sleepFor (name : String) (duration : Duration) : ContextM Unit := do
  match chronoFromStd duration with
  | none => throw (.config "sleep duration is too large for chrono")
  | some duration =>
    let now ← currentTime
    match now.checkedAdd duration with
    | none => Async.panic "`DateTime + TimeDelta` overflowed"
    | some wakeAt => sleepUntilAtCurrentTime chrono name wakeAt now

def sleepUntil (name : String) (wakeAt : DateTime) : ContextM Unit := do
  let now ← currentTime
  sleepUntilAtCurrentTime chrono name wakeAt now

end Sleep

/-- `await_event` passes no step name and no timeout. -/
def awaitEventWithOptions (eventName : String) (options : AwaitEventOptions) : ContextM T := do
  if isBlank eventName then
    throw (.config "event name must be provided")
  else
    let defaultStepName := s!"$awaitEvent:{eventName}"
    let stepName := options.stepName.getD defaultStepName
    let checkpointName ← nextCheckpointName stepName
    match ← lookupCheckpoint checkpointName with
    | some cached => Async.decode serde cached
    | none =>
      let c ← context
      if c.task.wakeEvent = some eventName ∧ c.task.eventPayload.isNone then
        modify fun c => { c with
          task := { c.task with wakeEvent := none, eventPayload := none }
          reportedTimeouts := Function.update c.reportedTimeouts eventName true }
        throw (.eventTimeout eventName)
      else
        let timeoutSeconds := options.timeout.map durationSecondsCeil
        let (shouldSuspend, payload) ← Async.query (.awaitEvent c.queueName c.task.taskId
          c.task.runId checkpointName eventName timeoutSeconds)
        if shouldSuspend then
          throw .suspended
        else
          let reported := c.reportedTimeouts eventName
          match payload, reported with
          | none, false => throw (.eventTimeout eventName)
          | payload, _ =>
            let payload := payload.getD .null
            modify fun c => { c with
              reportedTimeouts := Function.update c.reportedTimeouts eventName false }
            cacheCheckpoint checkpointName payload
            Async.decode serde payload

def sameQueueWait : Error :=
  .config ("TaskContext.await_task_result cannot wait on tasks in the same queue because this " ++
    "can deadlock workers. Spawn the child in a different queue and pass options.queue.")

section AwaitTaskResult

variable (c : TaskContext) (heartbeatInterval : Duration)

def heartbeatBeforeSleep (nextHeartbeatAt : Instant) : Async Instant := do
  let shouldHeartbeat := nextHeartbeatAt ≤ (← Async.now)
  if shouldHeartbeat then
    let nextHeartbeatAt := (← Async.now) + heartbeatInterval.nanos
    extendClaim c.queueName c.task.runId c.claimTimeout
    if c.leaseTx then Async.sendLease c.claimTimeout
    return nextHeartbeatAt
  else
    return nextHeartbeatAt

end AwaitTaskResult

def awaitTaskResult (turns : ℕ) (taskId : Uuid) (options : AwaitTaskResultOptions) :
    ContextM TaskResultSnapshot := do
  let c ← context
  let queueName := options.queue.getD c.queueName
  Async.ofResult (validateQueueName queueName)
  if queueName = c.queueName then
    throw sameQueueWait
  else
    let defaultStepName := s!"$awaitTaskResult:{taskId.toString}"
    let stepName := options.stepName.getD defaultStepName
    let checkpointName ← nextCheckpointName stepName
    match ← lookupCheckpoint checkpointName with
    | some cached => Async.decode TaskResultSnapshot.serde cached
    | none =>
      let heartbeatInterval := max c.claimTimeout.half (Duration.fromMillis 500)
      let nextHeartbeatAt := (← Async.now) + heartbeatInterval.nanos
      let snapshot ← awaitTaskResultWithBackoff (fetchTaskResultSnapshot queueName taskId) taskId
        options.timeout (heartbeatBeforeSleep c heartbeatInterval) turns nextHeartbeatAt
      let value ← Async.encode TaskResultSnapshot.serde snapshot
      persistCheckpoint checkpointName value
      return snapshot

def emitEvent (eventName : String) (payload : T) : ContextM Unit := do
  if isBlank eventName then
    throw (.config "event name must be provided")
  else
    let payload ← Async.encode serde payload
    let c ← context
    Async.query (.emitEvent c.queueName eventName payload)

def heartbeatFor (duration : Duration) : ContextM Unit := do
  let c ← context
  extendClaim c.queueName c.task.runId duration
  notifyLeaseExtended duration

def heartbeat : ContextM Unit := do heartbeatFor (← context).claimTimeout

end TaskContext

end AbsurdSdk.Model
