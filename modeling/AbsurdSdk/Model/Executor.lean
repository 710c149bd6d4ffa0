import AbsurdSdk.Model.Context

namespace AbsurdSdk.Model

open Interaction

abbrev Handler := TaskContext → Process (Result Json)

structure RegisteredTask where
  queueName : String
  handler : Json → Handler

abbrev Registry := String → Option RegisteredTask

structure Hooks where
  wrapTaskExecution : Option (TaskContext → Handler → Process (Result Json))

inductive UnknownTaskPolicy
  | defer
  | fail
deriving DecidableEq

inductive WorkerErrorKind
  | claim
  | execution
deriving DecidableEq

/-- `debug` gives the `{:?}` text of an error. -/
structure TaskExecutionConfig where
  hooks : Hooks
  claimTimeout : Duration
  unknownTaskPolicy : UnknownTaskPolicy
  fatalOnLeaseTimeout : Bool
  onError : Bool
  debug : Error → String

inductive Settlement
  | completeRun (queueName : String) (runId : Uuid) (result : Json)
  | failRun (queueName : String) (runId : Uuid) (payload : Json) (retryAt : Option DateTime)
  | scheduleRunIn (queueName : String) (runId : Uuid) (seconds : Duration)

/-- `context` is a call made through the task's context or by the user's code; `getPool` is the
`pool.get()` that comes before a settling statement. -/
inductive ExecutorCall : Type 1
  | context (call : Call)
  | spawnWatchdog (lease : Duration) (taskLabel : String) (fatalOnLeaseTimeout : Bool)
  | abortWatchdog
  | getPool (settlement : Settlement)
  | settle (settlement : Settlement)
  | onError (kind : WorkerErrorKind) (err : Error)
  | panic (text : String)

def ExecutorAnswer : ExecutorCall → Type
  | .context call => Answer call
  | .spawnWatchdog _ _ _ => Unit
  | .abortWatchdog => Unit
  | .getPool _ => Except String Unit
  | .settle _ => Except PgError Unit
  | .onError _ _ => Except String Unit
  | .panic _ => Empty

abbrev Execute (α : Type) := Program ExecutorCall ExecutorAnswer α

def Execute.context {α : Type} (p : Process α) : Execute α := p.relabel .context fun _ r => r

lemma Execute.context_bind {α β : Type} (p : Process α) (f : α → Process β) :
    Execute.context (p.bind f) = (Execute.context p).bind fun a => Execute.context (f a) :=
  Program.relabel_bind _ _ p f

def spawnWatchdog (lease : Duration) (taskLabel : String) (fatalOnLeaseTimeout : Bool) :
    Execute Unit :=
  .call (.spawnWatchdog lease taskLabel fatalOnLeaseTimeout) fun _ => .done ()

def abortWatchdog : Execute Unit := .call .abortWatchdog fun _ => .done ()

def settle (settlement : Settlement) : Execute (Result Unit) :=
  .call (.getPool settlement) fun
    | .error err => .done (.error (.pool err))
    | .ok () => .call (.settle settlement) fun r => .done (r.mapError mapDatabaseError)

def reportError (kind : WorkerErrorKind) (err : Error) : Execute Unit :=
  .call (.onError kind err) fun
    | .ok () => .done ()
    | .error text => .call (.panic text) Empty.elim

def reportExecutionError (onError : Bool) (err : Error) : Execute Unit :=
  if onError then reportError .execution err else .done ()

def errorName : Error → String
  | .database _ => "Database"
  | .pool _ => "Pool"
  | .serialization _ => "Serialization"
  | .config _ => "Config"
  | .taskNotRegistered _ => "TaskNotRegistered"
  | .taskAlreadyRegistered _ => "TaskAlreadyRegistered"
  | .taskNotFound _ => "TaskNotFound"
  | .taskResultTimeout _ => "TaskResultTimeout"
  | .suspended => "Suspended"
  | .cancelled => "Cancelled"
  | .alreadyFailed => "AlreadyFailed"
  | .eventTimeout _ => "EventTimeout"
  | .join _ => "Join"
  | .invalidHeaders => "InvalidHeaders"
  | .message _ => "Error"

def failurePayload (name message debug : String) : Json :=
  .object [("debug", .string debug), ("message", .string message), ("name", .string name),
    ("traceback", .null)]

def errorFailurePayload (debug : Error → String) (err : Error) : Json :=
  failurePayload (errorName err) err.toString (debug err)

def completeRun (queueName : String) (runId : Uuid) (result : Json) : Execute (Result Unit) := do
  match ← settle (.completeRun queueName runId result) with
  | .error err => return if err.isTerminalStateRace then .ok () else .error err
  | .ok () => return .ok ()

def failRunPayload (queueName : String) (runId : Uuid) (payload : Json) :
    Execute (Result Unit) := do
  match ← settle (.failRun queueName runId payload none) with
  | .error err => return if err.isTerminalStateRace then .ok () else .error err
  | .ok () => return .ok ()

def failRunError (debug : Error → String) (queueName : String) (runId : Uuid) (err : Error) :
    Execute (Result Unit) :=
  failRunPayload queueName runId (errorFailurePayload debug err)

def unknownTaskDeferDelay (runId : Uuid) : Duration :=
  let hash := runId.bytes.foldl (fun (hash : UInt32) byte => (hash ^^^ byte.toUInt32) * 0x01000193)
    0x811c9dc5
  Duration.fromSecs (15 + (hash % 16).toNat)

def handleUnknownTask (workerQueue : String) (task : ClaimedTask) (policy : UnknownTaskPolicy) :
    Execute (Result Unit) :=
  match policy with
  | .defer => settle (.scheduleRunIn workerQueue task.runId (unknownTaskDeferDelay task.runId))
  | .fail =>
    let message := "task " ++ debugStr task.taskName ++ " is not registered"
    let debug := "TaskNotRegistered(" ++ debugStr task.taskName ++ ")"
    failRunPayload workerQueue task.runId (failurePayload "TaskNotRegistered" message debug)

def runHandler (handler : Json → Handler) (params : Json) (ctx : TaskContext) (hooks : Hooks) :
    Process (Result Json) :=
  let execute : Handler := fun ctx => handler params ctx
  match hooks.wrapTaskExecution with
  | some wrap => wrap ctx execute
  | none => execute ctx

def queueMismatch (task : ClaimedTask) (registration : RegisteredTask) (workerQueue : String) :
    Error :=
  .config ("task " ++ debugStr task.taskName ++ " is registered for queue " ++
    debugStr registration.queueName ++ ", but was claimed by worker queue " ++
    debugStr workerQueue)

/-- The registry is absent when its lock is poisoned. -/
def executeClaimed (workerQueue : String) (registry : Option Registry) (task : ClaimedTask)
    (config : TaskExecutionConfig) : Execute (Result Unit) :=
  match registry with
  | none => return .error (.config "task registry lock poisoned")
  | some registry =>
    match registry task.taskName with
    | none => handleUnknownTask workerQueue task config.unknownTaskPolicy
    | some registration =>
      if registration.queueName ≠ workerQueue then
        failRunError config.debug workerQueue task.runId
          (queueMismatch task registration workerQueue)
      else do
        let runId := task.runId
        let taskLabel := task.taskName ++ " (" ++ task.taskId.toString ++ ")"
        let params := task.params
        let task := { task with params := .null }
        spawnWatchdog config.claimTimeout taskLabel config.fatalOnLeaseTimeout
        let ctx ← Execute.context
          (TaskContext.new registration.queueName task config.claimTimeout true).run
        let result ← match ctx with
          | .ok ctx => Execute.context (runHandler registration.handler params ctx config.hooks)
          | .error err => pure (.error err)
        abortWatchdog
        match result with
        | .ok value => completeRun workerQueue runId value
        | .error err =>
          if err.isControlFlow then
            return .ok ()
          else
            let result ← failRunError config.debug workerQueue runId err
            reportExecutionError config.onError err
            return result

inductive JoinError
  | panic (text : String)
  | cancelled

/-- What `JoinHandle::await` returns when the task ends at this call. Nothing aborts the inner task,
so no call gives `cancelled`. -/
def joinError : ExecutorCall → Option JoinError
  | .panic text | .context (.panic text) => some (.panic text)
  | _ => none

def executeClaimedCatching (workerQueue : String) (registry : Option Registry)
    (task : ClaimedTask) (config : TaskExecutionConfig) : Execute (Result Unit) := do
  let inner := executeClaimed workerQueue registry task config
  match ← inner.caught joinError with
  | .ok result => return result
  | .error (.panic message) =>
    let result ← failRunPayload workerQueue task.runId
      (failurePayload "panic" message ("task panicked: " ++ message))
    let err := Error.message ("task panicked: " ++ message)
    reportExecutionError config.onError err
    return result
  | .error .cancelled => return .error (.join "task was cancelled")

end AbsurdSdk.Model
