import AbsurdSdk.Model.Executor

/-! `worker_loop`: claims as many tasks as there is room for and spawns their executions into a
`JoinSet`, until a shutdown is signalled. Its loops are followed for a number of turns. -/

namespace AbsurdSdk.Model

open Interaction

structure WorkerOptions where
  workerId : Option String
  claimTimeout : Duration
  concurrency : ℕ
  batchSize : Option ℕ
  pollInterval : Duration
  unknownTaskPolicy : UnknownTaskPolicy
  fatalOnLeaseTimeout : Bool

structure NormalizedWorkerOptions where
  workerId : String
  claimTimeout : Duration
  claimTimeoutSeconds : ℕ
  concurrency : ℕ
  batchSize : ℕ
  pollInterval : Duration
  unknownTaskPolicy : UnknownTaskPolicy
  fatalOnLeaseTimeout : Bool

def WorkerOptions.default : WorkerOptions where
  workerId := none
  claimTimeout := Duration.fromSecs 120
  concurrency := 1
  batchSize := none
  pollInterval := Duration.fromMillis 250
  unknownTaskPolicy := .defer
  fatalOnLeaseTimeout := true

def WorkerOptions.normalized (options : WorkerOptions) (defaultWorkerId : String) :
    Result NormalizedWorkerOptions :=
  if options.claimTimeout.isZero then
    .error (.config "claim timeout must be greater than zero")
  else if options.pollInterval.isZero then
    .error (.config "poll interval must be greater than zero")
  else
    let concurrency := max options.concurrency 1
    .ok
      { workerId := options.workerId.getD defaultWorkerId
        claimTimeout := options.claimTimeout
        claimTimeoutSeconds := durationSecondsCeil options.claimTimeout
        concurrency
        batchSize := max (options.batchSize.getD concurrency) 1
        pollInterval := options.pollInterval
        unknownTaskPolicy := options.unknownTaskPolicy
        fatalOnLeaseTimeout := options.fatalOnLeaseTimeout }

abbrev Joined := Except JoinError (Result Unit)

inductive Selected
  | changed (isErr : Bool)
  | joined (result : Option Joined)

/-- `claimTasks` begins a claim and `claimed` awaits its reply. `select` waits for the shutdown
channel and, if `join`, for the next execution to end; in `selectOrSleep` also for the poll
interval. -/
inductive WorkerCall
  | tryJoinNext
  | joinNext
  | borrow
  | len
  | isEmpty
  | claimTasks (queueName workerId : String) (claimTimeoutSeconds toClaim : ℕ)
  | claimed
  | spawn (task : ClaimedTask) (config : TaskExecutionConfig)
  | select (join : Bool)
  | selectOrSleep (pollInterval : Duration) (join : Bool)
  | onError (kind : WorkerErrorKind) (err : Error)
  | panic (text : String)
  | pending

def WorkerAnswer : WorkerCall → Type
  | .tryJoinNext => Option Joined
  | .joinNext => Option Joined
  | .borrow => Bool
  | .len => ℕ
  | .isEmpty => Bool
  | .claimTasks _ _ _ _ => Unit
  | .claimed => Result (List ClaimedTask)
  | .spawn _ _ => Unit
  | .select _ => Selected
  | .selectOrSleep _ _ => Option Selected
  | .onError _ _ => Except String Unit
  | .panic _ => Empty
  | .pending => Empty

abbrev WorkerM (α : Type) := Program WorkerCall WorkerAnswer α

namespace WorkerM

def tryJoinNext : WorkerM (Option Joined) := .call .tryJoinNext .done

def joinNext : WorkerM (Option Joined) := .call .joinNext .done

def borrow : WorkerM Bool := .call .borrow .done

def len : WorkerM ℕ := .call .len .done

def isEmpty : WorkerM Bool := .call .isEmpty .done

def claimTasks (queueName workerId : String) (claimTimeoutSeconds toClaim : ℕ) :
    WorkerM (Result (List ClaimedTask)) :=
  .call (.claimTasks queueName workerId claimTimeoutSeconds toClaim) fun _ =>
    .call .claimed .done

def spawn (task : ClaimedTask) (config : TaskExecutionConfig) : WorkerM Unit :=
  .call (.spawn task config) .done

def select (join : Bool) : WorkerM Selected := .call (.select join) .done

def selectOrSleep (pollInterval : Duration) (join : Bool) : WorkerM (Option Selected) :=
  .call (.selectOrSleep pollInterval join) .done

def hang {α : Type} : WorkerM α := .call .pending Empty.elim

end WorkerM

open WorkerM

def reportWorkerError (kind : WorkerErrorKind) (err : Error) : WorkerM Unit :=
  .call (.onError kind err) fun
    | .ok () => .done ()
    | .error text => .call (.panic text) Empty.elim

def JoinError.toString : JoinError → String
  | .panic text => "task panicked with message " ++ debugStr text
  | .cancelled => "task was cancelled"

def reportTaskResult : Joined → WorkerM (Result Unit)
  | .ok (.ok ()) => return .ok ()
  | .ok (.error err) => do
    reportWorkerError .execution err
    return .ok ()
  | .error err => do
    let err := Error.join err.toString
    reportWorkerError .execution err
    return .error err

def drainFinished : ℕ → WorkerM (Result Unit)
  | 0 => hang
  | turns + 1 => do
    match ← tryJoinNext with
    | none => return .ok ()
    | some result =>
      match ← reportTaskResult result with
      | .error err => return .error err
      | .ok () => drainFinished turns

def afterSelect : Selected → WorkerM (Result Bool)
  | .changed isErr => do
    if isErr then return .ok true else return .ok (← borrow)
  | .joined none => return .ok false
  | .joined (some result) => do
    match ← reportTaskResult result with
    | .error err => return .error err
    | .ok () => return .ok false

def waitForCapacityOrShutdown : WorkerM (Result Bool) := do
  let selected ← select (!(← isEmpty))
  afterSelect selected

def waitPollIntervalOrShutdown (pollInterval : Duration) : WorkerM (Result Bool) := do
  match ← selectOrSleep pollInterval (!(← isEmpty)) with
  | none => return .ok false
  | some selected => afterSelect selected

def spawnAll (config : TaskExecutionConfig) : List ClaimedTask → WorkerM Unit
  | [] => return ()
  | task :: tasks => do
    spawn task config
    spawnAll config tasks

def joinAll : ℕ → WorkerM (Result Unit)
  | 0 => hang
  | turns + 1 => do
    match ← joinNext with
    | none => return .ok ()
    | some result =>
      match ← reportTaskResult result with
      | .error err => return .error err
      | .ok () => joinAll turns

def workerLoop (queueName : String) (hooks : Hooks) (debug : Error → String)
    (options : NormalizedWorkerOptions) : ℕ → WorkerM (Result Unit)
  | 0 => hang
  | turns + 1 => do
    match ← drainFinished turns with
    | .error err => return .error err
    | .ok () =>
      if ← borrow then
        joinAll turns
      else
        let available := options.concurrency - (← len)
        if available = 0 then
          match ← waitForCapacityOrShutdown with
          | .error err => return .error err
          | .ok true => joinAll turns
          | .ok false => workerLoop queueName hooks debug options turns
        else
          let toClaim := min (min available options.batchSize) (2 ^ 31 - 1)
          match ← WorkerM.claimTasks queueName options.workerId options.claimTimeoutSeconds
              toClaim with
          | .error err =>
            reportWorkerError .claim err
            match ← waitPollIntervalOrShutdown options.pollInterval with
            | .error err => return .error err
            | .ok true => joinAll turns
            | .ok false => workerLoop queueName hooks debug options turns
          | .ok [] =>
            match ← waitPollIntervalOrShutdown options.pollInterval with
            | .error err => return .error err
            | .ok true => joinAll turns
            | .ok false => workerLoop queueName hooks debug options turns
          | .ok tasks =>
            let config : TaskExecutionConfig :=
              { hooks, claimTimeout := options.claimTimeout
                unknownTaskPolicy := options.unknownTaskPolicy
                fatalOnLeaseTimeout := options.fatalOnLeaseTimeout, onError := true, debug }
            spawnAll config tasks
            workerLoop queueName hooks debug options turns

end AbsurdSdk.Model
