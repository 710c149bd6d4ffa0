import AbsurdSdk.Model.Executor

/-! `Client::work_batch`: one claim, then the claimed tasks one after another. An execution is one
call, answered with what `execute_claimed_catching` returns. -/

namespace AbsurdSdk.Model

open Interaction

structure WorkBatchOptions where
  workerId : Option String
  claimTimeout : Duration
  batchSize : ℕ
  unknownTaskPolicy : UnknownTaskPolicy

namespace WorkBatchOptions

def workerIdValue (options : WorkBatchOptions) : String := options.workerId.getD "worker"

def claimTimeoutSeconds (options : WorkBatchOptions) : Result ℕ :=
  if options.claimTimeout.isZero then
    .error (.config "claim timeout must be greater than zero")
  else
    .ok (durationSecondsCeil options.claimTimeout)

end WorkBatchOptions

structure Client where
  queueName : String
  hooks : Hooks

inductive ClientCall
  | getPool
  | claimTask (queueName workerId : String) (claimTimeoutSeconds batchSize : ℕ)
  | execute (task : ClaimedTask) (config : TaskExecutionConfig)

def ClientAnswer : ClientCall → Type
  | .getPool => Except String Unit
  | .claimTask _ _ _ _ => Except PgError (List ClaimedTask)
  | .execute _ _ => Result Unit

abbrev ClientM (α : Type) := Program ClientCall ClientAnswer α

def claimTasks (queueName workerId : String) (claimTimeoutSeconds batchSize : ℕ) :
    ClientM (Result (List ClaimedTask)) :=
  .call .getPool fun
    | .error err => .done (.error (.pool err))
    | .ok () => .call (.claimTask queueName workerId claimTimeoutSeconds batchSize) fun r =>
      .done (r.mapError mapDatabaseError)

def executeAll (config : TaskExecutionConfig) : List ClaimedTask → ClientM (Result Unit)
  | [] => .done (.ok ())
  | task :: tasks => .call (.execute task config) fun
    | .error err => .done (.error err)
    | .ok () => executeAll config tasks

def Client.workBatch (client : Client) (debug : Error → String) (options : WorkBatchOptions) :
    ClientM (Result ℕ) :=
  match options.claimTimeoutSeconds with
  | .error err => .done (.error err)
  | .ok claimTimeoutSeconds => do
    let batchSize := min (max options.batchSize 1) (2 ^ 31 - 1)
    match ← claimTasks client.queueName options.workerIdValue claimTimeoutSeconds batchSize with
    | .error err => return .error err
    | .ok tasks =>
      let config : TaskExecutionConfig :=
        { hooks := client.hooks, claimTimeout := options.claimTimeout
          unknownTaskPolicy := options.unknownTaskPolicy
          fatalOnLeaseTimeout := false, onError := false, debug }
      match ← executeAll config tasks with
      | .error err => return .error err
      | .ok () => return .ok tasks.length

end AbsurdSdk.Model
