import AbsurdSdk.Model.WorkBatch

/-! Registering tasks and spawning them, on the clones of a client: they share one registry behind
a lock, and each has hooks and defaults of its own. -/

namespace AbsurdSdk.Model

open Interaction

structure CancellationPolicy where
  maxDuration : Option Duration
  maxDelay : Option Duration

inductive RetryStrategy
  | none
  | fixed (base : Duration)
  | exponential (base : Duration) (factor : Float) (max : Option Duration)

structure SpawnOptions where
  queue : Option String
  maxAttempts : Option ℤ
  retryStrategy : Option RetryStrategy
  headers : Option (List (String × Json))
  cancellation : Option CancellationPolicy
  idempotencyKey : Option String

structure TaskOptions where
  name : String
  queue : Option String
  defaultMaxAttempts : Option ℤ
  defaultCancellation : Option CancellationPolicy

structure SpawnResult where
  taskId : Uuid
  runId : Uuid
  attempt : ℤ
  created : Bool

/-- `serde_json` writes a number that is not finite as null. -/
def Json.ofFloat (x : Float) : Json := if x.isFinite then .number (.float x.toBits) else .null

def durationSecondsF64 (d : Duration) : Float :=
  Float.ofNat d.asSecs + Float.ofNat d.subsecNanos / 1e9

def optionalField {α : Type} (name : String) (value : Option α) (f : α → Json) :
    List (String × Json) :=
  (value.map fun a => (name, f a)).toList

def RetryStrategy.toJson : RetryStrategy → Json
  | .none => .object [("kind", .string "none")]
  | .fixed base => .object
    [("base_seconds", .ofFloat (durationSecondsF64 base)), ("kind", .string "fixed")]
  | .exponential base factor max => .object
    ([("base_seconds", .ofFloat (durationSecondsF64 base)), ("factor", .ofFloat factor),
      ("kind", .string "exponential")] ++
      optionalField "max_seconds" max fun max => .ofFloat (durationSecondsF64 max))

def CancellationPolicy.toJson (policy : CancellationPolicy) : Option Json :=
  let seconds (d : Duration) : Json := .number (.int (durationSecondsCeil d))
  let fields := optionalField "max_delay" policy.maxDelay seconds ++
    optionalField "max_duration" policy.maxDuration seconds
  if fields.isEmpty then none else some (.object fields)

def SpawnOptions.toSqlJson (options : SpawnOptions) (effectiveMaxAttempts : ℤ)
    (effectiveCancellation : Option CancellationPolicy) : Json :=
  .object (optionalField "cancellation" (effectiveCancellation.bind CancellationPolicy.toJson) id ++
    optionalField "headers" options.headers .object ++
    optionalField "idempotency_key" options.idempotencyKey .string ++
    [("max_attempts", .number (.int effectiveMaxAttempts))] ++
    optionalField "retry_strategy" options.retryStrategy RetryStrategy.toJson)

structure Registration where
  queueName : String
  defaultMaxAttempts : Option ℤ
  defaultCancellation : Option CancellationPolicy

structure ClientTask extends Registration where
  handler : Json → Handler

abbrev ClientRegistry := String → Option ClientTask

def ClientRegistry.tasks (registry : ClientRegistry) : Registry := fun name =>
  (registry name).map fun task => ⟨task.queueName, task.handler⟩

structure ClientClone extends Client where
  defaultMaxAttempts : ℤ
  beforeSpawn : Bool

/-- `update` runs its function under the write lock, and `getRegistration` clones an entry under the
read lock. -/
inductive RegistryCall : Type 1
  | beforeSpawn (taskName : String) (params : Json) (options : SpawnOptions)
  | getRegistration (taskName : String)
  | update (f : ClientRegistry → Except Error ClientRegistry)
  | poolGet
  | spawnTask (queueName taskName : String) (params options : Json)

/-- There is no answer from a lock that is poisoned. -/
def RegistryAnswer : RegistryCall → Type
  | .beforeSpawn _ _ _ => Result SpawnOptions
  | .getRegistration _ => Option (Option Registration)
  | .update _ => Option (Result Unit)
  | .poolGet => Except String Unit
  | .spawnTask _ _ _ _ => Except PgError SpawnResult

abbrev RegistryM (α : Type) := Program RegistryCall RegistryAnswer α

def lockPoisoned : Error := .config "task registry lock poisoned"

def eraseHandler {P R : Type} (params : Serde P) (result : Serde R)
    (handler : P → TaskContext → Process (Result R)) : Json → Handler := fun value ctx =>
  (do
    let params ← Async.decode params value
    let value ← (⟨handler params ctx⟩ : Async R)
    Async.encode result value : Async Json).run

def insertTask (name : String) (task : ClientTask) (registry : ClientRegistry) :
    Except Error ClientRegistry :=
  match registry name with
  | some _ => .error (.taskAlreadyRegistered name)
  | none => .ok (Function.update registry name (some task))

namespace ClientClone

variable (client : ClientClone)

def registerWithOptions {P R : Type} (params : Serde P) (result : Serde R) (options : TaskOptions)
    (handler : P → TaskContext → Process (Result R)) : RegistryM (Result Unit) :=
  if isBlank options.name then
    .done (.error (.config "task name must be provided"))
  else if options.defaultMaxAttempts.any (· < 1) then
    .done (.error (.config "default max attempts must be at least 1"))
  else
    let queueName := options.queue.getD client.queueName
    match validateQueueName queueName with
    | .error err => .done (.error err)
    | .ok () =>
      let registered : ClientTask :=
        { queueName
          defaultMaxAttempts := options.defaultMaxAttempts
          defaultCancellation := options.defaultCancellation
          handler := eraseHandler params result handler }
      .call (.update (insertTask options.name registered)) fun
        | none => .done (.error lockPoisoned)
        | some r => .done r

def resolveQueue (taskName : String) (taskOptions : Option TaskOptions) (options : SpawnOptions) :
    Option Registration → Result String
  | some registration =>
    match options.queue with
    | some requested =>
      if requested ≠ registration.queueName then
        .error (.config ("task " ++ debugStr taskName ++ " is registered for queue " ++
          debugStr registration.queueName ++ ", but spawn requested queue " ++ debugStr requested))
      else
        targeted registration
    | none => targeted registration
  | none =>
    match options.queue, taskOptions.bind TaskOptions.queue with
    | some queue, _ => .ok queue
    | none, some queue => .ok queue
    | none, none => .error (.config ("task " ++ debugStr taskName ++
        " is not registered; provide SpawnOptions::queue or Task::queue for unregistered tasks"))
where
  targeted (registration : Registration) : Result String :=
    match taskOptions.bind TaskOptions.queue with
    | some taskQueue =>
      if taskQueue ≠ registration.queueName then
        .error (.config ("typed task " ++ debugStr taskName ++ " targets queue " ++
          debugStr taskQueue ++ ", but registered queue is " ++ debugStr registration.queueName))
      else
        .ok registration.queueName
    | none => .ok registration.queueName

def resolveSpawn (taskName : String) (taskOptions : Option TaskOptions) (options : SpawnOptions)
    (registration : Option Registration) : Result (String × ℤ × Option CancellationPolicy) := do
  let queueName ← resolveQueue taskName taskOptions options registration
  validateQueueName queueName
  let maxAttempts := (options.maxAttempts.or ((registration.bind Registration.defaultMaxAttempts).or
    (taskOptions.bind TaskOptions.defaultMaxAttempts))).getD client.defaultMaxAttempts
  if maxAttempts < 1 then
    .error (.config "max attempts must be at least 1")
  else
    let cancellation := options.cancellation.or
      ((registration.bind Registration.defaultCancellation).or
        (taskOptions.bind TaskOptions.defaultCancellation))
    .ok (queueName, maxAttempts, cancellation)

def applyBeforeSpawn (taskName : String) (params : Json) (options : SpawnOptions) :
    RegistryM (Result SpawnOptions) :=
  if client.beforeSpawn then .call (.beforeSpawn taskName params options) .done
  else .done (.ok options)

/-- `params` is the outcome of `serde_json::to_value`. -/
def spawnResolved (taskName : String) (taskOptions : Option TaskOptions)
    (params : Except String Json) (options : SpawnOptions) : RegistryM (Result SpawnResult) :=
  if isBlank taskName then
    .done (.error (.config "task name must be provided"))
  else
    match params with
    | .error err => .done (.error (.serialization err))
    | .ok params => do
      match ← client.applyBeforeSpawn taskName params options with
      | .error err => return .error err
      | .ok options => .call (.getRegistration taskName) fun
        | none => .done (.error lockPoisoned)
        | some registration =>
          match client.resolveSpawn taskName taskOptions options registration with
          | .error err => .done (.error err)
          | .ok (queueName, maxAttempts, cancellation) =>
            let optionsJson := options.toSqlJson maxAttempts cancellation
            .call .poolGet fun
              | .error err => .done (.error (.pool err))
              | .ok () => .call (.spawnTask queueName taskName params optionsJson) fun r =>
                .done (r.mapError mapDatabaseError)

def spawn (taskOptions : TaskOptions) (params : Except String Json) (options : SpawnOptions) :
    RegistryM (Result SpawnResult) :=
  client.spawnResolved taskOptions.name (some taskOptions) params options

def spawnNamed (taskName : String) (params : Except String Json) (options : SpawnOptions) :
    RegistryM (Result SpawnResult) :=
  client.spawnResolved taskName none params options

end ClientClone

end AbsurdSdk.Model
