import AbsurdSdk.Model.Spawning
import AbsurdSdk.Model.TaskResult

/-! The operations of a client on its queues and on the tasks of others. A connection goes back to
the pool when the function that took it returns. -/

namespace AbsurdSdk.Model

open Interaction

def trim (s : String) : String :=
  String.ofList ((s.toList.dropWhile isWhitespace).reverse.dropWhile isWhitespace).reverse

def toAsciiLowercase (s : String) : String := String.ofList (s.toList.map Char.toLower)

/-! The readers of derived `Deserialize` instances. An object may have fields that nothing reads. -/

/-- The fields of a struct are read by their names from an object and in their order from an array. -/
def Json.structFields (names : List String) : Json → Except String (List (String × Json))
  | .object fields => .ok fields
  | .array elements =>
    if names.length < elements.length then .error "invalid length"
    else .ok (names.zip elements)
  | _ => .error "invalid type: expected a struct"

/-- A variant without fields is read from its name, or from an object that maps it to null. -/
def Json.asVariant {α : Type} (variant : String → Option α) : Json → Except String α
  | .string name => unknown (variant name)
  | .object [(name, .null)] => unknown (variant name)
  | .object [_] => .error "invalid type: expected unit"
  | .object _ => .error "invalid value: expected map with a single key"
  | _ => .error "invalid type: expected an enum"
where
  unknown : Option α → Except String α
    | some a => .ok a
    | none => .error "unknown variant"

def Json.asString : Json → Except String String
  | .string s => .ok s
  | _ => .error "invalid type: expected a string"

def Json.asI32 : Json → Except String Int32
  | .number (.int n) =>
    if Int32.minValue.toInt ≤ n ∧ n ≤ Int32.maxValue.toInt then
      .ok (Int32.ofInt n)
    else
      .error "invalid value: expected i32"
  | _ => .error "invalid type: expected i32"

section Fields

variable {α : Type} (read : Json → Except String α)

def requiredField (value : Option Json) : Except String α :=
  match value with
  | none => .error "missing field"
  | some j => read j

def defaultField (default : α) (value : Option Json) : Except String α :=
  match value with
  | none => .ok default
  | some j => read j

def nullableField (value : Option Json) : Except String (Option α) :=
  match value with
  | none | some .null => .ok none
  | some j => (read j).map some

end Fields

inductive QueueStorageMode
  | unpartitioned
  | partitioned
deriving DecidableEq

namespace QueueStorageMode

def asStr : QueueStorageMode → String
  | unpartitioned => "unpartitioned"
  | partitioned => "partitioned"

def fromStr (value : String) : Result QueueStorageMode :=
  match toAsciiLowercase (trim value) with
  | "unpartitioned" => .ok unpartitioned
  | "partitioned" => .ok partitioned
  | _ => .error (.config ("invalid queue storage mode: " ++ value))

def fromValue : Json → Except String QueueStorageMode :=
  Json.asVariant fun
    | "unpartitioned" => some unpartitioned
    | "partitioned" => some partitioned
    | _ => none

end QueueStorageMode

inductive QueueDetachMode
  | none
  | empty
deriving DecidableEq

namespace QueueDetachMode

def asStr : QueueDetachMode → String
  | none => "none"
  | empty => "empty"

def fromStr (value : String) : Result QueueDetachMode :=
  match toAsciiLowercase (trim value) with
  | "none" => .ok none
  | "empty" => .ok empty
  | _ => .error (.config ("invalid queue detach mode: " ++ value))

def fromValue : Json → Except String QueueDetachMode :=
  Json.asVariant fun
    | "none" => some none
    | "empty" => some empty
    | _ => Option.none

end QueueDetachMode

structure QueuePolicyOptions where
  partitionLookahead : Option String
  partitionLookback : Option String
  cleanupTtl : Option String
  cleanupLimit : Option Int32
  detachMode : Option QueueDetachMode
  detachMinAge : Option String
deriving DecidableEq

namespace QueuePolicyOptions

def isEmpty (options : QueuePolicyOptions) : Bool :=
  options.partitionLookahead.isNone && options.partitionLookback.isNone &&
    options.cleanupTtl.isNone && options.cleanupLimit.isNone && options.detachMode.isNone &&
    options.detachMinAge.isNone

def fields (options : QueuePolicyOptions) : List (String × Json) :=
  optionalField "cleanup_limit" options.cleanupLimit (fun value => .number (.int value.toInt)) ++
    optionalField "cleanup_ttl" options.cleanupTtl .string ++
    optionalField "detach_min_age" options.detachMinAge .string ++
    optionalField "detach_mode" options.detachMode (fun value => .string value.asStr) ++
    optionalField "partition_lookahead" options.partitionLookahead .string ++
    optionalField "partition_lookback" options.partitionLookback .string

def toSqlJson (options : QueuePolicyOptions) : Json := .object options.fields

def fieldNames : List String :=
  ["partition_lookahead", "partition_lookback", "cleanup_ttl", "cleanup_limit", "detach_mode",
    "detach_min_age"]

def fromFields (fields : List (String × Json)) : Except String QueuePolicyOptions := do
  let partitionLookahead ← nullableField Json.asString (fields.lookup "partition_lookahead")
  let partitionLookback ← nullableField Json.asString (fields.lookup "partition_lookback")
  let cleanupTtl ← nullableField Json.asString (fields.lookup "cleanup_ttl")
  let cleanupLimit ← nullableField Json.asI32 (fields.lookup "cleanup_limit")
  let detachMode ← nullableField QueueDetachMode.fromValue (fields.lookup "detach_mode")
  let detachMinAge ← nullableField Json.asString (fields.lookup "detach_min_age")
  return { partitionLookahead, partitionLookback, cleanupTtl, cleanupLimit, detachMode,
           detachMinAge }

def serde : Serde QueuePolicyOptions where
  toValue options := .ok (.object options.fields)
  fromValue j := do
    let fields ← j.structFields fieldNames
    fromFields fields

end QueuePolicyOptions

structure CreateQueueOptions extends QueuePolicyOptions where
  storageMode : QueueStorageMode
deriving DecidableEq

namespace CreateQueueOptions

def policyOptions (options : CreateQueueOptions) : QueuePolicyOptions :=
  options.toQueuePolicyOptions

def isDefaultQueueStorageMode (value : QueueStorageMode) : Bool := value = .unpartitioned

def serde : Serde CreateQueueOptions where
  toValue options :=
    let storageMode :=
      if isDefaultQueueStorageMode options.storageMode then none else some options.storageMode
    .ok (.object (options.fields ++
      optionalField "storage_mode" storageMode fun value => .string value.asStr))
  fromValue j := do
    let fields ← j.structFields ("storage_mode" :: QueuePolicyOptions.fieldNames)
    let storageMode ← defaultField QueueStorageMode.fromValue .unpartitioned
      (fields.lookup "storage_mode")
    let policy ← QueuePolicyOptions.fromFields fields
    return { policy with storageMode }

end CreateQueueOptions

structure QueuePolicy where
  queueName : String
  storageMode : QueueStorageMode
  partitionLookahead : String
  partitionLookback : String
  cleanupTtl : String
  cleanupLimit : Int32
  detachMode : QueueDetachMode
  detachMinAge : String
deriving DecidableEq

namespace QueuePolicy

def toValue (policy : QueuePolicy) : Json :=
  .object
    [("cleanup_limit", .number (.int policy.cleanupLimit.toInt)),
      ("cleanup_ttl", .string policy.cleanupTtl),
      ("detach_min_age", .string policy.detachMinAge),
      ("detach_mode", .string policy.detachMode.asStr),
      ("partition_lookahead", .string policy.partitionLookahead),
      ("partition_lookback", .string policy.partitionLookback),
      ("queue_name", .string policy.queueName),
      ("storage_mode", .string policy.storageMode.asStr)]

def serde : Serde QueuePolicy where
  toValue policy := .ok policy.toValue
  fromValue j := do
    let fields ← j.structFields
      ("queue_name" :: "storage_mode" :: QueuePolicyOptions.fieldNames)
    let queueName ← requiredField Json.asString (fields.lookup "queue_name")
    let storageMode ← requiredField QueueStorageMode.fromValue (fields.lookup "storage_mode")
    let partitionLookahead ← requiredField Json.asString (fields.lookup "partition_lookahead")
    let partitionLookback ← requiredField Json.asString (fields.lookup "partition_lookback")
    let cleanupTtl ← requiredField Json.asString (fields.lookup "cleanup_ttl")
    let cleanupLimit ← requiredField Json.asI32 (fields.lookup "cleanup_limit")
    let detachMode ← requiredField QueueDetachMode.fromValue (fields.lookup "detach_mode")
    let detachMinAge ← requiredField Json.asString (fields.lookup "detach_min_age")
    return { queueName, storageMode, partitionLookahead, partitionLookback, cleanupTtl,
             cleanupLimit, detachMode, detachMinAge }

end QueuePolicy

structure RetryTaskOptions where
  queue : Option String
  maxAttempts : Option ℤ
  spawnNew : Bool

def RetryTaskOptions.toSqlJson (options : RetryTaskOptions) : Result Json :=
  if options.maxAttempts.any (· < 1) then
    .error (.config "max attempts must be at least 1")
  else
    .ok (.object
      (optionalField "max_attempts" options.maxAttempts (fun value => .number (.int value)) ++
        if options.spawnNew then [("spawn_new", .bool true)] else []))

structure CleanupResult where
  tasksDeleted : ℤ
  eventsDeleted : ℤ

structure QueuePolicyRow where
  queueName : String
  storageMode : String
  partitionLookahead : String
  partitionLookback : String
  cleanupTtl : String
  cleanupLimit : Int32
  detachMode : String
  detachMinAge : String

inductive AdminStatement : Type → Type
  | createQueue (queueName : String) (storageMode : Option String) : AdminStatement Unit
  | setQueuePolicy (queueName : String) (policy : Json) : AdminStatement Unit
  | getQueuePolicy (queueName : String) : AdminStatement (Option QueuePolicyRow)
  | dropQueue (queueName : String) : AdminStatement Unit
  | listQueues : AdminStatement (List String)
  | emitEvent (queueName eventName : String) (payload : Json) : AdminStatement Unit
  | retryTask (queueName : String) (taskId : Uuid) (options : Json) : AdminStatement SpawnResult
  | cancelTask (queueName : String) (taskId : Uuid) : AdminStatement Unit
  | cleanupTasks (queueName : String) (ttlSeconds : ℕ) (limit : ℤ) : AdminStatement ℤ
  | cleanupEvents (queueName : String) (ttlSeconds : ℕ) (limit : ℤ) : AdminStatement ℤ

/-- `release` drops the connection of the last `poolGet`; `future` is a call of a future shared with
the contexts of tasks. -/
inductive AdminCall : Type 1
  | poolGet
  | execute {α : Type} (statement : AdminStatement α)
  | release
  | future (call : Call)

def AdminAnswer : AdminCall → Type
  | .poolGet => Except String Unit
  | .execute (α := α) _ => Except PgError α
  | .release => Unit
  | .future call => Answer call

@[ext] structure Admin (α : Type) where
  run : Program AdminCall AdminAnswer (Result α)

namespace Admin

variable {α β : Type}

instance : Monad Admin where
  pure a := ⟨.done (.ok a)⟩
  bind x f := ⟨x.run.bind fun
    | .ok a => (f a).run
    | .error err => .done (.error err)⟩

def ofResult (r : Result α) : Admin α := ⟨.done r⟩

def throw (err : Error) : Admin α := ⟨.done (.error err)⟩

def ofAsync (x : Async α) : Admin α := ⟨x.run.relabel .future fun _ r => r⟩

def execute (statement : AdminStatement α) : Admin α :=
  ⟨.call (.execute statement) fun r => .done (r.mapError mapDatabaseError)⟩

def withConnection (rest : Admin α) : Admin α :=
  ⟨.call .poolGet fun
    | .error err => .done (.error (.pool err))
    | .ok () => rest.run.bind fun r => .call .release fun _ => .done r⟩

end Admin

def QueuePolicyRow.policy (row : QueuePolicyRow) : Result QueuePolicy := do
  let storageMode ← QueueStorageMode.fromStr row.storageMode
  let detachMode ← QueueDetachMode.fromStr row.detachMode
  return { row with storageMode, detachMode }

namespace Client

variable (client : Client)

def createQueueIn (queueName : String) : Admin Unit := do
  Admin.ofResult (validateQueueName queueName)
  Admin.withConnection (Admin.execute (.createQueue queueName none))

def setQueuePolicyIn (queueName : String) (options : QueuePolicyOptions) : Admin Unit := do
  Admin.ofResult (validateQueueName queueName)
  if options.isEmpty then
    return ()
  else
    Admin.withConnection (Admin.execute (.setQueuePolicy queueName options.toSqlJson))

def createQueueInWithOptions (queueName : String) (options : CreateQueueOptions) : Admin Unit := do
  Admin.ofResult (validateQueueName queueName)
  Admin.withConnection do
    if options.storageMode = .unpartitioned then
      Admin.execute (.createQueue queueName none)
    else
      Admin.execute (.createQueue queueName (some options.storageMode.asStr))
    setQueuePolicyIn queueName options.policyOptions

def getQueuePolicyIn (queueName : String) : Admin (Option QueuePolicy) := do
  Admin.ofResult (validateQueueName queueName)
  Admin.withConnection do
    let row ← Admin.execute (.getQueuePolicy queueName)
    Admin.ofResult (row.mapM QueuePolicyRow.policy)

def dropQueueIn (queueName : String) : Admin Unit := do
  Admin.ofResult (validateQueueName queueName)
  Admin.withConnection (Admin.execute (.dropQueue queueName))

def listQueues : Admin (List String) := Admin.withConnection (Admin.execute .listQueues)

/-- `payload` is the outcome of `serde_json::to_value`. -/
def emitEvent (eventName : String) (payload : Except String Json) (queueName : Option String) :
    Admin Unit :=
  if isBlank eventName then
    Admin.throw (.config "event name must be provided")
  else do
    let queueName := queueName.getD client.queueName
    Admin.ofResult (validateQueueName queueName)
    let payload ← Admin.ofResult (payload.mapError .serialization)
    Admin.withConnection (Admin.execute (.emitEvent queueName eventName payload))

def retryTask (taskId : Uuid) (options : RetryTaskOptions) : Admin SpawnResult := do
  let queueName := options.queue.getD client.queueName
  Admin.ofResult (validateQueueName queueName)
  let optionsJson ← Admin.ofResult options.toSqlJson
  Admin.withConnection (Admin.execute (.retryTask queueName taskId optionsJson))

def fetchTaskResult (taskId : Uuid) (queueName : Option String) :
    Admin (Option TaskResultSnapshot) := do
  let queueName := queueName.getD client.queueName
  Admin.ofResult (validateQueueName queueName)
  Admin.ofAsync (fetchTaskResultSnapshot queueName taskId)

def awaitTaskResult (turns : ℕ) (taskId : Uuid) (options : AwaitTaskResultOptions) :
    Admin TaskResultSnapshot := do
  let queueName := options.queue.getD client.queueName
  Admin.ofResult (validateQueueName queueName)
  Admin.ofAsync (awaitTaskResultWithBackoff (fetchTaskResultSnapshot queueName taskId) taskId
    options.timeout (fun b : Unit => pure b) turns ())

def cancelTask (taskId : Uuid) (queueName : Option String) : Admin Unit := do
  let queueName := queueName.getD client.queueName
  Admin.ofResult (validateQueueName queueName)
  Admin.withConnection (Admin.execute (.cancelTask queueName taskId))

def cleanupWithLimit (ttl : Duration) (limit : ℤ) (queueName : Option String) :
    Admin CleanupResult := do
  let queueName := queueName.getD client.queueName
  Admin.ofResult (validateQueueName queueName)
  let ttlSeconds := durationSecondsCeil ttl
  Admin.withConnection do
    let tasksDeleted ← Admin.execute (.cleanupTasks queueName ttlSeconds limit)
    let eventsDeleted ← Admin.execute (.cleanupEvents queueName ttlSeconds limit)
    return { tasksDeleted, eventsDeleted }

end Client

end AbsurdSdk.Model
