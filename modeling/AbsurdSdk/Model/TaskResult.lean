import AbsurdSdk.Model.Calls

namespace AbsurdSdk.Model

def initialTaskResultBackoff : Duration := Duration.fromMillis 50

def maxTaskResultBackoff : Duration := Duration.fromSecs 1

inductive TaskResultState
  | pending
  | running
  | sleeping
  | completed
  | failed
  | cancelled
deriving DecidableEq

namespace TaskResultState

def asStr : TaskResultState → String
  | pending => "pending"
  | running => "running"
  | sleeping => "sleeping"
  | completed => "completed"
  | failed => "failed"
  | cancelled => "cancelled"

def isTerminal : TaskResultState → Bool
  | completed | failed | cancelled => true
  | _ => false

def tryFrom (value : String) : Result TaskResultState :=
  match value with
  | "pending" => .ok pending
  | "running" => .ok running
  | "sleeping" => .ok sleeping
  | "completed" => .ok completed
  | "failed" => .ok failed
  | "cancelled" => .ok cancelled
  | other => .error (.config ("unknown task result state " ++ debugStr other))

end TaskResultState

inductive TaskResultSnapshot
  | pending
  | running
  | sleeping
  | completed (result : Json)
  | failed (failure : Json)
  | cancelled

namespace TaskResultSnapshot

def state : TaskResultSnapshot → TaskResultState
  | pending => .pending
  | running => .running
  | sleeping => .sleeping
  | completed _ => .completed
  | failed _ => .failed
  | cancelled => .cancelled

def isTerminal (snapshot : TaskResultSnapshot) : Bool := snapshot.state.isTerminal

def result : TaskResultSnapshot → Option Json
  | completed result => some result
  | _ => none

def deserializeResult {T : Type} (serde : Serde T) (snapshot : TaskResultSnapshot) :
    Result (Option T) :=
  (snapshot.result.mapM serde.fromValue).mapError .serialization

def fromSqlParts (state : String) (result failure : Option Json) :
    Result TaskResultSnapshot := do
  match ← TaskResultState.tryFrom state with
  | .pending => return pending
  | .running => return running
  | .sleeping => return sleeping
  | .completed => return completed (result.getD .null)
  | .failed => return failed (failure.getD .null)
  | .cancelled => return cancelled

def toValue (snapshot : TaskResultSnapshot) : Json :=
  let tag := ("state", Json.string snapshot.state.asStr)
  match snapshot with
  | completed result => .object [("result", result), tag]
  | failed failure => .object [("failure", failure), tag]
  | _ => .object [tag]

def fromTag (unit : Except String Unit) (field : String → Except String (Option Json)) :
    String → Except String TaskResultSnapshot
  | "pending" => unit.map fun _ => pending
  | "running" => unit.map fun _ => running
  | "sleeping" => unit.map fun _ => sleeping
  | "completed" => (field "result").map fun result => completed (result.getD .null)
  | "failed" => (field "failure").map fun failure => failed (failure.getD .null)
  | "cancelled" => unit.map fun _ => cancelled
  | _ => .error "unknown variant"

def fromValue : Json → Except String TaskResultSnapshot
  | .object fields =>
    match fields.lookup "state" with
    | some (.string tag) => fromTag (.ok ()) (fun name => .ok (fields.lookup name)) tag
    | some _ => .error "invalid type: expected variant identifier"
    | none => .error "missing field"
  | .array [] => .error "missing field"
  | .array [.string tag] => fromTag (.ok ()) (fun _ => .ok none) tag
  | .array [.string tag, j] => fromTag (.error "invalid length") (fun _ => .ok (some j)) tag
  | .array (.string _ :: _) => .error "invalid length"
  | .array _ => .error "invalid type: expected variant identifier"
  | _ => .error "invalid type: expected internally tagged enum TaskResultSnapshot"

/-- The derived serde instances: an object tagged by its field `state`, read from an array as well. -/
def serde : Serde TaskResultSnapshot where
  toValue snapshot := .ok snapshot.toValue
  fromValue := fromValue

lemma serde_lossless : serde.Lossless := by
  intro snapshot j h
  cases h
  cases snapshot <;> rfl

end TaskResultSnapshot

def fetchTaskResultSnapshot (queueName : String) (taskId : Uuid) :
    Async (Option TaskResultSnapshot) := do
  let row ← Async.query (.getTaskResult queueName taskId)
  match row with
  | none => return none
  | some (state, result, failure) =>
    let snapshot ← Async.ofResult (TaskResultSnapshot.fromSqlParts state result failure)
    return some snapshot

def nextTaskResultBackoff (delay : Duration) : Duration :=
  min (delay.saturatingMul 2) maxTaskResultBackoff

def nextSleepDuration (startedAt : Instant) (timeout : Option Duration) (delay : Duration)
    (taskId : Uuid) : Async Duration :=
  match timeout with
  | none => return delay
  | some timeout => do
    let now ← Async.now
    let elapsed := Duration.ofNanos (now - startedAt)
    if timeout.nanos ≤ elapsed.nanos then
      Async.throw (.taskResultTimeout taskId)
    else
      return min delay (timeout.sub elapsed)

section Backoff

variable {B : Type} (fetchSnapshot : Async (Option TaskResultSnapshot)) (taskId : Uuid)
  (timeout : Option Duration) (beforeSleep : B → Async B)

/-- The loop of `await_task_result_with_backoff`, followed for a number of turns; `b` is what the
`FnMut` before each sleep remembers. -/
def backoffLoop (startedAt : Instant) : ℕ → Duration → B → Async TaskResultSnapshot
  | 0, _, _ => Async.hang
  | turns + 1, delay, b => do
    let snapshot ← fetchSnapshot
    match snapshot with
    | none => Async.throw (.taskNotFound taskId)
    | some snapshot =>
      if snapshot.isTerminal then
        return snapshot
      else
        let sleepFor ← nextSleepDuration startedAt timeout delay taskId
        let b ← beforeSleep b
        Async.sleep sleepFor
        backoffLoop startedAt turns (nextTaskResultBackoff delay) b

def awaitTaskResultWithBackoff (turns : ℕ) (b : B) : Async TaskResultSnapshot := do
  let startedAt ← Async.now
  backoffLoop fetchSnapshot taskId timeout beforeSleep startedAt turns initialTaskResultBackoff b

end Backoff

end AbsurdSdk.Model
