import AbsurdSdk.Interaction.Run
import AbsurdSdk.Model.Types

/-! What a task execution asks of its surroundings: the connection pool, Absurd's stored
procedures, the clock, the lease channel and the code of its user. `Async` is an `async fn` that
returns a `Result`; its binds are the `?` operator. -/

namespace AbsurdSdk.Model

open Interaction

inductive Statement : Type → Type
  | getTaskCheckpointStates (queue : String) (taskId runId : Uuid) :
      Statement (List (String × Json))
  | getTaskCheckpointState (queue : String) (taskId : Uuid) (name : String) :
      Statement (Option Json)
  | setTaskCheckpointState (queue : String) (taskId : Uuid) (name : String) (state : Json)
      (runId : Uuid) (extendClaimBy : ℕ) : Statement Unit
  | awaitEvent (queue : String) (taskId runId : Uuid) (name event : String)
      (timeout : Option ℕ) : Statement (Bool × Option Json)
  | emitEvent (queue event : String) (payload : Json) : Statement Unit
  | getTaskResult (queue : String) (taskId : Uuid) :
      Statement (Option (String × Option Json × Option Json))
  | scheduleRun (queue : String) (runId : Uuid) (wakeAt : DateTime) : Statement Unit
  | extendClaim (queue : String) (runId : Uuid) (seconds : ℕ) : Statement Unit
  | currentTime : Statement DateTime

/-- `closure T` runs the user's code of a step and `supply T` asks the handler for a value it
computed itself; either may panic. `panic` and `pending` are never answered: the first unwinds,
the second stands for a future that is not polled to its end. -/
inductive Call : Type 1
  | poolGet
  | query {α : Type} (statement : Statement α)
  | sendLease (duration : Duration)
  | now
  | sleep (duration : Duration)
  | closure (T : Type)
  | supply (T : Type)
  | panic (text : String)
  | pending

def Answer : Call → Type
  | .poolGet => Except String Unit
  | .query (α := α) _ => Except PgError α
  | .sendLease _ => Unit
  | .now => Instant
  | .sleep _ => Unit
  | .closure T => Except String (Result T)
  | .supply T => Except String T
  | .panic _ => Empty
  | .pending => Empty

abbrev Process (α : Type) := Program Call Answer α

@[ext] structure Async (α : Type) where
  run : Process (Result α)

namespace Async

variable {α β : Type}

instance : Monad Async where
  pure a := ⟨.done (.ok a)⟩
  bind x f := ⟨x.run.bind fun
    | .ok a => (f a).run
    | .error err => .done (.error err)⟩

def ofResult (r : Result α) : Async α := ⟨.done r⟩

def throw (err : Error) : Async α := ⟨.done (.error err)⟩

def panic (text : String) : Async α := ⟨.call (.panic text) Empty.elim⟩

def hang : Async α := ⟨.call .pending Empty.elim⟩

def now : Async Instant := ⟨.call .now fun t => .done (.ok t)⟩

def sleep (d : Duration) : Async Unit := ⟨.call (.sleep d) fun _ => .done (.ok ())⟩

def sendLease (d : Duration) : Async Unit := ⟨.call (.sendLease d) fun _ => .done (.ok ())⟩

def pool : Async Unit := ⟨.call .poolGet fun r => .done (r.mapError .pool)⟩

def execute (statement : Statement α) : Async α :=
  ⟨.call (.query statement) fun r => .done (r.mapError mapDatabaseError)⟩

def query (statement : Statement α) : Async α := do
  pool
  execute statement

def closure (T : Type) : Async T := ⟨.call (.closure T) fun
  | .ok r => .done r
  | .error text => (panic text).run⟩

def supply (T : Type) : Async T := ⟨.call (.supply T) fun
  | .ok v => .done (.ok v)
  | .error text => (panic text).run⟩

def decode {T : Type} (serde : Serde T) (j : Json) : Async T :=
  ofResult ((serde.fromValue j).mapError .serialization)

def encode {T : Type} (serde : Serde T) (v : T) : Async Json :=
  ofResult ((serde.toValue v).mapError .serialization)

end Async

end AbsurdSdk.Model
