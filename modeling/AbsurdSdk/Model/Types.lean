import AbsurdSdk.Model.Time

namespace AbsurdSdk.Model

inductive Number
  | int (n : ℤ)
  | float (bits : UInt64)
deriving DecidableEq

/-- A `serde_json::Value`; the fields of an object are in the order of its keys. -/
inductive Json
  | null
  | bool (b : Bool)
  | number (n : Number)
  | string (s : String)
  | array (xs : List Json)
  | object (fields : List (String × Json))

structure Uuid where
  bytes : List UInt8
  sixteen : bytes.length = 16
deriving DecidableEq

namespace Uuid

def hexDigit (n : ℕ) : Char := if n < 10 then Char.ofNat (48 + n) else Char.ofNat (87 + n)

def hexByte (b : UInt8) : List Char := [hexDigit (b.toNat / 16), hexDigit (b.toNat % 16)]

def toString (u : Uuid) : String :=
  let hex (i j : ℕ) : String := String.ofList (((u.bytes.take j).drop i).flatMap hexByte)
  hex 0 4 ++ "-" ++ hex 4 6 ++ "-" ++ hex 6 8 ++ "-" ++ hex 8 10 ++ "-" ++ hex 10 16

def nil : Uuid := ⟨List.replicate 16 0, rfl⟩

end Uuid

/-- Rust's `{:?}` for a string: quoted, with control characters, quotes and backslashes escaped. The
other characters that Rust holds to be unprintable are not told apart here. -/
def debugStr (s : String) : String :=
  let escape (c : Char) : List Char :=
    if c = '"' then ['\\', '"']
    else if c = '\\' then ['\\', '\\']
    else if c = '\n' then ['\\', 'n']
    else if c = '\r' then ['\\', 'r']
    else if c = '\t' then ['\\', 't']
    else if c = '\x00' then ['\\', '0']
    else if c.toNat < 32 ∨ (127 ≤ c.toNat ∧ c.toNat < 160) then
      ['\\', 'u', '{'] ++ Nat.toDigits 16 c.toNat ++ ['}']
    else [c]
  String.ofList ('"' :: (s.toList.flatMap escape ++ ['"']))

def isWhitespace (c : Char) : Bool :=
  (9 ≤ c.toNat ∧ c.toNat ≤ 13) ∨ c.toNat = 32 ∨ c.toNat = 133 ∨ c.toNat = 160 ∨
    c.toNat = 5760 ∨ (8192 ≤ c.toNat ∧ c.toNat ≤ 8202) ∨ c.toNat = 8232 ∨ c.toNat = 8233 ∨
    c.toNat = 8239 ∨ c.toNat = 8287 ∨ c.toNat = 12288

def isBlank (s : String) : Bool := s.toList.all isWhitespace

structure PgError where
  sqlState : Option String
  text : String
deriving DecidableEq

inductive Error
  | database (err : PgError)
  | pool (err : String)
  | serialization (err : String)
  | config (message : String)
  | taskNotRegistered (name : String)
  | taskAlreadyRegistered (name : String)
  | taskNotFound (taskId : Uuid)
  | taskResultTimeout (taskId : Uuid)
  | suspended
  | cancelled
  | alreadyFailed
  | eventTimeout (event : String)
  | join (err : String)
  | invalidHeaders
  | message (text : String)
deriving DecidableEq

abbrev Result (α : Type) := Except Error α

namespace Error

def isControlFlow : Error → Bool
  | suspended | cancelled | alreadyFailed => true
  | _ => false

def isTerminalStateRace : Error → Bool
  | cancelled | alreadyFailed => true
  | _ => false

def toString : Error → String
  | database err => "database error: " ++ err.text
  | pool err => "database pool error: " ++ err
  | serialization err => "serialization error: " ++ err
  | config text => "configuration error: " ++ text
  | taskNotRegistered name => "task " ++ debugStr name ++ " is not registered"
  | taskAlreadyRegistered name => "task " ++ debugStr name ++ " is already registered"
  | taskNotFound taskId => "task " ++ taskId.toString ++ " not found"
  | taskResultTimeout taskId => "timed out waiting for task " ++ taskId.toString
  | suspended => "task suspended"
  | cancelled => "task cancelled"
  | alreadyFailed => "task run is already failed"
  | eventTimeout event => "timed out waiting for event " ++ debugStr event
  | join err => "worker task join error: " ++ err
  | invalidHeaders => "invalid task headers: expected a JSON object"
  | message text => text

end Error

def mapDatabaseError (err : PgError) : Error :=
  match err.sqlState with
  | some "AB001" => .cancelled
  | some "AB002" => .alreadyFailed
  | _ => .database err

structure Serde (T : Type) where
  toValue : T → Except String Json
  fromValue : Json → Except String T

def Serde.Lossless {T : Type} (serde : Serde T) : Prop :=
  ∀ v j, serde.toValue v = .ok j → serde.fromValue j = .ok v

def Serde.json : Serde Json where
  toValue := .ok
  fromValue := .ok

lemma Serde.json_lossless : Serde.json.Lossless := by
  intro v j h
  cases h
  rfl

structure ClaimedTask where
  runId : Uuid
  taskId : Uuid
  attempt : ℤ
  taskName : String
  params : Json
  retryStrategy : Option Json
  maxAttempts : Option ℤ
  headers : Option Json
  wakeEvent : Option String
  eventPayload : Option Json

def sampleTask : ClaimedTask where
  runId := Uuid.nil
  taskId := Uuid.nil
  attempt := 1
  taskName := "task"
  params := .null
  retryStrategy := none
  maxAttempts := none
  headers := none
  wakeEvent := none
  eventPayload := none

structure AwaitEventOptions where
  stepName : Option String
  timeout : Option Duration

structure AwaitTaskResultOptions where
  queue : Option String
  timeout : Option Duration
  stepName : Option String

def validateQueueName (queueName : String) : Result Unit :=
  if queueName.isEmpty then
    .error (.config "queue name must be provided")
  else if queueName.utf8ByteSize > 57 then
    .error (.config ("queue name " ++ debugStr queueName ++ " is too long (max 57 bytes)"))
  else
    .ok ()

end AbsurdSdk.Model
