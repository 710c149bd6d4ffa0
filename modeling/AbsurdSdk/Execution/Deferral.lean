import AbsurdSdk.Arithmetic.XorMultiply
import AbsurdSdk.Model.Executor

namespace AbsurdSdk.Execution

open Arithmetic Model

def fnvPrime : BitVec 32 := 0x01000193

def fnvOffset : BitVec 32 := 0x811c9dc5

def withByte (u : Uuid) (i : Fin 16) (b : UInt8) : Uuid :=
  ⟨u.bytes.set i b, by rw [List.length_set, u.sixteen]⟩

lemma foldl_toBitVec (bytes : List UInt8) (hash : UInt32) :
    (bytes.foldl (fun (hash : UInt32) byte => (hash ^^^ byte.toUInt32) * 0x01000193) hash).toBitVec =
      hashFrom fnvPrime hash.toBitVec (bytes.map fun byte => byte.toBitVec.setWidth 32) := by
  induction bytes generalizing hash with
  | nil => rfl
  | cons byte bytes ih => exact ih _

lemma deferDelay_eq (u : Uuid) :
    unknownTaskDeferDelay u = Duration.fromSecs (15 + ((hashFrom fnvPrime fnvOffset
      (u.bytes.map fun byte => byte.toBitVec.setWidth 32)).setWidth 4).toNat) := by
  rw [unknownTaskDeferDelay, ← show (0x811c9dc5 : UInt32).toBitVec = fnvOffset from rfl,
    ← foldl_toBitVec, BitVec.toNat_setWidth]
  rfl

lemma fromSecs_inj {j k : ℕ} (hj : j ≤ 30) :
    Duration.fromSecs j = Duration.fromSecs k ↔ j = k := by
  constructor
  · intro h
    have hnanos := congrArg Duration.nanos h
    simp only [Duration.fromSecs, Duration.ofNanos, nanosPerSecond] at hnanos
    omega
  · rintro rfl
    rfl

lemma withByte_bytes (u : Uuid) (i : Fin 16) (b : UInt8) :
    (withByte u i b).bytes = u.bytes.take i ++ b :: u.bytes.drop (i + 1) := by
  have hset : (withByte u i b).bytes = u.bytes.set i b := rfl
  have hi : i.1 < u.bytes.length := by
    rw [u.sixteen]
    exact i.isLt
  rw [hset, List.set_eq_take_append_cons_drop, if_pos hi]

def byteEquiv : UInt8 ≃ BitVec 8 := ⟨UInt8.toBitVec, UInt8.ofBitVec, fun _ => rfl, fun _ => rfl⟩

/-- Whatever the other bytes of a run's id, each whole number of seconds from 15 to 30 is its delay
for 16 of the 256 values of one byte. -/
theorem defer_delays_spread (u : Uuid) (i : Fin 16) (seconds : ℕ) :
    Nat.card {b : UInt8 // unknownTaskDeferDelay (withByte u i b) = Duration.fromSecs seconds} =
      if 15 ≤ seconds ∧ seconds ≤ 30 then 16 else 0 := by
  let wide (byte : UInt8) : BitVec 32 := byte.toBitVec.setWidth 32
  let pre := (u.bytes.take i).map wide
  let post := (u.bytes.drop (i + 1)).map wide
  let low (x : BitVec 8) : BitVec 4 :=
    (hashFrom fnvPrime fnvOffset (pre ++ x.setWidth 32 :: post)).setWidth 4
  have hdelay (b : UInt8) : unknownTaskDeferDelay (withByte u i b) =
      Duration.fromSecs (15 + (low b.toBitVec).toNat) := by
    rw [deferDelay_eq, withByte_bytes, List.map_append, List.map_cons]
  have hlow (b : UInt8) : (low b.toBitVec).toNat < 16 := (low b.toBitVec).isLt
  split
  · rename_i hseconds
    have hiff (b : UInt8) :
        unknownTaskDeferDelay (withByte u i b) = Duration.fromSecs seconds ↔
          low (byteEquiv b) = BitVec.ofNat 4 (seconds - 15) := by
      have := hlow b
      rw [hdelay, fromSecs_inj (by omega), ← BitVec.toNat_inj, BitVec.toNat_ofNat]
      change _ ↔ (low b.toBitVec).toNat = _
      omega
    rw [Nat.card_congr (Equiv.subtypeEquiv (q := fun x => low x = BitVec.ofNat 4 (seconds - 15))
      byteEquiv hiff)]
    exact card_hashFrom_eq (by decide) (by decide) (by decide) (by decide) _ pre post _
  · rename_i hseconds
    have hempty : IsEmpty
        {b : UInt8 // unknownTaskDeferDelay (withByte u i b) = Duration.fromSecs seconds} := by
      constructor
      rintro ⟨b, hb⟩
      have := hlow b
      rw [hdelay, fromSecs_inj (by omega)] at hb
      omega
    exact Nat.card_of_isEmpty

end AbsurdSdk.Execution
