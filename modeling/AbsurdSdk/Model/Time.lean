import Mathlib.Tactic

namespace AbsurdSdk.Model

def nanosPerSecond : ℕ := 1000000000

@[ext] structure Duration where
  nanos : ℕ
  bounded : nanos < 2 ^ 64 * nanosPerSecond
deriving DecidableEq

namespace Duration

/-- Saturates at the longest duration, like the `saturating_` operations. -/
def ofNanos (n : ℕ) : Duration :=
  ⟨min n (2 ^ 64 * nanosPerSecond - 1), by unfold nanosPerSecond; omega⟩

def fromSecs (n : ℕ) : Duration := ofNanos (n * nanosPerSecond)

def fromMillis (n : ℕ) : Duration := ofNanos (n * 1000000)

def asSecs (d : Duration) : ℕ := d.nanos / nanosPerSecond

def subsecNanos (d : Duration) : ℕ := d.nanos % nanosPerSecond

def isZero (d : Duration) : Bool := d.nanos == 0

def saturatingMul (d : Duration) (k : ℕ) : Duration := ofNanos (d.nanos * k)

def half (d : Duration) : Duration := ⟨d.nanos / 2, by have := d.bounded; omega⟩

def sub (a b : Duration) : Duration := ⟨a.nanos - b.nanos, by have := a.bounded; omega⟩

instance : Max Duration := ⟨fun a b => if a.nanos ≤ b.nanos then b else a⟩

instance : Min Duration := ⟨fun a b => if a.nanos ≤ b.nanos then a else b⟩

lemma ofNanos_nanos {n : ℕ} (h : n < 2 ^ 64 * nanosPerSecond) : (ofNanos n).nanos = n := by
  simp only [ofNanos]
  omega

@[simp] lemma half_nanos (d : Duration) : d.half.nanos = d.nanos / 2 := rfl

@[simp] lemma sub_nanos (a b : Duration) : (a.sub b).nanos = a.nanos - b.nanos := rfl

@[simp] lemma max_nanos (a b : Duration) : (max a b).nanos = max a.nanos b.nanos := by
  change (if a.nanos ≤ b.nanos then b else a).nanos = _
  split <;> omega

@[simp] lemma min_nanos (a b : Duration) : (min a b).nanos = min a.nanos b.nanos := by
  change (if a.nanos ≤ b.nanos then a else b).nanos = _
  split <;> omega

end Duration

def durationSecondsCeil (d : Duration) : ℕ :=
  min (min (d.asSecs + (if d.subsecNanos > 0 then 1 else 0)) (2 ^ 64 - 1)) (2 ^ 31 - 1)

lemma durationSecondsCeil_eq (d : Duration) :
    durationSecondsCeil d =
      min ((d.nanos + (nanosPerSecond - 1)) / nanosPerSecond) (2 ^ 31 - 1) := by
  unfold durationSecondsCeil Duration.asSecs Duration.subsecNanos nanosPerSecond
  split <;> omega

/-- Nanoseconds of a monotonic clock. Additions are unbounded, and the panic of one past `instantEnd`
is not among the steps of the functions that add. -/
abbrev Instant := ℕ

/-- Where an addition to an instant panics: its seconds are a signed 64-bit number. -/
def instantEnd : ℕ := 2 ^ 63 * nanosPerSecond

/-- A chrono `DateTime<Utc>`: Unix seconds, and nanoseconds that pass one second inside a leap
second. Timestamps are ordered by seconds, then by nanoseconds. -/
structure DateTime where
  secs : ℤ
  nanos : ℕ
  bounded : nanos < 2 * nanosPerSecond
deriving DecidableEq

namespace DateTime

instance : LT DateTime :=
  ⟨fun a b => a.secs < b.secs ∨ a.secs = b.secs ∧ a.nanos < b.nanos⟩

lemma lt_iff {a b : DateTime} : a < b ↔ a.secs < b.secs ∨ a.secs = b.secs ∧ a.nanos < b.nanos :=
  Iff.rfl

instance (a b : DateTime) : Decidable (a < b) := decidable_of_iff' _ lt_iff

instance : LE DateTime :=
  ⟨fun a b => a.secs < b.secs ∨ a.secs = b.secs ∧ a.nanos ≤ b.nanos⟩

lemma le_iff {a b : DateTime} : a ≤ b ↔ a.secs < b.secs ∨ a.secs = b.secs ∧ a.nanos ≤ b.nanos :=
  Iff.rfl

lemma not_lt {a b : DateTime} : ¬ a < b ↔ b ≤ a := by
  rw [lt_iff, le_iff]
  omega

lemma le_trans {a b c : DateTime} (h : a ≤ b) (h' : b ≤ c) : a ≤ c := by
  rw [le_iff] at h h' ⊢
  omega

def InRange (t : DateTime) : Prop := -8334601228800 ≤ t.secs ∧ t.secs ≤ 8210266876799

instance (t : DateTime) : Decidable t.InRange := inferInstanceAs (Decidable (_ ∧ _))

def timestampSubsecMicros (t : DateTime) : ℕ := t.nanos / 1000

def withNanosecond (t : DateTime) (nano : ℕ) : Option DateTime :=
  if h : nano < 2 * nanosPerSecond then some ⟨t.secs, nano, h⟩ else none

/-- `t + d` for a `TimeDelta` of `d` nanoseconds. A leap second is left only when the sum passes
its end. -/
def plus (t : DateTime) (d : ℕ) : DateTime :=
  if h : nanosPerSecond ≤ t.nanos ∧ t.nanos + d < 2 * nanosPerSecond then
    ⟨t.secs, t.nanos + d, h.2⟩
  else
    let nanos := t.nanos % nanosPerSecond + d
    ⟨t.secs + (nanos / nanosPerSecond : ℕ), nanos % nanosPerSecond, by
      have := Nat.mod_lt nanos (show 0 < nanosPerSecond by decide)
      omega⟩

lemma plus_secs (t : DateTime) (d : ℕ) :
    (t.plus d).secs = t.secs + ((t.nanos % nanosPerSecond + d) / nanosPerSecond : ℕ) := by
  have hb := t.bounded
  rw [plus]
  split
  · dsimp only
    simp only [nanosPerSecond] at *
    omega
  · rfl

lemma plus_nanos (t : DateTime) (d : ℕ) :
    (nanosPerSecond ≤ t.nanos ∧ t.nanos + d < 2 * nanosPerSecond ∧
        (t.plus d).nanos = t.nanos + d) ∨
      ¬ (nanosPerSecond ≤ t.nanos ∧ t.nanos + d < 2 * nanosPerSecond) ∧
        (t.plus d).nanos = (t.nanos % nanosPerSecond + d) % nanosPerSecond := by
  rw [plus]
  split
  · rename_i h
    exact Or.inl ⟨h.1, h.2, rfl⟩
  · rename_i h
    exact Or.inr ⟨h, rfl⟩

def elapsed (t u : DateTime) : ℤ :=
  (u.secs - t.secs) * nanosPerSecond + u.nanos - t.nanos +
    (if nanosPerSecond ≤ t.nanos ∧ t.secs < u.secs then nanosPerSecond else 0 : ℕ)

lemma elapsed_eq (t u : DateTime) :
    ((nanosPerSecond ≤ t.nanos ∧ t.secs < u.secs) ∧
        t.elapsed u = (u.secs - t.secs + 1) * nanosPerSecond + u.nanos - t.nanos) ∨
      ¬ (nanosPerSecond ≤ t.nanos ∧ t.secs < u.secs) ∧
        t.elapsed u = (u.secs - t.secs) * nanosPerSecond + u.nanos - t.nanos := by
  by_cases h : nanosPerSecond ≤ t.nanos ∧ t.secs < u.secs
  · refine Or.inl ⟨h, ?_⟩
    rw [elapsed, if_pos h]
    simp only [nanosPerSecond]
    omega
  · refine Or.inr ⟨h, ?_⟩
    rw [elapsed, if_neg h]
    omega

lemma elapsed_plus (t : DateTime) (d : ℕ) : t.elapsed (t.plus d) = d := by
  have hb := t.bounded
  have hsecs := plus_secs t d
  have hnanos := plus_nanos t d
  have helapsed := elapsed_eq t (t.plus d)
  simp only [nanosPerSecond] at hb hsecs hnanos helapsed
  omega

lemma plus_leap {t : DateTime} {d : ℕ} (h : nanosPerSecond ≤ (t.plus d).nanos) :
    nanosPerSecond ≤ t.nanos ∧ (t.plus d).secs = t.secs := by
  have hsecs := plus_secs t d
  have hnanos := plus_nanos t d
  simp only [nanosPerSecond] at h hsecs hnanos ⊢
  omega

def checkedAdd (t : DateTime) (d : ℕ) : Option DateTime :=
  if (t.plus d).InRange then some (t.plus d) else none

end DateTime

def chronoFromStd (d : Duration) : Option ℕ :=
  if d.nanos ≤ (2 ^ 63 - 1) * 1000000 then some d.nanos else none

def postgresTimestampPrecision (t : DateTime) : DateTime :=
  (t.withNanosecond (t.timestampSubsecMicros * 1000)).getD t

lemma postgresTimestampPrecision_nanos (t : DateTime) :
    (postgresTimestampPrecision t).nanos = t.nanos / 1000 * 1000 := by
  have hb := t.bounded
  have hn : t.timestampSubsecMicros * 1000 < 2 * nanosPerSecond := by
    simp only [DateTime.timestampSubsecMicros]
    omega
  rw [postgresTimestampPrecision, DateTime.withNanosecond, dif_pos hn]
  rfl

def DateTime.toMicros (t : DateTime) : ℤ := t.secs * 1000000 + (t.nanos / 1000 : ℕ)

def DateTime.ofMicros (m : ℤ) : DateTime where
  secs := m / 1000000
  nanos := (m % 1000000).toNat * 1000
  bounded := by
    simp only [nanosPerSecond]
    omega

lemma le_ofMicros {t : DateTime} {m : ℤ} (ht : t.nanos % 1000 = 0) (h : t.toMicros ≤ m) :
    t ≤ .ofMicros m := by
  simp only [DateTime.toMicros] at h
  simp only [DateTime.le_iff, DateTime.ofMicros]
  omega

end AbsurdSdk.Model
