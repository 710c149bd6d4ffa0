import AbsurdSdk.Durability.Sleep
import AbsurdSdk.Interaction.Transcript

/-! The time arithmetic of `sleep_for`: which durations it refuses, and which carry the database
time out of chrono's range. -/

namespace AbsurdSdk.Durability

open Interaction Model

/-- The time `d` nanoseconds after `now`, truncated to whole microseconds. Only the second of `now`
may be a leap second. -/
structure WakesAfter (now : DateTime) (d : ℕ) (wake : DateTime) : Prop where
  inRange : wake.InRange
  micros : wake.nanos % 1000 = 0
  elapsed : now.elapsed wake ≤ d ∧ d < now.elapsed wake + 1000
  leap : nanosPerSecond ≤ wake.nanos → nanosPerSecond ≤ now.nanos ∧ wake.secs = now.secs

section Truncation

variable {now a b : DateTime} {d : ℕ}

lemma postgresTimestampPrecision_secs (t : DateTime) :
    (postgresTimestampPrecision t).secs = t.secs := by
  rw [postgresTimestampPrecision, DateTime.withNanosecond]
  split <;> rfl

lemma elapsed_truncated (now t : DateTime) :
    now.elapsed (postgresTimestampPrecision t) = now.elapsed t - (t.nanos % 1000 : ℕ) := by
  rw [DateTime.elapsed, DateTime.elapsed, postgresTimestampPrecision_secs,
    postgresTimestampPrecision_nanos]
  omega

lemma wakesAfter_plus (hrange : (now.plus d).InRange) :
    WakesAfter now d (postgresTimestampPrecision (now.plus d)) where
  inRange := by
    rw [DateTime.InRange, postgresTimestampPrecision_secs]
    exact hrange
  micros := by
    rw [postgresTimestampPrecision_nanos]
    omega
  elapsed := by
    rw [elapsed_truncated, DateTime.elapsed_plus]
    omega
  leap := by
    intro h
    rw [postgresTimestampPrecision_nanos] at h
    rw [postgresTimestampPrecision_secs]
    exact DateTime.plus_leap (by omega)

lemma WakesAfter.unique (ha : WakesAfter now d a) (hb : WakesAfter now d b) : a = b := by
  obtain ⟨-, hma, hta, hla⟩ := ha
  obtain ⟨-, hmb, htb, hlb⟩ := hb
  have hba := a.bounded
  have hbb := b.bounded
  have hea := now.elapsed_eq a
  have heb := now.elapsed_eq b
  simp only [nanosPerSecond] at hla hlb hba hbb hea heb
  have hsecs : a.secs = b.secs := by omega
  have hnanos : a.nanos = b.nanos := by omega
  cases a
  cases b
  cases hsecs
  cases hnanos
  rfl

end Truncation

section SleepFor

variable {chrono : Serde DateTime} {name : String} {duration : Duration} {c : TaskContext}
  {now : DateTime}

/-- What `sleep_for` does where the database tells the time `now`: it refuses a duration that is too
large, with its context as it was, or goes on with a wake time; and it never panics. -/
structure SleepsFor (chrono : Serde DateTime) (name : String) (duration : Duration)
    (c : TaskContext) (now : DateTime) : Prop where
  answerable : ∀ q log,
    Run transcribed ((TaskContext.sleepFor chrono name duration).run c) [] q log →
      (∀ t, ⟨.query .currentTime, .ok t⟩ ∈ log → t = now) → Answerable q
  wakes : (chronoFromStd duration = none ∧ (TaskContext.sleepFor chrono name duration).run c =
      .done (.error (.config "sleep duration is too large for chrono"), c)) ∨
    ∃ wakeAt, WakesAfter now duration.nanos (postgresTimestampPrecision wakeAt) ∧
      Run transcribed ((TaskContext.sleepFor chrono name duration).run c) []
        ((TaskContext.sleepUntilAtCurrentTime chrono name wakeAt now).run c)
        [⟨.query .currentTime, .ok now⟩, ⟨.poolGet, .ok ()⟩]

def Sleepable (duration : Duration) (now : DateTime) : Prop :=
  (2 ^ 63 - 1) * 1000000 < duration.nanos ∨
    now.secs + ((now.nanos % nanosPerSecond + duration.nanos) / nanosPerSecond : ℕ) ≤
      8210266876799

lemma chronoFromStd_eq_none :
    chronoFromStd duration = none ↔ (2 ^ 63 - 1) * 1000000 < duration.nanos := by
  rw [chronoFromStd]
  split
  · exact iff_of_false (by simp) (by omega)
  · exact iff_of_true rfl (by omega)

lemma chronoFromStd_eq_some (h : chronoFromStd duration ≠ none) :
    chronoFromStd duration = some duration.nanos := by
  rw [chronoFromStd] at h ⊢
  split at h
  · rename_i hle
    rw [if_pos hle]
  · exact absurd rfl h

lemma plus_inRange_iff (hnow : now.InRange) (d : ℕ) : (now.plus d).InRange ↔
    now.secs + ((now.nanos % nanosPerSecond + d) / nanosPerSecond : ℕ) ≤ 8210266876799 := by
  rw [DateTime.InRange] at hnow ⊢
  rw [DateTime.plus_secs]
  generalize (now.nanos % nanosPerSecond + d) / nanosPerSecond = k
  omega

lemma sleepFor_refuses (h : chronoFromStd duration = none) :
    (TaskContext.sleepFor chrono name duration).run c =
      .done (.error (.config "sleep duration is too large for chrono"), c) := by
  rw [TaskContext.sleepFor, h]
  rfl

lemma sleepFor_told (chrono : Serde DateTime) (name : String) (c : TaskContext) (now : DateTime)
    {d : ℕ} (h : chronoFromStd duration = some d) :
    Run transcribed ((TaskContext.sleepFor chrono name duration).run c) []
      ((match now.checkedAdd d with
        | none => Async.panic "`DateTime + TimeDelta` overflowed"
        | some wakeAt => TaskContext.sleepUntilAtCurrentTime chrono name wakeAt now :
          ContextM Unit).run c)
      [⟨.query .currentTime, .ok now⟩, ⟨.poolGet, .ok ()⟩] := by
  rw [TaskContext.sleepFor, h]
  refine .step (r := .ok ()) rfl ?_
  refine .step (r := .ok now) rfl ?_
  exact .refl _ _

lemma sleepFor_panics {d : ℕ} (h : chronoFromStd duration = some d)
    (hwake : now.checkedAdd d = none) : ¬ SleepsFor chrono name duration c now := by
  intro hsleeps
  have hrun := sleepFor_told chrono name c now h
  rw [hwake] at hrun
  have htold : ∀ t, (⟨.query .currentTime, .ok t⟩ : Σ call : Call, Answer call) ∈
      [(⟨.query .currentTime, .ok now⟩ : Σ call : Call, Answer call), ⟨.poolGet, .ok ()⟩] →
        t = now := by
    intro t ht
    rcases List.mem_pair.mp ht with ht | ht
    · cases ht
      rfl
    · cases ht
  obtain ⟨⟨⟩⟩ := hsleeps.answerable _ _ hrun htold _ _ rfl

lemma sleepFor_answerable {d : ℕ} {wakeAt : DateTime} (h : chronoFromStd duration = some d)
    (hwake : now.checkedAdd d = some wakeAt) :
    ((TaskContext.sleepFor chrono name duration).run c).Yields
      (fun call r => ∀ t, (⟨call, r⟩ : Σ call : Call, Answer call) =
        ⟨.query .currentTime, .ok t⟩ → t = now)
      (fun call => Nonempty (Answer call)) fun _ => True := by
  rw [TaskContext.sleepFor, h]
  refine ⟨⟨(.ok () : Except String Unit)⟩, ?_⟩
  rintro (text | _) -
  · exact trivial
  refine ⟨⟨(.ok now : Except PgError DateTime)⟩, ?_⟩
  rintro (err | t) ht
  · exact trivial
  obtain rfl := ht t rfl
  have hrest := (sleep_plain chrono name wakeAt t c).mono fun _ hplain => hplain.1
  change Program.Yields _ _ _ ((match t.checkedAdd d with
    | none => _
    | some wakeAt => _ : ContextM Unit).run c)
  rw [hwake]
  exact hrest.yields

/-- `sleep_for` is total on the database times of chrono's range exactly when its duration is
refused or does not carry the time out of that range. -/
theorem sleeps_for_iff (hnow : now.InRange) :
    SleepsFor chrono name duration c now ↔ Sleepable duration now := by
  rw [Sleepable, ← chronoFromStd_eq_none, ← plus_inRange_iff hnow]
  by_cases hd : chronoFromStd duration = none
  · refine iff_of_true ⟨?_, Or.inl ⟨hd, sleepFor_refuses hd⟩⟩ (Or.inl hd)
    intro q log hrun _ call next hq
    rw [sleepFor_refuses hd] at hrun
    cases hrun
    cases hq
  · have hsome := chronoFromStd_eq_some hd
    by_cases hrange : (now.plus duration.nanos).InRange
    · have hwake : now.checkedAdd duration.nanos = some (now.plus duration.nanos) := if_pos hrange
      refine iff_of_true ⟨?_, Or.inr ⟨_, wakesAfter_plus hrange, ?_⟩⟩ (Or.inr hrange)
      · intro q log hrun htold call next hq
        have hgranted : ∀ x ∈ log, ∀ t,
            (⟨x.1, x.2⟩ : Σ call : Call, Answer call) = ⟨.query .currentTime, .ok t⟩ → t = now := by
          intro x hx t ht
          exact htold t (ht ▸ hx)
        have hyields := hrun.yields hgranted (sleepFor_answerable hsome hwake)
        rw [hq] at hyields
        exact hyields.1.1
      · have hrun := sleepFor_told chrono name c now hsome
        rw [hwake] at hrun
        exact hrun
    · have hwake : now.checkedAdd duration.nanos = none := if_neg hrange
      exact iff_of_false (sleepFor_panics hsome hwake) fun h => h.elim hd hrange

end SleepFor

section Sample

def sampleNow : DateTime := ⟨1735689600, 0, by decide⟩

theorem sleeps_for_iff_sample :
    SleepsFor sampleChrono "nap" (Duration.fromSecs 3600) sampleContext sampleNow := by
  have hnow : sampleNow.InRange := by decide
  exact (sleeps_for_iff hnow).mpr (Or.inr (by decide))

def longDuration : Duration := Duration.fromSecs 10000000000000

theorem long_sleep_panics : sampleNow.InRange ∧
    ¬ SleepsFor sampleChrono "nap" longDuration sampleContext sampleNow ∧
    ∃ next, Run transcribed
      ((TaskContext.sleepFor sampleChrono "nap" longDuration).run sampleContext) []
      (.call (.panic "`DateTime + TimeDelta` overflowed") next)
      [⟨.query .currentTime, .ok sampleNow⟩, ⟨.poolGet, .ok ()⟩] := by
  have hlong : chronoFromStd longDuration = some (10000000000000 * nanosPerSecond) := by decide
  have hwake : sampleNow.checkedAdd (10000000000000 * nanosPerSecond) = none := by decide
  have hrun := sleepFor_told sampleChrono "nap" sampleContext sampleNow hlong
  rw [hwake] at hrun
  exact ⟨by decide, sleepFor_panics hlong hwake, _, hrun⟩

end Sample

end AbsurdSdk.Durability
