import AbsurdSdk.Model.Context
import AbsurdSdk.Sequences.Occurrences

/-! Checkpoint names. The first occurrence of a name in an execution keeps it and the `k`-th one
appends `#k`, so two operations share a slot exactly when some name is another one so numbered. -/

namespace AbsurdSdk.Durability

open Interaction Model Sequences

def numbered (name : String) (count : ℕ) : String :=
  if count = 1 then name else name ++ "#" ++ toString count

@[simp] lemma nextCheckpointName_run (name : String) (c : TaskContext) :
    (TaskContext.nextCheckpointName name).run c =
      .done (.ok (numbered name (c.stepNameCounter name + 1)), { c with
        stepNameCounter :=
          Function.update c.stepNameCounter name (c.stepNameCounter name + 1) }) := by
  unfold TaskContext.nextCheckpointName numbered
  split <;> simp_all [bind, ContextM.context, ContextM.modify, pure]

def checkpointNames : List String → ContextM (List String)
  | [] => return []
  | name :: names => do
    let slot ← TaskContext.nextCheckpointName name
    let slots ← checkpointNames names
    return slot :: slots

lemma checkpointNames_run (names : List String) (c : TaskContext) :
    ∃ d, (checkpointNames names).run c =
      .done (.ok ((occurrencesFrom c.stepNameCounter names).map fun o => numbered o.1 o.2), d) := by
  induction names generalizing c with
  | nil => exact ⟨c, rfl⟩
  | cons name names ih =>
    obtain ⟨d, hd⟩ := ih { c with
      stepNameCounter := Function.update c.stepNameCounter name (c.stepNameCounter name + 1) }
    refine ⟨d, ?_⟩
    simp only [checkpointNames, bind, nextCheckpointName_run,
      Program.done_bind, hd]
    rfl

lemma hash_notMem_digits (k : ℕ) : '#' ∉ (toString k).toList := by
  intro h
  have hl : (toString k).toList = Nat.toDigits 10 k := Nat.toList_repr
  rw [hl] at h
  exact absurd (Nat.isDigit_of_mem_toDigits (by decide) (by decide) h) (by decide)

lemma suffix_injective {s t : String} {j k : ℕ}
    (h : s ++ "#" ++ toString j = t ++ "#" ++ toString k) : s = t ∧ j = k := by
  have hl := congrArg String.toList h
  simp only [String.toList_append, List.append_assoc, show "#".toList = ['#'] from rfl,
    List.cons_append, List.nil_append] at hl
  obtain ⟨hs, hd⟩ := separator_injective (hash_notMem_digits j) (hash_notMem_digits k) hl
  have hn : Nat.toDigits 10 j = Nat.toDigits 10 k := by
    rw [← Nat.toList_repr, ← Nat.toList_repr]
    exact hd
  have hv := congrArg (fun digits => Nat.ofDigitChars 10 digits 0) hn
  exact ⟨String.toList_inj.mp hs, by simpa using hv⟩

lemma numbered_injective {s t : String} {j k : ℕ} (hj : 1 ≤ j) (hk : 1 ≤ k)
    (h : numbered s j = numbered t k)
    (hs : 2 ≤ k → s ≠ t ++ "#" ++ toString k) (ht : 2 ≤ j → t ≠ s ++ "#" ++ toString j) :
    s = t ∧ j = k := by
  rw [numbered, numbered] at h
  by_cases h1 : j = 1
  · by_cases h2 : k = 1
    · rw [if_pos h1, if_pos h2] at h
      exact ⟨h, h1.trans h2.symm⟩
    · rw [if_pos h1, if_neg h2] at h
      exact absurd h (hs (by omega))
  · by_cases h2 : k = 1
    · rw [if_neg h1, if_pos h2] at h
      exact absurd h.symm (ht (by omega))
    · rw [if_neg h1, if_neg h2] at h
      exact suffix_injective h

/-- The names a fresh context gives out are distinct exactly when no name passed to it is another
one followed by `#` and the number of an occurrence from the second on. -/
theorem checkpoint_names_nodup_iff (c : TaskContext) (names : List String) :
    ∃ slots d, (checkpointNames names).run { c with stepNameCounter := fun _ => 0 } =
        .done (.ok slots, d) ∧
      (slots.Nodup ↔ ∀ s ∈ names, ∀ t ∈ names, ∀ k, 2 ≤ k → k ≤ names.count s →
        t ≠ s ++ "#" ++ toString k) := by
  obtain ⟨d, hd⟩ := checkpointNames_run names { c with stepNameCounter := fun _ => 0 }
  refine ⟨_, d, hd, (labels_nodup_iff numbered names).trans ?_⟩
  constructor
  · intro h s _ t ht k hk hks he
    have hc : 1 ≤ names.count t := List.count_pos_iff.mpr ht
    have hl : numbered s k = numbered t 1 := by
      rw [numbered, if_neg (by omega), numbered, if_pos rfl, he]
    obtain ⟨_, hk1⟩ := h s k t 1 (by omega) hks le_rfl hc hl
    omega
  · intro h s j t k hj hjs hk hkt he
    have hs : s ∈ names := List.count_pos_iff.mp (by omega)
    have ht : t ∈ names := List.count_pos_iff.mp (by omega)
    exact numbered_injective hj hk he (fun h2 => h t ht s hs k h2 hkt)
      (fun h2 => h s hs t ht j h2 hjs)

def sampleContext : TaskContext where
  queueName := "default"
  task := sampleTask
  headers := []
  checkpointCache := fun _ => none
  stepNameCounter := fun _ => 0
  reportedTimeouts := fun _ => false
  claimTimeout := Duration.fromSecs 120
  claimTimeoutSeconds := 120
  leaseTx := true

theorem checkpoint_names_collide :
    ∃ d, (checkpointNames ["charge", "charge", "charge#2"]).run sampleContext =
      .done (.ok ["charge", "charge#2", "charge#2"], d) ∧
      ¬ ["charge", "charge#2", "charge#2"].Nodup := by
  refine ⟨_, rfl, by decide⟩

end AbsurdSdk.Durability
