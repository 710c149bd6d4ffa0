import Mathlib.Tactic
import Mathlib.Data.List.Count
import Mathlib.Data.List.Nodup

/-! The elements of a list with the number of their occurrence, counted from one, and lists cut at
an element or a separator. -/

namespace AbsurdSdk.Sequences

section Occurrences

variable {α β : Type} [DecidableEq α]

def occurrencesFrom (count : α → ℕ) : List α → List (α × ℕ)
  | [] => []
  | a :: as => (a, count a + 1) :: occurrencesFrom (Function.update count a (count a + 1)) as

lemma mem_occurrencesFrom {count : α → ℕ} {as : List α} {a : α} {k : ℕ} :
    (a, k) ∈ occurrencesFrom count as ↔ count a < k ∧ k ≤ count a + as.count a := by
  induction as generalizing count with
  | nil =>
    simp only [occurrencesFrom, List.not_mem_nil, List.count_nil, false_iff]
    omega
  | cons b as ih =>
    simp only [occurrencesFrom, List.mem_cons, Prod.mk.injEq, ih]
    by_cases h : a = b
    · subst h
      simp only [Function.update_self, List.count_cons_self, true_and]
      omega
    · simp [List.count_cons_of_ne (Ne.symm h), h]

lemma occurrencesFrom_nodup (count : α → ℕ) (as : List α) :
    (occurrencesFrom count as).Nodup := by
  induction as generalizing count with
  | nil => exact List.nodup_nil
  | cons a as ih =>
    refine List.nodup_cons.mpr ⟨?_, ih _⟩
    rw [mem_occurrencesFrom, Function.update_self]
    omega

lemma labels_nodup_iff (label : α → ℕ → β) (as : List α) :
    ((occurrencesFrom (fun _ => 0) as).map fun o => label o.1 o.2).Nodup ↔
      ∀ a j b k, 1 ≤ j → j ≤ as.count a → 1 ≤ k → k ≤ as.count b →
        label a j = label b k → a = b ∧ j = k := by
  rw [List.nodup_map_iff_inj_on (occurrencesFrom_nodup _ as)]
  constructor
  · intro h a j b k hj hja hk hkb he
    have ha : (a, j) ∈ occurrencesFrom (fun _ => 0) as := mem_occurrencesFrom.mpr (by omega)
    have hb : (b, k) ∈ occurrencesFrom (fun _ => 0) as := mem_occurrencesFrom.mpr (by omega)
    exact Prod.mk.injEq .. ▸ h _ ha _ hb he
  · rintro h ⟨a, j⟩ ha ⟨b, k⟩ hb he
    have ha' := mem_occurrencesFrom.mp ha
    have hb' := mem_occurrencesFrom.mp hb
    obtain ⟨rfl, rfl⟩ := h a j b k (by omega) (by omega) (by omega) (by omega) he
    rfl

end Occurrences

lemma forall_cuts_cons {α : Type*} {a : α} {as : List α} {P : List α → α → List α → Prop}
    (hhead : P [] a as)
    (htail : ∀ earlier u later, as = earlier ++ u :: later → P (a :: earlier) u later)
    (earlier : List α) (u : α) (later : List α) (h : a :: as = earlier ++ u :: later) :
    P earlier u later := by
  cases earlier with
  | nil =>
    obtain ⟨rfl, rfl⟩ := List.cons.inj h
    exact hhead
  | cons b earlier =>
    obtain ⟨rfl, has⟩ := List.cons.inj h
    exact htail earlier u later has

lemma separator_injective {α : Type} {sep : α} {xs ys xs' ys' : List α} (h : sep ∉ ys) (h' : sep ∉ ys')
    (he : xs ++ sep :: ys = xs' ++ sep :: ys') : xs = xs' ∧ ys = ys' := by
  rcases List.append_eq_append_iff.mp he with ⟨zs, hx, hy⟩ | ⟨zs, hx, hy⟩
  · cases zs with
    | nil => simp_all
    | cons z zs =>
      obtain ⟨-, rfl⟩ := List.cons_eq_cons.mp hy
      simp at h
  · cases zs with
    | nil => simp_all
    | cons z zs =>
      obtain ⟨-, rfl⟩ := List.cons_eq_cons.mp hy
      simp at h'

end AbsurdSdk.Sequences
