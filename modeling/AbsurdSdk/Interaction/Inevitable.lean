import Mathlib.Logic.Relation
import Mathlib.Order.Basic

namespace AbsurdSdk.Interaction

open Relation

universe x

variable {S : Type x} {step : S → S → Prop} {goal goal' : S → Prop} {s t : S}

inductive Inevitable (step : S → S → Prop) (goal : S → Prop) : S → Prop
  | now {s : S} : goal s → Inevitable step goal s
  | later {s : S} : (∃ t, step s t) → (∀ t, step s t → Inevitable step goal t) →
      Inevitable step goal s

namespace Inevitable

lemma mono (h : Inevitable step goal s) (hg : ∀ t, goal t → goal' t) : Inevitable step goal' s := by
  induction h with
  | now hs => exact .now (hg _ hs)
  | later hsome _ ih => exact .later hsome ih

lemma of_rank {ranked : ℕ → S → Prop}
    (h : ∀ n s, ranked n s → goal s ∨ (∃ t, step s t) ∧ ∀ t, step s t → ∃ m < n, ranked m t)
    {n : ℕ} (hs : ranked n s) : Inevitable step goal s := by
  induction n using Nat.strongRecOn generalizing s with
  | ind n ih =>
    rcases h n s hs with hgoal | ⟨hsome, hall⟩
    · exact .now hgoal
    · apply Inevitable.later hsome
      intro t ht
      obtain ⟨m, hm, hranked⟩ := hall t ht
      exact ih m hm hranked

lemma reached (h : Inevitable step goal s) : ∃ t, ReflTransGen step s t ∧ goal t := by
  induction h with
  | now hs => exact ⟨_, .refl, hs⟩
  | later hsome _ ih =>
    obtain ⟨t, ht⟩ := hsome
    obtain ⟨u, hu, hgoal⟩ := ih t ht
    exact ⟨u, .head ht hu, hgoal⟩

end Inevitable

end AbsurdSdk.Interaction
