import AbsurdSdk.Interaction.Run

namespace AbsurdSdk.Interaction

universe u v w

variable {E : Type u} {A : E → Type v} {α : Type w}

abbrev Transcript (E : Type u) (A : E → Type v) := List (Σ e : E, A e)

def transcribed : Env E A (Transcript E A) := fun log e r log' => log' = ⟨e, r⟩ :: log

namespace Run

variable {p q : Program E A α} {log log' : Transcript E A}

lemma keeps (h : Run transcribed p log q log') : ∀ x ∈ log, x ∈ log' := by
  induction h with
  | refl => exact fun _ hx => hx
  | @step e next r s t s' q he _ ih =>
    obtain rfl : t = ⟨e, r⟩ :: s := he
    exact fun x hx => ih x (List.mem_cons_of_mem _ hx)

lemma yields {G : (e : E) → A e → Prop} {P : E → Prop} {post : α → Prop}
    (h : Run transcribed p log q log') (hG : ∀ x ∈ log', G x.1 x.2) (hp : p.Yields G P post) :
    q.Yields G P post ∧ ∀ x ∈ log', x ∈ log ∨ P x.1 := by
  induction h with
  | refl => exact ⟨hp, fun x hx => Or.inl hx⟩
  | @step e next r s t s' q he hr ih =>
    obtain rfl : t = ⟨e, r⟩ :: s := he
    have hg : G e r := hG ⟨e, r⟩ (hr.keeps _ List.mem_cons_self)
    obtain ⟨hq, hlog⟩ := ih hG (hp.2 r hg)
    refine ⟨hq, ?_⟩
    intro x hx
    rcases hlog x hx with hs | hP
    · rcases List.mem_cons.mp hs with rfl | hs
      · exact Or.inr hp.1
      · exact Or.inl hs
    · exact Or.inr hP

end Run

end AbsurdSdk.Interaction
