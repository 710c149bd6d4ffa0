import AbsurdSdk.Interaction.Transcript

/-! Monitors: what they have read of a transcript says which call may come next. A program that
heeds a monitor makes no other call on any run, finished or cut. -/

namespace AbsurdSdk.Interaction

universe u v w x

structure Monitor (E : Type u) (A : E → Type v) (M : Type x) where
  after : M → (e : E) → A e → M
  allows : E → M → Prop

namespace Monitor

variable {E : Type u} {A : E → Type v} {M : Type x} {α β : Type w} (monitor : Monitor E A M)

def reads (m : M) (log : Transcript E A) : M :=
  log.foldr (fun event m => monitor.after m event.1 event.2) m

def Heeds (post : α → M → Prop) : Program E A α → M → Prop
  | .done a, m => post a m
  | .call e next, m => monitor.allows e m ∧ ∀ r, Heeds post (next r) (monitor.after m e r)

variable {monitor} {post : α → M → Prop} {p q : Program E A α} {m : M} {log log' : Transcript E A}

lemma Heeds.bind {f : α → Program E A β} {mid : α → M → Prop} {post : β → M → Prop}
    (hp : monitor.Heeds mid p m) (hf : ∀ a n, mid a n → monitor.Heeds post (f a) n) :
    monitor.Heeds post (p.bind f) m := by
  induction p generalizing m with
  | done a => exact hf a m hp
  | call e next ih => exact ⟨hp.1, fun r => ih r (hp.2 r)⟩

lemma Heeds.run (hp : monitor.Heeds post p (monitor.reads m log))
    (hr : Run transcribed p log q log') : monitor.Heeds post q (monitor.reads m log') := by
  induction hr with
  | refl => exact hp
  | @step e next r s t s' q he _ ih =>
    obtain rfl : t = ⟨e, r⟩ :: s := he
    exact ih (hp.2 r)

lemma Heeds.keeps {inv : Transcript E A → M → Prop}
    (hp : monitor.Heeds post p (monitor.reads m log)) (hr : Run transcribed p log q log')
    (hstep : ∀ log m e r, inv log m → monitor.allows e m →
      inv (⟨e, r⟩ :: log) (monitor.after m e r))
    (h : inv log (monitor.reads m log)) : inv log' (monitor.reads m log') := by
  induction hr with
  | refl => exact h
  | @step e next r s t s' q he _ ih =>
    obtain rfl : t = ⟨e, r⟩ :: s := he
    exact ih (hp.2 r) (hstep s _ e r h hp.1)

end Monitor

end AbsurdSdk.Interaction
