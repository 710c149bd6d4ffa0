import Mathlib.Tactic.Lemma

/-! Programs that call their environment. A program is a tree: it is done with a value, or
makes a call and continues with any answer to it. -/

namespace AbsurdSdk.Interaction

universe u v w

inductive Program (E : Type u) (A : E → Type v) (α : Type w) : Type (max u v w)
  | done (a : α)
  | call (e : E) (next : A e → Program E A α)

namespace Program

variable {E : Type u} {A : E → Type v} {α β γ : Type w}

def bind : Program E A α → (α → Program E A β) → Program E A β
  | done a, f => f a
  | call e next, f => call e (fun r => (next r).bind f)

instance : Monad (Program E A) where
  pure := done
  bind := bind

@[simp] lemma pure_eq (a : α) : (pure a : Program E A α) = done a := rfl

@[simp] lemma bind_eq (p : Program E A α) (f : α → Program E A β) : p >>= f = p.bind f := rfl

@[simp] lemma done_bind (a : α) (f : α → Program E A β) : (done a).bind f = f a := rfl

@[simp] lemma call_bind (e : E) (next : A e → Program E A α) (f : α → Program E A β) :
    (call e next).bind f = call e (fun r => (next r).bind f) := rfl

lemma bind_assoc (p : Program E A α) (f : α → Program E A β) (g : β → Program E A γ) :
    (p.bind f).bind g = p.bind (fun a => (f a).bind g) := by
  induction p with
  | done a => rfl
  | call e next ih => exact congrArg (call e) (funext ih)

@[simp] lemma bind_done (p : Program E A α) : p.bind done = p := by
  induction p with
  | done a => rfl
  | call e next ih => exact congrArg (call e) (funext ih)

lemma bind_congr {p : Program E A α} {f g : α → Program E A β} (h : ∀ a, f a = g a) :
    p.bind f = p.bind g :=
  congrArg p.bind (funext h)

def Calls (P : E → Prop) : Program E A α → Prop
  | done _ => True
  | call e next => P e ∧ ∀ r, (next r).Calls P

lemma Calls.bind {P : E → Prop} {p : Program E A α} {f : α → Program E A β}
    (hp : p.Calls P) (hf : ∀ a, (f a).Calls P) : (p.bind f).Calls P := by
  induction p with
  | done a => exact hf a
  | call e next ih => exact ⟨hp.1, fun r => ih r (hp.2 r)⟩

lemma Calls.mono {P Q : E → Prop} {p : Program E A α} (hp : p.Calls P)
    (h : ∀ e, P e → Q e) : p.Calls Q := by
  induction p with
  | done a => trivial
  | call e next ih => exact ⟨h e hp.1, fun r => ih r (hp.2 r)⟩

def Yields (G : (e : E) → A e → Prop) (P : E → Prop) (post : α → Prop) : Program E A α → Prop
  | done a => post a
  | call e next => P e ∧ ∀ r, G e r → (next r).Yields G P post

section Yields

variable {G : (e : E) → A e → Prop}

lemma Yields.mono {P Q : E → Prop} {post post' : α → Prop} {p : Program E A α}
    (hp : p.Yields G P post) (h : ∀ e, P e → Q e) (hpost : ∀ a, post a → post' a) :
    p.Yields G Q post' := by
  induction p with
  | done a => exact hpost a hp
  | call e next ih => exact ⟨h e hp.1, fun r hr => ih r (hp.2 r hr)⟩

lemma Yields.bind {P : E → Prop} {mid : α → Prop} {post : β → Prop} {p : Program E A α}
    {f : α → Program E A β} (hp : p.Yields G P mid) (hf : ∀ a, mid a → (f a).Yields G P post) :
    (p.bind f).Yields G P post := by
  induction p with
  | done a => exact hf a hp
  | call e next ih => exact ⟨hp.1, fun r hr => ih r (hp.2 r hr)⟩

lemma Calls.yields {P : E → Prop} {p : Program E A α} (hp : p.Calls P) :
    p.Yields G P fun _ => True := by
  induction p with
  | done a => exact trivial
  | call e next ih => exact ⟨hp.1, fun r _ => ih r (hp.2 r)⟩

lemma Yields.calls {P : E → Prop} {post : α → Prop} {p : Program E A α}
    (hp : p.Yields (fun _ _ => True) P post) : p.Calls P := by
  induction p with
  | done a => trivial
  | call e next ih => exact ⟨hp.1, fun r => ih r (hp.2 r trivial)⟩

lemma Yields.any (p : Program E A α) : p.Yields G (fun _ => True) fun _ => True := by
  induction p with
  | done a => exact trivial
  | call e next ih => exact ⟨trivial, fun r _ => ih r⟩

end Yields

section Relabel

variable {E' : Type u} {A' : E' → Type v} (f : E → E') (g : ∀ e, A' (f e) → A e)

def relabel : Program E A α → Program E' A' α
  | done a => done a
  | call e next => call (f e) fun r => (next (g e r)).relabel

@[simp] lemma relabel_done (a : α) : (done a : Program E A α).relabel f g = done a := rfl

@[simp] lemma relabel_call (e : E) (next : A e → Program E A α) :
    (call e next).relabel f g = call (f e) fun r => (next (g e r)).relabel f g := rfl

lemma relabel_bind (p : Program E A α) (h : α → Program E A β) :
    (p.bind h).relabel f g = (p.relabel f g).bind fun a => (h a).relabel f g := by
  induction p with
  | done a => rfl
  | call e next ih => exact congrArg (call (f e)) (funext fun r => ih (g e r))

lemma Calls.relabel {P : E' → Prop} {p : Program E A α} (h : ∀ e, P (f e)) :
    (p.relabel f g).Calls P := by
  induction p with
  | done a => trivial
  | call e next ih => exact ⟨h e, fun r => ih (g e r)⟩

lemma Yields.relabel {P : E' → Prop} {post : α → Prop} {p : Program E A α}
    (hp : p.Yields (fun _ _ => True) (fun e => P (f e)) post) :
    (p.relabel f g).Yields (fun _ _ => True) P post := by
  induction p with
  | done a => exact hp
  | call e next ih => exact ⟨hp.1, fun r _ => ih (g e r) (hp.2 (g e r) trivial)⟩

end Relabel

section Caught

variable {ε : Type w} (raise : E → Option ε)

def caught : Program E A α → Program E A (Except ε α)
  | done a => done (.ok a)
  | call e next => match raise e with
    | some x => done (.error x)
    | none => call e fun r => (next r).caught

@[simp] lemma caught_done (a : α) : (done a : Program E A α).caught raise = done (.ok a) := rfl

lemma caught_call (e : E) (next : A e → Program E A α) :
    (call e next).caught raise = match raise e with
      | some x => done (.error x)
      | none => call e fun r => (next r).caught raise := by
  rw [caught]

lemma caught_bind (p : Program E A α) (f : α → Program E A β) :
    (p.bind f).caught raise = (p.caught raise).bind fun
      | .ok a => (f a).caught raise
      | .error x => done (.error x) := by
  induction p with
  | done a => rfl
  | call e next ih =>
    rw [call_bind, caught_call, caught_call]
    cases raise e with
    | some x => rfl
    | none => exact congrArg (call e) (funext ih)

lemma caught_bind_caught (p : Program E A α) (f : Except ε α → Program E A β) :
    ((p.caught raise).bind f).caught raise =
      (p.caught raise).bind fun x => (f x).caught raise := by
  induction p with
  | done a => rfl
  | call e next ih =>
    rw [caught_call]
    cases he : raise e with
    | some x => rfl
    | none =>
      rw [call_bind, call_bind, caught_call, he]
      exact congrArg (call e) (funext ih)

lemma Calls.caught {P : E → Prop} {p : Program E A α} (h : p.Calls P) :
    (p.caught raise).Calls P := by
  induction p with
  | done a => trivial
  | call e next ih =>
    rw [caught_call]
    cases raise e with
    | some x => trivial
    | none => exact ⟨h.1, fun r => ih r (h.2 r)⟩

end Caught

end Program

end AbsurdSdk.Interaction
