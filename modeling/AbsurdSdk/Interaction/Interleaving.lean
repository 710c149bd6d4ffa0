import AbsurdSdk.Interaction.Run
import Mathlib.Logic.Relation

/-! Runs of a program beside which the rest of the system moves on its own, and the rules for what
holds in every such run. -/

namespace AbsurdSdk.Interaction

open Relation

universe u v w x

variable {E : Type u} {A : E → Type v} {α β : Type w} {S : Type x}

/-- A run in which steps of `drift` may come between any two calls. -/
inductive Interleaves (env : Env E A S) (drift : S → S → Prop) :
    Program E A α → S → Program E A α → S → Prop
  | refl (p : Program E A α) (s : S) : Interleaves env drift p s p s
  | step {e : E} {next : A e → Program E A α} {r : A e} {s t u : S} {q : Program E A α} :
      env s e r t → Interleaves env drift (next r) t q u →
      Interleaves env drift (.call e next) s q u
  | drift {p q : Program E A α} {s t u : S} :
      drift s t → Interleaves env drift p t q u → Interleaves env drift p s q u

lemma Interleaves.drifts {env : Env E A S} {drift : S → S → Prop} {p q : Program E A α} {s t u : S}
    (h : ReflTransGen drift s t) (hr : Interleaves env drift p t q u) :
    Interleaves env drift p s q u := by
  induction h using ReflTransGen.head_induction_on with
  | refl => exact hr
  | head hd _ ih => exact .drift hd ih

lemma Interleaves.of_drifts {env : Env E A S} {drift : S → S → Prop} {s t : S}
    (p : Program E A α) (h : ReflTransGen drift s t) : Interleaves env drift p s p t :=
  .drifts h (.refl p t)

lemma Interleaves.then_drift {env : Env E A S} {drift : S → S → Prop} {p q : Program E A α}
    {s t u : S} (h : Interleaves env drift p s q t) (hd : drift t u) :
    Interleaves env drift p s q u := by
  induction h with
  | refl => exact .drift hd (.refl _ _)
  | step he _ ih => exact .step he (ih hd)
  | drift hs _ ih => exact .drift hs (ih hd)

lemma Interleaves.trans {env : Env E A S} {drift : S → S → Prop} {p q q' : Program E A α}
    {s t u : S} (h : Interleaves env drift p s q t) (h' : Interleaves env drift q t q' u) :
    Interleaves env drift p s q' u := by
  induction h with
  | refl => exact h'
  | step he _ ih => exact .step he (ih h')
  | drift hd _ ih => exact .drift hd (ih h')

lemma Interleaves.done_cases {env : Env E A S} {drift : S → S → Prop} {a : α}
    {q : Program E A α} {s t : S} (h : Interleaves env drift (.done a) s q t) :
    q = .done a ∧ ReflTransGen drift s t := by
  generalize hdone : (Program.done a : Program E A α) = p at h
  induction h with
  | refl =>
    subst hdone
    exact ⟨rfl, .refl⟩
  | step => cases hdone
  | drift hd _ ih =>
    obtain ⟨hq, hdrifts⟩ := ih hdone
    exact ⟨hq, .head hd hdrifts⟩

lemma Interleaves.then_bind {env : Env E A S} {drift : S → S → Prop} {p : Program E A α}
    {f : α → Program E A β} {q : Program E A β} {a : α} {s t u : S}
    (h : Interleaves env drift p s (.done a) t) (hf : Interleaves env drift (f a) t q u) :
    Interleaves env drift (p.bind f) s q u := by
  generalize hdone : (Program.done a : Program E A α) = p' at h
  induction h with
  | refl =>
    subst hdone
    exact hf
  | step he _ ih => exact .step he (ih hf hdone)
  | drift hd _ ih => exact .drift hd (ih hf hdone)

lemma Interleaves.bind_done {env : Env E A S} {drift : S → S → Prop} {p : Program E A α}
    {f : α → Program E A β} {b : β} {s t : S} (h : Interleaves env drift (p.bind f) s (.done b) t) :
    ∃ a u, Interleaves env drift p s (.done a) u ∧ Interleaves env drift (f a) u (.done b) t := by
  generalize hp : p.bind f = p' at h
  generalize hq : Program.done b = q at h
  induction h generalizing p with
  | refl =>
    subst hq
    cases p with
    | done a => exact ⟨a, _, .refl _ _, hp ▸ .refl _ _⟩
    | call e next => cases hp
  | @step e next r s t u q he hrest ih =>
    cases p with
    | done a =>
      subst hq
      have hf : f a = .call e next := hp
      exact ⟨a, s, .refl _ _, hf ▸ .step he hrest⟩
    | call e' next' =>
      obtain ⟨rfl, hnext⟩ := Program.call.inj hp
      obtain rfl := eq_of_heq hnext
      obtain ⟨a, v, ha, hb⟩ := ih rfl hq
      exact ⟨a, v, .step he ha, hb⟩
  | drift hd _ ih =>
    obtain ⟨a, v, ha, hb⟩ := ih hp hq
    exact ⟨a, v, .drift hd ha, hb⟩

lemma Interleaves.raised {ε : Type w} {raise : E → Option ε} {env : Env E A S}
    {drift : S → S → Prop} {p : Program E A α} {x : ε} {s t : S}
    (h : Interleaves env drift (p.caught raise) s (.done (.error x)) t) :
    ∃ e next, raise e = some x ∧ Interleaves env drift p s (.call e next) t := by
  generalize hp : p.caught raise = p' at h
  generalize hq : (Program.done (.error x) : Program E A (Except ε α)) = q at h
  induction h generalizing p with
  | refl =>
    subst hq
    cases p with
    | done a => cases hp
    | call e next =>
      rw [Program.caught_call] at hp
      cases he : raise e with
      | none => rw [he] at hp; cases hp
      | some y =>
        rw [he] at hp
        cases hp
        exact ⟨e, next, he, .refl _ _⟩
  | @step e next r s t u q hs hrest ih =>
    cases p with
    | done a => cases hp
    | call e' next' =>
      rw [Program.caught_call] at hp
      cases he : raise e' with
      | some y => rw [he] at hp; cases hp
      | none =>
        rw [he] at hp
        obtain ⟨rfl, hnext⟩ := Program.call.inj hp
        obtain rfl := eq_of_heq hnext
        obtain ⟨e, next, hraise, hrun⟩ := ih rfl hq
        exact ⟨e, next, hraise, .step hs hrun⟩
  | drift hd _ ih =>
    obtain ⟨e, next, hraise, hrun⟩ := ih hp hq
    exact ⟨e, next, hraise, .drift hd hrun⟩

/-- On every interleaved run of the program `here e` holds as long as it stands at the call `e`,
and `post a` once it has finished with `a`. -/
def Always (env : Env E A S) (drift : S → S → Prop) (here : E → S → Prop) (post : α → S → Prop) :
    Program E A α → S → Prop
  | .done a, s => ∀ t, ReflTransGen drift s t → post a t
  | .call e next, s => ∀ t, ReflTransGen drift s t →
      here e t ∧ ∀ r u, env t e r u → Always env drift here post (next r) u

def Stable (drift : S → S → Prop) (P : S → Prop) : Prop := ∀ s t, drift s t → P s → P t

lemma Stable.drifts {drift : S → S → Prop} {P : S → Prop} {s t : S} (h : Stable drift P)
    (ht : ReflTransGen drift s t) (hs : P s) : P t := by
  induction ht with
  | refl => exact hs
  | tail _ hd ih => exact h _ _ hd ih

namespace Always

variable {env : Env E A S} {drift : S → S → Prop} {here : E → S → Prop} {post : α → S → Prop}
  {p q : Program E A α} {s t : S} {P : S → Prop}

lemma drifts (h : Always env drift here post p s) (ht : ReflTransGen drift s t) :
    Always env drift here post p t := by
  cases p with
  | done a => exact fun u hu => h u (ht.trans hu)
  | call e next => exact fun u hu => h u (ht.trans hu)

lemma interleaves (h : Always env drift here post p s) (hr : Interleaves env drift p s q t) :
    Always env drift here post q t := by
  induction hr with
  | refl => exact h
  | step he _ ih => exact ih ((h _ .refl).2 _ _ he)
  | drift hd _ ih => exact ih (h.drifts (.single hd))

lemma call {e : E} {next : A e → Program E A α} (hP : Stable drift P) (hs : P s)
    (hhere : ∀ t, P t → here e t)
    (hnext : ∀ t r u, P t → env t e r u → Always env drift here post (next r) u) :
    Always env drift here post (.call e next) s := by
  intro t ht
  have hPt : P t := hP.drifts ht hs
  exact ⟨hhere t hPt, fun r u he => hnext t r u hPt he⟩

lemma done {a : α} (hP : Stable drift P) (hs : P s) (hpost : ∀ t, P t → post a t) :
    Always env drift here post (.done a) s :=
  fun t ht => hpost t (hP.drifts ht hs)

lemma bind {f : α → Program E A β} {mid : α → S → Prop} {post : β → S → Prop}
    (h : Always env drift here mid p s)
    (hf : ∀ a t, mid a t → Always env drift here post (f a) t) :
    Always env drift here post (p.bind f) s := by
  induction p generalizing s with
  | done a => exact hf a s (h s .refl)
  | call e next ih =>
    intro t ht
    obtain ⟨hhere, hnext⟩ := h t ht
    exact ⟨hhere, fun r u he => ih r (hnext r u he)⟩

lemma caught {ε : Type w} {raise : E → Option ε} {post : Except ε α → S → Prop}
    (h : Always env drift here (fun a t => post (.ok a) t) p s)
    (hx : ∀ e x t, raise e = some x → here e t → post (.error x) t) :
    Always env drift here post (p.caught raise) s := by
  induction p generalizing s with
  | done a => exact h
  | call e next ih =>
    rw [Program.caught_call]
    cases he : raise e with
    | some x => exact fun t ht => hx e x t he (h t ht).1
    | none =>
      intro t ht
      obtain ⟨hhere, hnext⟩ := h t ht
      exact ⟨hhere, fun r u hu => ih r (hnext r u hu)⟩

lemma of_calls {Q : E → Prop} (hp : p.Calls Q) (hP : Stable drift P) (hs : P s)
    (hc : ∀ s e r t, Q e → P s → env s e r t → P t) :
    Always env drift (fun _ => P) (fun _ => P) p s := by
  induction p generalizing s with
  | done a => exact .done hP hs fun _ ht => ht
  | call e next ih =>
    apply Always.call hP hs (fun _ ht => ht)
    exact fun t r u ht hu => ih r (hp.2 r) (hc t e r u hp.1 ht hu)

end Always

end AbsurdSdk.Interaction
