import AbsurdSdk.Interaction.Inevitable
import AbsurdSdk.Interaction.Interleaving
import Mathlib.Tactic.Common

/-! Runs whose calls are counted from a moment on, and the rule by which a program that can afford
only so many calls from there on must come to its end. -/

namespace AbsurdSdk.Interaction

open Relation

universe u v w x

variable {E : Type u} {A : E → Type v} {α β : Type w} {S : Type x}

namespace Program

variable (stuck : E → Prop)

def Lasts : ℕ → Program E A α → Prop
  | 0, _ => True
  | _ + 1, done _ => True
  | n + 1, call e next => ¬ stuck e ∧ ∀ r, Lasts n (next r)

variable {stuck} {n m : ℕ} {p : Program E A α}

lemma lasts_done (a : α) : (done a : Program E A α).Lasts stuck n := by
  cases n with
  | zero => trivial
  | succ n => trivial

lemma Lasts.mono (h : p.Lasts stuck n) (hm : m ≤ n) : p.Lasts stuck m := by
  induction p generalizing n m with
  | done a => exact lasts_done a
  | call e next ih =>
    cases m with
    | zero => trivial
    | succ m =>
      obtain ⟨n, rfl⟩ : ∃ k, n = k + 1 := ⟨n - 1, by omega⟩
      exact ⟨h.1, fun r => ih r (h.2 r) (by omega)⟩

lemma Lasts.bind {f : α → Program E A β} (hp : p.Lasts stuck n) (hf : ∀ a, (f a).Lasts stuck n) :
    (p.bind f).Lasts stuck n := by
  induction p generalizing n with
  | done a => exact hf a
  | call e next ih =>
    cases n with
    | zero => trivial
    | succ n => exact ⟨hp.1, fun r => ih r (hp.2 r) fun a => (hf a).mono n.le_succ⟩

lemma Lasts.after {f : α → Program E A β} (hp : p.Lasts stuck (n + 1)) (hcall : ∀ a, p ≠ done a)
    (hf : ∀ a, (f a).Lasts stuck n) : (p.bind f).Lasts stuck (n + 1) := by
  cases p with
  | done a => exact absurd rfl (hcall a)
  | call e next => exact ⟨hp.1, fun r => (hp.2 r).bind hf⟩

lemma Calls.lasts (hp : p.Calls fun e => ¬ stuck e) : p.Lasts stuck n := by
  induction p generalizing n with
  | done a => exact lasts_done a
  | call e next ih =>
    cases n with
    | zero => trivial
    | succ n => exact ⟨hp.1, fun r => ih r (hp.2 r)⟩

end Program

structure Metered (S : Type x) where
  state : S
  before : ℕ
  since : ℕ

section Metered

variable {on : S → Prop} [DecidablePred on] {env : Env E A S} {drift : S → S → Prop}

def metered (on : S → Prop) [DecidablePred on] (env : Env E A S) : Env E A (Metered S) :=
  fun m e r m' => env m.state e r m'.state ∧
    if on m.state then m'.before = m.before ∧ m'.since = m.since + 1
    else m'.before = m.before + 1 ∧ m'.since = m.since

def beside (drift : S → S → Prop) (m m' : Metered S) : Prop :=
  drift m.state m'.state ∧ m'.before = m.before ∧ m'.since = m.since

lemma Program.Lasts.interleaves {stuck : E → Prop} {p q : Program E A α} {m m' : Metered S} {n : ℕ}
    (h : p.Lasts stuck n) (hr : Interleaves (metered on env) (beside drift) p m q m') :
    q.Lasts stuck (n + (m.before + m.since) - (m'.before + m'.since)) := by
  induction hr generalizing n with
  | refl => exact h.mono (by omega)
  | @step e next r m t m' q he _ ih =>
    have hcount : t.before + t.since = m.before + m.since + 1 := by
      have hmeter := he.2
      split at hmeter <;> omega
    cases n with
    | zero => exact (ih (n := 0) trivial).mono (by omega)
    | succ n => exact (ih (h.2 r)).mono (by omega)
  | drift hd _ ih =>
    obtain ⟨-, hbefore, hsince⟩ := hd
    exact (ih h).mono (by omega)

inductive Onward (env : Env E A S) (push : S → S → Prop) :
    Program E A α × S → Program E A α × S → Prop
  | call {e : E} {next : A e → Program E A α} {r : A e} {s t : S} :
      env s e r t → Onward env push (.call e next, s) (next r, t)
  | push {p : Program E A α} {s t : S} : push s t → Onward env push (p, s) (p, t)

def Affords (stuck fatal : E → Prop) (env : Env E A S) (push : S → S → Prop) (bound : ℕ) (e : E)
    (m : Metered S) : Prop :=
  m.since ≤ bound ∧ (stuck e ∨ fatal e ∨
    m.since < bound ∧ ((∃ r t, env m.state e r t) ∨ ∃ t, push m.state t))

section Ends

variable {stuck fatal : E → Prop} {push : S → S → Prop} {size : S → ℕ} {bound n k : ℕ}
  {post : α → Metered S → Prop} {p q : Program E A α} {m m' : Metered S}

/-- What is left of a program that can afford `bound` calls, ranked by the calls it can still make
and the pushes that can still come. -/
structure Dwindles (on : S → Prop) [DecidablePred on] (stuck fatal : E → Prop) (env : Env E A S)
    (drift push : S → S → Prop) (size : S → ℕ) (bound : ℕ) (post : α → Metered S → Prop) (k : ℕ)
    (p : Program E A α) (m : Metered S) : Prop where
  affords : Always (metered on env) (beside drift) (Affords stuck fatal env push bound) post p m
  on : on m.state
  lasts : ∃ n, p.Lasts stuck n ∧ bound < m.since + n
  rank : k = 2 * (bound - m.since) + size m.state

structure Pushes (on : S → Prop) (env : Env E A S) (drift push : S → S → Prop) (size : S → ℕ) :
    Prop where
  drifts : ∀ s t, push s t → drift s t
  smaller : ∀ s t, push s t → size t < size s
  calls : ∀ s e r t, env s e r t → on s → on t ∧ size t ≤ size s + 1
  stable : Stable drift on

def Arrives (fatal : E → Prop) (bound : ℕ) (post : α → Metered S → Prop)
    (x : Program E A α × Metered S) : Prop :=
  (∃ a, x.1 = .done a ∧ post a x.2) ∨ ∃ e next, x.1 = .call e next ∧ fatal e ∧ x.2.since ≤ bound

lemma Dwindles.arrives_or_lively
    (h : Dwindles on stuck fatal env drift push size bound post k p m) :
    Arrives fatal bound post (p, m) ∨ m.since < bound ∧
      ∃ x, Onward (metered on env) (beside push) (p, m) x := by
  obtain ⟨h, hm, ⟨n, hlasts, hn⟩, -⟩ := h
  cases p with
  | done a => exact Or.inl (Or.inl ⟨a, rfl, h m .refl⟩)
  | call e next =>
    obtain ⟨hle, hstuck | hfatal | ⟨hlt, hlive⟩⟩ := (h m .refl).1
    · obtain ⟨n, rfl⟩ : ∃ k, n = k + 1 := ⟨n - 1, by omega⟩
      exact absurd hstuck hlasts.1
    · exact Or.inl (Or.inr ⟨e, next, rfl, hfatal, hle⟩)
    · refine Or.inr ⟨hlt, ?_⟩
      rcases hlive with ⟨r, t, ht⟩ | ⟨t, ht⟩
      · refine ⟨(next r, ⟨t, m.before, m.since + 1⟩), .call ⟨ht, ?_⟩⟩
        rw [if_pos hm]
        exact ⟨rfl, rfl⟩
      · exact ⟨(.call e next, ⟨t, m.before, m.since⟩), .push ⟨ht, rfl, rfl⟩⟩

lemma Dwindles.onward (h : Dwindles on stuck fatal env drift push size bound post k p m)
    (hpushes : Pushes on env drift push size) (hlt : m.since < bound)
    (hstep : Onward (metered on env) (beside push) (p, m) (q, m')) :
    ∃ k' < k, Dwindles on stuck fatal env drift push size bound post k' q m' := by
  obtain ⟨h, hm, ⟨n, hlasts, hn⟩, rfl⟩ := h
  cases hstep with
  | @call e next r _ _ he =>
    have hrest := (h m .refl).2 r m' he
    obtain ⟨henv, hmeter⟩ := he
    rw [if_pos hm] at hmeter
    obtain ⟨hon, hsize⟩ := hpushes.calls _ _ _ _ henv hm
    obtain ⟨n, rfl⟩ : ∃ k, n = k + 1 := ⟨n - 1, by omega⟩
    refine ⟨_, ?_, hrest, hon, ⟨n, hlasts.2 r, by omega⟩, rfl⟩
    omega
  | push hd =>
    obtain ⟨hd, hbefore, hsince⟩ := hd
    have hdrifts := hpushes.drifts _ _ hd
    have hsmaller := hpushes.smaller _ _ hd
    have hrest := h.drifts (.single ⟨hdrifts, hbefore, hsince⟩)
    refine ⟨_, ?_, hrest, hpushes.stable _ _ hdrifts hm, ⟨n, hlasts, hsince ▸ hn⟩, rfl⟩
    omega

/-- A program that can afford only so many calls, and always goes on, comes to its end whatever the
answers are, if it lasts for as many calls. -/
theorem Always.ends
    (h : Always (metered on env) (beside drift) (Affords stuck fatal env push bound) post p m)
    (hpushes : Pushes on env drift push size) (hm : on m.state) (hlasts : p.Lasts stuck n)
    (hn : bound < m.since + n) :
    Inevitable (Onward (metered on env) (beside push)) (Arrives fatal bound post) (p, m) := by
  have hstart : ∀ k x, Dwindles on stuck fatal env drift push size bound post k x.1 x.2 →
      Arrives fatal bound post x ∨ (∃ y, Onward (metered on env) (beside push) x y) ∧
        ∀ y, Onward (metered on env) (beside push) x y →
          ∃ k' < k, Dwindles on stuck fatal env drift push size bound post k' y.1 y.2 := by
    rintro k ⟨p, m⟩ hx
    rcases hx.arrives_or_lively with harrives | ⟨hlt, hlive⟩
    · exact Or.inl harrives
    · exact Or.inr ⟨hlive, fun _ hstep => hx.onward hpushes hlt hstep⟩
  exact Inevitable.of_rank hstart ⟨h, hm, ⟨n, hlasts, hn⟩, rfl⟩

end Ends

end Metered

end AbsurdSdk.Interaction
