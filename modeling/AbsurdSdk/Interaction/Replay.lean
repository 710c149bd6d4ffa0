import AbsurdSdk.Interaction.Program
import Mathlib.Data.List.Infix
import Mathlib.Logic.Function.Basic

/-! Replay of a deterministic process over a memo. Every query of the process is given a key; a
query whose key has a value in the memo gets that value, any other query gets a fresh value that
is recorded first. Attempts stop anywhere, also right after a recording whose answer is lost, and
the next attempt starts the process again with the memo the last one left. -/

namespace AbsurdSdk.Interaction

universe u v

structure Memo (Q : Type u) (A : Q → Type v) (K V N : Type) where
  name : N → Q → K × N
  decode : (q : Q) → V → Option (A q)
  fresh : Q → V → Prop

namespace Memo

variable {Q : Type u} {A : Q → Type v} {K V N : Type} [DecidableEq K] (M : Memo Q A K V N)
  {R : Type}

abbrev Answers (Q : Type u) (A : Q → Type v) (K : Type) := List (Σ q : Q, K × A q)

/-- One query answered: from the memo, or with a fresh value that the memo keeps. -/
inductive Answered (q : Q) (n : N) (memo : K → Option V) : A q → (K → Option V) → Prop
  | hit {v : V} {a : A q} : memo (M.name n q).1 = some v → M.decode q v = some a →
      Answered q n memo a memo
  | miss {v : V} {a : A q} : memo (M.name n q).1 = none → M.fresh q v → M.decode q v = some a →
      Answered q n memo a (Function.update memo (M.name n q).1 (some v))

inductive Path : Program Q A R → N → (K → Option V) → Answers Q A K →
    Program Q A R → N → (K → Option V) → Prop
  | refl (p : Program Q A R) (n : N) (memo : K → Option V) : Path p n memo [] p n memo
  | step {q : Q} {next : A q → Program Q A R} {n n' : N} {memo memo' memo'' : K → Option V}
      {a : A q} {as : Answers Q A K} {p' : Program Q A R} : M.Answered q n memo a memo' →
      Path (next a) (M.name n q).2 memo' as p' n' memo'' →
      Path (.call q next) n memo (⟨q, (M.name n q).1, a⟩ :: as) p' n' memo''

inductive Attempt : Program Q A R → N → (K → Option V) → Answers Q A K → Option R →
    (K → Option V) → Prop
  | finish (r : R) (n : N) (memo : K → Option V) : Attempt (.done r) n memo [] (some r) memo
  | stop (p : Program Q A R) (n : N) (memo : K → Option V) : Attempt p n memo [] none memo
  | lost {q : Q} {next : A q → Program Q A R} {n : N} {memo memo' : K → Option V} {a : A q} :
      M.Answered q n memo a memo' → Attempt (.call q next) n memo [] none memo'
  | answer {q : Q} {next : A q → Program Q A R} {n : N} {memo memo' memo'' : K → Option V}
      {a : A q} {as : Answers Q A K} {r : Option R} : M.Answered q n memo a memo' →
      Attempt (next a) (M.name n q).2 memo' as r memo'' →
      Attempt (.call q next) n memo (⟨q, (M.name n q).1, a⟩ :: as) r memo''

inductive Series (p : Program Q A R) (n : N) (memo : K → Option V) :
    List (Answers Q A K × Option R) → (K → Option V) → Prop
  | start : Series p n memo [] memo
  | next {attempts : List (Answers Q A K × Option R)} {memo' memo'' : K → Option V}
      {as : Answers Q A K} {r : Option R} : Series p n memo attempts memo' →
      M.Attempt p n memo' as r memo'' → Series p n memo (attempts ++ [(as, r)]) memo''

variable {M}

lemma Answered.recorded {q : Q} {n : N} {memo memo' : K → Option V} {a : A q}
    (h : M.Answered q n memo a memo') :
    ∃ v, memo' (M.name n q).1 = some v ∧ M.decode q v = some a := by
  cases h with
  | hit hm hd => exact ⟨_, hm, hd⟩
  | miss _ _ hd => exact ⟨_, Function.update_self .., hd⟩

lemma Answered.mono {q : Q} {n : N} {memo memo' : K → Option V} {a : A q} {k : K} {v : V}
    (h : M.Answered q n memo a memo') (hk : memo k = some v) : memo' k = some v := by
  cases h with
  | hit => exact hk
  | miss hm _ _ =>
    have hne : k ≠ (M.name n q).1 := by
      rintro rfl
      simp [hm] at hk
    rwa [Function.update_of_ne hne]

lemma Answered.of_recorded {q : Q} {n : N} {memo memo' : K → Option V} {a b : A q} {v : V}
    (h : M.Answered q n memo b memo') (hk : memo (M.name n q).1 = some v)
    (hd : M.decode q v = some a) : b = a ∧ memo' = memo := by
  cases h with
  | hit hm hb =>
    obtain rfl := Option.some.inj (hm.symm.trans hk)
    exact ⟨Option.some.inj (hb.symm.trans hd), rfl⟩
  | miss hm _ _ => simp [hm] at hk

lemma Path.mono {p p' : Program Q A R} {n n' : N} {memo memo' : K → Option V}
    {as : Answers Q A K} (h : M.Path p n memo as p' n' memo') {k : K} {v : V}
    (hk : memo k = some v) : memo' k = some v := by
  induction h with
  | refl => exact hk
  | step ha _ ih => exact ih (ha.mono hk)

lemma Attempt.path {p : Program Q A R} {n : N} {memo memo' : K → Option V} {as : Answers Q A K}
    {r : Option R} (h : M.Attempt p n memo as r memo') :
    ∃ bs p' n', M.Path p n memo bs p' n' memo' ∧ as <+: bs ∧
      ∀ x, r = some x → p' = .done x ∧ bs = as := by
  induction h with
  | finish r n memo =>
    exact ⟨[], _, n, .refl _ _ _, List.prefix_rfl, fun x hx => ⟨by rw [Option.some.inj hx], rfl⟩⟩
  | stop p n memo => exact ⟨[], p, n, .refl _ _ _, List.prefix_rfl, by simp⟩
  | lost ha => exact ⟨_, _, _, .step ha (.refl _ _ _), List.nil_prefix, by simp⟩
  | answer ha _ ih =>
    obtain ⟨bs, p', n', hp, hb, hr⟩ := ih
    refine ⟨_, p', n', .step ha hp, List.cons_prefix_cons.mpr ⟨rfl, hb⟩, ?_⟩
    intro x hx
    obtain ⟨hd, rfl⟩ := hr x hx
    exact ⟨hd, rfl⟩

lemma Path.attempt {p p₁ : Program Q A R} {n n₁ : N} {memo₀ memo memo' : K → Option V}
    {as bs : Answers Q A K} {r : Option R} (h : M.Path p n memo₀ bs p₁ n₁ memo)
    (ha : M.Attempt p n memo as r memo') :
    ∃ cs p' n', M.Path p n memo₀ cs p' n' memo' ∧ bs <+: cs ∧ as <+: cs ∧
      (∀ x, r = some x → p' = .done x ∧ cs = as) ∧
      ∀ x, p₁ = .done x → p' = .done x ∧ cs = bs := by
  induction h generalizing as with
  | refl p n memo =>
    obtain ⟨cs, p', n', hp, hc, hr⟩ := ha.path
    refine ⟨cs, p', n', hp, List.nil_prefix, hc, hr, ?_⟩
    rintro x rfl
    cases hp
    exact ⟨rfl, rfl⟩
  | @step q next n n₁ memo₀ memo₁ memo a bs p₁ hq hp ih =>
    obtain ⟨v, hv, hd⟩ := hq.recorded
    have hm : memo (M.name n q).1 = some v := hp.mono hv
    cases ha with
    | stop =>
      exact ⟨_, p₁, n₁, .step hq hp, List.prefix_rfl, List.nil_prefix, by simp,
        fun x hx => ⟨hx, rfl⟩⟩
    | lost hb =>
      obtain ⟨-, rfl⟩ := hb.of_recorded hm hd
      exact ⟨_, p₁, n₁, .step hq hp, List.prefix_rfl, List.nil_prefix, by simp,
        fun x hx => ⟨hx, rfl⟩⟩
    | answer hb hrest =>
      obtain ⟨rfl, rfl⟩ := hb.of_recorded hm hd
      obtain ⟨cs, p', n', hp', hbs, has, hr, hdone⟩ := ih hrest
      refine ⟨_, p', n', .step hq hp', List.cons_prefix_cons.mpr ⟨rfl, hbs⟩,
        List.cons_prefix_cons.mpr ⟨rfl, has⟩, ?_, ?_⟩
      · intro x hx
        obtain ⟨hd', rfl⟩ := hr x hx
        exact ⟨hd', rfl⟩
      · intro x hx
        obtain ⟨hd', rfl⟩ := hdone x hx
        exact ⟨hd', rfl⟩

/-- Crash and replay: the attempts of a series all follow one uninterrupted run, and an attempt
that finishes has seen all of it. -/
theorem Series.path {p : Program Q A R} {n : N} {memo memo' : K → Option V}
    {attempts : List (Answers Q A K × Option R)} (h : M.Series p n memo attempts memo') :
    ∃ cs p' n', M.Path p n memo cs p' n' memo' ∧ ∀ t ∈ attempts, t.1 <+: cs ∧
      ∀ x, t.2 = some x → p' = .done x ∧ cs = t.1 := by
  induction h with
  | start => exact ⟨[], p, n, .refl _ _ _, by simp⟩
  | next _ ha ih =>
    obtain ⟨bs, p₁, n₁, hp, hall⟩ := ih
    obtain ⟨cs, p', n', hp', hbs, has, hr, hdone⟩ := hp.attempt ha
    refine ⟨cs, p', n', hp', ?_⟩
    intro t ht
    rcases List.mem_append.mp ht with ht | ht
    · obtain ⟨htb, htr⟩ := hall t ht
      refine ⟨htb.trans hbs, ?_⟩
      intro x hx
      obtain ⟨hd, rfl⟩ := htr x hx
      exact hdone x hd
    · obtain rfl := List.mem_singleton.mp ht
      exact ⟨has, hr⟩

end Memo

end AbsurdSdk.Interaction
