import AbsurdSdk.Interaction.Program
import Mathlib.Algebra.Order.BigOperators.Group.Finset
import Mathlib.Data.Finset.Piecewise
import Mathlib.Data.Fintype.BigOperators
import Mathlib.Logic.Relation

/-! Programs that share a pool of equal resources: when some of them can always go on, and when they
lock each other out. -/

namespace AbsurdSdk.Interaction

open Relation

universe u v w x

variable {E : Type u} {A : E → Type v} {α β : Type w} {ι : Type x}

/-- What a call does to the resources its program holds. A call that takes one is answered when one
is free, and it is taken if the answer is `granted`. -/
inductive Role (R : Type v)
  | takes (granted : R → Bool) (answer : R)
  | gives
  | keeps

namespace Role

variable {R : Type v}

def waits : Role R → Prop
  | takes _ _ => True
  | gives | keeps => False

def held : Role R → R → ℕ → ℕ
  | takes granted _, r, n => if granted r then n + 1 else n
  | gives, _, n => n - 1
  | keeps, _, n => n

lemma held_le {role : Role R} (r : R) (n : ℕ) (h : ¬ role.waits) : role.held r n ≤ n := by
  cases role with
  | takes granted answer => exact absurd trivial h
  | gives => exact n.sub_le 1
  | keeps => exact le_rfl

lemma held_le_succ {role : Role R} (r : R) (n : ℕ) : role.held r n ≤ n + 1 := by
  cases role with
  | takes granted answer =>
    rw [held]
    split
    · exact le_rfl
    · exact n.le_succ
  | gives => exact (n.sub_le 1).trans n.le_succ
  | keeps => exact n.le_succ

end Role

structure Pooling (E : Type u) (A : E → Type v) where
  role : (e : E) → Role (A e)
  bare : E → Prop

namespace Pooling

variable (pool : Pooling E A)

def waits (e : E) : Prop := (pool.role e).waits

def held (e : E) : A e → ℕ → ℕ := (pool.role e).held

end Pooling

structure Party (E : Type u) (A : E → Type v) (α : Type w) where
  program : Program E A α
  held : ℕ

namespace Party

def Rests (p : Party E A α) : Prop :=
  (∃ a, p.program = .done a) ∨ ∃ e next, p.program = .call e next ∧ IsEmpty (A e)

def Waits (pool : Pooling E A) (p : Party E A α) : Prop :=
  ∃ e next, p.program = .call e next ∧ pool.waits e

end Party

namespace Pooling

variable (pool : Pooling E A)

/-- The program never waits while it holds `need` resources, holds none when it makes a call that is
bare or has no answer, and holds `last` when it has finished. -/
def Thrifty (need last : ℕ) : Program E A α → ℕ → Prop
  | .done _, n => n = last
  | .call e next, n => (pool.waits e → n < need) ∧ (pool.bare e ∨ IsEmpty (A e) → n = 0) ∧
      ∀ r, Thrifty need last (next r) (pool.held e r n)

inductive Moves (free : Prop) : Party E A α → Party E A α → Prop
  | call {e : E} {next : A e → Program E A α} (r : A e) (n : ℕ) (h : pool.waits e → free) :
      Moves free ⟨.call e next, n⟩ ⟨next r, pool.held e r n⟩

variable [Fintype ι] [DecidableEq ι]

def total (s : ι → Party E A α) : ℕ := ∑ i, (s i).held

inductive Step (capacity : ℕ) (s : ι → Party E A α) : (ι → Party E A α) → Prop
  | party (i : ι) {q : Party E A α} (h : pool.Moves (total s < capacity) (s i) q) :
      Step capacity s (Function.update s i q)

/-- Somebody waits for a resource, and all of them are in the hands of parties that wait. -/
structure Locked (capacity : ℕ) (s : ι → Party E A α) : Prop where
  spent : capacity ≤ total s
  waits : ∃ i, (s i).Waits pool
  holders : ∀ i, 0 < (s i).held → (s i).Waits pool

end Pooling

namespace Pooling

variable {pool : Pooling E A} {need n : ℕ} {free : Prop} {p q : Party E A α}

namespace Thrifty

variable {last : ℕ} {p : Program E A α}

lemma call {e : E} {next : A e → Program E A α} (hwaits : pool.waits e → n < need)
    (hbare : ¬ pool.bare e) (hsome : Nonempty (A e))
    (hnext : ∀ r, pool.Thrifty need last (next r) (pool.held e r n)) :
    pool.Thrifty need last (.call e next) n :=
  ⟨hwaits, fun h => absurd hsome (not_nonempty_iff.2 (h.resolve_left hbare)), hnext⟩

lemma bind {mid : ℕ} {f : α → Program E A β} (h : pool.Thrifty need mid p n)
    (hf : ∀ a, pool.Thrifty need last (f a) mid) : pool.Thrifty need last (p.bind f) n := by
  induction p generalizing n with
  | done a =>
    obtain rfl : n = mid := h
    exact hf a
  | call e next ih => exact ⟨h.1, h.2.1, fun r => ih r (h.2.2 r)⟩

lemma caught {ε : Type w} {raise : E → Option ε} (h : pool.Thrifty need 0 p n)
    (hraise : ∀ e x, raise e = some x → IsEmpty (A e)) :
    pool.Thrifty need 0 (p.caught raise) n := by
  induction p generalizing n with
  | done a => exact h
  | call e next ih =>
    rw [Program.caught_call]
    cases he : raise e with
    | some x => exact h.2.1 (.inr (hraise e x he))
    | none => exact ⟨h.1, h.2.1, fun r => ih r (h.2.2 r)⟩

lemma relabel {E' : Type u} {A' : E' → Type v} {pool' : Pooling E' A'} {f : E → E'}
    {g : (e : E) → A' (f e) → A e} (h : pool.Thrifty need last p n)
    (hwaits : ∀ e, pool'.waits (f e) → pool.waits e)
    (hheld : ∀ e r n, pool'.held (f e) r n = pool.held e (g e r) n)
    (hbare : ∀ e, pool'.bare (f e) → pool.bare e)
    (hempty : ∀ e, IsEmpty (A' (f e)) → IsEmpty (A e)) :
    pool'.Thrifty need last (p.relabel f g) n := by
  induction p generalizing n with
  | done a => exact h
  | call e next ih =>
    refine ⟨fun hw => h.1 (hwaits e hw), fun he => h.2.1 (he.imp (hbare e) (hempty e)), fun r => ?_⟩
    rw [hheld]
    exact ih (g e r) (h.2.2 (g e r))

end Thrifty

lemma Moves.thrifty (h : pool.Moves free p q) (hp : pool.Thrifty need 0 p.program p.held) :
    pool.Thrifty need 0 q.program q.held := by
  cases h with
  | call r n _ => exact hp.2.2 r

lemma Moves.mono {free' : Prop} (h : pool.Moves free p q) (hf : p.Waits pool → free → free') :
    pool.Moves free' p q := by
  cases h with
  | @call e next r n h => exact .call r n fun hw => hf ⟨e, next, rfl, hw⟩ (h hw)

lemma Moves.waits (h : pool.Moves free p q) (hp : p.Waits pool) : free := by
  cases h with
  | @call e next r n h =>
    obtain ⟨e, next, he, hw⟩ := hp
    cases he
    exact h hw

lemma exists_moves (hp : ¬ p.Rests) (hfree : p.Waits pool → free) : ∃ q, pool.Moves free p q := by
  obtain ⟨program, n⟩ := p
  cases program with
  | done a => exact absurd (.inl ⟨a, rfl⟩) hp
  | call e next =>
    have hr : Nonempty (A e) := by
      rw [← not_isEmpty_iff]
      exact fun hempty => hp (.inr ⟨e, next, rfl, hempty⟩)
    obtain ⟨r⟩ := hr
    exact ⟨_, .call r n fun hw => hfree ⟨e, next, rfl, hw⟩⟩

lemma Thrifty.rests (h : pool.Thrifty need 0 p.program p.held) (hp : p.Rests) : p.held = 0 := by
  obtain ⟨program, n⟩ := p
  obtain ⟨a, ha⟩ | ⟨e, next, he, hempty⟩ := hp
  · obtain rfl : program = .done a := ha
    exact h
  · obtain rfl : program = .call e next := he
    exact h.2.1 (.inr hempty)

lemma Thrifty.bare {e : E} {next : A e → Program E A α}
    (h : pool.Thrifty need 0 p.program p.held) (hp : p.program = .call e next) (he : pool.bare e) :
    p.held = 0 := by
  rw [hp] at h
  exact h.2.1 (.inl he)

lemma Thrifty.waits (h : pool.Thrifty need 0 p.program p.held) (hp : p.Waits pool) :
    p.held < need := by
  obtain ⟨e, next, he, hw⟩ := hp
  rw [he] at h
  exact h.1 hw

lemma Moves.held_le_of_not_waits (h : pool.Moves free p q) (hp : ¬ p.Waits pool) :
    q.held ≤ p.held := by
  cases h with
  | @call e next r n _ => exact Role.held_le r n fun hw => hp ⟨e, next, rfl, hw⟩

variable [Fintype ι] [DecidableEq ι] {capacity : ℕ} {s t : ι → Party E A α} {needs : ι → ℕ}

lemma total_update (s : ι → Party E A α) (i : ι) (q : Party E A α) :
    total (Function.update s i q) + (s i).held = total s + q.held := by
  have hsum := Finset.add_sum_erase Finset.univ (fun j => (s j).held) (Finset.mem_univ i)
  have hupdate := Finset.add_sum_erase Finset.univ (fun j => (Function.update s i q j).held)
    (Finset.mem_univ i)
  have hrest : ∑ j ∈ Finset.univ.erase i, (Function.update s i q j).held =
      ∑ j ∈ Finset.univ.erase i, (s j).held :=
    Finset.sum_congr rfl fun j hj => by rw [Function.update_of_ne (Finset.ne_of_mem_erase hj)]
  rw [Function.update_self, hrest] at hupdate
  rw [total, total, ← hsum, ← hupdate]
  omega

lemma Step.thrifty (h : pool.Step capacity s t)
    (hs : ∀ i, pool.Thrifty (needs i) 0 (s i).program (s i).held) :
    ∀ i, pool.Thrifty (needs i) 0 (t i).program (t i).held := by
  obtain ⟨i, hmove⟩ := h
  intro j
  by_cases hj : j = i
  · subst hj
    rw [Function.update_self]
    exact hmove.thrifty (hs j)
  · rw [Function.update_of_ne hj]
    exact hs j

lemma Moves.held_le (h : pool.Moves free p q) (hp : pool.Thrifty need 0 p.program p.held)
    (hle : p.held ≤ need) : q.held ≤ need := by
  cases h with
  | @call e next r n h =>
    by_cases hw : pool.waits e
    · exact (Role.held_le_succ r n).trans (hp.1 hw)
    · exact (Role.held_le r n hw).trans hle

lemma Step.held_le (h : pool.Step capacity s t)
    (hs : ∀ i, pool.Thrifty (needs i) 0 (s i).program (s i).held)
    (hle : ∀ i, (s i).held ≤ needs i) (i : ι) : (t i).held ≤ needs i := by
  obtain ⟨j, hmove⟩ := h
  by_cases hi : i = j
  · subst hi
    rw [Function.update_self]
    exact hmove.held_le (hs i) (hle i)
  · rw [Function.update_of_ne hi]
    exact hle i

lemma Step.total_le (h : pool.Step capacity s t) (hs : total s ≤ capacity) :
    total t ≤ capacity := by
  obtain ⟨i, hmove⟩ := h
  have htotal := total_update s i
  generalize s i = p at hmove htotal
  cases hmove with
  | @call e next r n h =>
    have hupdate := htotal ⟨next r, pool.held e r n⟩
    dsimp only at hupdate
    by_cases hw : pool.waits e
    · have hfree := h hw
      have hheld : pool.held e r n ≤ n + 1 := Role.held_le_succ r n
      omega
    · have hheld : pool.held e r n ≤ n := Role.held_le r n hw
      omega

/-- Wherever the parties get, no more resources are out than there are, each holds no more than it
needs, and none holds one without the means to give it back. -/
theorem accounted (h : ReflTransGen (pool.Step capacity) s t)
    (hthrifty : ∀ i, pool.Thrifty (needs i) 0 (s i).program (s i).held)
    (hstart : ∀ i, (s i).held = 0) :
    total t ≤ capacity ∧ ∀ i, (t i).held ≤ needs i ∧
      pool.Thrifty (needs i) 0 (t i).program (t i).held := by
  induction h with
  | refl =>
    constructor
    · have hzero : total s = 0 := Finset.sum_eq_zero fun i _ => hstart i
      rw [hzero]
      exact Nat.zero_le _
    · intro i
      rw [hstart i]
      exact ⟨Nat.zero_le _, hstart i ▸ hthrifty i⟩
  | tail _ hstep ih =>
    obtain ⟨htotal, hall⟩ := ih
    have hkept := hstep.thrifty fun i => (hall i).2
    refine ⟨hstep.total_le htotal, fun i => ⟨?_, hkept i⟩⟩
    exact hstep.held_le (fun i => (hall i).2) (fun i => (hall i).1) i

omit [DecidableEq ι] in
lemma not_locked (hs : ∀ i, pool.Thrifty (needs i) 0 (s i).program (s i).held)
    (hneeds : ∑ i, (needs i - 1) < capacity) : ¬ pool.Locked capacity s := by
  intro h
  have hheld (i : ι) : (s i).held ≤ needs i - 1 := by
    by_cases hzero : (s i).held = 0
    · omega
    · have := (hs i).waits (h.holders i (Nat.pos_of_ne_zero hzero))
      omega
  have hfree : total s < capacity := (Finset.sum_le_sum fun i _ => hheld i).trans_lt hneeds
  exact hfree.not_ge h.spent

lemma rests_or_steps (hs : ∀ i, pool.Thrifty (needs i) 0 (s i).program (s i).held)
    (h : ¬ pool.Locked capacity s) : (∀ i, (s i).Rests) ∨ ∃ t, pool.Step capacity s t := by
  by_contra! hstuck
  obtain ⟨⟨i, hi⟩, hstuck⟩ := hstuck
  have hwaits (j : ι) (hj : ¬ (s j).Rests) : (s j).Waits pool := by
    by_contra hw
    obtain ⟨q, hq⟩ := exists_moves hj fun h => absurd h hw
    exact hstuck _ (.party j hq)
  have hspent : capacity ≤ total s := by
    by_contra hfree
    obtain ⟨q, hq⟩ := exists_moves hi fun _ => not_le.1 hfree
    exact hstuck _ (.party i hq)
  refine h ⟨hspent, ⟨i, hwaits i hi⟩, ?_⟩
  intro j hj
  apply hwaits j
  intro hrests
  rw [(hs j).rests hrests] at hj
  exact hj.false

lemma Locked.step (h : pool.Locked capacity s) (hstep : pool.Step capacity s t) :
    pool.Locked capacity t ∧ ∀ i, 0 < (s i).held → t i = s i := by
  obtain ⟨j, hmove⟩ := hstep
  rename_i q
  have hwaits : ¬ (s j).Waits pool := fun hw => (hmove.waits hw).not_ge h.spent
  have hzero : (s j).held = 0 := by
    by_contra hne
    exact hwaits (h.holders j (Nat.pos_of_ne_zero hne))
  have hheld : q.held = 0 := by
    have := hmove.held_le_of_not_waits hwaits
    omega
  have hsame (i : ι) (hi : i ≠ j) : Function.update s j q i = s i := Function.update_of_ne hi q s
  have hkept (i : ι) (hi : 0 < (s i).held) : Function.update s j q i = s i := by
    apply hsame
    rintro rfl
    omega
  refine ⟨⟨?_, ?_, ?_⟩, hkept⟩
  · have htotal := total_update s j q
    have hspent := h.spent
    omega
  · obtain ⟨i, hi⟩ := h.waits
    refine ⟨i, ?_⟩
    rw [hsame i fun he => hwaits (he ▸ hi)]
    exact hi
  · intro i hi
    by_cases hij : i = j
    · subst hij
      rw [Function.update_self] at hi
      omega
    · rw [hsame i hij] at hi ⊢
      exact h.holders i hi

/-- Parties that lock each other out do so for ever. -/
theorem Locked.steps (h : pool.Locked capacity s) (hsteps : ReflTransGen (pool.Step capacity) s t) :
    pool.Locked capacity t ∧ ∀ i, 0 < (s i).held → t i = s i := by
  induction hsteps with
  | refl => exact ⟨h, fun _ _ => rfl⟩
  | tail _ hstep ih =>
    obtain ⟨hlocked, hkept⟩ := ih
    obtain ⟨hlocked', hkept'⟩ := hlocked.step hstep
    refine ⟨hlocked', ?_⟩
    intro i hi
    have hsame := hkept i hi
    exact (hkept' i (hsame ▸ hi)).trans hsame

def Climbs (pool : Pooling E A) (n : ℕ) : Party E A α → Party E A α → Prop :=
  ReflTransGen fun p q => pool.Moves (p.held < n) p q

lemma exists_climbs_call {P : Party E A α → Prop} {e : E} {next : A e → Program E A α} {m : ℕ}
    (r : A e) (hwaits : pool.waits e → m < n)
    (h : ∃ q, pool.Climbs n ⟨next r, pool.held e r m⟩ q ∧ P q) :
    ∃ q, pool.Climbs n ⟨.call e next, m⟩ q ∧ P q := by
  obtain ⟨q, hclimbs, hq⟩ := h
  exact ⟨q, .head (.call r m hwaits) hclimbs, hq⟩

lemma Climbs.steps (h : pool.Climbs n p q) {i : ι} (hp : s i = p)
    (hfits : total s + n ≤ capacity + p.held) :
    ReflTransGen (pool.Step capacity) s (Function.update s i q) := by
  induction h using ReflTransGen.head_induction_on generalizing s with
  | refl => rw [← hp, Function.update_eq_self]
  | @head p p' hmove _ ih =>
    have htotal := total_update s i p'
    rw [hp] at htotal
    have hstep : pool.Step capacity s (Function.update s i p') := by
      refine .party i ?_
      rw [hp]
      exact hmove.mono fun _ _ => by omega
    have hrest := ih (Function.update_self i p' s) (by omega)
    rw [Function.update_idem] at hrest
    exact .head hstep hrest

lemma steps_of_climbs (hstart : ∀ i, (s i).held = 0)
    (hclimbs : ∀ i, pool.Climbs (t i).held (s i) (t i)) (hfits : total t ≤ capacity) :
    ReflTransGen (pool.Step capacity) s t := by
  have hpart (done : Finset ι) : ReflTransGen (pool.Step capacity) s (done.piecewise t s) := by
    induction done using Finset.induction_on with
    | empty => rw [Finset.piecewise_empty]
    | insert i done hi ih =>
      have hat : done.piecewise t s i = s i := Finset.piecewise_eq_of_notMem done t s hi
      have htotal := total_update (done.piecewise t s) i (t i)
      rw [hat, hstart i, ← Finset.piecewise_insert] at htotal
      have hle : total ((insert i done).piecewise t s) ≤ total t := by
        apply Finset.sum_le_sum
        intro j _
        by_cases hj : j ∈ insert i done
        · rw [Finset.piecewise_eq_of_mem _ _ _ hj]
        · rw [Finset.piecewise_eq_of_notMem _ _ _ hj, hstart j]
          exact Nat.zero_le _
      rw [Finset.piecewise_insert]
      exact ih.trans ((hclimbs i).steps hat (by rw [hstart i]; omega))
  have hall := hpart Finset.univ
  rwa [Finset.piecewise_univ] at hall

end Pooling

end AbsurdSdk.Interaction
