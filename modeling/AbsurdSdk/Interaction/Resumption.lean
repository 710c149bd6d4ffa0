import AbsurdSdk.Interaction.Replay

/-! Attempts whose queries may be answered between them. For a query that some attempt came to, and
that has no value in the memo, a value may be left there before the next attempt. It need not
decode: then the query is spoilt, and no attempt passes it. -/

namespace AbsurdSdk.Interaction

universe u v

def Program.EndsWithin {E : Type u} {A : E → Type v} {α : Type} : Program E A α → ℕ → Prop
  | .done _, _ => True
  | .call _ _, 0 => False
  | .call _ next, n + 1 => ∀ r, (next r).EndsWithin n

namespace Memo

variable {Q : Type u} {A : Q → Type v} {K V N : Type} [DecidableEq K] (M : Memo Q A K V N)
  {R : Type}

/-- Where answers lead, whatever the memo is. -/
inductive Follow : Program Q A R → N → Answers Q A K → Program Q A R → N → Prop
  | refl (p : Program Q A R) (n : N) : Follow p n [] p n
  | step {q : Q} {next : A q → Program Q A R} {n n' : N} {a : A q} {as : Answers Q A K}
      {p' : Program Q A R} : Follow (next a) (M.name n q).2 as p' n' →
      Follow (.call q next) n (⟨q, (M.name n q).1, a⟩ :: as) p' n'

inductive Filling (p : Program Q A R) (n : N) (as : Answers Q A K) (memo : K → Option V) :
    (K → Option V) → Prop
  | kept : Filling p n as memo memo
  | filled {q : Q} {next : A q → Program Q A R} {n' : N} {v : V} :
      Follow M p n as (.call q next) n' → memo (M.name n' q).1 = none → M.fresh q v →
      Filling p n as memo (Function.update memo (M.name n' q).1 (some v))

inductive Course (p : Program Q A R) (n : N) (memo : K → Option V) :
    List (Answers Q A K × Option R) → (K → Option V) → Prop
  | start : Course p n memo [] memo
  | next {attempts : List (Answers Q A K × Option R)} {memo' memo'' : K → Option V}
      {as : Answers Q A K} {r : Option R} : Course p n memo attempts memo' →
      M.Attempt p n memo' as r memo'' → Course p n memo (attempts ++ [(as, r)]) memo''
  | left {attempts : List (Answers Q A K × Option R)} {memo' memo'' : K → Option V}
      {t : Answers Q A K × Option R} {as : Answers Q A K} : Course p n memo attempts memo' →
      t ∈ attempts → as <+: t.1 → M.Filling p n as memo' memo'' → Course p n memo attempts memo''

/-- The memo of a path, possibly with a value that spoils the query at the end of the path. -/
inductive Standing (memo : K → Option V) : Program Q A R → N → (K → Option V) → Prop
  | sound (p : Program Q A R) (n : N) : Standing memo p n memo
  | spoilt {q : Q} {next : A q → Program Q A R} {n : N} {v : V} : memo (M.name n q).1 = none →
      M.decode q v = none →
      Standing memo (.call q next) n (Function.update memo (M.name n q).1 (some v))

variable {M} {p p' p₁ : Program Q A R} {n n' n₁ : N} {memo memo₀ memo₁ memo' : K → Option V}
  {as bs : Answers Q A K} {q : Q} {next : A q → Program Q A R}

lemma Standing.holds (h : M.Standing memo p n memo') {k : K} {v : V} (hk : memo k = some v) :
    memo' k = some v := by
  cases h with
  | sound => exact hk
  | spoilt hn _ =>
    rw [Function.update_of_ne]
    · exact hk
    · rintro rfl
      rw [hn] at hk
      cases hk

omit [DecidableEq K] in
lemma Follow.of_eq (n : N) (h : p = p') : M.Follow p n [] p' n := h ▸ .refl p n

omit [DecidableEq K] in
lemma Follow.calls {P : Q → Prop} (h : M.Follow p n as p' n') (hp : p.Calls P) : p'.Calls P := by
  induction h with
  | refl => exact hp
  | step _ ih => exact ih (hp.2 _)

lemma Filling.step {a : A q} (h : M.Filling (next a) (M.name n q).2 as memo memo') :
    M.Filling (.call q next) n (⟨q, (M.name n q).1, a⟩ :: as) memo memo' := by
  cases h with
  | kept => exact .kept
  | filled hf hn hv => exact .filled (.step hf) hn hv

lemma Path.leads (h : M.Path p n memo as p' n' memo') : M.Follow p n as p' n' := by
  induction h with
  | refl p n memo => exact .refl p n
  | step _ _ ih => exact .step ih

omit [DecidableEq K] in
lemma Follow.ends {x : R} (h : M.Follow p n as (.done x) n₁) (h' : M.Follow p n bs p' n')
    (hp : as <+: bs) : as = bs ∧ p' = .done x := by
  generalize hd : (Program.done x : Program Q A R) = p₂ at h
  induction h generalizing bs with
  | refl p n =>
    subst hd
    cases h'
    exact ⟨rfl, rfl⟩
  | step _ ih =>
    cases h' with
    | refl => cases List.prefix_nil.mp hp
    | step h' =>
      obtain ⟨heq, htail⟩ := List.cons_prefix_cons.mp hp
      cases heq
      obtain ⟨rfl, hp'⟩ := ih h' htail hd
      exact ⟨rfl, hp'⟩

lemma Path.snoc {a : A q} (h : M.Path p n memo as (.call q next) n' memo₁)
    (ha : M.Answered q n' memo₁ a memo') :
    M.Path p n memo (as ++ [⟨q, (M.name n' q).1, a⟩]) (next a) (M.name n' q).2 memo' := by
  generalize hp : Program.call q next = p₁ at h
  induction h with
  | refl p n memo =>
    subst hp
    exact .step ha (.refl _ _ _)
  | step hb _ ih => exact .step hb (ih ha hp)

omit [DecidableEq K] in
lemma Follow.endsWithin {k : ℕ} (h : M.Follow p n as p' n') (hp : p.EndsWithin k) :
    ∃ j, p'.EndsWithin j ∧ as.length + j = k := by
  induction h generalizing k with
  | refl => exact ⟨k, hp, by simp⟩
  | step _ ih =>
    cases k with
    | zero => exact hp.elim
    | succ k =>
      obtain ⟨j, hj, hlength⟩ := ih (hp _)
      exact ⟨j, hj, by simp only [List.length_cons]; omega⟩

omit [DecidableEq K] in
lemma Follow.meets (h : M.Follow p n as (.call q next) n₁) (h' : M.Follow p n bs p' n')
    (hp : as <+: bs) :
    as = bs ∧ p' = .call q next ∧ n' = n₁ ∨ ∃ a, ⟨q, (M.name n₁ q).1, a⟩ ∈ bs := by
  generalize hc : Program.call q next = p₁ at h
  induction h generalizing bs with
  | refl p n =>
    subst hc
    cases h' with
    | refl => exact Or.inl ⟨rfl, rfl, rfl⟩
    | step => exact Or.inr ⟨_, List.mem_cons_self⟩
  | step _ ih =>
    cases h' with
    | refl => cases List.prefix_nil.mp hp
    | step h' =>
      obtain ⟨heq, htail⟩ := List.cons_prefix_cons.mp hp
      cases heq
      rcases ih h' htail hc with ⟨rfl, hp', hn⟩ | ⟨a, ha⟩
      · exact Or.inl ⟨rfl, hp', hn⟩
      · exact Or.inr ⟨a, List.mem_cons_of_mem _ ha⟩

lemma Path.recorded (h : M.Path p n memo bs p' n' memo') {x : Σ q : Q, K × A q} (hx : x ∈ bs) :
    memo' x.2.1 ≠ none := by
  induction h with
  | refl => cases hx
  | step ha hpath ih =>
    rcases List.mem_cons.mp hx with rfl | hx
    · obtain ⟨v, hv, -⟩ := ha.recorded
      exact hpath.mono hv ▸ Option.some_ne_none v
    · exact ih hx

lemma Path.follow (h : M.Path p n memo bs p' n' memo') (hf : M.Follow p n as (.call q next) n₁)
    (hp : as <+: bs) :
    as = bs ∧ p' = .call q next ∧ n' = n₁ ∨ memo' (M.name n₁ q).1 ≠ none := by
  rcases hf.meets h.leads hp with hend | ⟨a, ha⟩
  · exact Or.inl hend
  · exact Or.inr (h.recorded ha)

lemma Path.resume {r : Option R} (h : M.Path p n memo₀ bs p₁ n₁ memo₁)
    (hm : ∀ k v, memo₁ k = some v → memo k = some v) (ha : M.Attempt p n memo as r memo') :
    (as <+: bs ∧ memo' = memo ∧ r = none) ∨
      ∃ cs, as = bs ++ cs ∧ M.Attempt p₁ n₁ memo cs r memo' := by
  induction h generalizing as with
  | refl p n memo => exact Or.inr ⟨as, rfl, ha⟩
  | step hq hp ih =>
    obtain ⟨v, hv, hd⟩ := hq.recorded
    have hrec := hm _ _ (hp.mono hv)
    cases ha with
    | stop => exact Or.inl ⟨List.nil_prefix, rfl, rfl⟩
    | lost hb =>
      obtain ⟨-, rfl⟩ := hb.of_recorded hrec hd
      exact Or.inl ⟨List.nil_prefix, rfl, rfl⟩
    | answer hb hrest =>
      obtain ⟨rfl, rfl⟩ := hb.of_recorded hrec hd
      rcases ih hm hrest with ⟨hpre, hmemo, hr⟩ | ⟨cs, rfl, hcs⟩
      · exact Or.inl ⟨List.cons_prefix_cons.mpr ⟨rfl, hpre⟩, hmemo, hr⟩
      · exact Or.inr ⟨cs, rfl, hcs⟩

lemma Attempt.of_spoilt {r : Option R} {v : V} (ha : M.Attempt (.call q next) n memo as r memo')
    (hm : memo (M.name n q).1 = some v) (hd : M.decode q v = none) :
    as = [] ∧ r = none ∧ memo' = memo := by
  have hnone : ∀ a memo', ¬ M.Answered q n memo a memo' := by
    intro a memo' h
    cases h with
    | hit hv ha =>
      obtain rfl := Option.some.inj (hm.symm.trans hv)
      rw [hd] at ha
      cases ha
    | miss hn => simp [hm] at hn
  cases ha with
  | stop => exact ⟨rfl, rfl, rfl⟩
  | lost h => exact absurd h (hnone _ _)
  | answer h => exact absurd h (hnone _ _)

/-- Whatever is left between them, the attempts of a course follow one path, and one that finishes
has seen all of it. -/
theorem Course.path {attempts : List (Answers Q A K × Option R)}
    (h : M.Course p n memo attempts memo') :
    ∃ cs p' n' memo₁, M.Path p n memo cs p' n' memo₁ ∧ M.Standing memo₁ p' n' memo' ∧
      ∀ t ∈ attempts, t.1 <+: cs ∧ ∀ x, t.2 = some x → p' = .done x ∧ cs = t.1 := by
  induction h with
  | start => exact ⟨[], p, n, memo, .refl _ _ _, .sound _ _, by simp⟩
  | @next attempts memo' memo'' as r _ ha ih =>
    obtain ⟨bs, p₁, n₁, memo₁, hp, hs, hall⟩ := ih
    cases hs with
    | sound =>
      obtain ⟨cs, p', n', hp', hbs, has, hr, hdone⟩ := hp.attempt ha
      refine ⟨cs, p', n', _, hp', .sound _ _, ?_⟩
      intro t ht
      rcases List.mem_append.mp ht with ht | ht
      · obtain ⟨htb, htr⟩ := hall t ht
        refine ⟨htb.trans hbs, ?_⟩
        intro x hx
        obtain ⟨hd, rfl⟩ := htr x hx
        exact hdone x hd
      · obtain rfl := List.mem_singleton.mp ht
        exact ⟨has, hr⟩
    | @spoilt q next _ v hn hd =>
      have hstand : M.Standing memo₁ (.call q next) n₁
          (Function.update memo₁ (M.name n₁ q).1 (some v)) := .spoilt hn hd
      have hkept : as <+: bs ∧ memo'' = Function.update memo₁ (M.name n₁ q).1 (some v) ∧
          r = none := by
        rcases hp.resume (fun _ _ => hstand.holds) ha with h | ⟨cs, rfl, hcs⟩
        · exact h
        · obtain ⟨rfl, hr, hmemo⟩ := hcs.of_spoilt (Function.update_self ..) hd
          exact ⟨by rw [List.append_nil], hmemo, hr⟩
      obtain ⟨has, rfl, rfl⟩ := hkept
      refine ⟨bs, _, _, memo₁, hp, hstand, ?_⟩
      intro t ht
      rcases List.mem_append.mp ht with ht | ht
      · exact hall t ht
      · obtain rfl := List.mem_singleton.mp ht
        exact ⟨has, by simp⟩
  | @left attempts memo' memo'' t as _ ht hpre hfill ih =>
    obtain ⟨bs, p₁, n₁, memo₁, hp, hs, hall⟩ := ih
    cases hfill with
    | kept => exact ⟨bs, p₁, n₁, memo₁, hp, hs, hall⟩
    | @filled q next n' v hf hnone hfresh =>
      obtain ⟨rfl, rfl, rfl⟩ : as = bs ∧ p₁ = .call q next ∧ n₁ = n' := by
        refine (hp.follow hf (hpre.trans (hall t ht).1)).resolve_right ?_
        intro hne
        obtain ⟨x, hx⟩ := Option.ne_none_iff_exists'.mp hne
        rw [hs.holds hx] at hnone
        cases hnone
      have hunfinished : ∀ t ∈ attempts, t.2 = none := by
        intro t ht
        cases hr : t.2 with
        | none => rfl
        | some x => cases ((hall t ht).2 x hr).1
      cases hs with
      | spoilt => simp at hnone
      | sound =>
        cases hd : M.decode q v with
        | some a =>
          refine ⟨_, _, _, _, hp.snoc (.miss hnone hfresh hd), .sound _ _, ?_⟩
          intro t ht
          exact ⟨(hall t ht).1.trans (List.prefix_append _ _), by simp [hunfinished t ht]⟩
        | none => exact ⟨as, _, _, _, hp, .spoilt hnone hd, hall⟩

end Memo

end AbsurdSdk.Interaction
