import AbsurdSdk.Interaction.Program

/-! Runs of a program in an environment that answers its calls, and the rules that carry an
invariant along every run, finished or cut. -/

namespace AbsurdSdk.Interaction

universe u v w x y

variable {E : Type u} {A : E → Type v} {α β : Type w} {S : Type x}

abbrev Env (E : Type u) (A : E → Type v) (S : Type x) := S → (e : E) → A e → S → Prop

/-- `Run env p s q t`: from state `s` the program `p` can make some of its calls and be left with
`q` in state `t`. A run need not reach the end of the program. -/
inductive Run (env : Env E A S) : Program E A α → S → Program E A α → S → Prop
  | refl (p : Program E A α) (s : S) : Run env p s p s
  | step {e : E} {next : A e → Program E A α} {r : A e} {s t s' : S} {q : Program E A α} :
      env s e r t → Run env (next r) t q s' → Run env (.call e next) s q s'

namespace Run

variable {env : Env E A S} {p q : Program E A α} {s t : S}

lemma trans {q' : Program E A α} {t' : S} (h : Run env p s q t) (h' : Run env q t q' t') :
    Run env p s q' t' := by
  induction h with
  | refl => exact h'
  | step he _ ih => exact .step he (ih h')

lemma bind (h : Run env p s q t) (f : α → Program E A β) :
    Run env (p.bind f) s (q.bind f) t := by
  induction h with
  | refl => exact .refl _ _
  | step he _ ih => exact .step he ih

lemma mono {env' : Env E A S} (h : Run env p s q t)
    (he : ∀ s e r t, env s e r t → env' s e r t) : Run env' p s q t := by
  induction h with
  | refl => exact .refl _ _
  | step hs _ ih => exact .step (he _ _ _ _ hs) ih

lemma invariant {inv : S → Prop} (h : Run env p s q t)
    (hstep : ∀ s e r t, env s e r t → inv s → inv t) (hs : inv s) : inv t := by
  induction h with
  | refl => exact hs
  | step he _ ih => exact ih (hstep _ _ _ _ he hs)

lemma calls {P : E → Prop} (h : Run env p s q t) (hp : p.Calls P) : q.Calls P := by
  induction h with
  | refl => exact hp
  | step _ _ ih => exact ih (hp.2 _)

lemma bind_cases {f : α → Program E A β} {q : Program E A β} (h : Run env (p.bind f) s q t) :
    (∃ p', Run env p s p' t ∧ q = p'.bind f) ∨
      ∃ a s', Run env p s (.done a) s' ∧ Run env (f a) s' q t := by
  induction p generalizing s with
  | done a => exact Or.inr ⟨a, s, .refl _ _, h⟩
  | call e next ih =>
    cases h with
    | refl => exact Or.inl ⟨_, .refl _ _, rfl⟩
    | step he hr =>
      rcases ih _ hr with ⟨p', hp, rfl⟩ | ⟨a, s', hp, hf⟩
      · exact Or.inl ⟨p', .step he hp, rfl⟩
      · exact Or.inr ⟨a, s', .step he hp, hf⟩

lemma bind_done {f : α → Program E A β} {b : β} (h : Run env (p.bind f) s (.done b) t) :
    ∃ a s', Run env p s (.done a) s' ∧ Run env (f a) s' (.done b) t := by
  rcases h.bind_cases with ⟨p', hp, hdone⟩ | h
  · cases p' with
    | done a => exact ⟨a, t, hp, hdone ▸ .refl _ _⟩
    | call e next => cases hdone
  · exact h

lemma of_caught {ε : Type w} {raise : E → Option ε} {a : α}
    (h : Run env (p.caught raise) s (.done (.ok a)) t) : Run env p s (.done a) t := by
  induction p generalizing s with
  | done b =>
    cases h
    exact .refl _ _
  | call e next ih =>
    rw [Program.caught_call] at h
    cases he : raise e with
    | some x =>
      rw [he] at h
      cases h
    | none =>
      rw [he] at h
      cases h with
      | step hs hr => exact .step hs (ih _ hr)

lemma raised {ε : Type w} {raise : E → Option ε} {x : ε}
    (h : Run env (p.caught raise) s (.done (.error x)) t) :
    ∃ e next, raise e = some x ∧ Run env p s (.call e next) t := by
  induction p generalizing s with
  | done a => cases h
  | call e next ih =>
    rw [Program.caught_call] at h
    cases he : raise e with
    | some y =>
      rw [he] at h
      cases h
      exact ⟨e, next, he, .refl _ _⟩
    | none =>
      rw [he] at h
      cases h with
      | step hs hr =>
        obtain ⟨e', next', hraise, hrun⟩ := ih _ hr
        exact ⟨e', next', hraise, .step hs hrun⟩

lemma bind_at {P : E → Prop} {f : α → Program E A β} {e : E} {next : A e → Program E A β}
    (h : Run env (p.bind f) s (.call e next) t) (hp : p.Calls P) :
    P e ∨ ∃ a s', Run env p s (.done a) s' ∧ Run env (f a) s' (.call e next) t := by
  rcases h.bind_cases with ⟨p', hr, he⟩ | h
  · cases p' with
    | done a => exact Or.inr ⟨a, t, hr, he ▸ .refl _ _⟩
    | call e' next' =>
      have hc := hr.calls hp
      obtain ⟨rfl, -⟩ := Program.call.inj he
      exact Or.inl hc.1
  · exact Or.inr h

end Run

/-- `Safe env inv post p s`: on every run of `p` from `s` each state satisfies `inv`, and a run
that finishes with `a` ends in a state that satisfies `post a`. -/
def Safe (env : Env E A S) (inv : S → Prop) (post : α → S → Prop) : Program E A α → S → Prop
  | .done a, s => inv s ∧ post a s
  | .call e next, s => inv s ∧ ∀ r t, env s e r t → Safe env inv post (next r) t

namespace Safe

variable {env : Env E A S} {inv : S → Prop} {post : α → S → Prop} {p q : Program E A α} {s t : S}

@[simp] lemma done_iff {a : α} : Safe env inv post (.done a) s ↔ inv s ∧ post a s := Iff.rfl

@[simp] lemma call_iff {e : E} {next : A e → Program E A α} :
    Safe env inv post (.call e next) s ↔
      inv s ∧ ∀ r t, env s e r t → Safe env inv post (next r) t := Iff.rfl

lemma start (h : Safe env inv post p s) : inv s := by
  cases p with
  | done a => exact h.1
  | call e next => exact h.1

lemma run (h : Safe env inv post p s) (hr : Run env p s q t) : Safe env inv post q t := by
  induction hr with
  | refl => exact h
  | step he _ ih => exact ih (h.2 _ _ he)

lemma cut (h : Safe env inv post p s) (hr : Run env p s q t) : inv t := (h.run hr).start

lemma finish {a : α} (h : Safe env inv post p s) (hr : Run env p s (.done a) t) : post a t :=
  (h.run hr).2

lemma mono {inv' : S → Prop} {post' : α → S → Prop} (h : Safe env inv post p s)
    (hi : ∀ t, inv t → inv' t) (hp : ∀ a t, inv t → post a t → post' a t) :
    Safe env inv' post' p s := by
  induction p generalizing s with
  | done a => exact ⟨hi _ h.1, hp _ _ h.1 h.2⟩
  | call e next ih => exact ⟨hi _ h.1, fun r t he => ih r (h.2 r t he)⟩

lemma and {inv' : S → Prop} {post' : α → S → Prop} (h : Safe env inv post p s)
    (h' : Safe env inv' post' p s) :
    Safe env (fun t => inv t ∧ inv' t) (fun a t => post a t ∧ post' a t) p s := by
  induction p generalizing s with
  | done a => exact ⟨⟨h.1, h'.1⟩, h.2, h'.2⟩
  | call e next ih => exact ⟨⟨h.1, h'.1⟩, fun r t he => ih r (h.2 r t he) (h'.2 r t he)⟩

@[simp] lemma bind_iff {f : α → Program E A β} {post : β → S → Prop} :
    Safe env inv post (p.bind f) s ↔ Safe env inv (fun a t => Safe env inv post (f a) t) p s := by
  induction p generalizing s with
  | done a => exact ⟨fun h => ⟨h.start, h⟩, fun h => h.2⟩
  | call e next ih =>
    exact and_congr_right fun _ => forall_congr' fun r => forall₂_congr fun t _ => ih r

lemma bind {f : α → Program E A β} {mid : α → S → Prop} {post : β → S → Prop}
    (h : Safe env inv mid p s) (hf : ∀ a t, inv t → mid a t → Safe env inv post (f a) t) :
    Safe env inv post (p.bind f) s := by
  induction p generalizing s with
  | done a => exact hf a s h.1 h.2
  | call e next ih => exact ⟨h.1, fun r t he => ih r (h.2 r t he)⟩

lemma any (p : Program E A α) (s : S) : Safe env (fun _ => True) (fun _ _ => True) p s := by
  induction p generalizing s with
  | done a => exact ⟨trivial, trivial⟩
  | call e next ih => exact ⟨trivial, fun r t _ => ih r t⟩

lemma of_yields {P : E → Prop} {post : α → Prop} {p : Program E A α}
    (hp : p.Yields (fun _ _ => True) P post) (s : S) :
    Safe env (fun _ => True) (fun a _ => post a) p s := by
  induction p generalizing s with
  | done a => exact ⟨trivial, hp⟩
  | call e next ih => exact ⟨trivial, fun r t _ => ih r (hp.2 r trivial) t⟩

lemma caught {ε : Type w} {raise : E → Option ε} {post : Except ε α → S → Prop}
    (h : Safe env inv (fun a t => post (.ok a) t) p s)
    (hx : ∀ e x t, raise e = some x → inv t → post (.error x) t) :
    Safe env inv post (p.caught raise) s := by
  induction p generalizing s with
  | done a => exact h
  | call e next ih =>
    rw [Program.caught_call]
    cases he : raise e with
    | some x => exact ⟨h.1, hx e x s he h.1⟩
    | none => exact ⟨h.1, fun r t hr => ih r (h.2 r t hr)⟩

lemma all {ι : Sort y} {inv : ι → S → Prop} {post : ι → α → S → Prop}
    (h : ∀ i, Safe env (inv i) (post i) p s) :
    Safe env (fun t => ∀ i, inv i t) (fun a t => ∀ i, post i a t) p s := by
  induction p generalizing s with
  | done a => exact ⟨fun i => (h i).1, fun i => (h i).2⟩
  | call e next ih =>
    exact ⟨fun i => (h i).1, fun r t he => ih r fun i => (h i).2 r t he⟩

lemma restrict {env' : Env E A S} (h : Safe env' inv post p s)
    (he : ∀ s e r t, env s e r t → env' s e r t) : Safe env inv post p s := by
  induction p generalizing s with
  | done a => exact h
  | call e next ih => exact ⟨h.1, fun r t hr => ih r (h.2 r t (he _ _ _ _ hr))⟩

lemma of_calls {P : E → Prop} (hp : p.Calls P) (hs : inv s)
    (hc : ∀ s e r t, P e → inv s → env s e r t → inv t) :
    Safe env inv (fun _ _ => True) p s := by
  induction p generalizing s with
  | done a => exact ⟨hs, trivial⟩
  | call e next ih => exact ⟨hs, fun r t he => ih r (hp.2 r) (hc s e r t hp.1 hs he)⟩

end Safe

/-- The environment can answer so that the program finishes in a state that satisfies `post`. -/
def Reaches (env : Env E A S) (post : α → S → Prop) : Program E A α → S → Prop
  | .done a, s => post a s
  | .call e next, s => ∃ r t, env s e r t ∧ Reaches env post (next r) t

namespace Reaches

variable {env : Env E A S} {post : α → S → Prop} {p : Program E A α} {s : S}

@[simp] lemma done_iff {a : α} : Reaches env post (.done a) s ↔ post a s := Iff.rfl

@[simp] lemma call_iff {e : E} {next : A e → Program E A α} :
    Reaches env post (.call e next) s ↔ ∃ r t, env s e r t ∧ Reaches env post (next r) t := Iff.rfl

lemma mono {post' : α → S → Prop} (h : Reaches env post p s) (hp : ∀ a t, post a t → post' a t) :
    Reaches env post' p s := by
  induction p generalizing s with
  | done a => exact hp a s h
  | call e next ih =>
    obtain ⟨r, t, he, hr⟩ := h
    exact ⟨r, t, he, ih r hr⟩

lemma exists_run (h : Reaches env post p s) : ∃ a t, Run env p s (.done a) t ∧ post a t := by
  induction p generalizing s with
  | done a => exact ⟨a, s, .refl _ _, h⟩
  | call e next ih =>
    obtain ⟨r, t, he, hr⟩ := h
    obtain ⟨a, t', hrun, hp⟩ := ih r hr
    exact ⟨a, t', .step he hrun, hp⟩

@[simp] lemma bind_iff {f : α → Program E A β} {post : β → S → Prop} :
    Reaches env post (p.bind f) s ↔ Reaches env (fun a t => Reaches env post (f a) t) p s := by
  induction p generalizing s with
  | done a => rfl
  | call e next ih =>
    exact exists_congr fun r => exists_congr fun t => and_congr_right fun _ => ih r

end Reaches

end AbsurdSdk.Interaction
