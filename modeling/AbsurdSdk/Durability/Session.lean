import AbsurdSdk.Durability.Conduct
import AbsurdSdk.Interaction.Transcript

/-! A session is what one execution does with its context: it calls methods, one after the other,
with any answers to the calls they make. The last of them may not have come to its end. -/

namespace AbsurdSdk.Durability

open Interaction Model

structure Invocation (chrono : Serde DateTime) where
  method : Method
  turns : ℕ
  before : TaskContext
  log : Transcript Call Answer
  rest : Process (Result method.Ans × TaskContext)
  ran : Run transcribed ((method.run chrono turns).run before) [] rest log

section Session

variable {chrono : Serde DateTime} {c : TaskContext} {i b u : Invocation chrono}
  {is earlier later : List (Invocation chrono)} {D : Conduct}

def Invocation.Leaves (i : Invocation chrono) (d : TaskContext) : Prop := ∃ r, i.rest = .done (r, d)

def Invocation.Makes (i : Invocation chrono) (call : Call) : Prop :=
  (∃ r, ⟨call, r⟩ ∈ i.log) ∨ ∃ next, i.rest = .call call next

def Invocation.Obeys (D : Conduct) (i : Invocation chrono) : Prop :=
  Durability.Obeys D (i.method.run chrono i.turns) i.before

def Invocation.Granted (D : Conduct) (i : Invocation chrono) : Prop := ∀ x ∈ i.log, D.grants x.1 x.2

lemma Invocation.Obeys.leaves {d : TaskContext} (h : i.Obeys D) (hg : i.Granted D)
    (hd : i.Leaves d) : D.rel i.before d := by
  obtain ⟨r, hr⟩ := hd
  have hy := (i.ran.yields hg h).1
  rw [hr] at hy
  exact hy

lemma Invocation.Obeys.makes {call : Call} (h : i.Obeys D) (hg : i.Granted D)
    (hc : i.Makes call) : D.may i.before call := by
  obtain ⟨hy, hlog⟩ := i.ran.yields hg h
  rcases hc with ⟨r, hr⟩ | ⟨next, hnext⟩
  · exact (hlog _ hr).resolve_left List.not_mem_nil
  · rw [hnext] at hy
    exact hy.1

/-- The methods an execution calls from its context `c`, each on what the one before it left. -/
inductive Session : TaskContext → List (Invocation chrono) → Prop
  | stop (c : TaskContext) : Session c []
  | cut (i : Invocation chrono) : Session i.before [i]
  | next {i : Invocation chrono} {d : TaskContext} {is : List (Invocation chrono)} :
      i.Leaves d → Session d is → Session i.before (i :: is)

namespace Session

lemma starts (h : Session c (i :: is)) : i.before = c := by
  cases h with
  | cut => rfl
  | next => rfl

lemma tail (h : Session c (i :: is)) (hne : is ≠ []) : ∃ d, i.Leaves d ∧ Session d is := by
  cases h with
  | cut => exact absurd rfl hne
  | next hd h => exact ⟨_, hd, h⟩

lemma tail_append (h : Session c (b :: (earlier ++ i :: later))) :
    ∃ d, b.Leaves d ∧ Session d (earlier ++ i :: later) :=
  h.tail (List.append_ne_nil_of_right_ne_nil _ (List.cons_ne_nil _ _))

lemma suffix (h : Session c (earlier ++ i :: later)) : Session i.before (i :: later) := by
  induction earlier generalizing c with
  | nil =>
    cases h.starts
    exact h
  | cons b earlier ih =>
    obtain ⟨d, -, htail⟩ := h.tail_append
    exact ih htail

lemma carried (h : Session c (earlier ++ i :: later)) (ho : ∀ b ∈ earlier, b.Obeys D)
    (hg : ∀ b ∈ earlier, b.Granted D) :
    D.rel c i.before ∧ ∀ b ∈ earlier, ∃ d, b.Leaves d ∧ D.rel d i.before := by
  induction earlier generalizing c with
  | nil =>
    refine ⟨?_, by simp⟩
    cases h.starts
    exact D.refl _
  | cons b earlier ih =>
    cases h.starts
    obtain ⟨d, hb, htail⟩ := h.tail_append
    obtain ⟨hrel, hleft⟩ := ih htail (fun b' hb' => ho b' (List.mem_cons_of_mem _ hb'))
      fun b' hb' => hg b' (List.mem_cons_of_mem _ hb')
    refine ⟨D.trans ((ho b List.mem_cons_self).leaves (hg b List.mem_cons_self) hb) hrel, ?_⟩
    intro b' hb'
    rcases List.mem_cons.mp hb' with rfl | hb'
    · exact ⟨d, hb, hrel⟩
    · exact hleft b' hb'

lemma replace (h : Session c (earlier ++ i :: later)) (hu : u.before = i.before) :
    Session c (earlier ++ [u]) := by
  induction earlier generalizing c with
  | nil =>
    cases h.starts
    rw [← hu]
    exact .cut u
  | cons b earlier ih =>
    cases h.starts
    obtain ⟨d, hb, htail⟩ := h.tail_append
    exact .next hb (ih htail)

end Session

end Session

end AbsurdSdk.Durability
