import AbsurdSdk.Durability.Session
import AbsurdSdk.Durability.Sleep

namespace AbsurdSdk.Durability

open Interaction Model

def counted : Conduct where
  rel c d := d.stepNameCounter = c.stepNameCounter
  may _ _ := True
  grants _ _ := True
  refl _ := rfl
  trans h h' := h'.trans h
  back _ _ := trivial
  unpersisting _ _ _ := trivial
  fills _ _ _ := rfl
  persists _ _ _ _ _ _ := trivial

def supplied (slot : String) (given : Json → Prop) : Conduct where
  rel c d := d.checkpointCache slot = c.checkpointCache slot ∨
    ∃ value, d.checkpointCache slot = some value ∧ given value
  may _ _ := True
  grants call r := ∀ value, Gives slot value call r → given value
  refl _ := Or.inl rfl
  trans := by
    rintro c d e h (h' | h')
    · rw [h']
      exact h
    · exact Or.inr h'
  back _ _ := trivial
  unpersisting _ _ _ := trivial
  fills := by
    intro c name value call r _ hgives hr
    by_cases hslot : slot = name
    · subst hslot
      exact Or.inr ⟨value, Function.update_self _ _ _, hr value hgives⟩
    · exact Or.inl (Function.update_of_ne hslot _ _)
  persists _ _ _ _ _ _ := trivial

lemma counted_times : counted.Times := fun _ _ _ => rfl

lemma supplied_times (slot : String) (given : Json → Prop) : (supplied slot given).Times :=
  fun _ _ _ => Or.inl rfl

lemma numbered_ne_succ (name : String) (count : ℕ) :
    numbered name (count + 2) ≠ numbered name (count + 1) := by
  intro h
  have hlong : ∀ k : ℕ, name ≠ name ++ "#" ++ toString k := by
    intro k hk
    have hlen := congrArg String.length hk
    have hone : "#".length = 1 := rfl
    rw [String.length_append, String.length_append] at hlen
    omega
  obtain ⟨-, hcount⟩ := numbered_injective (by omega) (by omega) h (fun _ => hlong _) fun _ => hlong _
  omega

structure Spent (c : TaskContext) (name : String) (log : Transcript Call Answer) (d : TaskContext) :
    Prop where
  counter : d.stepNameCounter =
    Function.update c.stepNameCounter name (c.stepNameCounter name + 1)
  cache : ∀ slot, d.checkpointCache slot = c.checkpointCache slot ∨
    ∃ value, d.checkpointCache slot = some value ∧ ∃ x ∈ log, Gives slot value x.1 x.2

section Spent

variable {α : Type} {c d : TaskContext} {name : String} {log log' : Transcript Call Answer}

lemma Spent.slot (h : Spent c name log d) : nextSlot d name ≠ nextSlot c name := by
  rw [nextSlot, nextSlot, h.counter, Function.update_self]
  exact numbered_ne_succ name _

lemma spends {m : ContextM α} {r : Result α} (hm : ∀ D : Conduct, D.Times → Continues D m name)
    (h : Run transcribed (m.run c) log (.done (r, d)) log') : Spent c name log' d where
  counter := (h.yields (fun _ _ => trivial) ((hm counted counted_times).yields c)).1
  cache slot := by
    have hm' := hm (supplied slot fun value => ∃ x ∈ log', Gives slot value x.1 x.2)
      (supplied_times _ _)
    exact (h.yields (fun x hx value hgives => ⟨x, hx, hgives⟩) (hm'.yields c)).1

lemma timed_spends {f : DateTime → ContextM α} {r : Result α}
    (hf : ∀ now log₁ r' d' log₂, Run transcribed ((f now).run c) log₁ (.done (r', d')) log₂ →
      Spent c name log₂ d')
    (h : Run transcribed ((TaskContext.currentTime >>= f).run c) [] (.done (r, d)) log) :
    ((∀ now, ⟨.query .currentTime, .ok now⟩ ∉ log) ∧ d = c) ∨
      (∃ now, ⟨.query .currentTime, .ok now⟩ ∈ log) ∧ Spent c name log d := by
  change Run transcribed (.call .poolGet fun r => _) [] _ log at h
  cases h with
  | @step _ _ granted _ _ _ _ he h =>
    cases he
    cases granted with
    | error text =>
      cases h
      refine Or.inl ⟨?_, rfl⟩
      intro now hnow
      cases List.mem_singleton.mp hnow
    | ok =>
      change Run transcribed (.call (.query .currentTime) fun r => _) _ _ log at h
      cases h with
      | @step _ _ told _ _ _ _ he h =>
        cases he
        cases told with
        | error err =>
          cases h
          refine Or.inl ⟨?_, rfl⟩
          intro now hnow
          rcases List.mem_pair.mp hnow with hnow | hnow
          · cases hnow
          · cases hnow
        | ok now => exact Or.inr ⟨⟨now, h.keeps _ List.mem_cons_self⟩, hf now _ _ _ _ h⟩

lemma sleepUntil_spends {chrono : Serde DateTime} {wakeAt : DateTime} {r : Result Unit}
    (h : Run transcribed ((TaskContext.sleepUntil chrono name wakeAt).run c) [] (.done (r, d)) log) :
    ((∀ now, ⟨.query .currentTime, .ok now⟩ ∉ log) ∧ d = c) ∨
      (∃ now, ⟨.query .currentTime, .ok now⟩ ∈ log) ∧ Spent c name log d := by
  apply timed_spends _ h
  intro now log₁ r' d' log₂ hrun
  exact spends (fun _ _ => sleepUntilAtCurrentTime_continues chrono name wakeAt now) hrun

lemma sleepFor_spends {chrono : Serde DateTime} {duration : Duration} {r : Result Unit}
    (h : Run transcribed ((TaskContext.sleepFor chrono name duration).run c) [] (.done (r, d)) log) :
    ((∀ now, ⟨.query .currentTime, .ok now⟩ ∉ log) ∧ d = c) ∨
      (∃ now, ⟨.query .currentTime, .ok now⟩ ∈ log) ∧ Spent c name log d := by
  rw [TaskContext.sleepFor] at h
  cases hd : chronoFromStd duration with
  | none =>
    rw [hd] at h
    cases h
    exact Or.inl ⟨fun _ => List.not_mem_nil, rfl⟩
  | some duration =>
    rw [hd] at h
    apply timed_spends _ h
    intro now log₁ r' d' log₂ hrun
    cases hwake : now.checkedAdd duration with
    | none =>
      rw [hwake] at hrun
      cases hrun with
      | @step _ _ r => exact (r : Empty).elim
    | some wakeAt =>
      rw [hwake] at hrun
      exact spends (fun _ _ => sleepUntilAtCurrentTime_continues chrono name wakeAt now) hrun

end Spent

section Invocation

variable {chrono : Serde DateTime} {i : Invocation chrono} {d : TaskContext} {err : Error}

def stepName? : Method → Option String
  | .step _ name | .beginStep _ name | .sleepFor name _ | .sleepUntil name _ => some name
  | .awaitEvent _ eventName options => some (awaitEventName eventName options)
  | .awaitTaskResult taskId options => some (awaitTaskResultName taskId options)
  | _ => none

def Refuses (c : TaskContext) (log : Transcript Call Answer) : Method → Prop
  | .sleepFor _ _ | .sleepUntil _ _ => ∀ now, ⟨.query .currentTime, .ok now⟩ ∉ log
  | .awaitEvent _ eventName _ => isBlank eventName = true
  | .awaitTaskResult _ options => Unwaitable c options
  | _ => False

/-- A call that takes a checkpoint name and fails leaves its context as it was if it failed before
it took the name. Otherwise the name is spent: its counter is one higher, nothing is cached but what
the database gave, and the name stands for another slot. -/
theorem failed_call_spends_name {name : String} (hname : stepName? i.method = some name)
    (herr : i.rest = .done (.error err, d)) :
    (Refuses i.before i.log i.method ∧ d = i.before) ∨
      (¬ Refuses i.before i.log i.method ∧ Spent i.before name i.log d ∧
        nextSlot d name ≠ nextSlot i.before name) := by
  obtain ⟨m, turns, c, log, q, ran⟩ := i
  obtain rfl : q = .done (.error err, d) := herr
  have hspent : Spent c name log d → ¬ Refuses c log m → (Refuses c log m ∧ d = c) ∨
      (¬ Refuses c log m ∧ Spent c name log d ∧ nextSlot d name ≠ nextSlot c name) :=
    fun h hm => Or.inr ⟨hm, h, h.slot⟩
  have htimed : (Refuses c log m ↔ ∀ now, ⟨.query .currentTime, .ok now⟩ ∉ log) →
      ((∀ now, ⟨.query .currentTime, .ok now⟩ ∉ log) ∧ d = c) ∨
        (∃ now, ⟨.query .currentTime, .ok now⟩ ∈ log) ∧ Spent c name log d →
      (Refuses c log m ∧ d = c) ∨
        (¬ Refuses c log m ∧ Spent c name log d ∧ nextSlot d name ≠ nextSlot c name) := by
    rintro hm (⟨hnever, hd⟩ | ⟨⟨now, hnow⟩, h⟩)
    · exact Or.inl ⟨hm.mpr hnever, hd⟩
    · exact hspent h fun hr => hm.mp hr now hnow
  cases m with
  | step serde n =>
    cases hname
    exact hspent (spends (fun _ _ => step_continues serde name) ran) not_false
  | beginStep serde n =>
    cases hname
    exact hspent (spends (fun _ _ => beginStep_continues serde name) ran) not_false
  | sleepFor n duration =>
    cases hname
    exact htimed Iff.rfl (sleepFor_spends ran)
  | sleepUntil n wakeAt =>
    cases hname
    exact htimed Iff.rfl (sleepUntil_spends ran)
  | awaitEvent serde eventName options =>
    cases hname
    by_cases hblank : isBlank eventName = true
    · change Run transcribed ((TaskContext.awaitEventWithOptions serde eventName options).run c) _ _ _
        at ran
      rw [TaskContext.awaitEventWithOptions, if_pos hblank] at ran
      cases ran
      exact Or.inl ⟨hblank, rfl⟩
    · exact hspent (spends (fun _ hD => awaitEvent_continues hD serde options hblank) ran) hblank
  | awaitTaskResult taskId options =>
    cases hname
    by_cases hun : Unwaitable c options
    · obtain ⟨err', hrun⟩ := awaitTaskResult_refused turns taskId hun
      change Run transcribed ((TaskContext.awaitTaskResult turns taskId options).run c) _ _ _ at ran
      rw [hrun] at ran
      cases ran
      exact Or.inl ⟨hun, rfl⟩
    · change Run transcribed ((TaskContext.awaitTaskResult turns taskId options).run c) _ _ _ at ran
      rw [awaitTaskResult_run turns taskId hun] at ran
      exact hspent (spends (fun _ _ => awaitTaskResult_continues c turns taskId options) ran) hun
  | _ => cases hname

end Invocation

def sampleFailure : Invocation sampleChrono where
  method := .step Serde.json "charge"
  turns := 0
  before := sampleContext
  log := [⟨.poolGet, .error "closed"⟩]
  rest := .done (.error (.pool "closed"), advance sampleContext "charge")
  ran := by
    refine .step (r := .error "closed") rfl ?_
    exact .refl _ _

theorem failed_call_spends_name_sample :
    Spent sampleContext "charge" sampleFailure.log (advance sampleContext "charge") ∧
      nextSlot (advance sampleContext "charge") "charge" ≠ nextSlot sampleContext "charge" := by
  have hspent : stepName? sampleFailure.method = some "charge" := rfl
  rcases failed_call_spends_name hspent rfl with ⟨hrefuses, -⟩ | ⟨-, h⟩
  · exact hrefuses.elim
  · exact h

theorem failed_step_spends_name :
    sampleFailure.method = .step Serde.json "charge" ∧ sampleFailure.before = sampleContext ∧
      sampleFailure.rest = .done (.error (.pool "closed"), advance sampleContext "charge") ∧
      (advance sampleContext "charge").stepNameCounter ≠ sampleContext.stepNameCounter ∧
      nextSlot sampleContext "charge" = "charge" ∧
      nextSlot (advance sampleContext "charge") "charge" = "charge#2" := by
  refine ⟨rfl, rfl, rfl, ?_, rfl, rfl⟩
  intro h
  have hcount := congrFun h "charge"
  cases hcount

end AbsurdSdk.Durability
