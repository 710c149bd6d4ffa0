import AbsurdSdk.Durability.Replay
import AbsurdSdk.Model.Discipline

/-! Handlers that mix the durable operations of a context and see their errors, and histories of
their executions. A slot is only touched by the operations that are given it. -/

namespace AbsurdSdk.Durability

open Interaction Model

inductive TaskOp : Type 1
  | replays (op : ReplayOp)
  | sleepFor (name : String) (duration : Duration)
  | sleepUntil (name : String) (wakeAt : DateTime)
  | awaitEvent {T : Type} (serde : Serde T) (eventName : String) (options : AwaitEventOptions)

namespace TaskOp

abbrev Ans : TaskOp → Type
  | replays op => op.Ans
  | sleepFor _ _ => Unit
  | sleepUntil _ _ => Unit
  | awaitEvent (T := T) _ _ _ => T

def name : TaskOp → String
  | replays op => op.name
  | sleepFor name _ | sleepUntil name _ => name
  | awaitEvent _ eventName options => awaitEventName eventName options

def run (chrono : Serde DateTime) (turns : ℕ) : (op : TaskOp) → ContextM op.Ans
  | replays op => op.run turns
  | sleepFor name duration => TaskContext.sleepFor chrono name duration
  | sleepUntil name wakeAt => TaskContext.sleepUntil chrono name wakeAt
  | awaitEvent serde eventName options => TaskContext.awaitEventWithOptions serde eventName options

end TaskOp

def TaskOp.IsSleep : TaskOp → Prop
  | .sleepFor _ _ | .sleepUntil _ _ => True
  | _ => False

def TaskOp.IsWait : TaskOp → Prop
  | .awaitEvent _ eventName _ => isBlank eventName = false
  | _ => False

lemma TaskOp.IsSleep.not_isWait {op : TaskOp} (h : op.IsSleep) : ¬ op.IsWait := by
  cases op with
  | sleepFor | sleepUntil => exact id
  | _ => exact h.elim

def Untimed (task : ClaimedTask) : Prop :=
  ∀ event, task.wakeEvent = some event → task.eventPayload ≠ none

abbrev TaskHandler (R : Type) := Program TaskOp (fun op => Result op.Ans) R

structure OpVisit where
  op : TaskOp
  context : TaskContext
  before : World
  after : World
  rest : Process (Result op.Ans × TaskContext)

namespace OpVisit

def slot (v : OpVisit) : String := nextSlot v.context v.op.name

def events (v : OpVisit) : List Event := v.after.log.take (v.after.log.length - v.before.log.length)

lemma events_eq {v : OpVisit} {events : List Event} (h : v.after.log = events ++ v.before.log) :
    v.events = events := by
  rw [OpVisit.events, h]
  simp

end OpVisit

inductive Performs {R : Type} (env : Env Call Answer World) (chrono : Serde DateTime) :
    TaskHandler R → TaskContext → World → List OpVisit → World → Prop
  | stop (p : TaskHandler R) (c : TaskContext) (w : World) : Performs env chrono p c w [] w
  | cut {op : TaskOp} {next : Result op.Ans → TaskHandler R} {c : TaskContext} {w t : World}
      {turns : ℕ} {q : Process (Result op.Ans × TaskContext)} :
      Run env ((op.run chrono turns).run c) w q t →
      Performs env chrono (.call op next) c w [⟨op, c, w, t, q⟩] t
  | next {op : TaskOp} {next : Result op.Ans → TaskHandler R} {c d : TaskContext}
      {w t u : World} {turns : ℕ} {r : Result op.Ans} {visits : List OpVisit} :
      Run env ((op.run chrono turns).run c) w (.done (r, d)) t →
      Performs env chrono (next r) d t visits u →
      Performs env chrono (.call op next) c w (⟨op, c, w, t, .done (r, d)⟩ :: visits) u

/-- The executions of one task, one after another from the empty store, of runs and handlers among
those given. Between them an emit may commit the payload of an event some execution waits for. -/
inductive History {R : Type} (env : Env Call Answer World) (chrono : Serde DateTime)
    (queueName : String) (claims : ClaimedTask → Prop) (handlers : TaskHandler R → Prop) :
    List (List OpVisit) → World → Prop
  | start : History env chrono queueName claims handlers [] World.empty
  | unready {executions : List (List OpVisit)} {w t : World} {task : ClaimedTask}
      {claimTimeout : Duration} {leaseTx : Bool} {q : Process (Result TaskContext)} :
      History env chrono queueName claims handlers executions w → claims task →
      Run env (TaskContext.new queueName task claimTimeout leaseTx).run w q t →
      History env chrono queueName claims handlers (executions ++ [[]]) t
  | next {executions : List (List OpVisit)} {w t u : World} {task : ClaimedTask}
      {claimTimeout : Duration} {leaseTx : Bool} {c : TaskContext} {visits : List OpVisit}
      {handler : TaskHandler R} :
      History env chrono queueName claims handlers executions w → claims task →
      Run env (TaskContext.new queueName task claimTimeout leaseTx).run w (.done (.ok c)) t →
      handlers handler → Performs env chrono handler c t visits u →
      History env chrono queueName claims handlers (executions ++ [visits]) u
  | emitted {executions : List (List OpVisit)} {w : World} {v : OpVisit} (payload : Json) :
      History env chrono queueName claims handlers executions w → v ∈ executions.flatten →
      v.op.IsWait → w.store v.slot = none →
      History env chrono queueName claims handlers executions
        { w with store := Function.update w.store v.slot (some payload) }

section Frame

variable {α β : Type} {s : String} {c : TaskContext}

def Leaves (s : String) : Call → Prop
  | .query (.setTaskCheckpointState _ _ name _ _ _) => name ≠ s
  | .query (.awaitEvent _ _ _ name _ _) => name ≠ s
  | _ => True

lemma stores_leaves {call : Call} {r : Answer call} {σ σ' : Store} (h : Leaves s call)
    (hs : stores σ call r σ') : σ' s = σ s := by
  rcases call with _ | ⟨statement⟩ | _ | _ | _ | _ | _ | _ | _
  case query =>
    cases statement with
    | getTaskCheckpointStates => exact congrFun hs.1 s
    | getTaskCheckpointState => exact congrFun hs.1 s
    | setTaskCheckpointState =>
      rcases hs with rfl | hs
      · exact Function.update_of_ne h.symm _ _
      · exact congrFun hs.1 s
    | awaitEvent =>
      rcases r with err | ⟨_ | _, _ | payload⟩
      · rcases hs with rfl | ⟨payload, rfl⟩
        · rfl
        · exact Function.update_of_ne h.symm _ _
      · exact congrFun hs s
      · rw [show σ' = _ from hs]
        exact Function.update_of_ne h.symm _ _
      · exact congrFun hs s
      · exact congrFun hs s
    | _ => exact congrFun hs s
  all_goals exact congrFun hs s

def Untouched (s : String) (w t : World) : Prop := t.store s = w.store s ∧ Grew (Leaves s) w t

namespace Untouched

lemma refl (s : String) (w : World) : Untouched s w w := ⟨rfl, .refl _ w⟩

lemma step {w t u : World} {call : Call} {r : Answer call} (h : Untouched s w t)
    (hu : durable t call r u) (hc : Leaves s call) : Untouched s w u :=
  ⟨(stores_leaves hc hu.1).trans h.1, h.2.step hu hc⟩

lemma trans {w t u : World} (h : Untouched s w t) (h' : Untouched s t u) : Untouched s w u :=
  ⟨h'.1.trans h.1, h.2.trans h'.2⟩

end Untouched

def Keeps (s : String) (x : Async α) : Prop :=
  ∀ w, Safe durable (Untouched s w) (fun _ _ => True) x.run w

structure Spared (s : String) (c d : TaskContext) : Prop where
  cache : d.checkpointCache s = c.checkpointCache s
  untimed : Untimed c.task → Untimed d.task

lemma Spared.refl (s : String) (c : TaskContext) : Spared s c c := ⟨rfl, id⟩

lemma Spared.trans {c d e : TaskContext} (h : Spared s c d) (h' : Spared s d e) : Spared s c e :=
  ⟨h'.cache.trans h.cache, h'.untimed ∘ h.untimed⟩

def Spares (s : String) (m : ContextM α) (c : TaskContext) : Prop :=
  ∀ w, Safe durable (Untouched s w) (fun r _ => Spared s c r.2) (m.run c) w

namespace Keeps

lemma bind {x : Async α} {f : α → Async β} (hx : Keeps s x) (hf : ∀ a, Keeps s (f a)) :
    Keeps s (x >>= f) := by
  intro w
  rw [safe_async_bind]
  apply (hx w).mono (fun _ h => h)
  rintro (err | a) t ht -
  · exact ⟨ht, trivial⟩
  · exact (hf a t).mono (fun _ hu => ht.trans hu) fun _ _ _ h => h

lemma ofResult (r : Result α) : Keeps s (Async.ofResult r) := fun w => ⟨.refl s w, trivial⟩

lemma pure (a : α) : Keeps s (pure a : Async α) := fun w => ⟨.refl s w, trivial⟩

lemma panic (text : String) : Keeps s (Async.panic text : Async α) :=
  fun w => safe_panic.mpr (.refl s w)

lemma hang : Keeps s (Async.hang : Async α) := fun w => safe_hang.mpr (.refl s w)

lemma now : Keeps s Async.now :=
  fun w => ⟨.refl s w, fun _ _ ht => ⟨(Untouched.refl s w).step ht trivial, trivial⟩⟩

lemma sleep (d : Duration) : Keeps s (Async.sleep d) :=
  fun w => ⟨.refl s w, fun _ _ ht => ⟨(Untouched.refl s w).step ht trivial, trivial⟩⟩

lemma sendLease (d : Duration) : Keeps s (Async.sendLease d) :=
  fun w => ⟨.refl s w, fun _ _ ht => ⟨(Untouched.refl s w).step ht trivial, trivial⟩⟩

lemma query {statement : Statement α} (h : Leaves s (.query statement)) :
    Keeps s (Async.query statement) := by
  intro w
  have hw := Untouched.refl s w
  apply safe_query hw
  · intro r t ht
    exact ⟨hw.step ht trivial, by simp⟩
  · intro t ht r u hu
    exact ⟨(hw.step ht trivial).step hu h, trivial⟩

lemma closure (T : Type) : Keeps s (Async.closure T) := by
  intro w
  have hw := Untouched.refl s w
  exact safe_closure hw fun r t ht => ⟨hw.step ht trivial, by simp⟩

lemma supply (T : Type) : Keeps s (Async.supply T) := by
  intro w
  have hw := Untouched.refl s w
  exact safe_supply hw fun r t ht => ⟨hw.step ht trivial, by simp⟩

end Keeps

namespace Spares

lemma bind {m : ContextM α} {f : α → ContextM β} (hm : Spares s m c)
    (hf : ∀ a d, Spares s (f a) d) : Spares s (m >>= f) c := by
  intro w
  rw [safe_context_bind]
  apply (hm w).mono (fun _ h => h)
  rintro ⟨err | a, d⟩ t ht hd
  · exact ⟨ht, hd⟩
  · exact (hf a d t).mono (fun _ hu => ht.trans hu) fun r u _ hr => hd.trans hr

lemma lift_bind {x : Async α} {f : α → ContextM β} (hx : Keeps s x) (hf : ∀ a, Spares s (f a) c) :
    Spares s (liftM x >>= f) c := by
  intro w
  rw [safe_context_bind, safe_lift]
  apply (hx w).mono (fun _ h => h)
  rintro (err | a) t ht -
  · exact ⟨ht, ht, .refl s c⟩
  · exact ⟨ht, (hf a t).mono (fun _ hu => ht.trans hu) fun _ _ _ h => h⟩

lemma lift {x : Async α} (hx : Keeps s x) : Spares s (liftM x) c := by
  intro w
  rw [safe_lift]
  exact (hx w).mono (fun _ h => h) fun _ _ ht _ => ⟨ht, .refl s c⟩

lemma pure (a : α) : Spares s (pure a : ContextM α) c := fun w => ⟨.refl s w, .refl s c⟩

lemma throw (err : Error) : Spares s (ContextM.throw err : ContextM α) c :=
  fun w => ⟨.refl s w, .refl s c⟩

lemma context_bind {f : TaskContext → ContextM β} (hf : Spares s (f c) c) :
    Spares s (ContextM.context >>= f) c := by
  intro w
  rw [safe_context_bind, safe_context]
  exact ⟨.refl s w, hf w⟩

lemma modify {f : TaskContext → TaskContext}
    (h : Spared s c (f c)) : Spares s (ContextM.modify f) c :=
  fun w => ⟨.refl s w, h⟩

lemma nextName_bind {name : String} {f : String → ContextM β}
    (hf : Spares s (f (nextSlot c name)) (advance c name)) :
    Spares s (TaskContext.nextCheckpointName name >>= f) c := by
  intro w
  rw [safe_context_bind, safe_nextCheckpointName]
  have hadv : Spared s c (advance c name) := ⟨rfl, id⟩
  exact ⟨.refl s w, (hf w).mono (fun _ h => h) fun _ _ _ h => hadv.trans h⟩

lemma bind_of {P : α → Prop} {m : ContextM α} {f : α → ContextM β} (hm : Spares s m c)
    (hP : ∀ w, Safe durable (fun _ => True) (fun r _ => ∀ a, r.1 = .ok a → P a) (m.run c) w)
    (hf : ∀ a d, P a → Spares s (f a) d) : Spares s (m >>= f) c := by
  intro w
  rw [safe_context_bind]
  apply ((hm w).and (hP w)).mono (fun _ h => h.1)
  rintro ⟨err | a, d⟩ t ⟨ht, -⟩ ⟨hd, ha⟩
  · exact ⟨ht, hd⟩
  · exact (hf a d (ha a rfl) t).mono (fun _ hu => ht.trans hu) fun r u _ hr => hd.trans hr

end Spares

variable {name : String}

lemma lookupCheckpoint_spares (h : name ≠ s) (c : TaskContext) :
    Spares s (TaskContext.lookupCheckpoint name) c := by
  rw [TaskContext.lookupCheckpoint]
  apply Spares.context_bind
  split
  · exact .pure _
  · apply Spares.lift_bind
    · exact .query trivial
    · intro row
      cases row with
      | none => exact .pure _
      | some value =>
        apply Spares.bind (.modify ⟨Function.update_of_ne h.symm _ _, id⟩)
        exact fun _ _ => .pure _

lemma persistCheckpoint_spares (h : name ≠ s) (value : Json) (c : TaskContext) :
    Spares s (TaskContext.persistCheckpoint name value) c := by
  rw [TaskContext.persistCheckpoint]
  apply Spares.context_bind
  apply Spares.lift_bind
  · exact .query h
  · intro _
    apply Spares.bind (.modify ⟨Function.update_of_ne h.symm _ _, id⟩)
    intro _ d
    apply Spares.context_bind
    split
    · exact .lift (.sendLease _)
    · exact .pure _

lemma beginStep_handle {T : Type} (serde : Serde T) (w : World) :
    Safe durable (fun _ => True)
      (fun r _ => ∀ handle, r.1 = .ok handle → handle.checkpointName = nextSlot c name)
      ((TaskContext.beginStep serde name).run c) w := by
  simp only [TaskContext.beginStep, safe_context_bind, safe_nextCheckpointName]
  refine ⟨trivial, (Safe.any _ w).mono (fun _ h => h) ?_⟩
  rintro ⟨err | found, d⟩ t - -
  · exact ⟨trivial, by simp⟩
  · cases found with
    | none =>
      refine ⟨trivial, ?_⟩
      rintro handle ⟨⟩
      rfl
    | some cached =>
      simp only [safe_context_bind, safe_lift, Async.decode, safe_ofResult]
      cases serde.fromValue cached with
      | error text => exact ⟨trivial, trivial, trivial, by simp⟩
      | ok a =>
        refine ⟨trivial, trivial, trivial, ?_⟩
        rintro handle ⟨⟩
        rfl

def sparing (s : String) : Discipline where
  async x := Keeps s x
  context m c := Spares s m c
  sound _ := True
  slots slot := slot ≠ s
  takes c name := nextSlot c name ≠ s
  futures := ⟨.bind, .ofResult, .now, .sleep, .hang⟩
  panic := .panic
  closure := .closure
  passive statement h := .query (by cases statement <;> trivial)
  awaitEvent h _ _ _ _ _ := .query h
  beat := by
    intro c _ next
    apply Keeps.bind
    · exact .query trivial
    · intro _
      split
      · exact .bind (.sendLease _) fun _ => .pure _
      · exact .pure _
  pure a _ _ := .pure a
  throw err _ _ := .throw err
  bind hm hf := .bind hm fun a d => hf a d trivial
  lift_bind _ hx hf := .lift_bind hx hf
  context_bind := .context_bind
  next_bind _ h hf := .nextName_bind (hf _ _ h trivial)
  lookup h _ := lookupCheckpoint_spares h _
  persist h _ value := persistCheckpoint_spares h value _
  cache h _ _ := .modify ⟨Function.update_of_ne h.symm _ _, id⟩
  timeOut _ _ := .modify ⟨rfl, fun _ _ hx => nomatch hx⟩
  forget _ _ := .modify ⟨rfl, id⟩

lemma replayOp_spares (turns : ℕ) (op : ReplayOp) (h : nextSlot c op.name ≠ s) :
    Spares s (op.run turns) c := by
  cases op with
  | step serde name => exact (sparing s).step serde trivial h
  | pair serde name =>
    apply Spares.bind_of ((sparing s).beginStep serde trivial h) (beginStep_handle serde)
    intro handle d hhandle
    apply Spares.lift_bind (.supply _)
    exact fun value => (sparing s).completeStep serde value trivial (hhandle ▸ h)
  | awaitTaskResult taskId options => exact (sparing s).awaitTaskResult turns trivial h

lemma taskOp_spares (chrono : Serde DateTime) (turns : ℕ) (op : TaskOp)
    (h : nextSlot c op.name ≠ s) : Spares s (op.run chrono turns) c := by
  cases op with
  | replays op => exact replayOp_spares turns op h
  | sleepFor name duration => exact (sparing s).sleepFor chrono duration trivial h
  | sleepUntil name wakeAt => exact (sparing s).sleepUntil chrono wakeAt trivial h
  | awaitEvent serde eventName options => exact (sparing s).awaitEventWithOptions serde trivial h

end Frame

end AbsurdSdk.Durability
