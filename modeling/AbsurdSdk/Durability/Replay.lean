import AbsurdSdk.Durability.Operations
import AbsurdSdk.Interaction.Replay

namespace AbsurdSdk.Durability

open Interaction Model

/-- `pair` is `begin_step` followed by its own `complete_step`. -/
inductive ReplayOp : Type 1
  | step {T : Type} (serde : Serde T) (name : String)
  | pair {T : Type} (serde : Serde T) (name : String)
  | awaitTaskResult (taskId : Uuid) (options : AwaitTaskResultOptions)

namespace ReplayOp

abbrev Ans : ReplayOp → Type
  | step (T := T) _ _ => T
  | pair (T := T) _ _ => T
  | awaitTaskResult _ _ => TaskResultSnapshot

def run (turns : ℕ) : (op : ReplayOp) → ContextM op.Ans
  | step serde name => TaskContext.step serde name
  | pair (T := T) serde name => do
    let handle ← TaskContext.beginStep serde name
    let value ← Async.supply T
    TaskContext.completeStep serde handle value
  | awaitTaskResult taskId options => TaskContext.awaitTaskResult turns taskId options

def name : ReplayOp → String
  | step _ name | pair _ name => name
  | awaitTaskResult taskId options => awaitTaskResultName taskId options

def Lossless : ReplayOp → Prop
  | step serde _ | pair serde _ => serde.Lossless
  | awaitTaskResult _ _ => True

end ReplayOp

structure Visit where
  op : ReplayOp
  slot : String
  before : World
  after : World
  answer : Option op.Ans

def Visit.answered (v : Visit) : Option (Σ op : ReplayOp, String × op.Ans) :=
  v.answer.map fun a => ⟨v.op, v.slot, a⟩

inductive Execution {R : Type} (env : Env Call Answer World) :
    Program ReplayOp ReplayOp.Ans R → TaskContext → World → List Visit → Option R → World → Prop
  | finish (r : R) (c : TaskContext) (w : World) : Execution env (.done r) c w [] (some r) w
  | stop (p : Program ReplayOp ReplayOp.Ans R) (c : TaskContext) (w : World) :
      Execution env p c w [] none w
  | cut {op : ReplayOp} {next : op.Ans → Program ReplayOp ReplayOp.Ans R} {c : TaskContext}
      {w t : World} {turns : ℕ} {q : Process (Result op.Ans × TaskContext)} :
      Run env ((op.run turns).run c) w q t →
      Execution env (.call op next) c w [⟨op, nextSlot c op.name, w, t, none⟩] none t
  | returned {op : ReplayOp} {next : op.Ans → Program ReplayOp ReplayOp.Ans R}
      {c d : TaskContext} {w t u : World} {turns : ℕ} {a : op.Ans} {visits : List Visit}
      {r : Option R} :
      Run env ((op.run turns).run c) w (.done (.ok a, d)) t → Execution env (next a) d t visits r u →
      Execution env (.call op next) c w (⟨op, nextSlot c op.name, w, t, some a⟩ :: visits) r u

structure Record (R : Type) where
  start : World
  visits : List Visit
  result : Option R

def Record.answers {R : Type} (record : Record R) : Memo.Answers ReplayOp ReplayOp.Ans String :=
  record.visits.filterMap Visit.answered

/-- A series of executions of one task from the empty store, each on what the one before it left.
An execution may also be cut or fail while its context is set up. -/
inductive Executions {R : Type} (env : Env Call Answer World) (queueName : String)
    (handler : Program ReplayOp ReplayOp.Ans R) : List (Record R) → World → Prop
  | start : Executions env queueName handler [] World.empty
  | unready {records : List (Record R)} {w t : World} {task : ClaimedTask}
      {claimTimeout : Duration} {leaseTx : Bool} {q : Process (Result TaskContext)} :
      Executions env queueName handler records w →
      Run env (TaskContext.new queueName task claimTimeout leaseTx).run w q t →
      Executions env queueName handler (records ++ [⟨w, [], none⟩]) t
  | next {records : List (Record R)} {w t u : World} {task : ClaimedTask}
      {claimTimeout : Duration} {leaseTx : Bool} {c : TaskContext} {visits : List Visit}
      {r : Option R} :
      Executions env queueName handler records w →
      Run env (TaskContext.new queueName task claimTimeout leaseTx).run w (.done (.ok c)) t →
      Execution env handler c t visits r u →
      Executions env queueName handler (records ++ [⟨w, visits, r⟩]) u

def waitable (queueName : String) (options : AwaitTaskResultOptions) : Bool :=
  (validateQueueName (options.queue.getD queueName)).isOk &&
    options.queue.getD queueName != queueName

/-- The checkpoints as a memo: an operation that finds its slot empty commits a fresh value, and
one that finds a value returns what it decodes to. -/
def checkpoints (queueName : String) : Memo ReplayOp ReplayOp.Ans String Json (String → ℕ) where
  name count op := (numbered op.name (count op.name + 1),
    Function.update count op.name (count op.name + 1))
  decode
    | .step serde _, v | .pair serde _, v => (serde.fromValue v).toOption
    | .awaitTaskResult _ options, v =>
      if waitable queueName options then (TaskResultSnapshot.fromValue v).toOption else none
  fresh
    | .step serde _, v | .pair serde _, v => ∃ x, serde.toValue x = .ok v
    | .awaitTaskResult _ _, v => ∃ s : TaskResultSnapshot, s.isTerminal = true ∧ v = s.toValue

lemma decode_awaitTaskResult {queueName : String} {options : AwaitTaskResultOptions} {taskId : Uuid}
    {v : Json} (h : waitable queueName options = true) :
    (checkpoints queueName).decode (.awaitTaskResult taskId options) v =
      (TaskResultSnapshot.fromValue v).toOption :=
  if_pos h

lemma waitable_iff {c : TaskContext} {options : AwaitTaskResultOptions} :
    waitable c.queueName options = true ↔ ¬ Unwaitable c options := by
  rw [waitable, Unwaitable, not_or, not_not, Bool.and_eq_true, bne_iff_ne]
  apply and_congr_left'
  cases validateQueueName (options.queue.getD c.queueName) <;> simp [Except.isOk, Except.toBool]

def IsWork : Call → Prop
  | .closure _ | .query (.getTaskResult _ _) => True
  | _ => False

section Operation

variable {op : ReplayOp} {c : TaskContext} {w t : World}

def Underway (op : ReplayOp) (c : TaskContext) (w t : World) : Prop :=
  (t.store = w.store ∨
    ∃ a, (checkpoints c.queueName).Answered op c.stepNameCounter w.store a t.store) ∧
  (w.store (nextSlot c op.name) ≠ none → Grew (fun call => ¬ IsWork call) w t)

def Returned (op : ReplayOp) (c : TaskContext) (w : World) (r : Result op.Ans × TaskContext)
    (t : World) : Prop :=
  ∀ a, r.1 = .ok a →
    (checkpoints c.queueName).Answered op c.stepNameCounter w.store a t.store ∧
    Cached r.2 t.store ∧ ∃ cache, r.2 = withCache (advance c op.name) cache

lemma isLookup_not_work {name : String} {call : Call} (h : IsLookup name call) : ¬ IsWork call := by
  cases call with
  | query statement => cases statement <;> simp_all [IsLookup, IsWork]
  | _ => simp_all [IsLookup, IsWork]

lemma Underway.of_lookup (hs : t.store = w.store) (hg : Grew (IsLookup (nextSlot c op.name)) w t) :
    Underway op c w t :=
  ⟨Or.inl hs, fun _ => hg.mono fun _ hc => isLookup_not_work hc⟩

lemma Underway.of_fresh (hn : w.store (nextSlot c op.name) = none) (hs : t.store = w.store) :
    Underway op c w t :=
  ⟨Or.inl hs, fun h => absurd hn h⟩

lemma saved_underway (op : ReplayOp) (serde : Serde op.Ans) {x : op.Ans} {d : TaskContext} {cache : Store}
    (hn : w.store (nextSlot c op.name) = none) (hs : t.store = w.store) (hd : Cached d t.store)
    (hc : d = withCache (advance c op.name) cache)
    (hfresh : ∀ v, serde.toValue x = .ok v → (checkpoints c.queueName).fresh op v ∧
      (checkpoints c.queueName).decode op v = some x) :
    Safe durable (Underway op c w) (Returned op c w)
      ((saved serde (nextSlot c op.name) x).run d) t := by
  have hmiss : ∀ v u, serde.toValue x = .ok v →
      u = Function.update t.store (nextSlot c op.name) (some v) →
      (checkpoints c.queueName).Answered op c.stepNameCounter w.store x u := by
    rintro v u hv rfl
    rw [hs]
    exact .miss hn (hfresh v hv).1 (hfresh v hv).2
  refine (saved_safe serde (nextSlot c op.name) x).mono ?_ ?_
  · rintro u (hu | ⟨v, hv, hu⟩)
    · exact .of_fresh hn (hu.trans hs)
    · exact ⟨Or.inr ⟨x, hmiss v u.store hv hu⟩, fun h => absurd hn h⟩
  · rintro r u - hr a ha
    obtain ⟨rfl, v, hv, hu, hru⟩ := hr a ha
    have ht : t.store (nextSlot c op.name) = none := by rw [hs, hn]
    refine ⟨hmiss v u.store hv hu, ?_,
      ⟨Function.update d.checkpointCache (nextSlot c op.name) (some v), ?_⟩⟩
    · rw [hru, hu]
      exact (hd.commit ht).insert (Function.update_self ..)
    · rw [hru, hc]
      rfl

lemma step_underway {T : Type} (serde : Serde T) (name : String) (turns : ℕ)
    (h : Cached c w.store) (hl : serde.Lossless) :
    Safe durable (Underway (.step serde name) c w) (Returned (.step serde name) c w)
      ((ReplayOp.run turns (.step serde name)).run c) w := by
  simp only [ReplayOp.run, TaskContext.step, safe_context_bind]
  refine (beginStep_safe serde name h).mono (fun t ht => .of_lookup ht.1 ht.2) ?_
  rintro ⟨r, d⟩ t ⟨hs, hg⟩ hr
  have hlook : Underway (.step serde name) c w t := .of_lookup hs hg
  cases r with
  | error err => exact ⟨hlook, by rintro a ⟨⟩⟩
  | ok handle =>
    obtain ⟨hd, ⟨cache, hcache⟩, hbegun⟩ := hr handle rfl
    cases hbegun with
    | @done v a hv ha =>
      refine ⟨hlook, ?_⟩
      rintro b ⟨⟩
      rw [hs] at hd ⊢
      exact ⟨.hit hv (by simp [checkpoints, ha, Except.toOption]), hd, cache, hcache⟩
    | fresh hn =>
      have hi : ∀ u : World, u.store = t.store → Underway (.step serde name) c w u :=
        fun u hu => .of_fresh hn (hu.trans hs)
      simp only [Bool.false_eq_true, if_false, safe_context_bind, safe_lift]
      refine safe_closure hlook ?_
      rintro r u ⟨hu, -⟩
      refine ⟨hi u hu, ?_⟩
      rintro (err | x) -
      · exact ⟨hi u hu, hi u hu, by rintro a ⟨⟩⟩
      · refine ⟨hi u hu, saved_underway (.step serde name) serde hn (hu.trans hs)
          (hu ▸ hd) hcache ?_⟩
        intro v hv
        exact ⟨⟨x, hv⟩, by simp [checkpoints, hl x v hv, Except.toOption]⟩

lemma pair_underway {T : Type} (serde : Serde T) (name : String) (turns : ℕ)
    (h : Cached c w.store) (hl : serde.Lossless) :
    Safe durable (Underway (.pair serde name) c w) (Returned (.pair serde name) c w)
      ((ReplayOp.run turns (.pair serde name)).run c) w := by
  simp only [ReplayOp.run, safe_context_bind]
  refine (beginStep_safe serde name h).mono (fun t ht => .of_lookup ht.1 ht.2) ?_
  rintro ⟨r, d⟩ t ⟨hs, hg⟩ hr
  have hlook : Underway (.pair serde name) c w t := .of_lookup hs hg
  cases r with
  | error err => exact ⟨hlook, by rintro a ⟨⟩⟩
  | ok handle =>
    obtain ⟨hd, ⟨cache, hcache⟩, hbegun⟩ := hr handle rfl
    simp only [safe_lift]
    refine safe_supply hlook ?_
    rintro r u ⟨hu, hul⟩
    have hus : u.store = w.store := (hu : u.store = t.store).trans hs
    have hug : Underway (.pair serde name) c w u :=
      ⟨Or.inl hus, fun _ => (hg.mono fun _ hc => isLookup_not_work hc).step ⟨hu, hul⟩ id⟩
    refine ⟨hug, ?_⟩
    rintro x -
    refine ⟨hug, ?_⟩
    cases hbegun with
    | @done v a hv ha =>
      simp only [completeStep_done, safe_lift, safe_ofResult]
      refine ⟨hug, hug, ?_⟩
      rintro b ⟨⟩
      refine ⟨?_, hu ▸ hd, cache, hcache⟩
      rw [hus]
      exact .hit hv (by simp [checkpoints, ha, Except.toOption])
    | fresh hn =>
      simp only [completeStep_fresh]
      refine saved_underway (.pair serde name) serde hn hus (hu ▸ hd) hcache ?_
      intro v hv
      exact ⟨⟨x, hv⟩, by simp [checkpoints, hl x v hv, Except.toOption]⟩

lemma pollTaskResult_underway {taskId : Uuid} {options : AwaitTaskResultOptions} {d : TaskContext}
    {cache : Store} (turns : ℕ) (hwait : waitable c.queueName options = true)
    (hn : w.store (nextSlot c (ReplayOp.awaitTaskResult taskId options).name) = none)
    (hs : t.store = w.store) (hd : Cached d t.store)
    (hc : d = withCache (advance c (ReplayOp.awaitTaskResult taskId options).name) cache) :
    Safe durable (Underway (.awaitTaskResult taskId options) c w)
      (Returned (.awaitTaskResult taskId options) c w)
      ((pollTaskResult c turns taskId options
        (nextSlot c (ReplayOp.awaitTaskResult taskId options).name)).run d) t := by
  have hi : ∀ u : World, u.store = w.store → Underway (.awaitTaskResult taskId options) c w u :=
    fun u hu => .of_fresh hn hu
  simp only [pollTaskResult, safe_context_bind, safe_lift, safe_now]
  refine ⟨hi t hs, ?_⟩
  rintro now u ⟨hu, -⟩
  have hus : u.store = w.store := (hu : u.store = t.store).trans hs
  refine ⟨hi u hus, hi u hus, (awaitTaskResultWithBackoff_safe _ taskId options.timeout
    (heartbeatBeforeSleep_storing _) turns _ hus).mono hi ?_⟩
  rintro (err | snapshot) v hv hterm
  · exact ⟨hi v hv, hi v hv, by rintro a ⟨⟩⟩
  · have hdv : Cached d v.store := by
      rw [hv, ← hs]
      exact hd
    refine ⟨hi v hv, saved_underway (.awaitTaskResult taskId options) TaskResultSnapshot.serde hn hv
      hdv hc ?_⟩
    rintro j ⟨⟩
    refine ⟨⟨snapshot, hterm snapshot rfl, rfl⟩, ?_⟩
    rw [decode_awaitTaskResult hwait]
    exact congrArg Except.toOption (TaskResultSnapshot.serde_lossless snapshot _ rfl)

lemma awaitTaskResult_underway (taskId : Uuid) (options : AwaitTaskResultOptions) (turns : ℕ)
    (h : Cached c w.store) :
    Safe durable (Underway (.awaitTaskResult taskId options) c w)
      (Returned (.awaitTaskResult taskId options) c w)
      ((ReplayOp.run turns (.awaitTaskResult taskId options)).run c) w := by
  have hw : Underway (.awaitTaskResult taskId options) c w w := .of_lookup rfl (.refl _ w)
  rw [ReplayOp.run]
  by_cases hun : Unwaitable c options
  · obtain ⟨err, herr⟩ := awaitTaskResult_refused turns taskId hun
    rw [herr]
    exact ⟨hw, by rintro a ⟨⟩⟩
  · have hwait := waitable_iff.mpr hun
    have hc : Cached (advance c (ReplayOp.awaitTaskResult taskId options).name) w.store := h
    rw [awaitTaskResult_run turns taskId hun]
    simp only [safe_context_bind, safe_nextCheckpointName, awaitTaskResultIn]
    refine ⟨hw, (lookupCheckpoint_safe _ (hc _)).mono (fun t ht => .of_lookup ht.1 ht.2) ?_⟩
    rintro ⟨r, d⟩ t ⟨hs, hg⟩ ⟨hre, hr, -⟩
    obtain ⟨cache, hcache⟩ := hre.withCache
    have hd : Cached d t.store := by
      rw [hs]
      exact hre.cached hc
    have hlook : Underway (.awaitTaskResult taskId options) c w t := .of_lookup hs hg
    cases r with
    | error err => exact ⟨hlook, by rintro a ⟨⟩⟩
    | ok found =>
      have hfound := hr found rfl
      cases found with
      | some cached =>
        simp only [safe_lift, Async.decode, safe_ofResult]
        refine ⟨hlook, hlook, ?_⟩
        intro a ha
        rw [hs] at hd ⊢
        refine ⟨.hit hfound.symm ?_, hd, cache, hcache⟩
        cases hv : TaskResultSnapshot.serde.fromValue cached with
        | error text => simp [hv, Except.mapError] at ha
        | ok b =>
          simp only [hv, Except.mapError, Except.ok.injEq] at ha
          subst ha
          rw [decode_awaitTaskResult hwait]
          exact congrArg Except.toOption hv
      | none => exact pollTaskResult_underway turns hwait hfound.symm hs hd hcache

lemma operation_underway (op : ReplayOp) (turns : ℕ) (h : Cached c w.store) (hl : op.Lossless) :
    Safe durable (Underway op c w) (Returned op c w) ((op.run turns).run c) w := by
  cases op with
  | step serde name => exact step_underway serde name turns h hl
  | pair serde name => exact pair_underway serde name turns h hl
  | awaitTaskResult taskId options => exact awaitTaskResult_underway taskId options turns h

end Operation

section Replay

variable {R : Type} {p handler : Program ReplayOp ReplayOp.Ans R} {c : TaskContext} {w t : World}
  {visits : List Visit} {r : Option R} {queueName : String} {records : List (Record R)}

lemma Execution.attempt (h : Execution durable p c w visits r t) (hl : p.Calls ReplayOp.Lossless)
    (hc : Cached c w.store) :
    (checkpoints c.queueName).Attempt p c.stepNameCounter w.store (visits.filterMap Visit.answered)
      r t.store := by
  induction h with
  | finish r c w => exact .finish r _ _
  | stop p c w => exact .stop p _ _
  | @cut op next c w t turns q hr =>
    rcases ((operation_underway op turns hc hl.1).cut hr).1 with hs | ⟨a, ha⟩
    · rw [hs]
      exact .stop _ _ _
    · exact .lost ha
  | @returned op next c d w t u turns a visits r hr _ ih =>
    obtain ⟨ha, hd, cache, rfl⟩ := (operation_underway op turns hc hl.1).finish hr a rfl
    exact .answer ha (ih (hl.2 a) hd)

lemma Execution.quiet (h : Execution durable p c w visits r t) (hl : p.Calls ReplayOp.Lossless)
    (hc : Cached c w.store) {v : Visit} (hv : v ∈ visits) (hs : w.store v.slot ≠ none) :
    Grew (fun call => ¬ IsWork call) v.before v.after := by
  induction h with
  | finish => simp at hv
  | stop => simp at hv
  | @cut op next c w t turns q hr =>
    obtain rfl := List.mem_singleton.mp hv
    exact ((operation_underway op turns hc hl.1).cut hr).2 hs
  | @returned op next c d w t u turns a visits r hr _ ih =>
    rcases List.mem_cons.mp hv with rfl | hv
    · exact ((operation_underway op turns hc hl.1).cut hr).2 hs
    · obtain ⟨ha, hd, cache, rfl⟩ := (operation_underway op turns hc hl.1).finish hr a rfl
      refine ih (hl.2 a) hd hv ?_
      obtain ⟨x, hx⟩ := Option.ne_none_iff_exists'.mp hs
      rw [ha.mono hx]
      exact Option.some_ne_none x

lemma Execution.answered {env : Env Call Answer World} (h : Execution env p c w visits r t) {i : ℕ}
    {v : Visit} {a : Σ op : ReplayOp, String × op.Ans} (hv : visits[i]? = some v)
    (ha : v.answered = some a) : (visits.filterMap Visit.answered)[i]? = some a := by
  induction h generalizing i with
  | finish => simp at hv
  | stop => simp at hv
  | cut hr =>
    obtain rfl := List.mem_singleton.mp (List.mem_of_getElem? hv)
    cases ha
  | @returned op next c d w t u turns b visits r hr _ ih =>
    have hcons : (⟨op, nextSlot c op.name, w, t, some b⟩ :: visits).filterMap Visit.answered =
        ⟨op, nextSlot c op.name, b⟩ :: visits.filterMap Visit.answered := rfl
    rw [hcons]
    cases i with
    | zero =>
      cases hv
      exact ha
    | succ i => exact ih hv

lemma Executions.series (h : Executions durable queueName handler records w)
    (hl : handler.Calls ReplayOp.Lossless) :
    (checkpoints queueName).Series handler (fun _ => 0) (fun _ => none)
      (records.map fun record => (record.answers, record.result)) w.store := by
  induction h with
  | start => exact .start
  | unready _ hr ih =>
    rw [List.map_append, (taskContext_safe _ _ _ _ _).cut hr]
    exact .next ih (.stop _ _ _)
  | next _ hr he ih =>
    rw [List.map_append]
    obtain ⟨hc, rfl, hn, -⟩ := (taskContext_safe _ _ _ _ _).finish hr _ rfl
    have ha := he.attempt hl hc
    rw [hn, (taskContext_safe _ _ _ _ _).cut hr] at ha
    exact .next ih ha

lemma Executions.record (h : Executions durable queueName handler records w) :
    ∀ e ∈ records, e.visits = [] ∨ ∃ c t u, Execution durable handler c t e.visits e.result u ∧
      t.store = e.start.store ∧ Cached c t.store := by
  induction h with
  | start => simp
  | unready _ _ ih =>
    intro e he
    rcases List.mem_append.mp he with he | he
    · exact ih e he
    · obtain rfl := List.mem_singleton.mp he
      exact Or.inl rfl
  | next _ hr hx ih =>
    intro e he
    rcases List.mem_append.mp he with he | he
    · exact ih e he
    · obtain rfl := List.mem_singleton.mp he
      exact Or.inr ⟨_, _, _, hx, (taskContext_safe _ _ _ _ _).cut hr,
        ((taskContext_safe _ _ _ _ _).finish hr _ rfl).1⟩

lemma Executions.quiet (h : Executions durable queueName handler records w)
    (hl : handler.Calls ReplayOp.Lossless) {e : Record R} (he : e ∈ records) {v : Visit}
    (hv : v ∈ e.visits) (hs : e.start.store v.slot ≠ none) :
    Grew (fun call => ¬ IsWork call) v.before v.after := by
  rcases h.record e he with hnil | ⟨c, t, u, hx, ht, hc⟩
  · simp [hnil] at hv
  · rw [← ht] at hs
    exact hx.quiet hl hc hv hs

lemma Executions.answered (h : Executions durable queueName handler records w) {e : Record R}
    (he : e ∈ records) {i : ℕ} {v : Visit} {a : Σ op : ReplayOp, String × op.Ans}
    (hv : e.visits[i]? = some v) (ha : v.answered = some a) : e.answers[i]? = some a := by
  rcases h.record e he with hnil | ⟨c, t, u, hx, -, -⟩
  · simp [hnil] at hv
  · exact hx.answered hv ha

end Replay

end AbsurdSdk.Durability
