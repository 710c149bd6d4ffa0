import AbsurdSdk.Durability.Faultless
import AbsurdSdk.Durability.Replay

namespace AbsurdSdk.Durability

open Interaction Model

section Operation

variable {op : ReplayOp} {c : TaskContext} {w : World} {σ : Store}

lemma saved_reaches {T : Type} (serde : Serde T) (slot : String) {value : T} {v : Json}
    (hv : serde.toValue value = .ok v) :
    Reaches faultless
      (fun r t => r.1 = .ok value ∧ t.store = Function.update w.store slot (some v))
      ((saved serde slot value).run c) w := by
  simp only [saved, reaches_context_bind, reaches_lift, Async.encode, reaches_ofResult, hv]
  refine (persistCheckpoint_reaches slot v).mono ?_
  rintro ⟨r, d⟩ t ⟨hr, ht⟩
  cases hr
  exact ⟨rfl, ht⟩

lemma beginStep_reaches {T : Type} (serde : Serde T) {name : String} {handle : StepHandle T}
    (h : Cached c w.store) (hb : Begun serde name (nextSlot c name) w.store handle) :
    Reaches faultless (fun r t => r.1 = .ok handle ∧ t.store = w.store)
      ((TaskContext.beginStep serde name).run c) w := by
  have hc : Cached (advance c name) w.store := h
  simp only [TaskContext.beginStep, reaches_context_bind, nextCheckpointName_run, Reaches.done_iff]
  refine (lookupCheckpoint_reaches (nextSlot c name) hc).mono ?_
  rintro ⟨r, d⟩ t ⟨hr, ht, -⟩
  cases hb with
  | done hv ha =>
    rw [hv] at hr
    cases hr
    simp only [reaches_context_bind, reaches_lift, Async.decode, reaches_ofResult, ha]
    exact ⟨rfl, ht⟩
  | fresh hn =>
    rw [hn] at hr
    cases hr
    exact ⟨rfl, ht⟩

lemma ok_of_toOption {ε α : Type} {r : Except ε α} {a : α} (h : r.toOption = some a) : r = .ok a := by
  cases r with
  | error err => cases h
  | ok b => exact congrArg Except.ok (Option.some.inj h)

lemma decoded_awaitTaskResult {taskId : Uuid} {options : AwaitTaskResultOptions} {v : Json}
    {a : TaskResultSnapshot}
    (h : (checkpoints c.queueName).decode (.awaitTaskResult taskId options) v = some a) :
    ¬ Unwaitable c options ∧ TaskResultSnapshot.serde.fromValue v = .ok a := by
  by_cases hw : waitable c.queueName options = true
  · rw [decode_awaitTaskResult hw] at h
    exact ⟨waitable_iff.mp hw, ok_of_toOption h⟩
  · simp [checkpoints, hw] at h

lemma fromSqlParts_surjective (s : TaskResultSnapshot) :
    ∃ state result failure, TaskResultSnapshot.fromSqlParts state result failure = .ok s := by
  cases s with
  | pending => exact ⟨"pending", none, none, rfl⟩
  | running => exact ⟨"running", none, none, rfl⟩
  | sleeping => exact ⟨"sleeping", none, none, rfl⟩
  | completed result => exact ⟨"completed", some result, none, rfl⟩
  | failed failure => exact ⟨"failed", none, some failure, rfl⟩
  | cancelled => exact ⟨"cancelled", none, none, rfl⟩

lemma awaitTaskResultWithBackoff_reaches {B : Type} (queueName : String) (taskId : Uuid)
    (timeout : Option Duration) (beforeSleep : B → Async B) (b : B) {s : TaskResultSnapshot}
    (hs : s.isTerminal = true) :
    Reaches faultless (fun r t => r = .ok s ∧ t.store = w.store)
      (awaitTaskResultWithBackoff (fetchTaskResultSnapshot queueName taskId) taskId timeout
        beforeSleep 1 b).run w := by
  obtain ⟨state, result, failure, hparts⟩ := fromSqlParts_surjective s
  simp only [awaitTaskResultWithBackoff, reaches_async_bind, reaches_now]
  refine ⟨(0 : ℕ), ⟨w.store, ⟨.now, (0 : ℕ)⟩ :: w.log⟩, ⟨⟨rfl, rfl⟩, trivial⟩, ?_⟩
  simp only [backoffLoop, fetchTaskResultSnapshot, reaches_async_bind]
  have hrow : stores w.store (.query (.getTaskResult queueName taskId))
      (.ok (some (state, result, failure))) w.store := rfl
  apply faultless_query (w := ⟨w.store, ⟨.now, (0 : ℕ)⟩ :: w.log⟩) hrow
  intro t ht
  simp only [reaches_async_bind, reaches_ofResult, hparts, reaches_async_pure, hs, if_true]
  exact ⟨trivial, ht⟩

lemma begun_reaches {T β : Type} (serde : Serde T) {name : String} {handle : StepHandle T}
    {f : StepHandle T → ContextM β} {post : Result β × TaskContext → World → Prop}
    (h : Cached c w.store) (hb : Begun serde name (nextSlot c name) w.store handle)
    (hf : ∀ d t, t.store = w.store → Reaches faultless post ((f handle).run d) t) :
    Reaches faultless post ((TaskContext.beginStep serde name >>= f).run c) w := by
  rw [reaches_context_bind]
  apply (beginStep_reaches serde h hb).mono
  rintro ⟨r, d⟩ t ⟨hr, ht⟩
  cases hr
  exact hf d t ht

lemma fresh_reaches {T : Type} (serde : Serde T) (hl : serde.Lossless) (slot : String) {x a : T}
    {v : Json} (hx : serde.toValue x = .ok v) (ha : serde.fromValue v = .ok a) {d : TaskContext}
    {t : World} (ht : t.store = w.store) :
    Reaches faultless
      (fun r u => r.1 = .ok a ∧ u.store = Function.update w.store slot (some v))
      ((saved serde slot x).run d) t := by
  have hxa : x = a := Except.ok.inj ((hl x v hx).symm.trans ha)
  apply (saved_reaches serde slot hx).mono
  rintro ⟨r, e⟩ u ⟨hr, hu⟩
  cases hr
  exact ⟨congrArg Except.ok hxa, by rw [hu, ht]⟩

lemma step_reaches {T : Type} {serde : Serde T} {name : String}
    {a : (ReplayOp.step serde name).Ans} (hl : serde.Lossless) (h : Cached c w.store)
    (ha : (checkpoints c.queueName).Answered (.step serde name) c.stepNameCounter w.store a σ) :
    Reaches faultless (fun r t => r.1 = .ok a ∧ t.store = σ)
      ((TaskContext.step serde name).run c) w := by
  rw [TaskContext.step]
  cases ha with
  | @hit v a hm hd =>
    have hb : Begun serde name (nextSlot c name) w.store ⟨name, _, true, some a⟩ :=
      .done hm (ok_of_toOption hd)
    exact begun_reaches serde h hb fun d t ht => ⟨rfl, ht⟩
  | @miss v a hm hf hd =>
    obtain ⟨x, hx⟩ := hf
    apply begun_reaches serde h (.fresh hm)
    intro d t ht
    simp only [Bool.false_eq_true, if_false, reaches_context_bind, reaches_lift]
    refine ⟨.ok (.ok x), ⟨t.store, ⟨.closure T, .ok (.ok x)⟩ :: t.log⟩, ⟨⟨rfl, rfl⟩, x, rfl⟩, ?_⟩
    exact fresh_reaches serde hl (nextSlot c name) hx (ok_of_toOption hd)
      (t := ⟨t.store, ⟨.closure T, .ok (.ok x)⟩ :: t.log⟩) ht

lemma pair_reaches {T : Type} {serde : Serde T} {name : String}
    {a : (ReplayOp.pair serde name).Ans} (hl : serde.Lossless) (h : Cached c w.store)
    (ha : (checkpoints c.queueName).Answered (.pair serde name) c.stepNameCounter w.store a σ) :
    Reaches faultless (fun r t => r.1 = .ok a ∧ t.store = σ)
      (((ReplayOp.pair serde name).run 1).run c) w := by
  simp only [ReplayOp.run]
  cases ha with
  | @hit v a hm hd =>
    have hb : Begun serde name (nextSlot c name) w.store ⟨name, _, true, some a⟩ :=
      .done hm (ok_of_toOption hd)
    apply begun_reaches serde h hb
    intro d t ht
    simp only [reaches_context_bind, reaches_lift]
    refine ⟨.ok a, ⟨t.store, ⟨.supply T, .ok a⟩ :: t.log⟩, ⟨⟨rfl, rfl⟩, a, rfl⟩, ?_⟩
    exact ⟨rfl, ht⟩
  | @miss v a hm hf hd =>
    obtain ⟨x, hx⟩ := hf
    apply begun_reaches serde h (.fresh hm)
    intro d t ht
    simp only [reaches_context_bind, reaches_lift]
    refine ⟨.ok x, ⟨t.store, ⟨.supply T, .ok x⟩ :: t.log⟩, ⟨⟨rfl, rfl⟩, x, rfl⟩, ?_⟩
    exact fresh_reaches serde hl (nextSlot c name) hx (ok_of_toOption hd)
      (t := ⟨t.store, ⟨.supply T, .ok x⟩ :: t.log⟩) ht

lemma awaitTaskResult_reaches {taskId : Uuid} {options : AwaitTaskResultOptions}
    {a : (ReplayOp.awaitTaskResult taskId options).Ans} (h : Cached c w.store)
    (ha : (checkpoints c.queueName).Answered (.awaitTaskResult taskId options) c.stepNameCounter
      w.store a σ) :
    Reaches faultless (fun r t => r.1 = .ok a ∧ t.store = σ)
      ((TaskContext.awaitTaskResult 1 taskId options).run c) w := by
  have hc : Cached (advance c (ReplayOp.awaitTaskResult taskId options).name) w.store := h
  cases ha with
  | @hit v a hm hd =>
    obtain ⟨hun, hv⟩ := decoded_awaitTaskResult hd
    rw [awaitTaskResult_run 1 taskId hun]
    simp only [awaitTaskResultIn, reaches_context_bind, reaches_nextCheckpointName]
    apply (lookupCheckpoint_reaches _ hc).mono
    rintro ⟨r, d⟩ t ⟨hr, ht, -⟩
    have hrv : r = .ok (some v) := hr.trans (congrArg Except.ok hm)
    subst hrv
    simp only [reaches_lift, Async.decode, reaches_ofResult, hv]
    exact ⟨rfl, ht⟩
  | @miss v a hm hf hd =>
    obtain ⟨hun, hv⟩ := decoded_awaitTaskResult hd
    obtain ⟨s, hterm, rfl⟩ := hf
    rw [awaitTaskResult_run 1 taskId hun]
    simp only [awaitTaskResultIn, reaches_context_bind, reaches_nextCheckpointName]
    apply (lookupCheckpoint_reaches _ hc).mono
    rintro ⟨r, d⟩ t ⟨hr, ht, -⟩
    have hrv : r = .ok none := hr.trans (congrArg Except.ok hm)
    subst hrv
    change Reaches _ _ ((pollTaskResult c 1 taskId options _).run d) t
    simp only [pollTaskResult, reaches_context_bind, reaches_lift, reaches_now]
    refine ⟨(0 : ℕ), ⟨t.store, ⟨.now, (0 : ℕ)⟩ :: t.log⟩, ⟨⟨rfl, rfl⟩, trivial⟩, ?_⟩
    apply (awaitTaskResultWithBackoff_reaches _ taskId _ _ _ hterm).mono
    rintro r u ⟨rfl, hu⟩
    exact fresh_reaches TaskResultSnapshot.serde TaskResultSnapshot.serde_lossless _ rfl hv
      (hu.trans ht)

lemma operation_reaches {a : op.Ans} (hl : op.Lossless) (h : Cached c w.store)
    (ha : (checkpoints c.queueName).Answered op c.stepNameCounter w.store a σ) :
    Reaches faultless (fun r t => r.1 = .ok a ∧ t.store = σ) ((op.run 1).run c) w := by
  cases op with
  | step serde name => exact step_reaches hl h ha
  | pair serde name => exact pair_reaches hl h ha
  | awaitTaskResult taskId options => exact awaitTaskResult_reaches h ha

end Operation

section Uninterrupted

variable {R : Type} {handler p p' : Program ReplayOp ReplayOp.Ans R} {queueName : String}
  {records : List (Record R)} {w : World}

lemma Execution.mono {env env' : Env Call Answer World} {c : TaskContext} {t : World}
    {visits : List Visit} {r : Option R} (h : Execution env p c w visits r t)
    (he : ∀ s call r t, env s call r t → env' s call r t) : Execution env' p c w visits r t := by
  induction h with
  | finish r c w => exact .finish r c w
  | stop p c w => exact .stop p c w
  | cut hr => exact .cut (hr.mono he)
  | returned hr _ ih => exact .returned (hr.mono he) ih

lemma Execution.of_path {n n' : String → ℕ} {memo memo' : Store}
    {as : Memo.Answers ReplayOp ReplayOp.Ans String} {x : R}
    (h : (checkpoints queueName).Path p n memo as p' n' memo') (hx : p' = .done x)
    (hl : p.Calls ReplayOp.Lossless) {c : TaskContext} (hq : c.queueName = queueName)
    (hn : c.stepNameCounter = n) (hw : w.store = memo) (hc : Cached c w.store) :
    ∃ visits t, Execution faultless p c w visits (some x) t ∧
      visits.filterMap Visit.answered = as ∧ t.store = memo' := by
  induction h generalizing c w with
  | refl p n memo =>
    subst hx
    exact ⟨[], w, .finish x c w, rfl, hw⟩
  | @step op next n n' memo memo' memo'' a as p' ha hp ih =>
    subst hq hn hw
    obtain ⟨⟨r, d⟩, t, hrun, hr, ht⟩ := (operation_reaches hl.1 hc ha).exists_run
    cases hr
    have hret := (operation_underway op 1 hc hl.1).finish (hrun.mono faultless_durable) a rfl
    obtain ⟨-, hd, cache, rfl⟩ := hret
    obtain ⟨visits, u, he, hv, hu⟩ := ih hx (hl.2 a) (c := withCache (advance c op.name) cache) rfl rfl
      ht hd
    refine ⟨_, u, .returned hrun he, ?_, hu⟩
    rw [← hv]
    rfl

/-- Crash and replay of a task. Operations at the same position of two executions asked for the
same slot and got the same value; no execution works for a slot committed before it started; and
the result of an execution that finishes is that of a single execution in which every call
succeeds, which gives the same answers and leaves the same checkpoints. -/
theorem executions_replay (hl : handler.Calls ReplayOp.Lossless)
    (h : Executions durable queueName handler records w) :
    (∀ e ∈ records, ∀ e' ∈ records, ∀ (i : ℕ) (v v' : Visit) a a', e.visits[i]? = some v →
      e'.visits[i]? = some v' → v.answered = some a → v'.answered = some a' → a = a') ∧
    (∀ e ∈ records, ∀ v ∈ e.visits, e.start.store v.slot ≠ none →
      Grew (fun call => ¬ IsWork call) v.before v.after) ∧
    ∀ e ∈ records, ∀ x, e.result = some x → ∃ e' t,
      Executions faultless queueName handler [e'] t ∧ e'.result = some x ∧
        e'.answers = e.answers ∧ t.store = w.store := by
  obtain ⟨cs, p', n', hpath, hall⟩ := (h.series hl).path
  have hrecord : ∀ e ∈ records, e.answers <+: cs ∧
      ∀ x, e.result = some x → p' = .done x ∧ cs = e.answers :=
    fun e he => hall _ (List.mem_map_of_mem he)
  have hanswer : ∀ e ∈ records, ∀ (i : ℕ) (v : Visit) a, e.visits[i]? = some v →
      v.answered = some a → cs[i]? = some a := by
    intro e he i v a hv ha
    have hi := h.answered he hv ha
    obtain ⟨rest, rfl⟩ := (hrecord e he).1
    rw [List.getElem?_append_left (List.getElem?_eq_some_iff.mp hi).1, hi]
  refine ⟨?_, fun e he v hv hs => h.quiet hl he hv hs, ?_⟩
  · intro e he e' he' i v v' a a' hv hv' ha ha'
    have hi := hanswer e he i v a hv ha
    rw [hanswer e' he' i v' a' hv' ha'] at hi
    exact (Option.some.inj hi).symm
  · intro e he x hx
    obtain ⟨rfl, rfl⟩ := (hrecord e he).2 x hx
    obtain ⟨r, t, hrun, rfl, ht⟩ := (taskContext_reaches queueName sampleTask_headers
      (Duration.fromSecs 120) true no_rows).exists_run
    obtain ⟨hc, hq, hn, -⟩ := (taskContext_safe _ _ _ _ _).finish (hrun.mono faultless_durable) _ rfl
    obtain ⟨visits, u, hexec, hv, hu⟩ := Execution.of_path hpath rfl hl hq hn ht hc
    exact ⟨⟨World.empty, visits, some x⟩, u, .next .start hrun hexec, rfl, hv, hu⟩

end Uninterrupted

section Sample

def sampleHandler : Program ReplayOp ReplayOp.Ans Json := .call (.step Serde.json "charge") .done

lemma sample_executions : ∃ e e' w, e'.result = some (.string "paid") ∧
    Executions durable "default" sampleHandler [e, e'] w := by
  have hl : sampleHandler.Calls ReplayOp.Lossless := ⟨Serde.json_lossless, fun _ => trivial⟩
  obtain ⟨r, t, hnew, rfl, ht⟩ := (taskContext_reaches "default" sampleTask_headers
    (Duration.fromSecs 120) true no_rows).exists_run
  have hnew' := hnew.mono faultless_durable
  obtain ⟨hc, hq, hn, -⟩ := (taskContext_safe _ _ _ _ _).finish hnew' _ rfl
  have hmiss : (checkpoints "default").Answered (.step Serde.json "charge") (fun _ => 0) t.store
      (Json.string "paid") _ := .miss (by rw [ht]; rfl) ⟨.string "paid", rfl⟩ rfl
  obtain ⟨r, u, hstep, -, hu⟩ := (operation_reaches hl.1 hc hmiss).exists_run
  have hfirst : Execution durable sampleHandler _ t _ none u :=
    .cut (hstep.mono faultless_durable)
  have hcharge : u.store = Function.update World.empty.store "charge" (some (.string "paid")) := by
    rw [hu, ht]
    rfl
  have hrows : ∀ name v, (name, v) ∈ [("charge", Json.string "paid")] ↔
      u.store name = some v := by
    intro name v
    by_cases h : name = "charge"
    · simp [h, hcharge, eq_comm]
    · simp [h, hcharge, World.empty]
  obtain ⟨r, x, hnew₂, rfl, hx⟩ := (taskContext_reaches "default" sampleTask_headers
    (Duration.fromSecs 120) true hrows).exists_run
  obtain ⟨hd, hdq, hdn, -⟩ := (taskContext_safe _ _ _ _ _).finish (hnew₂.mono faultless_durable) _ rfl
  have hpath : (checkpoints "default").Path sampleHandler (fun _ => 0) x.store _
      (.done (Json.string "paid")) _ x.store :=
    .step (.hit (by rw [hx, hcharge]; rfl) rfl) (.refl _ _ _)
  obtain ⟨visits, y, hsecond, -, -⟩ := Execution.of_path hpath rfl hl hdq hdn rfl hd
  exact ⟨_, ⟨u, visits, some (.string "paid")⟩, y, rfl,
    .next (.next .start hnew' hfirst) (hnew₂.mono faultless_durable)
      (hsecond.mono faultless_durable)⟩

theorem executions_replay_sample : ∃ e e' w, Executions durable "default" sampleHandler [e, e'] w ∧
    ∃ e'' t, Executions faultless "default" sampleHandler [e''] t ∧
      e''.result = some (.string "paid") ∧ e''.answers = e'.answers ∧ t.store = w.store := by
  obtain ⟨e, e', w, he', h⟩ := sample_executions
  have hl : sampleHandler.Calls ReplayOp.Lossless := ⟨Serde.json_lossless, fun _ => trivial⟩
  exact ⟨e, e', w, h, (executions_replay hl h).2.2 e' (by simp) _ he'⟩

end Sample

end AbsurdSdk.Durability
