import AbsurdSdk.Durability.Store
import AbsurdSdk.Model.Discipline

namespace AbsurdSdk.Durability

open Interaction Model

variable {T : Type} {serde : Serde T} {c : TaskContext} {w : World}

def nextSlot (c : TaskContext) (name : String) : String :=
  numbered name (c.stepNameCounter name + 1)

def advance (c : TaskContext) (name : String) : TaskContext :=
  { c with stepNameCounter := Function.update c.stepNameCounter name (c.stepNameCounter name + 1) }

lemma safe_nextCheckpointName {S : Type*} {env : Env Call Answer S} {inv : S → Prop} {s : S}
    {name : String} {post : Result String × TaskContext → S → Prop} :
    Safe env inv post ((TaskContext.nextCheckpointName name).run c) s ↔
      inv s ∧ post (.ok (nextSlot c name), advance c name) s := by
  rw [nextCheckpointName_run]
  exact Iff.rfl

lemma reaches_nextCheckpointName {S : Type*} {env : Env Call Answer S} {s : S} {name : String}
    {post : Result String × TaskContext → S → Prop} :
    Reaches env post ((TaskContext.nextCheckpointName name).run c) s ↔
      post (.ok (nextSlot c name), advance c name) s := by
  rw [nextCheckpointName_run]
  exact Iff.rfl

inductive Begun (serde : Serde T) (name slot : String) (σ : Store) : StepHandle T → Prop
  | done {v : Json} {a : T} : σ slot = some v → serde.fromValue v = .ok a →
      Begun serde name slot σ ⟨name, slot, true, some a⟩
  | fresh : σ slot = none → Begun serde name slot σ ⟨name, slot, false, none⟩

lemma beginStep_safe (serde : Serde T) (name : String) (h : Cached c w.store) :
    Safe durable (fun t => t.store = w.store ∧ Grew (IsLookup (nextSlot c name)) w t)
      (fun r t => ∀ handle, r.1 = .ok handle → Cached r.2 t.store ∧
        (∃ cache, r.2 = withCache (advance c name) cache) ∧
        Begun serde name (nextSlot c name) w.store handle)
      ((TaskContext.beginStep serde name).run c) w := by
  have hw := Grew.refl (IsLookup (nextSlot c name)) w
  have hc : Cached (advance c name) w.store := h
  simp only [TaskContext.beginStep, safe_context_bind, safe_nextCheckpointName, true_and]
  refine ⟨hw, (lookupCheckpoint_safe (nextSlot c name) (hc _)).mono (fun t ht => ht) ?_⟩
  rintro ⟨r, d⟩ t hi ⟨hre, hr, -⟩
  have hd : Cached d t.store := by
    rw [hi.1]
    exact hre.cached hc
  have hcache := hre.withCache
  cases r with
  | error err => exact ⟨hi, by simp⟩
  | ok found =>
    have hfound : found = w.store (nextSlot c name) := hr found rfl
    cases found with
    | none =>
      refine ⟨hi, ?_⟩
      rintro handle ⟨⟩
      exact ⟨hd, hcache, .fresh hfound.symm⟩
    | some cached =>
      simp only [safe_context_bind, safe_lift, Async.decode, safe_ofResult]
      cases ha : serde.fromValue cached with
      | error text => exact ⟨hi, hi, hi, by simp⟩
      | ok a =>
        refine ⟨hi, hi, hi, ?_⟩
        rintro handle ⟨⟩
        exact ⟨hd, hcache, .done hfound.symm ha⟩

def saved (serde : Serde T) (slot : String) (value : T) : ContextM T := do
  let valueJson ← Async.encode serde value
  TaskContext.persistCheckpoint slot valueJson
  return value

lemma completeStep_fresh (serde : Serde T) (name slot : String) (value : T) :
    TaskContext.completeStep serde ⟨name, slot, false, none⟩ value = saved serde slot value := rfl

lemma completeStep_done (serde : Serde T) (name slot : String) (a value : T) :
    TaskContext.completeStep serde ⟨name, slot, true, some a⟩ value =
      liftM (Async.ofResult (.ok a)) := rfl

lemma saved_safe (serde : Serde T) (slot : String) (value : T) :
    Safe durable
      (fun t => t.store = w.store ∨
        ∃ v, serde.toValue value = .ok v ∧ t.store = Function.update w.store slot (some v))
      (fun r t => ∀ a, r.1 = .ok a → a = value ∧ ∃ v, serde.toValue value = .ok v ∧
        t.store = Function.update w.store slot (some v) ∧
        r.2 = withCache c (Function.update c.checkpointCache slot (some v)))
      ((saved serde slot value).run c) w := by
  simp only [saved, safe_context_bind, safe_lift, Async.encode, safe_ofResult, true_or, true_and]
  cases hv : serde.toValue value with
  | error text => rintro a ⟨⟩
  | ok v =>
    refine (persistCheckpoint_safe slot v).mono ?_ ?_
    · rintro t ⟨ht | ht, -⟩
      · exact Or.inl ht
      · exact Or.inr ⟨v, rfl, ht⟩
    · rintro ⟨r, d⟩ t ⟨hi, -⟩ (⟨hr, ht, hd⟩ | ⟨err, hr, -, -⟩)
      · cases hr
        refine ⟨Or.inr ⟨v, rfl, ht⟩, ?_⟩
        rintro a ⟨⟩
        exact ⟨rfl, v, rfl, ht, hd⟩
      · cases hr
        refine ⟨?_, by simp⟩
        rcases hi with hi | hi
        · exact Or.inl hi
        · exact Or.inr ⟨v, rfl, hi⟩

section AwaitTaskResult

variable {σ : Store} {w : World} {c : TaskContext}

def Storing (σ : Store) {α : Type} (x : Async α) : Prop :=
  ∀ w, w.store = σ → Safe durable (fun t => t.store = σ) (fun _ _ => True) x.run w

lemma storing_query {α : Type} {statement : Statement α}
    (hs : ∀ w r t, durable w (.query statement) r t → t.store = w.store) :
    Storing σ (Async.query statement) := by
  intro w h
  refine safe_query h ?_ ?_
  · rintro r t ⟨ht, -⟩
    exact ⟨(ht : t.store = w.store).trans h, by simp⟩
  · rintro t ⟨ht, -⟩ r u hu
    exact ⟨((hs _ _ _ hu).trans ht).trans h, trivial⟩

lemma storing_futures : Futures (Storing σ) where
  bind := by
    intro α β x f hx hf w h
    rw [safe_async_bind]
    apply (hx w h).mono (fun _ ht => ht)
    intro r t ht _
    cases r with
    | error err => exact ⟨ht, trivial⟩
    | ok a => exact hf a t ht
  ofResult r w h := ⟨h, trivial⟩
  now w h := ⟨h, fun _ t ht => ⟨(ht.1 : t.store = w.store).trans h, trivial⟩⟩
  sleep d w h := ⟨h, fun _ t ht => ⟨(ht.1 : t.store = w.store).trans h, trivial⟩⟩
  hang w h := safe_hang.mpr h

lemma heartbeatBeforeSleep_storing (interval : Duration) (next : Instant) :
    Storing σ (TaskContext.heartbeatBeforeSleep c interval next) := by
  apply storing_futures.heartbeatBeforeSleep
  intro next
  apply storing_futures.bind
  · exact storing_query fun _ _ _ ht => ht.1
  · intro _
    split
    · apply storing_futures.bind
      · exact fun w h => ⟨h, fun _ t ht => ⟨(ht.1 : t.store = w.store).trans h, trivial⟩⟩
      · exact fun _ => storing_futures.pure _
    · exact storing_futures.pure _

lemma async_bind_ends {α β : Type} {x : Async α} {f : α → Async β} {post : Result β → Prop}
    (herror : ∀ err, post (.error err))
    (hf : ∀ a, (f a).run.Yields (fun _ _ => True) (fun _ => True) post) :
    (x >>= f).run.Yields (fun _ _ => True) (fun _ => True) post := by
  apply Program.Yields.bind (Program.Yields.any _)
  intro r _
  cases r with
  | error err => exact herror err
  | ok a => exact hf a

lemma backoffLoop_terminal {B : Type} {fetchSnapshot : Async (Option TaskResultSnapshot)}
    (taskId : Uuid) (timeout : Option Duration) {beforeSleep : B → Async B} (startedAt : Instant)
    (turns : ℕ) (delay : Duration) (b : B) :
    (backoffLoop fetchSnapshot taskId timeout beforeSleep startedAt turns delay b).run.Yields
      (fun _ _ => True) (fun _ => True) fun r => ∀ s, r = .ok s → s.isTerminal = true := by
  induction turns generalizing delay b with
  | zero => exact ⟨trivial, fun r => r.elim⟩
  | succ turns ih =>
    apply async_bind_ends (by simp)
    intro snapshot
    cases snapshot with
    | none => simp [Async.throw, Program.Yields]
    | some snapshot =>
      dsimp only
      split
      · rename_i hterm
        rintro s ⟨⟩
        exact hterm
      · apply async_bind_ends (by simp)
        intro sleepFor
        apply async_bind_ends (by simp)
        intro b'
        apply async_bind_ends (by simp)
        exact fun _ => ih _ b'

lemma awaitTaskResultWithBackoff_safe {B : Type} (queueName : String) (taskId : Uuid)
    (timeout : Option Duration) {beforeSleep : B → Async B} (hb : ∀ b, Storing σ (beforeSleep b))
    (turns : ℕ) (b : B) (h : w.store = σ) :
    Safe durable (fun t => t.store = σ) (fun r _ => ∀ s, r = .ok s → s.isTerminal = true)
      (awaitTaskResultWithBackoff (fetchTaskResultSnapshot queueName taskId) taskId timeout
        beforeSleep turns b).run w := by
  have hstore : Storing σ (awaitTaskResultWithBackoff (fetchTaskResultSnapshot queueName taskId)
      taskId timeout beforeSleep turns b) := by
    apply storing_futures.awaitTaskResultWithBackoff
    · exact storing_query fun _ _ _ ht => ht.1
    · exact hb
  have hterm : (awaitTaskResultWithBackoff (fetchTaskResultSnapshot queueName taskId) taskId timeout
      beforeSleep turns b).run.Yields (fun _ _ => True) (fun _ => True)
        fun r => ∀ s, r = .ok s → s.isTerminal = true := by
    apply async_bind_ends (by simp)
    exact fun startedAt => backoffLoop_terminal taskId timeout startedAt turns _ b
  apply ((hstore w h).and (.of_yields hterm w)).mono
  · exact fun t ht => ht.1
  · exact fun r t _ hr => hr.2

end AwaitTaskResult

section Wait

variable {T : Type} {c : TaskContext}

def awaitEventName (eventName : String) (options : AwaitEventOptions) : String :=
  options.stepName.getD s!"$awaitEvent:{eventName}"

def askEvent (serde : Serde T) (eventName : String) (options : AwaitEventOptions) (slot : String) :
    ContextM T := do
  let c ← ContextM.context
  if c.task.wakeEvent = some eventName ∧ c.task.eventPayload.isNone then
    ContextM.modify fun c => { c with
      task := { c.task with wakeEvent := none, eventPayload := none }
      reportedTimeouts := Function.update c.reportedTimeouts eventName true }
    ContextM.throw (.eventTimeout eventName)
  else
    let timeoutSeconds := options.timeout.map durationSecondsCeil
    let (shouldSuspend, payload) ← Async.query (.awaitEvent c.queueName c.task.taskId
      c.task.runId slot eventName timeoutSeconds)
    if shouldSuspend then
      ContextM.throw .suspended
    else
      let reported := c.reportedTimeouts eventName
      match payload, reported with
      | none, false => ContextM.throw (.eventTimeout eventName)
      | payload, _ =>
        let payload := payload.getD .null
        ContextM.modify fun c => { c with
          reportedTimeouts := Function.update c.reportedTimeouts eventName false }
        TaskContext.cacheCheckpoint slot payload
        Async.decode serde payload

def awaitEventIn (serde : Serde T) (eventName : String) (options : AwaitEventOptions)
    (slot : String) : ContextM T := do
  match ← TaskContext.lookupCheckpoint slot with
  | some cached => Async.decode serde cached
  | none => askEvent serde eventName options slot

lemma awaitEvent_run (serde : Serde T) {eventName : String} (options : AwaitEventOptions)
    (h : ¬ isBlank eventName = true) :
    (TaskContext.awaitEventWithOptions serde eventName options).run c =
      (TaskContext.nextCheckpointName (awaitEventName eventName options) >>=
        awaitEventIn serde eventName options).run c := by
  rw [TaskContext.awaitEventWithOptions, if_neg h]
  rfl

def awaitTaskResultName (taskId : Uuid) (options : AwaitTaskResultOptions) : String :=
  options.stepName.getD s!"$awaitTaskResult:{taskId.toString}"

def Unwaitable (c : TaskContext) (options : AwaitTaskResultOptions) : Prop :=
  validateQueueName (options.queue.getD c.queueName) ≠ .ok () ∨
    options.queue.getD c.queueName = c.queueName

lemma awaitTaskResult_refused (turns : ℕ) (taskId : Uuid) {options : AwaitTaskResultOptions}
    (h : Unwaitable c options) :
    ∃ err, (TaskContext.awaitTaskResult turns taskId options).run c = .done (.error err, c) := by
  change ∃ err, ((Async.ofResult (validateQueueName (options.queue.getD c.queueName)) >>=
    fun _ => _ : ContextM _).run c) = .done (.error err, c)
  cases hq : validateQueueName (options.queue.getD c.queueName) with
  | error err => exact ⟨err, rfl⟩
  | ok =>
    have hsame : options.queue.getD c.queueName = c.queueName :=
      h.resolve_left (not_not_intro hq)
    refine ⟨TaskContext.sameQueueWait, ?_⟩
    change ((if options.queue.getD c.queueName = c.queueName then _ else _ : ContextM _).run c) = _
    rw [if_pos hsame]
    rfl

def awaitTaskResultIn (c : TaskContext) (turns : ℕ) (taskId : Uuid)
    (options : AwaitTaskResultOptions) (slot : String) : ContextM TaskResultSnapshot := do
  match ← TaskContext.lookupCheckpoint slot with
  | some cached => Async.decode TaskResultSnapshot.serde cached
  | none =>
    let heartbeatInterval := max c.claimTimeout.half (Duration.fromMillis 500)
    let nextHeartbeatAt := (← Async.now) + heartbeatInterval.nanos
    let snapshot ← awaitTaskResultWithBackoff
      (fetchTaskResultSnapshot (options.queue.getD c.queueName) taskId) taskId options.timeout
      (TaskContext.heartbeatBeforeSleep c heartbeatInterval) turns nextHeartbeatAt
    let value ← Async.encode TaskResultSnapshot.serde snapshot
    TaskContext.persistCheckpoint slot value
    return snapshot

def pollTaskResult (c : TaskContext) (turns : ℕ) (taskId : Uuid) (options : AwaitTaskResultOptions)
    (slot : String) : ContextM TaskResultSnapshot := do
  let heartbeatInterval := max c.claimTimeout.half (Duration.fromMillis 500)
  let nextHeartbeatAt := (← Async.now) + heartbeatInterval.nanos
  let snapshot ← awaitTaskResultWithBackoff
    (fetchTaskResultSnapshot (options.queue.getD c.queueName) taskId) taskId options.timeout
    (TaskContext.heartbeatBeforeSleep c heartbeatInterval) turns nextHeartbeatAt
  saved TaskResultSnapshot.serde slot snapshot

lemma awaitTaskResult_run (turns : ℕ) (taskId : Uuid) {options : AwaitTaskResultOptions}
    (h : ¬ Unwaitable c options) : (TaskContext.awaitTaskResult turns taskId options).run c =
      (TaskContext.nextCheckpointName (awaitTaskResultName taskId options) >>=
        awaitTaskResultIn c turns taskId options).run c := by
  rw [Unwaitable, not_or, not_not] at h
  obtain ⟨hq, hother⟩ := h
  change ((Async.ofResult (validateQueueName (options.queue.getD c.queueName)) >>=
    fun _ => _ : ContextM _).run c) = _
  rw [hq]
  change ((if options.queue.getD c.queueName = c.queueName then _ else _ : ContextM _).run c) = _
  rw [if_neg hother]
  rfl

end Wait

lemma taskContext_safe (queueName : String) (task : ClaimedTask) (claimTimeout : Duration)
    (leaseTx : Bool) (w : World) :
    Safe durable (fun t => t.store = w.store)
      (fun r t => ∀ c, r = .ok c → Cached c t.store ∧ c.queueName = queueName ∧
        (c.stepNameCounter = fun _ => 0) ∧ c.task = { task with headers := none })
      (TaskContext.new queueName task claimTimeout leaseTx).run w := by
  rw [TaskContext.new, safe_async_bind]
  refine safe_query rfl ?_ ?_
  · rintro r t ⟨ht, -⟩
    exact ⟨ht, fun err _ => ⟨ht, by simp⟩⟩
  · rintro t ⟨ht, -⟩ r u ⟨⟨hu, hrows⟩, -⟩
    have hs : u.store = w.store := (hu : u.store = t.store).trans ht
    refine ⟨hs, ?_⟩
    cases r with
    | error err => exact ⟨hs, by simp⟩
    | ok rows =>
      have hcache : TaskContext.insertRows rows = u.store :=
        insertRows_eq fun name v => by rw [hrows rows rfl name v, hu]
      have hcached : ∀ c : TaskContext, c.checkpointCache = TaskContext.insertRows rows →
          Cached c u.store := by
        intro c hc name v hv
        rwa [hc, hcache] at hv
      cases hh : task.headers with
      | none =>
        refine ⟨hs, ?_⟩
        rintro c ⟨⟩
        exact ⟨hcached _ rfl, rfl, rfl, rfl⟩
      | some headers =>
        cases headers with
        | null | object fields =>
          refine ⟨hs, ?_⟩
          rintro c ⟨⟩
          exact ⟨hcached _ rfl, rfl, rfl, rfl⟩
        | _ => exact ⟨hs, by simp⟩

end AbsurdSdk.Durability
