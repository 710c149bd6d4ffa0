import AbsurdSdk.Durability.Operations

namespace AbsurdSdk.Durability

open Interaction Model

def faultless : Env Call Answer World := fun w call r t => durable w call r t ∧ Succeeds call r

lemma faultless_durable (w : World) (call : Call) (r : Answer call) (t : World)
    (h : faultless w call r t) : durable w call r t := h.1

section Accesses

variable {α : Type} {c : TaskContext} {w : World}

lemma faultless_query {statement : Statement α} {x : α} {σ : Store}
    {post : Result α → World → Prop} (hs : stores w.store (.query statement) (.ok x) σ)
    (hp : ∀ t, t.store = σ → post (.ok x) t) :
    Reaches faultless post (Async.query statement).run w := by
  simp only [Async.query, reaches_async_bind, reaches_pool, reaches_execute]
  refine ⟨.ok (), ⟨w.store, ⟨.poolGet, .ok ()⟩ :: w.log⟩, ⟨⟨rfl, rfl⟩, rfl⟩, .ok x,
    ⟨σ, ⟨.query statement, .ok x⟩ :: ⟨.poolGet, .ok ()⟩ :: w.log⟩, ⟨⟨hs, rfl⟩, x, rfl⟩, ?_⟩
  exact hp _ rfl

lemma lookupCheckpoint_reaches (name : String) (h : Cached c w.store) :
    Reaches faultless (fun r t => r.1 = .ok (w.store name) ∧ t.store = w.store ∧
        ∃ cache, r.2 = withCache c cache)
      ((TaskContext.lookupCheckpoint name).run c) w := by
  simp only [TaskContext.lookupCheckpoint, reaches_context_bind, reaches_context]
  cases hc : c.checkpointCache name with
  | some value => exact ⟨congrArg Except.ok (h name value hc).symm, rfl, c.checkpointCache, rfl⟩
  | none =>
    simp only [reaches_context_bind, reaches_lift]
    refine faultless_query (x := w.store name) ⟨rfl, fun row hr => (Except.ok.inj hr).symm⟩ ?_
    intro t ht
    cases hs : w.store name with
    | none => exact ⟨rfl, ht, c.checkpointCache, rfl⟩
    | some value => exact ⟨rfl, ht, _, rfl⟩

lemma persistCheckpoint_reaches (name : String) (value : Json) :
    Reaches faultless
      (fun r t => r.1 = .ok () ∧ t.store = Function.update w.store name (some value))
      ((TaskContext.persistCheckpoint name value).run c) w := by
  simp only [TaskContext.persistCheckpoint, reaches_context_bind, reaches_context, reaches_lift]
  refine faultless_query (x := ()) (Or.inl rfl) ?_
  intro t ht
  simp only [TaskContext.cacheCheckpoint, TaskContext.notifyLeaseExtended, reaches_context_bind,
    reaches_modify, reaches_context]
  split
  · simp only [reaches_lift, reaches_sendLease]
    exact ⟨(), ⟨t.store, ⟨.sendLease c.claimTimeout, ()⟩ :: t.log⟩, ⟨⟨rfl, rfl⟩, trivial⟩, trivial, ht⟩
  · exact ⟨rfl, ht⟩

def freshContext (queueName : String) (task : ClaimedTask) (claimTimeout : Duration) (leaseTx : Bool)
    (cache : Store) : TaskContext where
  queueName := queueName
  task := { task with headers := none }
  headers := []
  checkpointCache := cache
  stepNameCounter := fun _ => 0
  reportedTimeouts := fun _ => false
  claimTimeout := claimTimeout
  claimTimeoutSeconds := durationSecondsCeil claimTimeout
  leaseTx := leaseTx

lemma taskContext_reaches (queueName : String) {task : ClaimedTask} (hh : task.headers = none)
    (claimTimeout : Duration) (leaseTx : Bool) {rows : List (String × Json)}
    (h : ∀ name v, (name, v) ∈ rows ↔ w.store name = some v) :
    Reaches faultless (fun r t => r = .ok (freshContext queueName task claimTimeout leaseTx w.store) ∧
      t.store = w.store) (TaskContext.new queueName task claimTimeout leaseTx).run w := by
  have hrows : stores w.store (.query (.getTaskCheckpointStates queueName task.taskId task.runId))
      (.ok rows) w.store := by
    refine ⟨rfl, ?_⟩
    rintro rows' ⟨⟩
    exact h
  rw [TaskContext.new, reaches_async_bind]
  apply faultless_query hrows
  intro t ht
  simp only [insertRows_eq h, hh]
  exact ⟨rfl, ht⟩

lemma no_rows (name : String) (v : Json) : (name, v) ∈ [] ↔ World.empty.store name = some v := by
  simp [World.empty]

lemma sampleTask_headers : sampleTask.headers = none := rfl

end Accesses

end AbsurdSdk.Durability
