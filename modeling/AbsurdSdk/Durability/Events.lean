import AbsurdSdk.Durability.Sleep

namespace AbsurdSdk.Durability

open Interaction Model

def TimedOut : Event → Prop
  | ⟨.query (.awaitEvent _ _ _ _ _ _), .ok (false, none)⟩ => True
  | _ => False

def timely : Env Call Answer World := fun w call r t => durable w call r t ∧ ¬ TimedOut ⟨call, r⟩

lemma timely_durable (w : World) (call : Call) (r : Answer call) (t : World)
    (h : timely w call r t) : durable w call r t := h.1

def IsAwait : Call → Prop
  | .query (.awaitEvent _ _ _ _ _ _) => True
  | _ => False

section Wait

variable {s : String} {c : TaskContext} {w t u : World} {chrono : Serde DateTime} {T : Type}

structure Waiting (s : String) (w t : World) : Prop where
  kept : Kept s w t
  quiet : w.store s ≠ none → Grew (fun call => ¬ IsAwait call) w t

inductive Waited (serde : Serde T) (s : String) (w t : World) : Result T → Prop
  | handed {j : Json} : t.store s = some j →
      Waited serde s w t ((serde.fromValue j).mapError .serialization)
  | suspended : w.store s = none → Waited serde s w t (.error .suspended)
  | failed {err : Error} : IsInfra err → Failed w t → Waited serde s w t (.error err)

lemma lookup_waiting {n : String} (hs : t.store = w.store) (hg : Grew (IsLookup n) w t) :
    Waiting s w t := by
  refine ⟨.of_eq (congrFun hs s), fun _ => hg.mono ?_⟩
  intro call hcall
  cases call with
  | query statement => cases statement <;> simp_all [IsLookup, IsAwait]
  | _ => exact id

lemma empty_waiting (hn : w.store s = none) : Waiting s w t :=
  ⟨fun j hj => by simp [hn] at hj, fun h => absurd hn h⟩

lemma askEvent_waits (serde : Serde T) {eventName : String} (options : AwaitEventOptions)
    {d : TaskContext} (hg : Grew (IsLookup s) w t) (hn : w.store s = none) (ht : t.store s = none)
    (hd : CachedAt d t.store s)
    (hwoken : ¬ (d.task.wakeEvent = some eventName ∧ d.task.eventPayload.isNone = true)) :
    Safe timely (Waiting s w) (fun r u => CachedAt r.2 u.store s ∧ Waited serde s w u r.1)
      ((askEvent serde eventName options s).run d) t := by
  have hempty : ∀ u, Waiting s w u := fun u => empty_waiting hn
  have hcache : ∀ x, d.checkpointCache s ≠ some x := by
    intro x hx
    have hsome := hd x hx
    rw [ht] at hsome
    cases hsome
  simp only [askEvent, safe_context_bind, safe_context, if_neg hwoken, safe_lift]
  refine ⟨hempty t, safe_query (hempty t) ?_ ?_⟩
  · intro r u hu
    refine ⟨hempty u, ?_⟩
    rintro err rfl
    have hfail : Failed w u := .of_step hg hu.1 (by simp [Succeeds])
    exact ⟨hempty u, hempty u, fun x hx => absurd hx (hcache x), .failed (Or.inl ⟨err, rfl⟩) hfail⟩
  · intro u hu r v hv
    have hug : Grew (IsLookup s) w u := hg.step hu.1 trivial
    refine ⟨hempty v, hempty v, ?_⟩
    rcases r with err | ⟨_ | _, _ | payload⟩
    · have hfail : Failed w v := .of_step hug hv.1 (by simp [Succeeds])
      exact ⟨hempty v, fun x hx => absurd hx (hcache x), .failed (Or.inr ⟨err, rfl⟩) hfail⟩
    · exact absurd trivial hv.2
    · have hstore : v.store = Function.update u.store s (some payload) := hv.1.1
      have hj : v.store s = some payload := by rw [hstore, Function.update_self]
      simp only [Except.mapError, Bool.false_eq_true, if_false, safe_context_bind, safe_modify,
        TaskContext.cacheCheckpoint, Option.getD_some, Async.decode, safe_lift, safe_ofResult]
      refine ⟨hempty v, hempty v, hempty v, hempty v, ?_, .handed hj⟩
      intro x hx
      have hxp : payload = x := by simpa using hx
      rw [hj, hxp]
    · exact ⟨hempty v, fun x hx => absurd hx (hcache x), .suspended hn⟩
    · exact ⟨hempty v, fun x hx => absurd hx (hcache x), .suspended hn⟩

lemma awaitEvent_waits (serde : Serde T) {eventName : String} (options : AwaitEventOptions)
    (hblank : isBlank eventName = false) (hu : Untimed c.task) (hc : CachedAt c w.store s)
    (hslot : nextSlot c (TaskOp.awaitEvent serde eventName options).name = s) :
    Safe timely (Waiting s w)
      (fun r t => CachedAt r.2 t.store s ∧ Waited serde s w t r.1)
      ((TaskContext.awaitEventWithOptions serde eventName options).run c) w := by
  have hname : nextSlot c (awaitEventName eventName options) = s := hslot
  have hw : Waiting s w w := lookup_waiting (n := s) rfl (.refl _ w)
  have hc' : CachedAt (advance c (awaitEventName eventName options)) w.store s := hc
  rw [awaitEvent_run serde options (Bool.eq_false_iff.mp hblank)]
  simp only [safe_context_bind, safe_nextCheckpointName, hname, awaitEventIn]
  refine ⟨hw, ((lookupCheckpoint_safe s hc').restrict timely_durable).mono ?_ ?_⟩
  · exact fun t ht => lookup_waiting ht.1 ht.2
  rintro ⟨r, d⟩ t ⟨ht, hg⟩ ⟨hre, hr, hf⟩
  have hwt : Waiting s w t := lookup_waiting ht hg
  have hd : CachedAt d t.store s := ht ▸ hre.cachedAt hc'
  cases r with
  | error err =>
    obtain ⟨hfail, hinfra⟩ := hf err rfl
    exact ⟨hwt, hd, .failed hinfra hfail⟩
  | ok found =>
    have hfound := hr found rfl
    cases found with
    | some j => exact ⟨hwt, hd, .handed (by rw [ht, ← hfound])⟩
    | none =>
      have hn : t.store s = none := by rw [ht, ← hfound]
      have htask : d.task = c.task := by
        obtain ⟨cache, rfl⟩ := hre.withCache
        rfl
      apply askEvent_waits serde options hg hfound.symm hn hd
      rintro ⟨he, hp⟩
      rw [htask] at he hp
      exact hu eventName he (Option.isNone_iff_eq_none.mp hp)

lemma awaitEvent_answerable (serde : Serde T) (eventName : String) (options : AwaitEventOptions)
    (c : TaskContext) :
    ((TaskContext.awaitEventWithOptions serde eventName options).run c).Calls
      fun call => Nonempty (Answer call) := by
  rw [TaskContext.awaitEventWithOptions]
  split
  · trivial
  apply calls_context_bind
  · rw [nextCheckpointName_run]
    trivial
  intro checkpointName d
  apply calls_context_bind
  · exact (lookupCheckpoint_plain _ _).mono fun _ h => h.1
  rintro (_ | cached) e
  · apply calls_context_bind
    · trivial
    intro d e
    split
    · apply calls_context_bind
      · trivial
      · exact fun _ _ => trivial
    · apply calls_context_bind
      · exact calls_lift (calls_query ⟨(.ok () : Except String Unit)⟩
          ⟨(.ok (true, none) : Except PgError (Bool × Option Json))⟩)
      rintro ⟨_ | _, payload⟩ e
      · dsimp only
        rw [if_neg (by simp)]
        split
        · trivial
        · apply calls_context_bind
          · trivial
          · intro _ e
            apply calls_context_bind
            · trivial
            · exact fun _ _ => calls_lift (x := Async.ofResult _) trivial
      · trivial
  · exact calls_lift (x := Async.ofResult _) trivial

lemma taskOp_untimed {op : TaskOp} (turns : ℕ) (hu : Untimed c.task) :
    Safe durable (fun _ => True) (fun r _ => Untimed r.2.task) ((op.run chrono turns).run c) w := by
  have hne : nextSlot c op.name ≠ nextSlot c op.name ++ "#" := by
    intro h
    have hlen := congrArg String.length h
    simp at hlen
  apply (taskOp_spares chrono turns op hne w).mono (fun _ _ => trivial)
  exact fun r t _ hr => hr.untimed hu

lemma taskOp_fixes_timely {op : TaskOp} (turns : ℕ) (hu : Untimed c.task) :
    Fixes timely s (op.run chrono turns) c := by
  by_cases h : op.IsWait ∧ nextSlot c op.name = s
  · obtain ⟨hwait, hslot⟩ := h
    cases op with
    | awaitEvent serde eventName options =>
      intro w hc
      apply (awaitEvent_waits serde options hwait hu hc hslot).mono
      · exact fun t ht => ht.kept
      · exact fun _ _ _ h => h.1
    | _ => exact hwait.elim
  · exact taskOp_fixes timely_durable turns fun hwait hslot => h ⟨hwait, hslot⟩

end Wait

def OpVisit.Hands : OpVisit → Json → Prop
  | ⟨.awaitEvent serde _ _, _, _, _, .done (r, _)⟩, j =>
    r = (serde.fromValue j).mapError .serialization
  | _, _ => False

def OpVisit.Outcome (v : OpVisit) : Prop :=
  v.op.IsWait ∧ (v.result = some (.ok ()) ∨ (∃ event, v.result = some (.error (.eventTimeout event))) ∨
    ∃ text, v.result = some (.error (.serialization text)))

lemma OpVisit.Hands.not_suspended {v : OpVisit} {j : Json} (h : v.Hands j) :
    v.result ≠ some (.error .suspended) := by
  obtain ⟨op, c, w, t, q⟩ := v
  cases op with
  | awaitEvent serde eventName options =>
    cases q with
    | call => simp [OpVisit.result]
    | done x =>
      obtain ⟨r, d⟩ := x
      have hr : r = (serde.fromValue j).mapError .serialization := h
      subst hr
      cases serde.fromValue j <;> simp [OpVisit.result, Except.mapError, Except.map]
  | _ => exact h.elim

lemma OpVisit.Outcome.result {v : OpVisit} (h : v.Outcome) : ∃ r, v.result = some r ∧
    r ≠ .error .suspended ∧ ∀ err, r = .error err → ¬ IsInfra err := by
  have hinfra : ∀ err, IsInfra err → (∀ event, err ≠ .eventTimeout event) ∧
      ∀ text, err ≠ .serialization text := by
    rintro err (⟨text, rfl⟩ | ⟨pg, rfl⟩)
    · simp
    · rw [mapDatabaseError]
      split <;> simp
  rcases h.2 with hr | ⟨event, hr⟩ | ⟨text, hr⟩
  · exact ⟨_, hr, by simp, by simp⟩
  · refine ⟨_, hr, by simp, ?_⟩
    rintro err ⟨⟩ hi
    exact (hinfra _ hi).1 event rfl
  · refine ⟨_, hr, by simp, ?_⟩
    rintro err ⟨⟩ hi
    exact (hinfra _ hi).2 text rfl

structure Rehands (j : Json) (v : OpVisit) : Prop where
  answerable : Answerable v.rest
  quiet : ∀ e ∈ v.events, ¬ IsAwait e.1
  handed : v.result ≠ none → (∀ e ∈ v.events, Succeeds e.1 e.2) → v.Hands j
  resumed : v.result ≠ some (.error .suspended)

section History

variable {s : String} {chrono : Serde DateTime} {R : Type} {queueName : String}
  {claims : ClaimedTask → Prop} {handlers : TaskHandler R → Prop}
  {executions : List (List OpVisit)} {visits : List OpVisit} {v : OpVisit} {w u : World} {j : Json}

lemma Performs.untimed {p : TaskHandler R} {c : TaskContext}
    (h : Performs timely chrono p c w visits u) (hu : Untimed c.task) :
    ∀ v ∈ visits, Untimed v.context.task := by
  induction h with
  | stop => simp
  | cut => simpa using hu
  | next hr _ ih =>
    have hd := (taskOp_untimed _ hu).finish (hr.mono timely_durable)
    simpa using ⟨hu, ih hd⟩

lemma History.untimed (hclaims : ∀ task, claims task → Untimed task)
    (h : History timely chrono queueName claims handlers executions w) :
    ∀ v ∈ executions.flatten, Untimed v.context.task := by
  induction h with
  | start => simp
  | unready _ _ _ ih => simpa using ih
  | @next executions w t u task _ _ c visits handler _ hclaim hr _ hp ih =>
    obtain ⟨-, -, -, hc⟩ := (taskContext_safe _ _ _ _ _).finish (hr.mono timely_durable) c rfl
    have hu : Untimed c.task := by
      rw [hc]
      exact hclaims task hclaim
    simp only [List.flatten_append, List.flatten_singleton]
    intro v hmem
    rcases List.mem_append.mp hmem with hmem | hmem
    · exact ih v hmem
    · exact hp.untimed hu v hmem
  | emitted _ _ _ _ _ ih => exact ih

lemma Visited.waits (hv : Visited timely chrono s v) (hu : Untimed v.context.task)
    (hwait : v.op.IsWait) (hs : v.slot = s) :
    Waiting s v.before v.after ∧ Answerable v.rest ∧ ∀ r, v.result = some r →
      (∃ j, v.after.store s = some j ∧ v.Hands j) ∨
        (r = .error .suspended ∧ v.before.store s = none) ∨
          ∃ err, r = .error err ∧ IsInfra err ∧ Failed v.before v.after := by
  obtain ⟨turns, hrun⟩ := hv.run
  have hcached := hv.cached
  obtain ⟨op, c, w, t, q⟩ := v
  cases op with
  | awaitEvent serde eventName options =>
    have hsafe := awaitEvent_waits serde options hwait hu hcached hs
    refine ⟨hsafe.cut hrun, ?_, ?_⟩
    · exact answerable_of_calls (hrun.calls (awaitEvent_answerable serde eventName options c))
    · intro r hres
      cases q with
      | call call next => cases hres
      | done x =>
        obtain ⟨r, d⟩ := x
        cases hres
        cases (hsafe.finish hrun).2 with
        | handed hj => exact Or.inl ⟨_, hj, rfl⟩
        | suspended hn => exact Or.inr (Or.inl ⟨rfl, hn⟩)
        | failed hinfra hf => exact Or.inr (Or.inr ⟨_, rfl, hinfra, hf⟩)
  | _ => exact hwait.elim

lemma Visited.rehands (hv : Visited timely chrono s v) (hu : Untimed v.context.task)
    (hwait : v.op.IsWait) (hs : v.slot = s) (hj : v.before.store s = some j) : Rehands j v := by
  obtain ⟨hwaiting, hanswer, hend⟩ := hv.waits hu hwait hs
  refine ⟨hanswer, (hwaiting.quiet (by simp [hj])).events, ?_, ?_⟩
  · intro hres hok
    obtain ⟨r, hr⟩ := Option.ne_none_iff_exists'.mp hres
    rcases hend r hr with ⟨x, hx, hhands⟩ | ⟨-, hn⟩ | ⟨err, -, -, hf⟩
    · rw [hwaiting.kept j hj] at hx
      cases hx
      exact hhands
    · rw [hj] at hn
      cases hn
    · obtain ⟨e, he, hne⟩ := hf.event
      exact absurd (hok e he) hne
  · intro hr
    rcases hend _ hr with ⟨x, -, hhands⟩ | ⟨-, hn⟩ | ⟨err, herr, hinfra, -⟩
    · exact hhands.not_suspended hr
    · rw [hj] at hn
      cases hn
    · cases herr
      exact hinfra.ne_suspended rfl

/-- Where no run is woken by the timeout of a wait, every outcome of a wait is a payload, and is
handed to every later execution that reaches the slot. -/
theorem event_outcome_kept (hclaims : ∀ task, claims task → Untimed task)
    (h : History timely chrono queueName claims handlers executions w)
    {earlier later : List OpVisit} (hv : executions.flatten = earlier ++ v :: later)
    (hout : v.Outcome) :
    ∃ j, v.Hands j ∧ ∀ v' ∈ later, v'.slot = v.slot → v'.op.IsWait → Rehands j v' := by
  have hu := h.untimed hclaims
  have hfixes : ∀ v' ∈ executions.flatten, ∀ turns,
      Fixes timely v.slot (v'.op.run chrono turns) v'.context :=
    fun v' hmem turns => taskOp_fixes_timely turns (hu v' hmem)
  obtain ⟨ho, hvisited⟩ := h.ordered timely_durable hfixes
  rw [hv] at hu ho hvisited
  have hmem : v ∈ earlier ++ v :: later := List.mem_append_right _ List.mem_cons_self
  obtain ⟨-, -, hend⟩ := (hvisited v hmem).waits (hu v hmem) hout.1 rfl
  obtain ⟨j, hj, hhands⟩ : ∃ j, v.after.store v.slot = some j ∧ v.Hands j := by
    obtain ⟨r, hr, hsuspended, hinfra⟩ := hout.result
    rcases hend r hr with hhands | ⟨herr, -⟩ | ⟨err, herr, hi, -⟩
    · exact hhands
    · exact absurd herr hsuspended
    · exact absurd hi (hinfra err herr)
  refine ⟨j, hhands, ?_⟩
  intro v' hlater hslot hwait
  have hmem' : v' ∈ earlier ++ v :: later :=
    List.mem_append_right _ (List.mem_cons_of_mem _ hlater)
  exact (hvisited v' hmem').rehands (hu v' hmem') hwait hslot (ho.later.before hlater j hj)

end History

section Sample

variable {c : TaskContext} {w : World} {event : String}

lemma timely_query {α : Type} {statement : Statement α} {x : α} {σ : Store}
    {post : Result α → World → Prop} (hs : stores w.store (.query statement) (.ok x) σ)
    (hx : ¬ TimedOut ⟨.query statement, .ok x⟩) (hp : ∀ t, t.store = σ → post (.ok x) t) :
    Reaches timely post (Async.query statement).run w := by
  simp only [Async.query, reaches_async_bind, reaches_pool, reaches_execute]
  refine ⟨.ok (), ⟨w.store, ⟨.poolGet, .ok ()⟩ :: w.log⟩, ⟨⟨rfl, rfl⟩, id⟩, .ok x,
    ⟨σ, ⟨.query statement, .ok x⟩ :: ⟨.poolGet, .ok ()⟩ :: w.log⟩, ⟨⟨hs, rfl⟩, hx⟩, ?_⟩
  exact hp _ rfl

lemma timely_context (task : ClaimedTask) (hh : task.headers = none)
    {rows : List (String × Json)} (h : ∀ name v, (name, v) ∈ rows ↔ w.store name = some v) :
    Reaches timely (fun r t => t.store = w.store ∧
        r = .ok (freshContext "default" task (Duration.fromSecs 120) true w.store))
      (TaskContext.new "default" task (Duration.fromSecs 120) true).run w := by
  rw [TaskContext.new, reaches_async_bind]
  apply timely_query (x := rows) (σ := w.store)
  · refine ⟨rfl, ?_⟩
    rintro rows' ⟨⟩
    exact h
  · exact id
  · intro t ht
    simp only [insertRows_eq h, hh]
    exact ⟨ht, rfl⟩

def sampleWait (event : String) : TaskOp :=
  .awaitEvent Serde.json event ⟨none, some (Duration.fromSecs 5)⟩

def sampleWaiter : TaskHandler (Result Json) := .call (sampleWait "paid") fun
  | .error (.eventTimeout _) => .call (sampleWait "cancelled") .done
  | r => .done r

def woken (event : String) (payload : Option Json) : ClaimedTask :=
  { sampleTask with wakeEvent := some event, eventPayload := payload }

lemma timely_lookup {name : String} (hc : c.checkpointCache name = none)
    (hn : w.store name = none) :
    Reaches timely (fun r t => r = (.ok none, c) ∧ t.store = w.store)
      ((TaskContext.lookupCheckpoint name).run c) w := by
  simp only [TaskContext.lookupCheckpoint, reaches_context_bind, reaches_context, hc, reaches_lift]
  apply timely_query (x := none) (σ := w.store)
  · refine ⟨rfl, ?_⟩
    rintro row ⟨⟩
    exact hn.symm
  · exact id
  · exact fun t ht => ⟨rfl, ht⟩

lemma sampleWait_asks {post : Result Json × TaskContext → World → Prop}
    (hb : isBlank event = false) (hc : ∀ name, c.checkpointCache name = none)
    (hn : ∀ name, w.store name = none)
    (h : ∀ t, t.store = w.store → Reaches timely post
      ((askEvent Serde.json event ⟨none, some (Duration.fromSecs 5)⟩
        (nextSlot c s!"$awaitEvent:{event}")).run (advance c s!"$awaitEvent:{event}")) t) :
    Reaches timely post (((sampleWait event).run sampleChrono 0).run c) w := by
  change Reaches timely post ((TaskContext.awaitEventWithOptions Serde.json event _).run c) w
  rw [awaitEvent_run _ _ (Bool.eq_false_iff.mp hb)]
  simp only [awaitEventName, awaitEventIn, reaches_context_bind, reaches_nextCheckpointName,
    Option.getD_none]
  apply (timely_lookup (c := advance c s!"$awaitEvent:{event}") (hc _) (hn _)).mono
  rintro ⟨r, d⟩ t ⟨hr, ht⟩
  cases hr
  exact h t ht

lemma sampleWait_suspends (hb : isBlank event = false) (hc : ∀ name, c.checkpointCache name = none)
    (hn : ∀ name, w.store name = none) (hwoken : c.task.wakeEvent ≠ some event) :
    Reaches timely (fun r t => r.1 = .error .suspended ∧ t.store = w.store)
      (((sampleWait event).run sampleChrono 0).run c) w := by
  apply sampleWait_asks hb hc hn
  intro t ht
  have hask : ¬ ((advance c s!"$awaitEvent:{event}").task.wakeEvent = some event ∧
      (advance c s!"$awaitEvent:{event}").task.eventPayload.isNone = true) := fun h => hwoken h.1
  simp only [sampleWait, askEvent, reaches_context_bind, reaches_context, if_neg hask, reaches_lift]
  apply timely_query (x := (true, none)) (σ := w.store)
  · exact ht.symm
  · exact id
  · exact fun u hu => ⟨rfl, hu⟩

lemma sampleWait_hands (payload : Json) (hb : isBlank event = false)
    (hc : ∀ name, c.checkpointCache name = none) (hn : ∀ name, w.store name = none)
    (hwoken : c.task.wakeEvent ≠ some event) :
    Reaches timely (fun r t => r.1 = .ok payload ∧ t.store = Function.update w.store
        (nextSlot c s!"$awaitEvent:{event}") (some payload))
      (((sampleWait event).run sampleChrono 0).run c) w := by
  apply sampleWait_asks hb hc hn
  intro t ht
  have hask : ¬ ((advance c s!"$awaitEvent:{event}").task.wakeEvent = some event ∧
      (advance c s!"$awaitEvent:{event}").task.eventPayload.isNone = true) := fun h => hwoken h.1
  simp only [sampleWait, askEvent, reaches_context_bind, reaches_context, if_neg hask, reaches_lift]
  apply timely_query (x := (false, some payload)) (σ := Function.update t.store
    (nextSlot c s!"$awaitEvent:{event}") (some payload))
  · exact rfl
  · exact id
  · intro u hu
    rw [ht] at hu
    exact ⟨rfl, hu⟩

lemma sampleWait_times_out (hb : isBlank event = false) (hc : ∀ name, c.checkpointCache name = none)
    (hn : ∀ name, w.store name = none) (hwoken : c.task.wakeEvent = some event)
    (hpayload : c.task.eventPayload = none) :
    Reaches timely (fun r t => r.1 = .error (.eventTimeout event) ∧ t.store = w.store ∧
        r.2.checkpointCache = c.checkpointCache ∧ r.2.task.wakeEvent = none)
      (((sampleWait event).run sampleChrono 0).run c) w := by
  apply sampleWait_asks hb hc hn
  intro t ht
  have htimeout : (advance c s!"$awaitEvent:{event}").task.wakeEvent = some event ∧
      (advance c s!"$awaitEvent:{event}").task.eventPayload.isNone = true :=
    ⟨hwoken, Option.isNone_iff_eq_none.mpr hpayload⟩
  simp only [sampleWait, askEvent, reaches_context_bind, reaches_context, if_pos htimeout,
    reaches_modify]
  exact ⟨rfl, ht, rfl, rfl⟩

lemma sampleWait_performs {r : Result Json} {d : TaskContext} {t : World}
    (hr : Run timely (((sampleWait "paid").run sampleChrono 0).run c) w (.done (r, d)) t)
    (hrest : ∀ event, r ≠ .error (.eventTimeout event)) :
    Performs timely sampleChrono sampleWaiter c w [⟨sampleWait "paid", c, w, t, .done (r, d)⟩] t := by
  apply Performs.next hr
  rcases r with err | payload
  · cases err with
    | eventTimeout event => exact absurd rfl (hrest event)
    | _ => exact .stop _ _ _
  · exact .stop _ _ _

lemma sample_timeout : ∃ (v₀ v₁ v₂ v₃ : OpVisit) (w : World),
    History timely sampleChrono "default" (fun _ => True) (fun p => p = sampleWaiter)
        [[v₀], [v₁, v₂], [v₃]] w ∧
      v₁.op = sampleWait "paid" ∧ v₁.result = some (.error (.eventTimeout "paid")) ∧
      v₃.slot = v₁.slot ∧ v₃.result = some (.error .suspended) := by
  have hnone : ∀ {w : World}, w.store = World.empty.store → ∀ name, w.store name = none := by
    intro w hw name
    rw [hw]
    rfl
  have hrows : ∀ {w : World}, w.store = World.empty.store →
      ∀ name v, (name, v) ∈ ([] : List (String × Json)) ↔ w.store name = some v := by
    intro w hw name v
    simp [hnone hw]
  have hpaid : isBlank "paid" = false := by decide
  have hcancelled : isBlank "cancelled" = false := by decide
  obtain ⟨r, t₀, hnew₀, ht₀, rfl⟩ := (timely_context sampleTask rfl
    (hrows (w := World.empty) rfl)).exists_run
  obtain ⟨⟨r, d₀⟩, u₀, hwait₀, rfl, hu₀⟩ := (sampleWait_suspends (w := t₀) hpaid
    (c := freshContext "default" sampleTask (Duration.fromSecs 120) true World.empty.store)
    (fun _ => rfl) (hnone ht₀) nofun).exists_run
  have he₀ := hu₀.trans ht₀
  obtain ⟨r, t₁, hnew₁, ht₁, rfl⟩ := (timely_context (woken "paid" none) rfl
    (hrows he₀)).exists_run
  have he₁ := ht₁.trans he₀
  obtain ⟨⟨r, d₁⟩, u₁, hwait₁, rfl, hu₁, hcache, htask⟩ := (sampleWait_times_out (w := t₁) hpaid
    (c := freshContext "default" (woken "paid" none) (Duration.fromSecs 120) true u₀.store)
    (hnone he₀) (hnone he₁) rfl rfl).exists_run
  have hf₁ := hu₁.trans he₁
  obtain ⟨⟨r, d₂⟩, u₂, hwait₂, rfl, hu₂⟩ := (sampleWait_suspends (w := u₁) hcancelled (c := d₁)
    (fun name => (congrFun hcache name).trans (hnone he₀ name)) (hnone hf₁)
    (by simp [show d₁.task.wakeEvent = none from htask])).exists_run
  have hf₂ := hu₂.trans hf₁
  obtain ⟨r, t₃, hnew₃, ht₃, rfl⟩ := (timely_context (woken "cancelled" (some .null)) rfl
    (hrows hf₂)).exists_run
  have he₃ := ht₃.trans hf₂
  obtain ⟨⟨r, d₃⟩, u₃, hwait₃, rfl, hu₃⟩ := (sampleWait_suspends (w := t₃) hpaid
    (c := freshContext "default" (woken "cancelled" (some .null)) (Duration.fromSecs 120) true
      u₂.store) (hnone hf₂) (hnone he₃) (by simp [freshContext, woken])).exists_run
  have hfirst : History timely sampleChrono "default" (fun _ => True) (fun p => p = sampleWaiter) _
      u₀ := .next .start trivial hnew₀ rfl (sampleWait_performs hwait₀ nofun)
  have hsecond := History.next hfirst trivial hnew₁ rfl
    (.next hwait₁ (.next hwait₂ (.stop _ _ _)))
  have hthird := History.next hsecond trivial hnew₃ rfl (sampleWait_performs hwait₃ nofun)
  exact ⟨_, _, _, _, _, hthird, rfl, rfl, rfl, rfl⟩

theorem event_timeout_forgotten : ¬ ∀ (handler : TaskHandler (Result Json))
    (executions : List (List OpVisit)) (w : World) (earlier later : List OpVisit) (v v' : OpVisit),
    History timely sampleChrono "default" (fun _ => True) (fun p => p = handler) executions w →
    executions.flatten = earlier ++ v :: later → v.Outcome → v' ∈ later → v'.slot = v.slot →
      v'.result ≠ some (.error .suspended) := by
  intro h
  obtain ⟨v₀, v₁, v₂, v₃, w, hhistory, hop, hres, hslot, hres₃⟩ := sample_timeout
  have hwait : v₁.op.IsWait := by
    rw [hop]
    exact (by decide : isBlank "paid" = false)
  have hout : v₁.Outcome := ⟨hwait, Or.inr (Or.inl ⟨"paid", hres⟩)⟩
  have hsplit : [[v₀], [v₁, v₂], [v₃]].flatten = [v₀] ++ v₁ :: [v₂, v₃] := rfl
  exact h sampleWaiter _ w _ _ v₁ v₃ hhistory hsplit hout (by simp) hslot hres₃

lemma sampleWait_rehands {payload : Json} (hc : c.checkpointCache "$awaitEvent:paid" = some payload)
    (hslot : nextSlot c "$awaitEvent:paid" = "$awaitEvent:paid") :
    Reaches timely (fun r _ => r.1 = .ok payload) (((sampleWait "paid").run sampleChrono 0).run c) w := by
  have hblank : ¬ isBlank "paid" = true := by decide
  have hname : toString "$awaitEvent:" ++ toString "paid" = "$awaitEvent:paid" := by decide
  simp only [sampleWait, TaskOp.run, TaskContext.awaitEventWithOptions, if_neg hblank,
    reaches_context_bind, reaches_nextCheckpointName, Option.getD_none, hname, hslot,
    TaskContext.lookupCheckpoint, reaches_context]
  have hc' : (advance c "$awaitEvent:paid").checkpointCache "$awaitEvent:paid" = some payload := hc
  simp only [hc', reaches_context_pure]
  exact rfl

lemma sample_payload : ∃ (v v' : OpVisit) (w : World),
    History timely sampleChrono "default" Untimed (fun p => p = sampleWaiter) [[v], [v']] w ∧
      v.Outcome ∧ v.Hands (.bool true) ∧ v'.op.IsWait ∧ v'.slot = v.slot ∧ v'.result ≠ none := by
  have hpaid : isBlank "paid" = false := by decide
  have huntimed : Untimed sampleTask := nofun
  have hpayload : ∀ event, (.ok (.bool true) : Result Json) ≠ .error (.eventTimeout event) := by
    intro event he
    cases he
  obtain ⟨r, t, hnew, ht, rfl⟩ := (timely_context sampleTask rfl no_rows).exists_run
  obtain ⟨⟨r, d⟩, u, hwait, rfl, hu⟩ := (sampleWait_hands (w := t) (.bool true) hpaid
    (c := freshContext "default" sampleTask (Duration.fromSecs 120) true World.empty.store)
    (fun _ => rfl) (fun name => congrFun ht name) nofun).exists_run
  have hslot : nextSlot (freshContext "default" sampleTask (Duration.fromSecs 120) true
      World.empty.store) (toString "$awaitEvent:" ++ toString "paid") = "$awaitEvent:paid" := by decide
  rw [hslot, ht] at hu
  have hrows : ∀ name v, (name, v) ∈ [("$awaitEvent:paid", Json.bool true)] ↔
      u.store name = some v := by
    intro name v
    rw [hu]
    by_cases h : name = "$awaitEvent:paid"
    · simp [h, eq_comm]
    · simp [h, World.empty]
  obtain ⟨r, t₂, hnew₂, ht₂, rfl⟩ := (timely_context sampleTask rfl hrows).exists_run
  have hcached : u.store "$awaitEvent:paid" = some (.bool true) := by rw [hu, Function.update_self]
  obtain ⟨⟨r, d₂⟩, u₂, hwait₂, rfl⟩ := (sampleWait_rehands (w := t₂)
    (c := freshContext "default" sampleTask (Duration.fromSecs 120) true u.store) hcached
    rfl).exists_run
  have hfirst : History timely sampleChrono "default" Untimed (fun p => p = sampleWaiter) _ u :=
    .next .start huntimed hnew rfl (sampleWait_performs hwait hpayload)
  have hsecond := History.next hfirst huntimed hnew₂ rfl (sampleWait_performs hwait₂ hpayload)
  exact ⟨_, _, _, hsecond, ⟨hpaid, Or.inl rfl⟩, rfl, hpaid, rfl, by simp [OpVisit.result]⟩

theorem event_outcome_kept_sample : ∃ (v v' : OpVisit) (w : World),
    History timely sampleChrono "default" Untimed (fun p => p = sampleWaiter) [[v], [v']] w ∧
      v.Outcome ∧ v'.result ≠ none ∧ ∃ j, v.Hands j ∧ Rehands j v' := by
  obtain ⟨v, v', w, h, hout, -, hwait, hslot, hres⟩ := sample_payload
  have hsplit : [[v], [v']].flatten = [] ++ v :: [v'] := rfl
  obtain ⟨j, hhands, hlater⟩ := event_outcome_kept (fun _ hu => hu) h hsplit hout
  exact ⟨v, v', w, h, hout, hres, j, hhands, hlater v' List.mem_cons_self hslot hwait⟩

end Sample

end AbsurdSdk.Durability
