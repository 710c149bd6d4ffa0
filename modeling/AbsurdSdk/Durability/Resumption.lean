import AbsurdSdk.Durability.Events
import AbsurdSdk.Durability.Replay
import AbsurdSdk.Durability.SpentNames
import AbsurdSdk.Interaction.Resumption

/-! Handlers that pass on every error with `?`, over all durable operations. Their executions are
suspended by sleeps and waits, cut anywhere, and resumed after an emit; still they all follow one
run. -/

namespace AbsurdSdk.Durability

open Interaction Model

variable {R : Type}

/-- Each operation is followed by `?`. -/
def propagate : Program TaskOp TaskOp.Ans R → TaskHandler (Result R)
  | .done x => .done (.ok x)
  | .call op next => .call op fun
    | .ok a => propagate (next a)
    | .error err => .done (.error err)

def TaskOp.Lossless : TaskOp → Prop
  | replays op => op.Lossless
  | _ => True

def commitments (queueName : String) (chrono : Serde DateTime) :
    Memo TaskOp TaskOp.Ans String Json (String → ℕ) where
  name count op := (numbered op.name (count op.name + 1),
    Function.update count op.name (count op.name + 1))
  decode
    | .replays op, v => (checkpoints queueName).decode op v
    | .sleepFor _ _, v | .sleepUntil _ _, v => (chrono.fromValue v).toOption.map fun _ => ()
    | .awaitEvent serde _ _, v => (serde.fromValue v).toOption
  fresh
    | .replays op, v => (checkpoints queueName).fresh op v
    | .sleepFor _ _, v | .sleepUntil _ _, v =>
      ∃ wakeAt, chrono.toValue (postgresTimestampPrecision wakeAt) = .ok v
    | .awaitEvent _ _ _, _ => True

def OpVisit.answered (v : OpVisit) : Option (Σ op : TaskOp, String × op.Ans) :=
  match v.rest with
  | .done (.ok a, _) => some ⟨v.op, v.slot, a⟩
  | _ => none

def answers (visits : List OpVisit) : Memo.Answers TaskOp TaskOp.Ans String :=
  visits.filterMap OpVisit.answered

/-- What an operation does only to fill its slot. -/
def OpVisit.Works (v : OpVisit) (call : Call) : Prop :=
  match v.op with
  | .sleepFor _ _ | .sleepUntil _ _ => ¬ Leaves v.slot call
  | .awaitEvent _ _ _ => IsAwait call
  | _ => IsWork call

section Operation

variable {op : TaskOp} {c : TaskContext} {w t : World} {chrono : Serde DateTime} {T : Type}

def placed : Conduct where
  rel c d := d.queueName = c.queueName ∧ d.stepNameCounter = c.stepNameCounter
  may _ _ := True
  grants _ _ := True
  refl _ := ⟨rfl, rfl⟩
  trans h h' := ⟨h'.1.trans h.1, h'.2.trans h.2⟩
  back _ _ := trivial
  unpersisting _ _ _ := trivial
  fills _ _ _ := ⟨rfl, rfl⟩
  persists _ _ _ _ _ _ := trivial

lemma placed_times : placed.Times := fun _ _ _ => ⟨rfl, rfl⟩

lemma pair_continues (serde : Serde T) (name : String) (turns : ℕ) :
    Continues placed ((ReplayOp.pair serde name).run turns) name := by
  obtain ⟨body, hbody, hobeys⟩ := beginStep_continues (D := placed) serde name
  refine ⟨fun slot => body slot >>= fun handle => liftM (Async.supply T) >>= fun value =>
    TaskContext.completeStep serde handle value, ?_, ?_⟩
  · rw [ReplayOp.run, hbody, context_bind_assoc]
  · intro slot c
    apply Obeys.bind (hobeys slot c)
    intro handle d
    apply Obeys.lift_bind (calls_supply T)
    intro value
    apply completeStep_obeys
    exact Or.inr fun j _ => ⟨⟨rfl, rfl⟩, fun _ _ _ _ => trivial⟩

def Moved (op : TaskOp) (c : TaskContext) (r : Result op.Ans × TaskContext) : Prop :=
  ∀ a, r.1 = .ok a → placed.rel (advance c op.name) r.2

lemma Continues.moves {S : Type*} {m : ContextM T} {name : String} (h : Continues placed m name)
    (env : Env Call Answer S) (c : TaskContext) (s : S) :
    Safe env (fun _ => True) (fun r _ => placed.rel (advance c name) r.2) (m.run c) s :=
  .of_yields ((h.yields c).mono (fun _ _ => trivial) fun _ h => h) s

lemma replayOp_moves {S : Type*} {env : Env Call Answer S} (op : ReplayOp) (turns : ℕ)
    (c : TaskContext) (s : S) :
    Safe env (fun _ => True) (fun r _ => Moved (.replays op) c r) ((op.run turns).run c) s := by
  cases op with
  | step serde name =>
    exact ((step_continues serde name).moves env c s).mono (fun _ h => h) fun _ _ _ h _ _ => h
  | pair serde name =>
    exact ((pair_continues serde name turns).moves env c s).mono (fun _ h => h) fun _ _ _ h _ _ => h
  | awaitTaskResult taskId options =>
    by_cases hun : Unwaitable c options
    · obtain ⟨err, herr⟩ := awaitTaskResult_refused turns taskId hun
      rw [ReplayOp.run, herr]
      exact ⟨trivial, by rintro a ⟨⟩⟩
    · rw [ReplayOp.run, awaitTaskResult_run turns taskId hun]
      have hmoves := (awaitTaskResult_continues (D := placed) c turns taskId options).moves
        env c s
      exact hmoves.mono (fun _ h => h) fun _ _ _ h _ _ => h

lemma taskOp_moves {S : Type*} {env : Env Call Answer S} (op : TaskOp) (turns : ℕ)
    (c : TaskContext) (s : S) :
    Safe env (fun _ => True) (fun r _ => Moved op c r) ((op.run chrono turns).run c) s := by
  cases op with
  | replays op => exact replayOp_moves op turns c s
  | sleepFor name duration =>
    simp only [TaskOp.run, TaskContext.sleepFor]
    cases chronoFromStd duration with
    | none => exact ⟨trivial, by rintro a ⟨⟩⟩
    | some delta =>
      simp only [safe_context_bind, TaskContext.currentTime, safe_lift]
      apply (Safe.any _ s).mono (fun _ h => h)
      rintro (err | now) t - -
      · exact ⟨trivial, trivial, by rintro a ⟨⟩⟩
      · refine ⟨trivial, ?_⟩
        dsimp only
        cases now.checkedAdd delta with
        | none => exact safe_lift.mpr (safe_panic.mpr trivial)
        | some wakeAt =>
          have hmoves := (sleepUntilAtCurrentTime_continues (D := placed) chrono name wakeAt
            now).moves env c t
          exact hmoves.mono (fun _ h => h) fun _ _ _ h _ _ => h
  | sleepUntil name wakeAt =>
    simp only [TaskOp.run, TaskContext.sleepUntil, safe_context_bind, TaskContext.currentTime,
      safe_lift]
    apply (Safe.any _ s).mono (fun _ h => h)
    rintro (err | now) t - -
    · exact ⟨trivial, trivial, by rintro a ⟨⟩⟩
    · have hmoves := (sleepUntilAtCurrentTime_continues (D := placed) chrono name wakeAt
        now).moves env c t
      exact ⟨trivial, hmoves.mono (fun _ h => h) fun _ _ _ h _ _ => h⟩
  | awaitEvent serde eventName options =>
    by_cases hblank : isBlank eventName = true
    · rw [TaskOp.run, TaskContext.awaitEventWithOptions, if_pos hblank]
      exact ⟨trivial, by rintro a ⟨⟩⟩
    · have hmoves := (awaitEvent_continues placed_times serde options hblank).moves env
        c s
      exact hmoves.mono (fun _ h => h) fun _ _ _ h _ _ => h

def Fresh (chrono : Serde DateTime) (op : TaskOp) (c : TaskContext) (w t : World) : Prop :=
  w.store (nextSlot c op.name) = none → ∀ v, t.store (nextSlot c op.name) = some v →
    (commitments c.queueName chrono).fresh op v

def Filled (chrono : Serde DateTime) (op : TaskOp) (c : TaskContext) (r : Result op.Ans × TaskContext)
    (t : World) : Prop :=
  ∀ a, r.1 = .ok a → ∃ v, t.store (nextSlot c op.name) = some v ∧
    (commitments c.queueName chrono).decode op v = some a

lemma Underway.fresh {op : ReplayOp} (h : Underway op c w t)
    (hn : w.store (nextSlot c op.name) = none) {v : Json}
    (hv : t.store (nextSlot c op.name) = some v) : (checkpoints c.queueName).fresh op v := by
  rcases h.1 with hs | ⟨a, ha⟩
  · rw [hs, hn] at hv
    cases hv
  · generalize hσ : t.store = σ at ha hv
    cases ha with
    | hit hm _ =>
      rw [show w.store (nextSlot c op.name) = _ from hm] at hn
      cases hn
    | miss _ hf _ =>
      obtain rfl : _ = v := by simpa [checkpoints, nextSlot] using hv
      exact hf

lemma Returned.filled {op : ReplayOp} {r : Result op.Ans × TaskContext} (h : Returned op c w r t)
    {a : op.Ans} (ha : r.1 = .ok a) : ∃ v, t.store (nextSlot c op.name) = some v ∧
      (checkpoints c.queueName).decode op v = some a :=
  (h a ha).1.recorded

def Resolved (r : Result Unit) : Prop := r = .ok () ∨ r = .error .suspended

lemma not_resolved {err : Error} (h : err ≠ .suspended) : ¬ Resolved (.error err) := by
  rintro (he | he)
  · cases he
  · exact h (Except.error.inj he)

def Decided (chrono : Serde DateTime) (s : String) (now : DateTime) (t : World) (r : Result Unit) :
    Prop :=
  Resolved r → ∃ j wake, t.store s = some j ∧
    chrono.fromValue j = .ok wake ∧ (r = .ok () ↔ wake ≤ now)

lemma wake_decides {s : String} {j : Json} {actual : DateTime} (now : DateTime)
    (hj : w.store s = some j) (hdecode : chrono.fromValue j = .ok actual) :
    Safe durable (fun _ => True) (fun r t => Decided chrono s now t r.1) ((if now < actual then do
        TaskContext.scheduleRun actual
        ContextM.throw .suspended
      else
        pure () : ContextM Unit).run c) w := by
  have hkept := ((sparing s).wake (c := c) trivial now actual w).mono (fun _ _ => trivial)
    fun _ t h _ => h.1.trans hj
  suffices hdecides : Safe durable (fun _ => True) (fun r _ => r.1 = .ok () ↔ actual ≤ now)
      ((if now < actual then do
        TaskContext.scheduleRun actual
        ContextM.throw .suspended
      else
        pure () : ContextM Unit).run c) w from
    (hkept.and hdecides).mono (fun _ _ => trivial) fun r t _ h _ => ⟨j, actual, h.1, hdecode, h.2⟩
  by_cases hlt : now < actual
  · simp only [if_pos hlt, safe_context_bind]
    apply (Safe.any _ w).mono (fun _ h => h)
    rintro ⟨err | _, d⟩ t - -
    · exact ⟨trivial, iff_of_false (by simp) fun hle => DateTime.not_lt.mpr hle hlt⟩
    · exact ⟨trivial, iff_of_false (by simp) fun hle => DateTime.not_lt.mpr hle hlt⟩
  · rw [if_neg hlt]
    exact ⟨trivial, iff_of_true rfl (DateTime.not_lt.mp hlt)⟩

lemma sleep_decides {s name : String} (wakeAt now : DateTime) (hl : chrono.Lossless)
    (hslot : nextSlot c name = s) (hc : CachedAt c w.store s) :
    Safe durable (fun _ => True) (fun r t => Decided chrono s now t r.1)
      ((TaskContext.sleepUntilAtCurrentTime chrono name wakeAt now).run c) w := by
  have hc' : CachedAt (advance c name) w.store s := hc
  simp only [TaskContext.sleepUntilAtCurrentTime, safe_context_bind, safe_nextCheckpointName, hslot]
  refine ⟨trivial, (lookupCheckpoint_safe s hc').mono (fun _ _ => trivial) ?_⟩
  rintro ⟨err | found, d⟩ t ⟨ht, -⟩ ⟨-, hr, hf⟩
  · exact ⟨trivial, fun h => absurd h (not_resolved (hf _ rfl).2.ne_suspended)⟩
  · have hfound := hr found rfl
    cases found with
    | some cached =>
      simp only [safe_context_bind, safe_lift, Async.decode, safe_ofResult]
      refine ⟨trivial, trivial, ?_⟩
      cases hdec : chrono.fromValue cached with
      | error text => exact ⟨trivial, fun h => absurd h (not_resolved (by simp))⟩
      | ok actual => exact wake_decides now (by rw [ht, ← hfound]) hdec
    | none =>
      simp only [safe_context_bind, safe_lift, Async.encode, safe_ofResult]
      refine ⟨trivial, trivial, ?_⟩
      cases hv : chrono.toValue (postgresTimestampPrecision wakeAt) with
      | error text => exact ⟨trivial, fun h => absurd h (not_resolved (by simp))⟩
      | ok value =>
        apply (persistCheckpoint_safe s value).mono (fun _ _ => trivial)
        rintro ⟨r, e⟩ u - (⟨rfl, hu, -⟩ | ⟨err, he, -, hinfra⟩)
        · have hs : u.store s = some value := by rw [hu, Function.update_self]
          exact ⟨trivial, wake_decides now hs (hl _ _ hv)⟩
        · cases he
          exact ⟨trivial, fun h => absurd h (not_resolved hinfra.ne_suspended)⟩

lemma sleepOp_decides (hop : op.IsSleep) (turns : ℕ) (hl : chrono.Lossless)
    (hc : CachedAt c w.store (nextSlot c op.name)) :
    Safe durable (fun _ => True)
      (fun r t => ∀ r', r.1.map (fun _ => ()) = r' → Resolved r' →
        ∃ now, (∃ events, t.log = events ++ w.log ∧ readings events = [now]) ∧
          Decided chrono (nextSlot c op.name) now t r')
      ((op.run chrono turns).run c) w := by
  apply (sleepOp_safe (s := nextSlot c op.name) (Q := fun r _ t =>
    Resolved r → ∃ now, (∃ events, t.log = events ++ w.log ∧ readings events = [now]) ∧
      Decided chrono (nextSlot c op.name) now t r) hop turns ?_ ?_ ?_ ?_).mono (fun _ h => h)
  · rintro r t - h r' rfl
    exact h
  · exact fun _ _ _ => trivial
  · exact fun text _ h => absurd h (not_resolved (by simp))
  · exact fun t err _ hne _ _ h => absurd h (not_resolved hne)
  · intro now wakeAt t ht hdozed _
    have hdecides := sleep_decides wakeAt now hl rfl (ht ▸ hc)
    have hclock : Safe durable (fun u => ∃ events, u.log = events ++ w.log ∧ readings events = [now])
        (fun _ _ => True)
        ((TaskContext.sleepUntilAtCurrentTime chrono op.name wakeAt now).run c) t := by
      obtain ⟨events, hlog, -, hread, -⟩ := hdozed.log
      apply Safe.of_calls (sleep_plain chrono op.name wakeAt now c) ⟨events, hlog, hread⟩
      rintro u call r x hcall ⟨events', hlog', hread'⟩ hx
      refine ⟨⟨call, r⟩ :: events', by simp [hx.2, hlog'], ?_⟩
      simpa [readings, hcall.2 r] using hread'
    apply (hclock.and hdecides).mono (fun _ _ => trivial)
    exact fun r u hu h _ => ⟨now, hu.1, h.2⟩

lemma sleepOp_filled (hop : op.IsSleep) (turns : ℕ) (hl : chrono.Lossless)
    (h : CachedAt c w.store (nextSlot c op.name)) :
    Safe durable (Fresh chrono op c w) (fun r t => Filled chrono op c r t)
      ((op.run chrono turns).run c) w := by
  have hfresh : Safe durable (Fresh chrono op c w) (fun _ _ => True)
      ((op.run chrono turns).run c) w := by
    by_cases hn : w.store (nextSlot c op.name) = none
    · apply (sleepOp_commits hop turns rfl h hn).mono
      · rintro t (ht | ⟨now, wakeAt, -, -, j, hj, ht⟩) - v hv
        · rw [ht] at hv
          cases hv
        · obtain rfl := Option.some.inj (ht.symm.trans hv)
          cases op with
          | sleepFor | sleepUntil => exact ⟨wakeAt, hj⟩
          | _ => exact hop.elim
      · exact fun _ _ _ _ => trivial
    · exact (Safe.any _ w).mono (fun _ _ h => absurd h hn) fun _ _ _ _ => trivial
  apply (hfresh.and (sleepOp_decides hop turns hl h)).mono (fun _ h => h.1)
  rintro r t - ⟨-, hdecides⟩ a ha
  obtain ⟨now, -, hdecided⟩ := hdecides (.ok ()) (by rw [ha]; rfl) (Or.inl rfl)
  obtain ⟨v, x, hv, hx, -⟩ := hdecided (Or.inl rfl)
  refine ⟨v, hv, ?_⟩
  cases op with
  | sleepFor | sleepUntil => simp [commitments, hx, Except.toOption]
  | _ => exact hop.elim

lemma taskOp_filled (turns : ℕ) (hchrono : chrono.Lossless) (hl : op.Lossless)
    (h : Cached c w.store) (hu : Untimed c.task) :
    Safe timely (Fresh chrono op c w) (fun r t => Filled chrono op c r t)
      ((op.run chrono turns).run c) w := by
  have hreplayed : ∀ rop : ReplayOp, rop.Lossless → Safe timely
      (fun t => w.store (nextSlot c rop.name) = none → ∀ v, t.store (nextSlot c rop.name) = some v →
        (checkpoints c.queueName).fresh rop v)
      (fun r t => ∀ a, r.1 = .ok a → ∃ v, t.store (nextSlot c rop.name) = some v ∧
        (checkpoints c.queueName).decode rop v = some a) ((rop.run turns).run c) w := by
    intro rop hrop
    apply ((operation_underway rop turns h hrop).restrict timely_durable).mono
    · exact fun t ht hn v => ht.fresh hn
    · exact fun r t _ hr a => hr.filled
  cases op with
  | replays op => exact hreplayed op hl
  | sleepFor name duration =>
    have hsleep : (TaskOp.sleepFor name duration).IsSleep := trivial
    exact (sleepOp_filled hsleep turns hchrono (h _)).restrict timely_durable
  | sleepUntil name wakeAt =>
    have hsleep : (TaskOp.sleepUntil name wakeAt).IsSleep := trivial
    exact (sleepOp_filled hsleep turns hchrono (h _)).restrict timely_durable
  | awaitEvent serde eventName options =>
    cases hblank : isBlank eventName with
    | true =>
      rw [TaskOp.run, TaskContext.awaitEventWithOptions, if_pos hblank]
      exact ⟨fun _ _ _ => trivial, by rintro a ⟨⟩⟩
    | false =>
      apply (awaitEvent_waits serde options hblank hu (h _) rfl).mono
      · exact fun _ _ _ _ _ => trivial
      · rintro ⟨r, d⟩ t - ⟨-, hwaited⟩ a ha
        cases ha
        generalize hr : (Except.ok a : Result _) = r at hwaited
        cases hwaited with
        | @handed j hj =>
          refine ⟨j, hj, ?_⟩
          cases hd : serde.fromValue j with
          | error text => simp [hd] at hr
          | ok b =>
            simp only [hd, Except.ok.injEq] at hr
            simp [commitments, hd, hr, Except.toOption]
        | suspended => cases hr
        | failed => cases hr

def Attempted (chrono : Serde DateTime) (op : TaskOp) (c : TaskContext) (w t : World) : Prop :=
  t.store = w.store ∨ w.store (nextSlot c op.name) = none ∧
    ∃ v, (commitments c.queueName chrono).fresh op v ∧
      t.store = Function.update w.store (nextSlot c op.name) (some v)

structure Answering (chrono : Serde DateTime) (op : TaskOp) (c : TaskContext) (w : World) (a : op.Ans)
    (d : TaskContext) (t : World) : Prop where
  answered : (commitments c.queueName chrono).Answered op c.stepNameCounter w.store a t.store
  cached : Cached d t.store
  placed : placed.rel (advance c op.name) d
  untimed : Untimed d.task

lemma attempted_of_slot (hkept : Kept (nextSlot c op.name) w t)
    (hothers : ∀ s, s ≠ nextSlot c op.name → t.store s = w.store s) (hf : Fresh chrono op c w t) :
    Attempted chrono op c w t := by
  have hstore : t.store (nextSlot c op.name) = w.store (nextSlot c op.name) → t.store = w.store := by
    intro hs
    funext s
    by_cases h : s = nextSlot c op.name
    · rw [h, hs]
    · exact hothers s h
  cases hw : w.store (nextSlot c op.name) with
  | some v => exact Or.inl (hstore ((hkept v hw).trans hw.symm))
  | none =>
    cases ht : t.store (nextSlot c op.name) with
    | none => exact Or.inl (hstore (ht.trans hw.symm))
    | some v =>
      refine Or.inr ⟨hw, v, hf hw v ht, ?_⟩
      funext s
      by_cases h : s = nextSlot c op.name
      · rw [h, ht, Function.update_self]
      · rw [Function.update_of_ne h, hothers s h]

lemma answered_of_slot {a : op.Ans} {v : Json} (h : Attempted chrono op c w t)
    (hv : t.store (nextSlot c op.name) = some v)
    (hd : (commitments c.queueName chrono).decode op v = some a) :
    (commitments c.queueName chrono).Answered op c.stepNameCounter w.store a t.store := by
  rcases h with hs | ⟨hn, x, hf, hs⟩
  · rw [hs] at hv ⊢
    exact .hit hv hd
  · rw [hs, Function.update_self] at hv
    cases hv
    rw [hs]
    exact .miss hn hf hd

lemma taskOp_resumes (turns : ℕ) (hchrono : chrono.Lossless) (hl : op.Lossless)
    (h : Cached c w.store) (hu : Untimed c.task) :
    Safe timely (Attempted chrono op c w)
      (fun r t => ∀ a, r.1 = .ok a → Answering chrono op c w a r.2 t)
      ((op.run chrono turns).run c) w := by
  have hfixed : Safe timely (fun t => ∀ s, Kept s w t) (fun r t => Cached r.2 t.store)
      ((op.run chrono turns).run c) w := by
    have hall : ∀ s, Safe timely (Kept s w) (fun r t => CachedAt r.2 t.store s)
        ((op.run chrono turns).run c) w := fun s => taskOp_fixes_timely turns hu w (h s)
    exact Safe.all hall
  have hspared : Safe timely (fun t => ∀ s : {s // s ≠ nextSlot c op.name}, Untouched s w t)
      (fun _ _ => True) ((op.run chrono turns).run c) w := by
    have hall := Safe.all fun s : {s // s ≠ nextSlot c op.name} =>
      (taskOp_spares chrono turns op s.2.symm w).restrict timely_durable
    exact hall.mono (fun _ h => h) fun _ _ _ _ => trivial
  have huntimed : Safe timely (fun _ => True) (fun r _ => Untimed r.2.task)
      ((op.run chrono turns).run c) w := (taskOp_untimed turns hu).restrict timely_durable
  have hmoved : Safe timely (fun _ => True) (fun r _ => Moved op c r)
      ((op.run chrono turns).run c) w := taskOp_moves op turns c w
  have hslot := taskOp_filled turns hchrono hl h hu
  apply ((hfixed.and hspared).and ((huntimed.and hmoved).and hslot)).mono
  · rintro t ⟨⟨hk, ho⟩, -, hf⟩
    exact attempted_of_slot (hk _) (fun s hs => (ho ⟨s, hs⟩).1) hf
  · rintro r t ⟨⟨hk, ho⟩, -, hf⟩ ⟨⟨hc, -⟩, ⟨hut, hm⟩, hfill⟩ a ha
    obtain ⟨v, hv, hd⟩ := hfill a ha
    have hatt := attempted_of_slot (hk _) (fun s hs => (ho ⟨s, hs⟩).1) hf
    exact ⟨answered_of_slot hatt hv hd, hc, hm a ha, hut⟩

end Operation

inductive Returns : Program TaskOp TaskOp.Ans R → List OpVisit → R → Prop
  | done (x : R) : Returns (.done x) [] x
  | next {op : TaskOp} {next : op.Ans → Program TaskOp TaskOp.Ans R} {c d : TaskContext}
      {w t : World} {a : op.Ans} {visits : List OpVisit} {x : R} : Returns (next a) visits x →
      Returns (.call op next) (⟨op, c, w, t, .done (.ok a, d)⟩ :: visits) x

section Performance

variable {p : Program TaskOp TaskOp.Ans R} {op : TaskOp} {c : TaskContext} {w u : World}
  {visits : List OpVisit} {v : OpVisit} {x : R} {chrono : Serde DateTime} {queueName : String}
  {executions : List (List OpVisit)}

lemma propagate_call {k : Result op.Ans → TaskHandler (Result R)} (h : propagate p = .call op k) :
    ∃ next, p = .call op next ∧ (∀ a, k (.ok a) = propagate (next a)) ∧
      ∀ err, k (.error err) = .done (.error err) := by
  cases p with
  | done x =>
    rw [propagate] at h
    cases h
  | call op next =>
    rw [propagate] at h
    cases h
    exact ⟨next, rfl, fun _ => rfl, fun _ => rfl⟩

lemma returns_nothing (h : Returns p [] x) : p = .done x := by
  cases h
  rfl

lemma performs_nothing {env : Env Call Answer World} {r : Result R}
    (h : Performs env chrono (.done r) c w visits u) : visits = [] ∧ u = w := by
  cases h
  exact ⟨rfl, rfl⟩

structure Came (queueName : String) (chrono : Serde DateTime) (p : Program TaskOp TaskOp.Ans R)
    (count : String → ℕ) (visits : List OpVisit) (v : OpVisit) : Prop where
  came : ∃ as next n, as <+: answers visits ∧
    (commitments queueName chrono).Follow p count as (.call v.op next) n ∧
    ((commitments queueName chrono).name n v.op).1 = v.slot

lemma Performs.came {env : Env Call Answer World}
    (h : Performs env chrono (propagate p) c w visits u) (hv : v ∈ visits) :
    Came c.queueName chrono p c.stepNameCounter visits v := by
  generalize hp : propagate p = handler at h
  induction h generalizing p with
  | stop => cases hv
  | @cut op k c w t turns q hr =>
    obtain ⟨next, rfl, -, -⟩ := propagate_call hp
    obtain rfl := List.mem_singleton.mp hv
    exact ⟨[], next, _, List.nil_prefix, .refl _ _, rfl⟩
  | @next op k c d w t u turns r visits hr hrest ih =>
    obtain ⟨next, rfl, hok, herror⟩ := propagate_call hp
    rcases List.mem_cons.mp hv with rfl | hvs
    · exact ⟨[], next, _, List.nil_prefix, .refl _ _, rfl⟩
    · cases r with
      | error err =>
        rw [herror] at hrest
        rw [(performs_nothing hrest).1] at hvs
        cases hvs
      | ok a =>
        obtain ⟨hqueue, hcount⟩ := (taskOp_moves op turns c w).finish hr a rfl
        obtain ⟨as, next', n, hpre, hfollow, hslot⟩ := (ih hvs (hok a).symm).came
        rw [hqueue] at hfollow hslot
        rw [hcount] at hfollow
        exact ⟨_, next', n, List.cons_prefix_cons.mpr ⟨rfl, hpre⟩, .step hfollow, hslot⟩

lemma Returns.follow {env : Env Call Answer World} (h : Returns p visits x)
    (hp : Performs env chrono (propagate p) c w visits u) :
    ∃ n, (commitments c.queueName chrono).Follow p c.stepNameCounter (answers visits) (.done x) n := by
  generalize hq : propagate p = handler at hp
  induction hp generalizing p with
  | stop =>
    cases h
    exact ⟨_, .refl _ _⟩
  | cut hr =>
    cases h with
    | next h => exact ⟨_, .step (.of_eq _ (returns_nothing h))⟩
  | @next op k c d w t u turns r visits hr hrest ih =>
    obtain ⟨next, rfl, hok, -⟩ := propagate_call hq
    cases h with
    | @next _ _ _ _ _ _ a _ _ h =>
      obtain ⟨hqueue, hcount⟩ := (taskOp_moves op turns c w).finish hr a rfl
      obtain ⟨n, hn⟩ := ih h (hok a).symm
      rw [hqueue, hcount] at hn
      exact ⟨n, .step hn⟩

lemma Attempted.filling {t : World} (h : Attempted chrono op c w t)
    (next : op.Ans → Program TaskOp TaskOp.Ans R) :
    (commitments c.queueName chrono).Filling (.call op next) c.stepNameCounter [] w.store t.store := by
  rcases h with hs | ⟨hn, v, hf, hs⟩
  · rw [hs]
    exact .kept
  · rw [hs]
    exact .filled (.refl _ _) hn hf

lemma History.returns (h : History timely chrono queueName Untimed (fun q => q = propagate p)
    executions w) (hv : visits ∈ executions) (hx : Returns p visits x) :
    ∃ n, (commitments queueName chrono).Follow p (fun _ => 0) (answers visits) (.done x) n := by
  induction h with
  | start => cases hv
  | unready _ _ _ ih =>
    rcases List.mem_append.mp hv with hv | hv
    · exact ih hv
    · obtain rfl := List.mem_singleton.mp hv
      exact ⟨_, .of_eq _ (returns_nothing hx)⟩
  | next _ _ hr hhandler hp ih =>
    rcases List.mem_append.mp hv with hv | hv
    · exact ih hv
    · obtain rfl := List.mem_singleton.mp hv
      subst hhandler
      obtain ⟨-, hqueue, hcount, -⟩ := (taskContext_safe _ _ _ _ _).finish (hr.mono timely_durable) _
        rfl
      have hfollow := hx.follow hp
      rw [hqueue, hcount] at hfollow
      exact hfollow
  | emitted _ _ _ _ _ ih => exact ih hv

lemma Performs.attempt (h : Performs timely chrono (propagate p) c w visits u)
    (hchrono : chrono.Lossless) (hl : p.Calls TaskOp.Lossless) (hc : Cached c w.store)
    (hu : Untimed c.task) :
    ∃ σ, (commitments c.queueName chrono).Attempt p c.stepNameCounter w.store (answers visits) none σ ∧
      (commitments c.queueName chrono).Filling p c.stepNameCounter (answers visits) σ u.store := by
  generalize hp : propagate p = handler at h
  induction h generalizing p with
  | stop => exact ⟨_, .stop _ _ _, .kept⟩
  | @cut op k c w t turns q hr =>
    obtain ⟨next, rfl, -, -⟩ := propagate_call hp
    have hsafe := taskOp_resumes turns hchrono hl.1 hc hu
    have hfill := (hsafe.cut hr).filling next
    cases q with
    | call => exact ⟨w.store, .stop _ _ _, hfill⟩
    | done r =>
      obtain ⟨err | a, d⟩ := r
      · exact ⟨w.store, .stop _ _ _, hfill⟩
      · exact ⟨t.store, .answer (hsafe.finish hr a rfl).answered (.stop _ _ _), .kept⟩
  | @next op k c d w t u turns r visits hr hrest ih =>
    obtain ⟨next, rfl, hok, herror⟩ := propagate_call hp
    have hsafe := taskOp_resumes turns hchrono hl.1 hc hu
    cases r with
    | error err =>
      rw [herror] at hrest
      obtain ⟨rfl, rfl⟩ := performs_nothing hrest
      exact ⟨w.store, .stop _ _ _, (hsafe.cut hr).filling next⟩
    | ok a =>
      obtain ⟨ha, hd, ⟨hqueue, hcount⟩, hud⟩ := hsafe.finish hr a rfl
      obtain ⟨σ, hatt, hfill⟩ := ih (hl.2 a) hd hud (hok a).symm
      rw [hqueue, hcount] at hatt hfill
      exact ⟨σ, .answer ha hatt, hfill.step⟩

lemma History.came (h : History timely chrono queueName Untimed (fun q => q = propagate p) executions w)
    (hv : v ∈ executions.flatten) :
    ∃ visits ∈ executions, Came queueName chrono p (fun _ => 0) visits v := by
  induction h with
  | start => cases hv
  | unready _ _ _ ih =>
    simp only [List.flatten_append, List.flatten_singleton, List.append_nil] at hv
    obtain ⟨visits, hmem, hcame⟩ := ih hv
    exact ⟨visits, List.mem_append_left _ hmem, hcame⟩
  | @next executions w t u task _ _ c visits handler _ _ hr hhandler hp ih =>
    simp only [List.flatten_append, List.flatten_singleton] at hv
    rcases List.mem_append.mp hv with hv | hv
    · obtain ⟨visits, hmem, hcame⟩ := ih hv
      exact ⟨visits, List.mem_append_left _ hmem, hcame⟩
    · subst hhandler
      obtain ⟨-, hqueue, hcount, -⟩ := (taskContext_safe _ _ _ _ _).finish (hr.mono timely_durable) c
        rfl
      have hcame := hp.came hv
      rw [hqueue, hcount] at hcame
      exact ⟨visits, by simp, hcame⟩
  | emitted _ _ _ _ _ ih => exact ih hv

lemma History.course (hchrono : chrono.Lossless) (hl : p.Calls TaskOp.Lossless)
    (h : History timely chrono queueName Untimed (fun q => q = propagate p) executions w) :
    (commitments queueName chrono).Course p (fun _ => 0) (fun _ => none)
      (executions.map fun visits => (answers visits, none)) w.store := by
  induction h with
  | start => exact .start
  | unready _ _ hr ih =>
    rw [List.map_append, (taskContext_safe _ _ _ _ _).cut (hr.mono timely_durable)]
    exact .next ih (.stop _ _ _)
  | @next executions w t u task _ _ c visits handler _ hu hr hhandler hp ih =>
    subst hhandler
    have hnew := hr.mono timely_durable
    obtain ⟨hc, hqueue, hcount, htask⟩ := (taskContext_safe _ _ _ _ _).finish hnew c rfl
    have huc : Untimed c.task := by
      rw [htask]
      exact hu
    obtain ⟨σ, hatt, hfill⟩ := hp.attempt hchrono hl hc huc
    rw [hqueue, hcount] at hatt hfill
    rw [(taskContext_safe _ _ _ _ _).cut hnew] at hatt
    rw [List.map_append]
    have hmem : (answers visits, none) ∈
        [visits].map fun visits => (answers visits, (none : Option R)) :=
      List.mem_singleton_self _
    exact .left (.next ih hatt) (List.mem_append_right _ hmem) List.prefix_rfl hfill
  | @emitted executions w v payload h hv hwait hn ih =>
    obtain ⟨visits, hmem, as, next, n, hpre, hfollow, hslot⟩ := h.came hv
    have hfresh : (commitments queueName chrono).fresh v.op payload := by
      cases hop : v.op with
      | awaitEvent => trivial
      | _ => simp [TaskOp.IsWait, hop] at hwait
    rw [← hslot] at hn ⊢
    exact .left ih (List.mem_map_of_mem hmem) hpre (.filled hfollow hn hfresh)

lemma Visited.quiet (hv : ∀ s, Visited timely chrono s v) (hu : Untimed v.context.task)
    (hl : v.op.Lossless) (hs : v.before.store v.slot ≠ none) :
    Grew (fun call => ¬ v.Works call) v.before v.after := by
  obtain ⟨turns, hrun⟩ := (hv v.slot).run
  have hcached : Cached v.context v.before.store := fun s => (hv s).cached
  obtain ⟨op, c, w, t, q⟩ := v
  have hreplayed : ∀ rop : ReplayOp, rop.Lossless → w.store (nextSlot c rop.name) ≠ none →
      ∀ q, Run timely ((rop.run turns).run c) w q t → Grew (fun call => ¬ IsWork call) w t := by
    intro rop hrop hs q hrun
    exact ((operation_underway rop turns hcached hrop).cut (hrun.mono timely_durable)).2 hs
  have hslept : ∀ op : TaskOp, op.IsSleep → w.store (nextSlot c op.name) ≠ none →
      ∀ q, Run timely ((op.run chrono turns).run c) w q t →
        Grew (fun call => ¬¬ Leaves (nextSlot c op.name) call) w t := by
    intro op hop hs q hrun
    obtain ⟨j, hj⟩ := Option.ne_none_iff_exists'.mp hs
    obtain ⟨wake, hwake⟩ : ∃ wake, ∀ x, chrono.fromValue j = .ok x → x = wake := by
      cases chrono.fromValue j with
      | error text => exact ⟨.ofMicros 0, by rintro x ⟨⟩⟩
      | ok wake => exact ⟨wake, fun x hx => (Except.ok.inj hx).symm⟩
    have hasleep := (sleepOp_dozes hop turns rfl (hcached _) hj hwake).cut (hrun.mono timely_durable)
    have hleaves : Grew (Leaves (nextSlot c op.name)) w t := by
      cases hasleep with
      | unread h => exact h.grew
      | read h => exact h.grew
      | scheduled _ h => exact h.grew
    exact hleaves.mono fun _ => not_not_intro
  cases op with
  | replays op => exact hreplayed op hl hs q hrun
  | sleepFor name duration => exact hslept (.sleepFor name duration) trivial hs q hrun
  | sleepUntil name wakeAt => exact hslept (.sleepUntil name wakeAt) trivial hs q hrun
  | awaitEvent serde eventName options =>
    cases hblank : isBlank eventName with
    | true =>
      dsimp only at hrun
      rw [TaskOp.run, TaskContext.awaitEventWithOptions, if_pos hblank] at hrun
      cases hrun
      exact .refl _ _
    | false =>
      exact ((awaitEvent_waits serde options hblank hu (hcached _) rfl).cut hrun).quiet hs

/-- Suspended, cut and resumed in any way, the executions of a task get the same answers as far as
they come, and do no work for a filled slot. The one that returns tells what every execution
returns, and has run as the handler runs uninterrupted, with the same checkpoints. -/
theorem executions_resume (hchrono : chrono.Lossless) (hl : p.Calls TaskOp.Lossless)
    (h : History timely chrono queueName Untimed (fun q => q = propagate p) executions w) :
    (∀ visits ∈ executions, ∀ visits' ∈ executions,
      answers visits <+: answers visits' ∨ answers visits' <+: answers visits) ∧
    (∀ v ∈ executions.flatten, v.before.store v.slot ≠ none →
      Grew (fun call => ¬ v.Works call) v.before v.after) ∧
    ∀ visits ∈ executions, ∀ x, Returns p visits x →
      (∀ visits' ∈ executions, answers visits' <+: answers visits ∧
        ∀ x', Returns p visits' x' → x' = x) ∧
      ∃ n, (commitments queueName chrono).Path p (fun _ => 0) (fun _ => none) (answers visits)
        (.done x) n w.store := by
  obtain ⟨cs, p', n', memo, hpath, hstand, hall⟩ := (h.course hchrono hl).path
  have hpart : ∀ visits ∈ executions, answers visits <+: cs := fun visits hmem =>
    (hall _ (List.mem_map_of_mem hmem)).1
  have hreturns : ∀ visits ∈ executions, ∀ x, Returns p visits x →
      answers visits = cs ∧ p' = .done x := by
    intro visits hmem x hx
    obtain ⟨n, hn⟩ := h.returns hmem hx
    exact hn.ends hpath.leads (hpart visits hmem)
  refine ⟨?_, ?_, ?_⟩
  · intro visits hmem visits' hmem'
    exact List.prefix_or_prefix_of_prefix (hpart visits hmem) (hpart visits' hmem')
  · intro v hmem hs
    have hu := h.untimed fun _ hu => hu
    have hfixes : ∀ s, ∀ v ∈ executions.flatten, ∀ turns,
        Fixes timely s (v.op.run chrono turns) v.context :=
      fun s v hmem turns => taskOp_fixes_timely turns (hu v hmem)
    obtain ⟨visits, -, as, next, n, -, hfollow, -⟩ := h.came hmem
    exact Visited.quiet (fun s => (h.ordered timely_durable (hfixes s)).2 v hmem) (hu v hmem)
      (hfollow.calls hl).1 hs
  · intro visits hmem x hx
    obtain ⟨rfl, rfl⟩ := hreturns visits hmem x hx
    refine ⟨?_, n', ?_⟩
    · intro visits' hmem'
      refine ⟨hpart visits' hmem', ?_⟩
      intro x' hx'
      obtain ⟨-, hdone⟩ := hreturns visits' hmem' x' hx'
      cases hdone
      rfl
    · cases hstand
      exact hpath

end Performance

section Sample

variable {c d : TaskContext} {w t : World}

lemma wait_performs {event : String} (next : Json → Program TaskOp TaskOp.Ans R) {r : Result Json}
    {visits : List OpVisit} {u : World}
    (h : Run timely (((sampleWait event).run sampleChrono 0).run c) w (.done (r, d)) t)
    (hrest : ∀ err, r = .error err → visits = [] ∧ u = t)
    (hnext : ∀ a, r = .ok a → Performs timely sampleChrono (propagate (next a)) d t visits u) :
    Performs timely sampleChrono (propagate (.call (sampleWait event) next)) c w
      (⟨sampleWait event, c, w, t, .done (r, d)⟩ :: visits) u := by
  unfold propagate
  refine .next h ?_
  cases r with
  | error err =>
    obtain ⟨rfl, rfl⟩ := hrest err rfl
    exact .stop _ _ _
  | ok a => exact hnext a rfl

lemma paid_slot (σ : Store) : nextSlot (freshContext "default" sampleTask (Duration.fromSecs 120) true
    σ) (sampleWait "paid").name = "$awaitEvent:paid" := by
  have hname : numbered (sampleWait "paid").name (0 + 1) = "$awaitEvent:paid" := by decide
  exact hname

lemma sample_emitted (next : Json → Program TaskOp TaskOp.Ans R) : ∃ (v : OpVisit) (w : World),
    History timely sampleChrono "default" Untimed
        (fun q => q = propagate (.call (sampleWait "paid") next)) [[v]] w ∧
      v.op = sampleWait "paid" ∧ v.slot = "$awaitEvent:paid" ∧
      v.result = some (.error .suspended) ∧
      ∀ name x, (name, x) ∈ [("$awaitEvent:paid", Json.bool true)] ↔ w.store name = some x := by
  have hpaid : isBlank "paid" = false := by decide
  have huntimed : Untimed sampleTask := by
    intro event he
    cases he
  obtain ⟨r, t, hnew, ht, rfl⟩ := (timely_context sampleTask rfl no_rows).exists_run
  obtain ⟨⟨r, d⟩, u, hwait, rfl, hu⟩ := (sampleWait_suspends (w := t) hpaid
    (c := freshContext "default" sampleTask (Duration.fromSecs 120) true World.empty.store)
    (fun _ => rfl) (fun name => congrFun ht name) (by simp [freshContext, sampleTask])).exists_run
  have hfirst : History timely sampleChrono "default" Untimed
      (fun q => q = propagate (.call (sampleWait "paid") next)) _ u :=
    .next .start huntimed hnew rfl (wait_performs next hwait (fun _ _ => ⟨rfl, rfl⟩) (by rintro a ⟨⟩))
  have hnone : u.store (nextSlot (freshContext "default" sampleTask (Duration.fromSecs 120) true
      World.empty.store) (sampleWait "paid").name) = none := congrFun (hu.trans ht) _
  have hemitted := History.emitted (v := ⟨sampleWait "paid", _, t, u, .done (.error .suspended, d)⟩)
    (.bool true) hfirst List.mem_cons_self hpaid hnone
  refine ⟨_, _, hemitted, rfl, paid_slot _, rfl, ?_⟩
  intro name x
  simp only [OpVisit.slot, paid_slot, hu.trans ht]
  by_cases h : name = "$awaitEvent:paid"
  · simp [h, eq_comm]
  · simp [h, World.empty]

def sampleAwaiter : Program TaskOp TaskOp.Ans Json := .call (sampleWait "paid") .done

theorem executions_resume_sample : ∃ (v v' : OpVisit) (w : World),
    History timely sampleChrono "default" Untimed (fun q => q = propagate sampleAwaiter)
        [[v], [v']] w ∧
      v.result = some (.error .suspended) ∧ Returns sampleAwaiter [v'] (.bool true) ∧
      ∃ n, (commitments "default" sampleChrono).Path sampleAwaiter (fun _ => 0) (fun _ => none)
        (answers [v']) (.done (.bool true)) n w.store := by
  have huntimed : Untimed sampleTask := by
    intro event he
    cases he
  obtain ⟨v, w, hemitted, -, -, hsuspended, hrows⟩ := sample_emitted (R := Json) .done
  have hpaid : w.store "$awaitEvent:paid" = some (.bool true) :=
    (hrows _ _).mp (List.mem_singleton_self _)
  obtain ⟨r, t, hnew, -, rfl⟩ := (timely_context sampleTask rfl hrows).exists_run
  obtain ⟨⟨r, d⟩, u, hwait, rfl⟩ := (sampleWait_rehands (w := t)
    (c := freshContext "default" sampleTask (Duration.fromSecs 120) true w.store) hpaid
    rfl).exists_run
  have hsecond := History.next hemitted huntimed hnew rfl
    (wait_performs _ hwait (by rintro err ⟨⟩) fun a _ => .stop _ _ _)
  have hreturns : ∀ c, Returns sampleAwaiter
      [⟨sampleWait "paid", c, t, u, .done (.ok (.bool true), d)⟩] (.bool true) :=
    fun _ => .next (.done _)
  have hl : sampleAwaiter.Calls TaskOp.Lossless := ⟨trivial, fun _ => trivial⟩
  have hpath := (executions_resume sampleChrono_lossless hl hsecond).2.2 _
    (List.mem_append_right _ (List.mem_singleton_self _)) _ (hreturns _)
  exact ⟨v, _, _, hsecond, hsuspended, hreturns _, hpath.2⟩

end Sample

end AbsurdSdk.Durability
