import AbsurdSdk.Durability.Faultless
import AbsurdSdk.Waiting.Schedule

namespace AbsurdSdk.Waiting

open Interaction Model Durability

/-- `polls` counts the replies that were not terminal. -/
structure Vigil where
  now : ℕ
  renewedAt : ℕ
  polls : ℕ

def Vigil.age (w : Vigil) : ℕ := w.now - w.renewedAt

def unsettled : Except PgError (Option (String × Option Json × Option Json)) → Bool
  | .ok (some (state, result, failure)) =>
    match TaskResultSnapshot.fromSqlParts state result failure with
    | .ok snapshot => !snapshot.isTerminal
    | .error _ => false
  | _ => false

/-- A sleep lasts as long as it was asked for, and no other call takes time. -/
def punctual : Env Call Answer Vigil := fun w call r w' =>
  match call, r with
  | .now, (r : ℕ) => r = w.now ∧ w' = w
  | .sleep d, _ => w' = { w with now := w.now + d.nanos }
  | .query (.extendClaim _ _ _), .ok _ => w' = { w with renewedAt := w.now }
  | .query (.getTaskResult _ _), r =>
    w' = if unsettled r then { w with polls := w.polls + 1 } else w
  | _, _ => w' = w

def Still : Call → Prop
  | .sleep _ | .query (.extendClaim _ _ _) | .query (.getTaskResult _ _) => False
  | _ => True

lemma Still.step {call : Call} {r : Answer call} {w w' : Vigil} (h : Still call)
    (hw : punctual w call r w') : w' = w := by
  rcases call with _ | ⟨statement⟩ | _ | _ | _ | _ | _ | _ | _
  case query =>
    cases statement with
    | extendClaim | getTaskResult => exact h.elim
    | _ => exact hw
  case now => exact hw.2
  case sleep => exact h.elim
  all_goals exact hw

lemma still_safe {α : Type} {p : Process α} {inv : Vigil → Prop} {w : Vigil} (hp : p.Calls Still)
    (hw : inv w) : Safe punctual (fun t => t = w ∧ inv t) (fun _ _ => True) p w := by
  apply Safe.of_calls hp ⟨rfl, hw⟩
  rintro s call r t hcall ⟨rfl, hs⟩ ht
  obtain rfl := hcall.step ht
  exact ⟨rfl, hs⟩

section Turns

variable {claimTimeout age n k : ℕ} {timeout : Option Duration} {w : Vigil} {taskId : Uuid}

def Held (claimTimeout n : ℕ) (w : Vigil) : Prop := w.polls ≤ n → w.age < claimTimeout

structure Stage (interval age : ℕ) (timeout : Option Duration) (k : ℕ) (w : Vigil) : Prop where
  polls : w.polls = k
  now : w.now = age + capped timeout (backoffSum k)
  renewed : w.renewedAt = if lastBeat interval k = 0 then 0 else age + lastBeat interval k

lemma Stage.first (interval age : ℕ) (timeout : Option Duration) :
    Stage interval age timeout 0 ⟨age, 0, 0⟩ := by
  refine ⟨rfl, ?_, rfl⟩
  rw [backoffSum_early.1, Nat.le_zero.mp (capped_le _ 0)]
  rfl

lemma Held.polled (h : Held claimTimeout n w) : Held claimTimeout n { w with polls := w.polls + 1 } :=
  fun hn => h ((Nat.le_succ _).trans hn)

lemma fetch_safe (queueName : String) (h : Held claimTimeout n w) :
    Safe punctual (Held claimTimeout n)
      (fun r t => ∀ snapshot, r = .ok (some snapshot) → snapshot.isTerminal = false →
        t = { w with polls := w.polls + 1 })
      (fetchTaskResultSnapshot queueName taskId).run w := by
  rw [fetchTaskResultSnapshot, safe_async_bind]
  apply safe_query h
  · intro r t ht
    obtain rfl : t = w := ht
    exact ⟨h, fun err _ => ⟨h, by simp⟩⟩
  · intro t ht r u hu
    obtain rfl : t = w := ht
    have hheld : Held claimTimeout n u := by
      rw [show u = _ from hu]
      split
      · exact h.polled
      · exact h
    rcases r with err | _ | ⟨state, result, failure⟩
    · exact ⟨hheld, hheld, by simp⟩
    · exact ⟨hheld, hheld, by simp⟩
    · refine ⟨hheld, ?_⟩
      simp only [Except.mapError, safe_async_bind, safe_ofResult]
      refine ⟨hheld, ?_⟩
      cases hparts : TaskResultSnapshot.fromSqlParts state result failure with
      | error err => exact ⟨hheld, by simp⟩
      | ok snapshot =>
        refine ⟨hheld, ?_⟩
        rintro _ ⟨⟩ hopen
        rw [show u = _ from hu]
        simp [unsettled, hparts, hopen]

lemma nextSleepDuration_safe {startedAt : ℕ} (hw : Held claimTimeout n w)
    (hnow : w.now = startedAt + capped timeout (backoffSum k)) :
    Safe punctual (Held claimTimeout n)
      (fun r t => t = w ∧ ∀ d, r = .ok d → Open timeout k ∧
        backoffSum k + d.nanos = capped timeout (backoffSum (k + 1)))
      (nextSleepDuration startedAt timeout (backoff k) taskId).run w := by
  have hsucc := backoffSum_succ k
  cases timeout with
  | none =>
    refine ⟨hw, rfl, ?_⟩
    rintro d ⟨⟩
    exact ⟨nofun, hsucc.symm⟩
  | some limit =>
    rw [nextSleepDuration, safe_async_bind, safe_now]
    refine ⟨hw, ?_⟩
    rintro r t ⟨rfl, rfl⟩
    refine ⟨hw, ?_⟩
    have helapsed : (Duration.ofNanos (t.now - startedAt)).nanos =
        min (t.now - startedAt) (2 ^ 64 * nanosPerSecond - 1) := rfl
    have hbounded := limit.bounded
    simp only [capped] at hnow
    dsimp only
    split
    · exact ⟨hw, rfl, by simp⟩
    · refine ⟨hw, rfl, ?_⟩
      rintro d ⟨⟩
      constructor
      · rintro _ ⟨⟩
        omega
      · rw [Duration.min_nanos, Duration.sub_nanos]
        simp only [capped]
        omega

lemma Held.renewed (hpos : 0 < claimTimeout) (w : Vigil) :
    Held claimTimeout n { w with renewedAt := w.now } := by
  intro _
  simpa [Vigil.age] using hpos

lemma extendClaim_safe (queueName : String) (runId : Uuid) (duration : Duration)
    (hpos : 0 < claimTimeout) (hw : Held claimTimeout n w) :
    Safe punctual (Held claimTimeout n)
      (fun r t => ∀ x, r = .ok x → t = { w with renewedAt := w.now })
      (extendClaim queueName runId duration).run w := by
  rw [extendClaim]
  apply safe_query hw
  · intro r t ht
    obtain rfl : t = w := ht
    exact ⟨hw, by simp⟩
  · intro t ht r u hu
    obtain rfl : t = w := ht
    cases r with
    | error err =>
      obtain rfl : u = t := hu
      exact ⟨hw, by simp [Except.mapError]⟩
    | ok _ =>
      obtain rfl : u = { t with renewedAt := t.now } := hu
      exact ⟨.renewed hpos t, fun _ _ => rfl⟩

lemma heartbeatBeforeSleep_safe {c : TaskContext} {interval : Duration} {next : ℕ}
    (hpos : 0 < claimTimeout) (hw : Held claimTimeout n w) :
    Safe punctual (Held claimTimeout n)
      (fun r t => ∀ next', r = .ok next' → if next ≤ w.now then
        t = { w with renewedAt := w.now } ∧ next' = w.now + interval.nanos
      else
        t = w ∧ next' = next)
      (TaskContext.heartbeatBeforeSleep c interval next).run w := by
  rw [TaskContext.heartbeatBeforeSleep, safe_async_bind, safe_now]
  refine ⟨hw, ?_⟩
  rintro r t ⟨rfl, rfl⟩
  refine ⟨hw, ?_⟩
  by_cases hnext : next ≤ t.now
  · simp only [hnext, if_true]
    rw [safe_async_bind, safe_now]
    refine ⟨hw, ?_⟩
    rintro r u ⟨rfl, rfl⟩
    refine ⟨hw, ?_⟩
    dsimp only
    rw [safe_async_bind]
    apply (extendClaim_safe c.queueName c.task.runId c.claimTimeout hpos hw).mono (fun _ hv => hv)
    rintro (err | x) v hv hext
    · exact ⟨hv, by simp⟩
    · obtain rfl := hext x rfl
      dsimp only
      split
      · rw [safe_async_bind, safe_sendLease]
        refine ⟨hv, ?_⟩
        intro r y hy
        obtain rfl : y = { u with renewedAt := u.now } := hy
        refine ⟨hv, hv, ?_⟩
        rintro next' ⟨⟩
        exact ⟨rfl, rfl⟩
      · refine ⟨hv, ?_⟩
        rintro next' ⟨⟩
        exact ⟨rfl, rfl⟩
  · simp only [hnext, if_false]
    refine ⟨hw, ?_⟩
    rintro next' ⟨⟩
    exact ⟨rfl, rfl⟩

lemma Stage.age_eq {interval : ℕ} (h : Stage interval age timeout (k + 1) w) :
    w.age = ageAfter interval age timeout k := by
  rw [Vigil.age, h.now, h.renewed, ageAfter]
  split
  · omega
  · omega

lemma Stage.beat {v : Vigil} {interval next : ℕ} (h : Stage interval age timeout k w)
    (hopen : Open timeout k) (hpos : 500000000 ≤ interval)
    (hbeat : if age + lastBeat interval k + interval ≤ w.now then
        v = { w with polls := w.polls + 1, renewedAt := w.now } ∧ next = w.now + interval
      else
        v = { w with polls := w.polls + 1 } ∧ next = age + lastBeat interval k + interval) :
    v.now = w.now ∧ v.polls = k + 1 ∧
      (v.renewedAt = if lastBeat interval (k + 1) = 0 then 0 else
        age + lastBeat interval (k + 1)) ∧
      next = age + lastBeat interval (k + 1) + interval := by
  have hnow := h.now
  rw [hopen.capped] at hnow
  by_cases hdue : lastBeat interval k + interval ≤ backoffSum k
  · rw [if_pos (by omega)] at hbeat
    obtain ⟨rfl, rfl⟩ := hbeat
    rw [lastBeat, if_pos hdue, if_neg (by omega), h.polls]
    exact ⟨rfl, rfl, hnow, by omega⟩
  · rw [if_neg (by omega)] at hbeat
    obtain ⟨rfl, rfl⟩ := hbeat
    rw [lastBeat, if_neg hdue, h.polls]
    exact ⟨rfl, rfl, h.renewed, rfl⟩

lemma backoffLoop_safe {c : TaskContext} {interval : Duration} {queueName : String} {turns : ℕ}
    (halive : Alive claimTimeout age timeout n)
    (hinterval : interval.nanos = heartbeatInterval claimTimeout)
    (hstage : Stage interval.nanos age timeout k w) (hw : Held claimTimeout n w) :
    Safe punctual (Held claimTimeout n) (fun _ _ => True)
      (backoffLoop (fetchTaskResultSnapshot queueName taskId) taskId timeout
        (TaskContext.heartbeatBeforeSleep c interval) age turns (backoff k)
        (age + lastBeat interval.nanos k + interval.nanos)).run w := by
  induction turns generalizing k w with
  | zero => exact safe_hang.mpr hw
  | succ turns ih =>
    rw [backoffLoop, safe_async_bind]
    apply (fetch_safe queueName hw).mono (fun _ ht => ht)
    rintro (err | _ | snapshot) t ht hreply
    · exact ⟨ht, trivial⟩
    · exact ⟨ht, trivial⟩
    · dsimp only
      cases hterminal : snapshot.isTerminal with
      | true => exact ⟨ht, trivial⟩
      | false =>
        obtain rfl := hreply snapshot rfl hterminal
        simp only [if_false, Bool.false_eq_true]
        rw [safe_async_bind]
        apply (nextSleepDuration_safe ht hstage.now).mono (fun _ hu => hu)
        rintro (err | sleepFor) u hu ⟨rfl, hsleep⟩
        · exact ⟨hu, trivial⟩
        · obtain ⟨hopen, hnext⟩ := hsleep sleepFor rfl
          dsimp only
          rw [safe_async_bind]
          have hpos : 0 < claimTimeout := Nat.lt_of_le_of_lt (Nat.zero_le _) halive.1
          apply (heartbeatBeforeSleep_safe hpos hu).mono (fun _ hv => hv)
          rintro (err | next) v hv hbeat
          · exact ⟨hv, trivial⟩
          · obtain ⟨hsame, hpolls, hrenewed, rfl⟩ := hstage.beat hopen
              (hinterval ▸ le_heartbeatInterval claimTimeout) (hbeat next rfl)
            simp only [safe_async_bind, safe_sleep]
            refine ⟨hv, ?_⟩
            intro r x hx
            obtain rfl : x = { v with now := v.now + sleepFor.nanos } := hx
            have hstage' : Stage interval.nanos age timeout (k + 1)
                { v with now := v.now + sleepFor.nanos } := by
              refine ⟨hpolls, ?_, hrenewed⟩
              have hnow := hstage.now
              rw [hopen.capped] at hnow
              dsimp only
              omega
            have hheld : Held claimTimeout n { v with now := v.now + sleepFor.nanos } := by
              intro hn
              rw [hstage'.age_eq, hinterval]
              apply halive.2 k _ hopen
              dsimp only at hn
              omega
            refine ⟨hheld, ?_⟩
            rw [← backoff_succ]
            exact ih hstage' hheld

end Turns

section Wait

variable {c : TaskContext} {age n : ℕ} {taskId : Uuid} {options : AwaitTaskResultOptions}

lemma lookupCheckpoint_still (name : String) :
    ((TaskContext.lookupCheckpoint name).run c).Calls Still :=
  calls_lookupCheckpoint trivial fun _ _ => trivial

lemma persistCheckpoint_still (name : String) (value : Json) :
    ((TaskContext.persistCheckpoint name value).run c).Calls Still :=
  calls_persistCheckpoint trivial (fun _ _ _ _ => trivial) fun _ => trivial

lemma saved_still (slot : String) (snapshot : TaskResultSnapshot) :
    ((saved TaskResultSnapshot.serde slot snapshot).run c).Calls Still := by
  rw [saved]
  apply calls_context_bind
  · exact calls_lift trivial
  · intro value d
    apply calls_context_bind (persistCheckpoint_still slot value)
    exact fun _ _ => trivial

lemma pollTaskResult_held {d : TaskContext} (turns : ℕ) (slot : String)
    (halive : Alive c.claimTimeout.nanos age options.timeout n) :
    Safe punctual (Held c.claimTimeout.nanos n) (fun _ _ => True)
      ((pollTaskResult c turns taskId options slot).run d) ⟨age, 0, 0⟩ := by
  have hstart : Held c.claimTimeout.nanos n ⟨age, 0, 0⟩ := fun _ => halive.1
  have hinterval : (max c.claimTimeout.half (Duration.fromMillis 500)).nanos =
      heartbeatInterval c.claimTimeout.nanos := Duration.max_nanos _ _
  rw [pollTaskResult, safe_context_bind, safe_lift, safe_now]
  refine ⟨hstart, ?_⟩
  rintro r t ⟨hr, rfl⟩
  subst r
  refine ⟨hstart, hstart, ?_⟩
  dsimp only
  rw [safe_context_bind, safe_lift, awaitTaskResultWithBackoff, safe_async_bind, safe_now]
  refine ⟨hstart, ?_⟩
  rintro r t ⟨hr, rfl⟩
  subst r
  refine ⟨hstart, ?_⟩
  apply (backoffLoop_safe halive hinterval (Stage.first _ _ _) hstart).mono (fun _ ht => ht)
  rintro (err | snapshot) t ht -
  · exact ⟨ht, ht, trivial⟩
  · refine ⟨ht, ?_⟩
    exact (still_safe (saved_still slot snapshot) ht).mono (fun _ hu => hu.2) fun _ _ _ _ => trivial

lemma awaitTaskResult_held (turns : ℕ) (halive : Alive c.claimTimeout.nanos age options.timeout n) :
    Safe punctual (Held c.claimTimeout.nanos n) (fun _ _ => True)
      ((TaskContext.awaitTaskResult turns taskId options).run c) ⟨age, 0, 0⟩ := by
  have hstart : Held c.claimTimeout.nanos n ⟨age, 0, 0⟩ := fun _ => halive.1
  by_cases hun : Unwaitable c options
  · obtain ⟨err, herr⟩ := awaitTaskResult_refused turns taskId hun
    rw [herr]
    exact ⟨hstart, trivial⟩
  · rw [awaitTaskResult_run turns taskId hun, safe_context_bind, safe_nextCheckpointName]
    refine ⟨hstart, ?_⟩
    dsimp only
    rw [awaitTaskResultIn, safe_context_bind]
    apply (still_safe (lookupCheckpoint_still _) hstart).mono (fun _ ht => ht.2)
    rintro ⟨err | found, d⟩ t ⟨rfl, -⟩ -
    · exact ⟨hstart, trivial⟩
    · cases found with
      | some cached =>
        dsimp only
        rw [safe_lift, Async.decode, safe_ofResult]
        exact ⟨hstart, hstart, trivial⟩
      | none => exact pollTaskResult_held turns _ halive

end Wait

section Shown

variable {c : TaskContext} {age k : ℕ} {timeout : Option Duration} {w : Vigil} {taskId : Uuid}

lemma fetch_pending (queueName : String) :
    Reaches punctual (fun r t => r = .ok (some .pending) ∧ t = { w with polls := w.polls + 1 })
      (fetchTaskResultSnapshot queueName taskId).run w := by
  rw [fetchTaskResultSnapshot, reaches_async_bind, Async.query, reaches_async_bind]
  refine ⟨.ok (), w, rfl, ?_⟩
  refine ⟨(.ok (some ("pending", none, none)) : Except PgError _), _, rfl, ?_⟩
  exact ⟨rfl, rfl⟩

lemma fetch_refused (queueName : String) :
    Reaches punctual (fun r t => (∃ err, r = .error err) ∧ t = w)
      (fetchTaskResultSnapshot queueName taskId).run w :=
  ⟨.error "pool closed", w, rfl, ⟨_, rfl⟩, rfl⟩

lemma nextSleepDuration_reaches {startedAt : ℕ} (hopen : Open timeout k)
    (hnow : w.now = startedAt + backoffSum k) :
    Reaches punctual (fun r t => t = w ∧ ∃ d, r = .ok d ∧
        backoffSum k + d.nanos = capped timeout (backoffSum (k + 1)))
      (nextSleepDuration startedAt timeout (backoff k) taskId).run w := by
  have hsucc := backoffSum_succ k
  cases timeout with
  | none => exact ⟨rfl, backoff k, rfl, hsucc.symm⟩
  | some limit =>
    have hlimit := hopen limit rfl
    have hbounded := limit.bounded
    rw [nextSleepDuration, reaches_async_bind, reaches_now]
    refine ⟨w.now, w, ⟨rfl, rfl⟩, ?_⟩
    have helapsed : (Duration.ofNanos (w.now - startedAt)).nanos =
        min (w.now - startedAt) (2 ^ 64 * nanosPerSecond - 1) := rfl
    dsimp only
    rw [if_neg (by omega)]
    refine ⟨rfl, _, rfl, ?_⟩
    rw [Duration.min_nanos, Duration.sub_nanos]
    simp only [capped]
    omega

lemma heartbeatBeforeSleep_reaches {interval : Duration} {next : ℕ} :
    Reaches punctual (fun r t => ∃ next', r = .ok next' ∧ if next ≤ w.now then
        t = { w with renewedAt := w.now } ∧ next' = w.now + interval.nanos
      else
        t = w ∧ next' = next)
      (TaskContext.heartbeatBeforeSleep c interval next).run w := by
  rw [TaskContext.heartbeatBeforeSleep, reaches_async_bind, reaches_now]
  refine ⟨w.now, w, ⟨rfl, rfl⟩, ?_⟩
  dsimp only
  by_cases hnext : next ≤ w.now
  · simp only [hnext, if_true]
    rw [reaches_async_bind, reaches_now]
    refine ⟨w.now, w, ⟨rfl, rfl⟩, ?_⟩
    dsimp only
    rw [reaches_async_bind, extendClaim, Async.query, reaches_async_bind]
    refine ⟨.ok (), w, rfl, ?_⟩
    refine ⟨(.ok () : Except PgError Unit), { w with renewedAt := w.now }, rfl, ?_⟩
    dsimp only [Except.mapError]
    split
    · exact ⟨(), _, rfl, _, rfl, rfl, rfl⟩
    · exact ⟨_, rfl, rfl, rfl⟩
  · simp only [hnext, if_false]
    exact ⟨next, rfl, rfl, rfl⟩

lemma backoffLoop_reaches {interval : Duration} {queueName : String} {m j : ℕ}
    (hpos : 500000000 ≤ interval.nanos) (hopen : ∀ i < j + m, Open timeout i)
    (hstage : Stage interval.nanos age timeout j w) :
    Reaches punctual (fun r t => (∃ err, r = .error err) ∧ Stage interval.nanos age timeout (j + m) t)
      (backoffLoop (fetchTaskResultSnapshot queueName taskId) taskId timeout
        (TaskContext.heartbeatBeforeSleep c interval) age (m + 1) (backoff j)
        (age + lastBeat interval.nanos j + interval.nanos)).run w := by
  induction m generalizing j w with
  | zero =>
    rw [backoffLoop, reaches_async_bind]
    apply (fetch_refused queueName).mono
    rintro r t ⟨⟨err, rfl⟩, rfl⟩
    exact ⟨⟨err, rfl⟩, hstage⟩
  | succ m ih =>
    have hj : Open timeout j := hopen j (by omega)
    have hnow := hstage.now
    rw [hj.capped] at hnow
    rw [backoffLoop, reaches_async_bind]
    apply (fetch_pending queueName).mono
    rintro r t ⟨rfl, rfl⟩
    dsimp only
    rw [if_neg (by decide), reaches_async_bind]
    apply (nextSleepDuration_reaches hj (by exact hnow)).mono
    rintro r t ⟨rfl, d, rfl, hd⟩
    dsimp only
    rw [reaches_async_bind]
    apply heartbeatBeforeSleep_reaches.mono
    rintro r v ⟨next, rfl, hbeat⟩
    obtain ⟨hsame, hpolls, hrenewed, rfl⟩ := hstage.beat hj hpos hbeat
    rw [← backoff_succ]
    have hstage' : Stage interval.nanos age timeout (j + 1)
        { v with now := v.now + d.nanos } := by
      refine ⟨hpolls, ?_, hrenewed⟩
      dsimp only
      omega
    refine ⟨(), _, rfl, ?_⟩
    have hrest := ih (fun i hi => hopen i (by omega)) hstage'
    rw [show j + (m + 1) = j + 1 + m by omega]
    exact hrest

lemma lookupCheckpoint_misses {name : String} {d : TaskContext} (h : d.checkpointCache name = none) :
    Reaches punctual (fun r t => r = (.ok none, d) ∧ t = w)
      ((TaskContext.lookupCheckpoint name).run d) w := by
  rw [TaskContext.lookupCheckpoint, reaches_context_bind, reaches_context]
  dsimp only
  rw [h, reaches_context_bind, reaches_lift, Async.query, reaches_async_bind]
  exact ⟨.ok (), w, rfl, (.ok none : Except PgError _), w, rfl, rfl, rfl⟩

lemma awaitTaskResult_reaches (claimTimeout : Duration) (age : ℕ) (taskId : Uuid)
    (hopen : ∀ i < k, Open timeout i) :
    ∃ c options, c.claimTimeout = claimTimeout ∧ options.timeout = timeout ∧
      Reaches punctual (fun _ t => Stage (heartbeatInterval claimTimeout.nanos) age timeout k t)
        ((TaskContext.awaitTaskResult (k + 1) taskId options).run c) ⟨age, 0, 0⟩ := by
  refine ⟨freshContext "default" sampleTask claimTimeout true fun _ => none,
    ⟨some "other", timeout, none⟩, rfl, rfl, ?_⟩
  have hinterval : (max claimTimeout.half (Duration.fromMillis 500)).nanos =
      heartbeatInterval claimTimeout.nanos := Duration.max_nanos _ _
  rw [TaskContext.awaitTaskResult, reaches_context_bind, reaches_context]
  dsimp only
  rw [reaches_context_bind, reaches_lift, reaches_ofResult]
  have hname : validateQueueName "other" = .ok () := by decide
  simp only [Option.getD_some, hname]
  rw [if_neg (by simp [freshContext]), reaches_context_bind, reaches_nextCheckpointName]
  dsimp only
  rw [reaches_context_bind]
  refine (lookupCheckpoint_misses rfl).mono ?_
  rintro r t ⟨rfl, rfl⟩
  dsimp only
  rw [reaches_context_bind, reaches_lift, reaches_now]
  refine ⟨age, _, ⟨rfl, rfl⟩, ?_⟩
  dsimp only
  rw [reaches_context_bind, reaches_lift, awaitTaskResultWithBackoff, reaches_async_bind, reaches_now]
  refine ⟨age, _, ⟨rfl, rfl⟩, ?_⟩
  have hpos := hinterval ▸ le_heartbeatInterval claimTimeout.nanos
  have hstage := Stage.first (max claimTimeout.half (Duration.fromMillis 500)).nanos age timeout
  refine (backoffLoop_reaches hpos (by simpa using hopen) hstage).mono ?_
  rintro r t ⟨⟨err, rfl⟩, ht⟩
  rw [hinterval, Nat.zero_add] at ht
  exact ht

end Shown

section Claim

variable {claimTimeout : Duration} {timeout : Option Duration} {age n : ℕ}

/-- A wait on a claim renewed `age` before it keeps the claim younger than its timeout in all its
runs with at most `n` replies that are not terminal exactly when it does until its first heartbeat
and, with a claim timeout of at most a second, until its end after the last heartbeat in time. -/
theorem claim_kept_alive_iff : (∀ (c : TaskContext) (taskId : Uuid)
      (options : AwaitTaskResultOptions) (turns : ℕ)
      (q : Process (Result TaskResultSnapshot × TaskContext)) (w : Vigil),
      c.claimTimeout = claimTimeout → options.timeout = timeout →
      Run punctual ((TaskContext.awaitTaskResult turns taskId options).run c) ⟨age, 0, 0⟩ q w →
      w.polls ≤ n → w.age < claimTimeout.nanos) ↔
    age + min (capped timeout (backoffSum n))
      (firstPollFrom (heartbeatInterval claimTimeout.nanos)) < claimTimeout.nanos ∧
    (1000000000 < claimTimeout.nanos ∨
      capped timeout (backoffSum n) < lastTimely claimTimeout.nanos + claimTimeout.nanos) := by
  rw [← alive_iff]
  constructor
  · intro h
    refine ⟨?_, ?_⟩
    · have hopen : ∀ i < 0, Open timeout i := by simp
      obtain ⟨c, options, hc, ho, -⟩ := awaitTaskResult_reaches claimTimeout age Uuid.nil hopen
      exact h c Uuid.nil options 0 _ _ hc ho (.refl _ _) (Nat.zero_le _)
    · intro k hk hopen
      have hearlier : ∀ i < k + 1, Open timeout i := fun i hi => hopen.earlier (by omega)
      obtain ⟨c, options, hc, ho, hr⟩ := awaitTaskResult_reaches claimTimeout age Uuid.nil hearlier
      obtain ⟨r, w, hrun, hw⟩ := hr.exists_run
      rw [← hw.age_eq]
      apply h c Uuid.nil options _ _ _ hc ho hrun
      rw [hw.polls]
      exact hk
  · intro halive c taskId options turns q w hc ho hr hn
    subst hc ho
    exact (awaitTaskResult_held turns halive).cut hr hn

theorem claim_outlives_timeout_in_wait : ∃ (c : TaskContext) (taskId : Uuid)
    (options : AwaitTaskResultOptions) (turns age : ℕ)
    (q : Process (Result TaskResultSnapshot × TaskContext)) (w : Vigil),
    c.claimTimeout = Duration.fromSecs 120 ∧ age < c.claimTimeout.nanos ∧
      Run punctual ((TaskContext.awaitTaskResult turns taskId options).run c) ⟨age, 0, 0⟩ q w ∧
      c.claimTimeout.nanos ≤ w.age := by
  have hopen : ∀ i < 5 + 49, Open none i := by simp [Open]
  obtain ⟨c, options, hc, -, hr⟩ :=
    awaitTaskResult_reaches (Duration.fromSecs 120) 70000000000 Uuid.nil hopen
  obtain ⟨r, w, hrun, hw⟩ := hr.exists_run
  refine ⟨c, Uuid.nil, options, _, 70000000000, _, w, hc, ?_, hrun, ?_⟩
  · rw [hc]
    decide
  · have hsum := backoffSum_late 49
    have hinterval : heartbeatInterval (Duration.fromSecs 120).nanos = 60000000000 := by decide
    have hbeat : lastBeat 60000000000 (5 + 49) = 0 := by
      apply lastBeat_before
      intro j hj
      have hmono := backoffSum_mono (Nat.le_of_lt hj)
      omega
    have hnow : w.now = 70000000000 + backoffSum (5 + 49) := hw.now
    have hrenewed := hw.renewed
    have hnanos : (Duration.fromSecs 120).nanos = 120000000000 := by decide
    rw [hinterval, hbeat, if_pos rfl] at hrenewed
    rw [hc, Vigil.age, hnow, hrenewed, hsum, hnanos]
    decide

end Claim

end AbsurdSdk.Waiting
