import AbsurdSdk.Execution.Drain
import AbsurdSdk.Interaction.Metered

namespace AbsurdSdk.Execution

open Interaction Model Relation

abbrev Counted := Metered Worker

abbrev counted : Env WorkerCall WorkerAnswer Counted := metered (fun w => w.shutdown = true) tokio

inductive Concludes : Worker → Worker → Prop
  | ends {w : Worker} {before after : List Member} {task : ClaimedTask} (result : Joined) :
      w.running = before ++ ⟨task, none⟩ :: after →
      Concludes w { w with running := before ++ ⟨task, some result⟩ :: after }

def IsPanic : WorkerCall → Prop
  | .panic _ => True
  | _ => False

def IsPending : WorkerCall → Prop
  | .pending => True
  | _ => False

section Lasts

variable {α : Type}

abbrev Outlasts (n : ℕ) (p : WorkerM α) : Prop := p.Lasts IsPending n

abbrev Unstuck (p : WorkerM α) : Prop := p.Calls fun call => ¬ IsPending call

lemma reportWorkerError_unstuck (kind : WorkerErrorKind) (err : Error) :
    Unstuck (reportWorkerError kind err) := by
  refine ⟨not_false, ?_⟩
  rintro (text | _)
  · exact ⟨not_false, fun r => r.elim⟩
  · trivial

lemma reportTaskResult_unstuck (result : Joined) : Unstuck (reportTaskResult result) := by
  rcases result with err | err | _
  · exact (reportWorkerError_unstuck _ _).bind fun _ => trivial
  · exact (reportWorkerError_unstuck _ _).bind fun _ => trivial
  · trivial

lemma afterSelect_unstuck (selected : Selected) : Unstuck (afterSelect selected) := by
  rcases selected with isErr | _ | result
  · rw [afterSelect]
    split
    · trivial
    · exact ⟨not_false, fun _ => trivial⟩
  · trivial
  · apply (reportTaskResult_unstuck result).bind
    rintro (err | _)
    · trivial
    · trivial

lemma waitForCapacityOrShutdown_unstuck : Unstuck waitForCapacityOrShutdown :=
  ⟨not_false, fun _ => ⟨not_false, afterSelect_unstuck⟩⟩

lemma waitPollIntervalOrShutdown_unstuck (pollInterval : Duration) :
    Unstuck (waitPollIntervalOrShutdown pollInterval) := by
  refine ⟨not_false, fun _ => ⟨not_false, ?_⟩⟩
  rintro (_ | selected)
  · trivial
  · exact afterSelect_unstuck selected

lemma spawnAll_unstuck (config : TaskExecutionConfig) (tasks : List ClaimedTask) :
    Unstuck (spawnAll config tasks) := by
  induction tasks with
  | nil => trivial
  | cons task tasks ih => exact ⟨not_false, fun _ => ih⟩

lemma drainFinished_lasts (turns : ℕ) : Outlasts turns (drainFinished turns) := by
  induction turns with
  | zero => trivial
  | succ turns ih =>
    refine ⟨not_false, ?_⟩
    rintro (_ | result)
    · exact Program.lasts_done _
    · apply (reportTaskResult_unstuck result).lasts.bind
      rintro (err | _)
      · exact Program.lasts_done _
      · exact ih

lemma joinAll_lasts (turns : ℕ) : Outlasts turns (joinAll turns) := by
  induction turns with
  | zero => trivial
  | succ turns ih =>
    refine ⟨not_false, ?_⟩
    rintro (_ | result)
    · exact Program.lasts_done _
    · apply (reportTaskResult_unstuck result).lasts.bind
      rintro (err | _)
      · exact Program.lasts_done _
      · exact ih

lemma workerLoop_lasts (queueName : String) (hooks : Hooks) (debug : Error → String)
    (options : NormalizedWorkerOptions) (turns : ℕ) :
    Outlasts turns (workerLoop queueName hooks debug options (turns + 1)) := by
  induction turns with
  | zero => trivial
  | succ turns ih =>
    have hjoin : Outlasts turns (joinAll (turns + 1)) := (joinAll_lasts _).mono turns.le_succ
    have hnext : ∀ next, Resumes (workerLoop queueName hooks debug options (turns + 1)) (turns + 1)
        next → ∀ r, Outlasts turns (next r) := by
      rintro next hresumes (err | _ | _)
      · rw [hresumes.failed]
        exact Program.lasts_done _
      · rw [hresumes.again]
        exact ih
      · rw [hresumes.shutdown]
        exact hjoin
    have hcall : ∀ r, drainFinished (turns + 1) ≠ .done r := by
      intro r he
      cases he
    apply (drainFinished_lasts (turns + 1)).after hcall
    rintro (err | _)
    · exact Program.lasts_done _
    have hborrow : Unstuck WorkerM.borrow := ⟨not_false, fun _ => trivial⟩
    apply hborrow.lasts.bind
    rintro (_ | _)
    · have hlen : Unstuck WorkerM.len := ⟨not_false, fun _ => trivial⟩
      apply hlen.lasts.bind
      intro len
      change Outlasts turns (if options.concurrency - len = 0 then _ else _)
      split
      · exact waitForCapacityOrShutdown_unstuck.lasts.bind (hnext _ ⟨fun _ => rfl, rfl, rfl⟩)
      · have hclaim : ∀ toClaim, Unstuck (WorkerM.claimTasks queueName options.workerId
            options.claimTimeoutSeconds toClaim) :=
          fun _ => ⟨not_false, fun _ => ⟨not_false, fun _ => trivial⟩⟩
        apply (hclaim _).lasts.bind
        have hpoll := (waitPollIntervalOrShutdown_unstuck options.pollInterval).lasts
          (n := turns)
        rintro (err | _ | ⟨task, tasks⟩)
        · apply (reportWorkerError_unstuck _ _).lasts.bind
          exact fun _ => hpoll.bind (hnext _ ⟨fun _ => rfl, rfl, rfl⟩)
        · exact hpoll.bind (hnext _ ⟨fun _ => rfl, rfl, rfl⟩)
        · exact (spawnAll_unstuck _ _).lasts.bind fun _ => ih
    · exact hjoin

end Lasts

section Budget

variable {α : Type} {concurrency pending cost turns : ℕ} {m m' : Counted} {P : Counted → Prop}

/-- A task about to be spawned costs three calls and an execution to be joined two; `cost` more are
left. -/
structure Budget (concurrency pending cost : ℕ) (m : Counted) : Prop where
  room : m.state.running.length + pending ≤ concurrency
  paid : m.since + 2 * m.state.running.length + cost ≤ 3 * concurrency + 10
  unsignalled : m.state.shutdown = false → m.since = 0

lemma budget_stable (concurrency pending cost : ℕ) :
    Stable (beside Happens) (Budget concurrency pending cost) := by
  rintro m m' ⟨h, -, hsince⟩ hm
  have hlen := happens_length h
  refine ⟨hlen ▸ hm.room, hsince ▸ hlen ▸ hm.paid, ?_⟩
  intro hs
  rw [hsince]
  apply hm.unsignalled
  by_contra hn
  rw [happens_shutdown h (by simpa using hn)] at hs
  cases hs

lemma Budget.fewer (h : Budget concurrency pending cost m) {less : ℕ} (hle : less ≤ cost) :
    Budget concurrency pending less m :=
  ⟨h.room, by have hpaid := h.paid; omega, h.unsignalled⟩

lemma since_le {call : WorkerCall} {r : WorkerAnswer call} (he : counted m call r m') :
    m'.since ≤ m.since + 1 := by
  have hmeter := he.2
  split at hmeter <;> omega

lemma since_unsignalled {call : WorkerCall} {r : WorkerAnswer call} (he : counted m call r m')
    (hs : m.state.shutdown = false) : m'.since = m.since := by
  have hmeter := he.2
  rw [if_neg (by simp [hs])] at hmeter
  exact hmeter.2

lemma Budget.spend {call : WorkerCall} {r : WorkerAnswer call}
    (h : Budget concurrency pending (cost + 1) m) (he : counted m call r m')
    (hw : m'.state.running.length = m.state.running.length ∧ m'.state.shutdown = m.state.shutdown) :
    Budget concurrency pending cost m' := by
  obtain ⟨hlen, hs⟩ := hw
  have hsince := since_le he
  have hpaid := h.paid
  refine ⟨hlen ▸ h.room, by omega, ?_⟩
  intro hn
  rw [hs] at hn
  rw [since_unsignalled he hn]
  exact h.unsignalled hn

lemma Budget.keep {call : WorkerCall} {r : WorkerAnswer call}
    (h : Budget concurrency pending (cost + 1) m) (he : counted m call r m')
    (hw : m'.state = m.state) : Budget concurrency pending cost m' :=
  h.spend he ⟨by rw [hw], by rw [hw]⟩

lemma Budget.join {call : WorkerCall} {r : WorkerAnswer call} {result : Joined}
    (h : Budget concurrency pending cost m) (he : counted m call r m')
    (hj : Joins m.state result m'.state) : Budget concurrency pending (cost + 1) m' := by
  obtain ⟨before, task, after, hw, hw'⟩ := hj
  have hlen : m'.state.running.length + 1 = m.state.running.length := by
    simp only [hw, hw', List.length_append, List.length_cons]
    omega
  have hsince := since_le he
  have hroom := h.room
  have hpaid := h.paid
  refine ⟨by omega, by omega, ?_⟩
  intro hn
  rw [hw'] at hn
  rw [since_unsignalled he hn]
  exact h.unsignalled hn

def Lively (call : WorkerCall) (w : Worker) : Prop :=
  (∃ r w', tokio w call r w') ∨ ∃ w', Concludes w w'

abbrev Within (concurrency : ℕ) (p : WorkerM α) (post : α → Counted → Prop) (m : Counted) : Prop :=
  Always counted (beside Happens)
    (Affords IsPending IsPanic tokio Concludes (3 * concurrency + 10)) post p m

lemma bind_within {β : Type} {p : WorkerM α} {f : α → WorkerM β} {mid : α → Counted → Prop}
    {post : β → Counted → Prop} (hp : Within concurrency p mid m)
    (hf : ∀ a t, mid a t → Within concurrency (f a) post t) :
    Within concurrency (p >>= f) post m :=
  Always.bind hp hf

lemma done_within (a : α) (h : Budget concurrency pending cost m) :
    Within concurrency (.done a) (fun _ => Budget concurrency pending cost) m :=
  Always.done (budget_stable concurrency pending cost) h fun _ ht => ht

lemma call_within {call : WorkerCall} {next : WorkerAnswer call → WorkerM α}
    {post : α → Counted → Prop} (hP : Stable (beside Happens) P) (hm : P m)
    (hbudget : ∀ t, P t → Budget concurrency pending (cost + 1) t ∧ Lively call t.state)
    (hnext : ∀ t r u, P t → counted t call r u → Within concurrency (next r) post u) :
    Within concurrency (.call call next) post m := by
  apply Always.call hP hm
  · intro t ht
    obtain ⟨h, hlively⟩ := hbudget t ht
    have hpaid := h.paid
    exact ⟨by omega, Or.inr (Or.inr ⟨by omega, hlively⟩)⟩
  · exact hnext

lemma hang_within {post : α → Counted → Prop} (h : Budget concurrency pending cost m) :
    Within concurrency (WorkerM.hang : WorkerM α) post m := by
  apply Always.call (budget_stable concurrency pending cost) h
  · intro t ht
    have hpaid := ht.paid
    exact ⟨by omega, Or.inl trivial⟩
  · exact fun _ r => r.elim

lemma reportWorkerError_within (kind : WorkerErrorKind) (err : Error)
    (h : Budget concurrency pending (cost + 1) m) :
    Within concurrency (reportWorkerError kind err) (fun _ => Budget concurrency pending cost)
      m := by
  apply call_within (budget_stable concurrency pending (cost + 1)) h
  · exact fun t ht => ⟨ht, Or.inl ⟨.ok (), t.state, rfl⟩⟩
  rintro t (text | _) u ht he
  · apply Always.call (budget_stable concurrency pending cost) (ht.keep he he.1)
    · intro v hv
      have hpaid := hv.paid
      exact ⟨by omega, Or.inr (Or.inl trivial)⟩
    · exact fun _ r => r.elim
  · exact done_within _ (ht.keep he he.1)

lemma reportTaskResult_within (result : Joined) (h : Budget concurrency pending (cost + 1) m) :
    Within concurrency (reportTaskResult result) (fun _ => Budget concurrency pending cost) m := by
  rcases result with err | err | _
  · apply bind_within (reportWorkerError_within _ _ h)
    exact fun _ t ht => done_within _ ht
  · apply bind_within (reportWorkerError_within _ _ h)
    exact fun _ t ht => done_within _ ht
  · exact done_within _ (h.fewer cost.le_succ)

lemma drainFinished_within (turns : ℕ) (h : Budget concurrency 0 (cost + 1) m) :
    Within concurrency (drainFinished turns) (fun _ => Budget concurrency 0 cost) m := by
  induction turns generalizing m with
  | zero => exact hang_within h
  | succ turns ih =>
    apply call_within (budget_stable concurrency 0 (cost + 1)) h
    · exact fun t ht => ⟨ht, Or.inl ⟨none, t.state, rfl⟩⟩
    rintro t (_ | result) u ht he
    · exact done_within _ (ht.keep he he.1)
    · apply bind_within (reportTaskResult_within result (ht.join he he.1))
      rintro (err | _) v hv
      · exact done_within _ (hv.fewer cost.le_succ)
      · exact ih hv

lemma joins_or_concludes {w : Worker} (h : w.running ≠ []) :
    (∃ result w', Joins w result w') ∨ ∃ w', Concludes w w' := by
  obtain ⟨⟨task, ended⟩, members, hw⟩ := List.exists_cons_of_ne_nil h
  cases ended with
  | some result => exact Or.inl ⟨result, _, [], task, members, hw, rfl⟩
  | none =>
    have hnew : w.running = [] ++ ⟨task, none⟩ :: members := hw
    exact Or.inr ⟨_, .ends (.ok (.ok ())) hnew⟩

lemma busy_stable (concurrency cost : ℕ) :
    Stable (beside Happens) fun m => Budget concurrency 0 cost m ∧ m.state.running ≠ [] := by
  intro m m' h hm
  refine ⟨budget_stable concurrency 0 cost m m' h hm.1, ?_⟩
  intro hnil
  have hlen := happens_length h.1
  rw [hnil, List.length_nil, eq_comm, List.length_eq_zero_iff] at hlen
  exact hm.2 hlen

def Left (concurrency : ℕ) (r : Result Unit) (m : Counted) : Prop :=
  Budget concurrency 0 0 m ∧ (r = .ok () → m.state.running = [])

lemma failed_within (err : Error) (h : Budget concurrency 0 cost m) :
    Within concurrency (.done (.error err)) (Left concurrency) m := by
  refine Always.done (budget_stable concurrency 0 cost) h ?_
  exact fun t ht => ⟨ht.fewer cost.zero_le, by rintro ⟨⟩⟩

lemma joinAll_within (turns : ℕ) (h : Budget concurrency 0 1 m) :
    Within concurrency (joinAll turns) (Left concurrency) m := by
  induction turns generalizing m with
  | zero => exact hang_within h
  | succ turns ih =>
    apply call_within (budget_stable concurrency 0 1) h
    · intro t ht
      refine ⟨ht, ?_⟩
      by_cases hempty : t.state.running = []
      · exact Or.inl ⟨none, t.state, hempty, rfl⟩
      · rcases joins_or_concludes hempty with ⟨result, w', hj⟩ | hconcludes
        · exact Or.inl ⟨some result, w', hj⟩
        · exact Or.inr hconcludes
    rintro t (_ | result) u ht he
    · obtain ⟨hempty, hu⟩ : t.state.running = [] ∧ u.state = t.state := he.1
      have hstable : Stable (beside Happens) fun v : Counted =>
          Budget concurrency 0 0 v ∧ v.state.running = [] := by
        intro v v' hv hP
        refine ⟨budget_stable concurrency 0 0 v v' hv hP.1, ?_⟩
        rw [← List.length_eq_zero_iff, happens_length hv.1, hP.2]
        rfl
      refine Always.done hstable ⟨ht.keep he hu, hu ▸ hempty⟩ ?_
      exact fun v hv => ⟨hv.1, fun _ => hv.2⟩
    · apply bind_within (reportTaskResult_within result (ht.join he he.1))
      rintro (err | _) v hv
      · exact failed_within err hv
      · exact ih hv

lemma Budget.select {call : WorkerCall} {r : WorkerAnswer call} {join : Bool} {selected : Selected}
    (h : Budget concurrency 0 (cost + 1) m) (he : counted m call r m')
    (hs : Selects join m.state selected m'.state) : Budget concurrency 0 cost m' := by
  rcases selected with isErr | _ | result
  · obtain ⟨c, hc, hw⟩ := hs
    exact h.spend he (hw ▸ ⟨rfl, hc.shutdown.1⟩)
  · exact h.keep he hs.2.2
  · exact (h.join he hs.2).fewer (by omega)

lemma afterSelect_within (selected : Selected) (h : Budget concurrency 0 (cost + 1) m) :
    Within concurrency (afterSelect selected) (fun _ => Budget concurrency 0 cost) m := by
  rcases selected with isErr | _ | result
  · rw [afterSelect]
    split
    · exact done_within _ (h.fewer cost.le_succ)
    · apply call_within (budget_stable concurrency 0 (cost + 1)) h
      · exact fun t ht => ⟨ht, Or.inl ⟨_, t.state, rfl, rfl⟩⟩
      exact fun t r u ht he => done_within _ (ht.keep he he.1.2)
  · exact done_within _ (h.fewer cost.le_succ)
  · apply bind_within (reportTaskResult_within result h)
    rintro (err | _) v hv
    · exact done_within _ hv
    · exact done_within _ hv

lemma waitForCapacityOrShutdown_within (h : Budget concurrency 0 (cost + 3) m)
    (hbusy : m.state.running ≠ []) :
    Within concurrency waitForCapacityOrShutdown (fun _ => Budget concurrency 0 cost) m := by
  apply call_within (busy_stable concurrency (cost + 3)) ⟨h, hbusy⟩
  · exact fun t ht => ⟨ht.1, Or.inl ⟨_, t.state, rfl, rfl⟩⟩
  rintro t r u ⟨ht, hne⟩ he
  obtain ⟨rfl, hu⟩ : r = t.state.running.isEmpty ∧ u.state = t.state := he.1
  have hjoin : (!t.state.running.isEmpty) = true := by simpa using hne
  apply call_within (busy_stable concurrency (cost + 2)) ⟨ht.keep he hu, hu ▸ hne⟩
  · rintro v ⟨hv, hne⟩
    refine ⟨hv, ?_⟩
    rcases joins_or_concludes hne with ⟨result, w', hj⟩ | hconcludes
    · exact Or.inl ⟨.joined (some result), w', hjoin, hj⟩
    · exact Or.inr hconcludes
  · exact fun v selected x hv he => afterSelect_within selected (hv.1.select he he.1)

lemma waitPollIntervalOrShutdown_within (pollInterval : Duration)
    (h : Budget concurrency 0 (cost + 3) m) :
    Within concurrency (waitPollIntervalOrShutdown pollInterval)
      (fun _ => Budget concurrency 0 cost) m := by
  apply call_within (budget_stable concurrency 0 (cost + 3)) h
  · exact fun t ht => ⟨ht, Or.inl ⟨_, t.state, rfl, rfl⟩⟩
  intro t r u ht he
  apply call_within (budget_stable concurrency 0 (cost + 2)) (ht.keep he he.1.2)
  · exact fun v hv => ⟨hv, Or.inl ⟨none, v.state, rfl⟩⟩
  rintro v (_ | selected) x hv he
  · exact done_within _ ((hv.keep he he.1).fewer (by omega))
  · exact afterSelect_within selected (hv.select he he.1)

lemma spawnAll_within (config : TaskExecutionConfig) {tasks : List ClaimedTask}
    (h : Budget concurrency tasks.length (3 * tasks.length + cost) m) :
    Within concurrency (spawnAll config tasks) (fun _ => Budget concurrency 0 cost) m := by
  induction tasks generalizing m with
  | nil => exact done_within _ (h.fewer (by omega))
  | cons task tasks ih =>
    have hcost : 3 * (task :: tasks).length + cost = 3 * tasks.length + cost + 2 + 1 := by
      simp only [List.length_cons]
      omega
    rw [hcost] at h
    apply call_within (budget_stable concurrency _ _) h
    · exact fun t ht => ⟨ht, Or.inl ⟨(), _, rfl⟩⟩
    intro t r u ht he
    apply ih
    have hlen : u.state.running.length = t.state.running.length + 1 := by
      rw [he.1, List.length_append]
      rfl
    have hsince := since_le he
    have hroom := ht.room
    have hpaid := ht.paid
    rw [List.length_cons] at hroom
    refine ⟨by omega, by omega, ?_⟩
    intro hn
    rw [he.1] at hn
    rw [since_unsignalled he hn]
    exact ht.unsignalled hn

lemma Budget.whole (h : Budget concurrency 0 cost m) (hs : m.state.shutdown = false) :
    Budget concurrency 0 (3 * (concurrency - m.state.running.length) + 10) m := by
  have hroom := h.room
  have hsince := h.unsignalled hs
  exact ⟨hroom, by omega, h.unsignalled⟩

lemma sized_stable (concurrency cost len : ℕ) : Stable (beside Happens) fun m =>
    Budget concurrency 0 cost m ∧ m.state.running.length = len :=
  fun m m' h hm => ⟨budget_stable concurrency 0 cost m m' h hm.1,
    (happens_length h.1).trans hm.2⟩

def Asking (concurrency len : ℕ) (m : Counted) : Prop :=
  (Budget concurrency 0 (3 * (concurrency - len) + 8) m ∧ m.state.running.length = len) ∧
    ∃ claim claims, m.state.claims = claim :: claims ∧ claim.toClaim ≤ concurrency - len

lemma asking_stable (concurrency len : ℕ) :
    Stable (beside Happens) (Asking concurrency len) := by
  rintro m m' h ⟨hm, hclaims⟩
  refine ⟨sized_stable concurrency _ len m m' h hm, ?_⟩
  rw [(happens_claims h.1).1]
  exact hclaims

lemma Asking.reply {len : ℕ} {reply : Result (List ClaimedTask)} (h : Asking concurrency len m)
    (he : counted m .claimed reply m') : Budget concurrency 0 (3 * (concurrency - len) + 7) m' ∧
      ∀ tasks, reply = .ok tasks →
        Budget concurrency tasks.length (3 * tasks.length + 7) m' := by
  obtain ⟨⟨hm, hlen⟩, claim, claims, hclaims, hclaim⟩ := h
  obtain ⟨claim', claims', hclaims', htasks, hstate⟩ := he.1
  rw [hclaims] at hclaims'
  obtain ⟨rfl, rfl⟩ := List.cons.inj hclaims'
  have hm' : Budget concurrency 0 (3 * (concurrency - len) + 7) m' :=
    hm.spend he ⟨by rw [hstate], by rw [hstate]⟩
  refine ⟨hm', ?_⟩
  intro tasks hreply
  have hle := htasks tasks hreply
  have hlen' : m'.state.running.length = len := by rw [hstate, ← hlen]
  have hroom := hm'.room
  have hpaid := hm'.paid
  exact ⟨by omega, by omega, hm'.unsignalled⟩

lemma workerLoop_within (queueName : String) (hooks : Hooks) (debug : Error → String)
    {options : NormalizedWorkerOptions} (hconcurrency : 1 ≤ options.concurrency) (turns : ℕ)
    (h : Budget options.concurrency 0 3 m) :
    Within options.concurrency (workerLoop queueName hooks debug options turns)
      (Left options.concurrency) m := by
  induction turns generalizing m with
  | zero => exact hang_within h
  | succ turns ih =>
    have hnext : ∀ next, Resumes (workerLoop queueName hooks debug options turns) turns next →
        ∀ r t, Budget options.concurrency 0 3 t →
          Within options.concurrency (next r) (Left options.concurrency) t := by
      rintro next hresumes (err | _ | _) t ht
      · rw [hresumes.failed]
        exact failed_within err ht
      · rw [hresumes.again]
        exact ih ht
      · rw [hresumes.shutdown]
        exact joinAll_within turns (ht.fewer (by omega))
    apply bind_within (drainFinished_within turns h)
    rintro (err | _) t ht
    · exact failed_within err ht
    apply call_within (budget_stable options.concurrency 0 2) ht
    · exact fun u hu => ⟨hu, Or.inl ⟨_, u.state, rfl, rfl⟩⟩
    rintro t signalled u ht he
    obtain ⟨hsignalled, hu⟩ : signalled = t.state.shutdown ∧ u.state = t.state := he.1
    cases signalled with
    | true => exact joinAll_within turns (ht.keep he hu)
    | false =>
      have hwhole := (ht.keep he hu).whole (hu ▸ hsignalled.symm)
      apply call_within (sized_stable _ _ u.state.running.length) ⟨hwhole, rfl⟩
      · exact fun v hv => ⟨hv.1, Or.inl ⟨_, v.state, rfl, rfl⟩⟩
      rintro v len x ⟨hv, hlen⟩ he
      obtain ⟨rfl, hx⟩ : len = v.state.running.length ∧ x.state = v.state := he.1
      rw [← hlen] at hv
      have hpaid := hv.keep he hx
      change Within _ (if options.concurrency - v.state.running.length = 0 then _ else _) _ x
      split
      · rename_i hfull
        have hbusy : x.state.running ≠ [] := by
          intro hnil
          rw [hx] at hnil
          rw [hnil, List.length_nil] at hfull
          omega
        have hwait : Budget options.concurrency 0 (3 + 3) x := hpaid.fewer (by omega)
        exact bind_within (waitForCapacityOrShutdown_within hwait hbusy)
          (hnext _ ⟨fun _ => rfl, rfl, rfl⟩)
      · rename_i hroom
        apply call_within (sized_stable _ _ v.state.running.length) ⟨hpaid, by rw [hx]⟩
        · exact fun y hy => ⟨hy.1, Or.inl ⟨(), _, rfl⟩⟩
        rintro y r z ⟨hy, hylen⟩ he
        have hasking : Asking options.concurrency v.state.running.length z := by
          refine ⟨⟨hy.spend he (by rw [he.1]; exact ⟨rfl, rfl⟩), by rw [he.1]; exact hylen⟩, ?_⟩
          rw [he.1]
          exact ⟨_, _, rfl, by dsimp only; omega⟩
        apply call_within (asking_stable _ _) hasking
        · rintro z ⟨hz, claim, claims, hclaims, hclaim⟩
          refine ⟨hz.1, Or.inl ⟨.ok [], _, claim, claims, hclaims, ?_, rfl⟩⟩
          rintro tasks ⟨⟩
          exact Nat.zero_le _
        intro z reply z' hz he
        obtain ⟨hz', htasks⟩ := hz.reply he
        rcases reply with err | _ | ⟨task, tasks⟩
        · have hreport : Budget options.concurrency 0 (3 + 3 + 1) z' := hz'.fewer (by omega)
          apply bind_within (reportWorkerError_within _ _ hreport)
          intro _ a ha
          exact bind_within (waitPollIntervalOrShutdown_within _ ha) (hnext _ ⟨fun _ => rfl, rfl, rfl⟩)
        · have hwait : Budget options.concurrency 0 (3 + 3) z' := hz'.fewer (by omega)
          change Within _ (waitPollIntervalOrShutdown options.pollInterval >>= _) _ z'
          exact bind_within (waitPollIntervalOrShutdown_within _ hwait)
            (hnext _ ⟨fun _ => rfl, rfl, rfl⟩)
        · apply bind_within (spawnAll_within _ (htasks (task :: tasks) rfl))
          exact fun _ a ha => ih (ha.fewer (by omega))

end Budget

section Loop

variable {options : NormalizedWorkerOptions} {m : Counted} {turns : ℕ}

lemma joins_inProgress {w w' : Worker} {result : Joined} (h : Joins w result w') :
    w'.inProgress = w.inProgress := by
  obtain ⟨before, task, after, hw, rfl⟩ := h
  simp [Worker.inProgress, hw]

lemma selects_signalled {w w' : Worker} {join : Bool} {selected : Selected}
    (h : Selects join w selected w') :
    w'.shutdown = w.shutdown ∧ w'.inProgress = w.inProgress := by
  rcases selected with isErr | _ | result
  · obtain ⟨c, hc, rfl⟩ := h
    exact ⟨hc.shutdown.1, rfl⟩
  · obtain ⟨-, -, rfl⟩ := h
    exact ⟨rfl, rfl⟩
  · refine ⟨?_, joins_inProgress h.2⟩
    obtain ⟨before, task, after, -, rfl⟩ := h.2
    rfl

lemma tokio_signalled {w w' : Worker} {call : WorkerCall} {r : WorkerAnswer call}
    (h : tokio w call r w') : w'.shutdown = w.shutdown ∧ w'.inProgress ≤ w.inProgress + 1 := by
  have hjoins : ∀ result, Joins w result w' →
      w'.shutdown = w.shutdown ∧ w'.inProgress ≤ w.inProgress + 1 := by
    intro result hj
    refine ⟨?_, (joins_inProgress hj).le.trans (Nat.le_succ _)⟩
    obtain ⟨before, task, after, -, rfl⟩ := hj
    rfl
  have hselects : ∀ join selected, Selects join w selected w' →
      w'.shutdown = w.shutdown ∧ w'.inProgress ≤ w.inProgress + 1 := by
    intro join selected hs
    obtain ⟨hshutdown, hcount⟩ := selects_signalled hs
    exact ⟨hshutdown, hcount.le.trans (Nat.le_succ _)⟩
  cases call with
  | tryJoinNext =>
    cases r with
    | none =>
      obtain rfl : w' = w := h
      exact ⟨rfl, Nat.le_succ _⟩
    | some result => exact hjoins result h
  | joinNext =>
    cases r with
    | none =>
      obtain ⟨-, rfl⟩ : w.running = [] ∧ w' = w := h
      exact ⟨rfl, Nat.le_succ _⟩
    | some result => exact hjoins result h
  | borrow | len | isEmpty =>
    obtain ⟨-, rfl⟩ := h
    exact ⟨rfl, Nat.le_succ _⟩
  | claimTasks =>
    obtain rfl : w' = _ := h
    exact ⟨rfl, Nat.le_succ _⟩
  | claimed =>
    obtain ⟨claim, claims, -, -, rfl⟩ := h
    exact ⟨rfl, Nat.le_succ _⟩
  | spawn task config =>
    obtain rfl : w' = _ := h
    refine ⟨rfl, ?_⟩
    simp [Worker.inProgress]
  | select join => exact hselects join r h
  | selectOrSleep pollInterval join =>
    cases r with
    | none =>
      obtain rfl : w' = w := h
      exact ⟨rfl, Nat.le_succ _⟩
    | some selected => exact hselects join selected h
  | onError =>
    obtain rfl : w' = w := h
    exact ⟨rfl, Nat.le_succ _⟩
  | panic => exact h.elim
  | pending => exact h.elim

lemma concludes_pushes : Pushes (fun w : Worker => w.shutdown = true) tokio Happens Concludes
    Worker.inProgress where
  drifts := by
    rintro w _ ⟨result, hw⟩
    exact .ends result hw
  smaller := by
    rintro w _ ⟨result, hw⟩
    simp [Worker.inProgress, hw]
  calls := by
    intro w call r w' h hs
    obtain ⟨hshutdown, hcount⟩ := tokio_signalled h
    exact ⟨hshutdown.trans hs, hcount⟩
  stable := fun w w' h hs => happens_shutdown h hs

/-- Once a shutdown is signalled, wherever the loop stands, it ends: whatever its calls are answered
and in whichever order its executions end, it makes at most so many more calls, and it returns `Ok`
only after it has joined every execution. -/
theorem shutdown_ends_loop {workerOptions : WorkerOptions} {defaultWorkerId queueName : String}
    {hooks : Hooks} {debug : Error → String} {q : WorkerM (Result Unit)}
    (hoptions : workerOptions.normalized defaultWorkerId = .ok options)
    (h : Interleaves counted (beside Happens) (workerLoop queueName hooks debug options turns)
      ⟨Worker.start, 0, 0⟩ q m)
    (hshutdown : m.state.shutdown = true)
    (hturns : m.before + 3 * options.concurrency + 11 < turns) :
    Inevitable (Onward counted (beside Concludes))
      (fun x => x.2.since ≤ 3 * options.concurrency + 10 ∧ Gone x.1 ∧
        (x.1 = .done (.ok ()) → x.2.state.running = [])) (q, m) := by
  obtain ⟨turns, rfl⟩ : ∃ k, turns = k + 1 := ⟨turns - 1, by omega⟩
  have hstart : Budget options.concurrency 0 3 ⟨Worker.start, 0, 0⟩ :=
    ⟨Nat.zero_le _, by simp [Worker.start], fun _ => rfl⟩
  have hwithin := (workerLoop_within queueName hooks debug (normalized_positive hoptions).1
    (turns + 1) hstart).interleaves h
  have hlasts := (workerLoop_lasts queueName hooks debug options turns).interleaves h
  apply (hwithin.ends concludes_pushes hshutdown hlasts (by omega)).mono
  rintro ⟨q, t⟩ (⟨r, rfl, hpaid, hjoined⟩ | ⟨call, next, rfl, hpanic, hsince⟩)
  · have hsince := hpaid.paid
    dsimp only at hsince ⊢
    refine ⟨by omega, Or.inl ⟨r, rfl⟩, ?_⟩
    rintro ⟨⟩
    exact hjoined rfl
  · cases call with
    | panic text => exact ⟨hsince, Or.inr ⟨text, next, rfl⟩, by rintro ⟨⟩⟩
    | _ => exact hpanic.elim

def sampleFarewell : Counted where
  state :=
    { running := [⟨sampleTask, none⟩], shutdown := true, version := 1, seen := 0, closed := false,
      claims := [⟨1, 0, false, some (.ok [sampleTask])⟩], spawned := [sampleTask] }
  before := 4
  since := 2

lemma sample_farewell (debug : Error → String) : ∃ q,
    Interleaves counted (beside Happens) (workerLoop "default" ⟨none⟩ debug sampleWorker 19)
      ⟨Worker.start, 0, 0⟩ q sampleFarewell := by
  refine ⟨?q, ?_⟩
  rotate_left
  · apply Interleaves.step (A := WorkerAnswer) (e := .tryJoinNext) (r := none) (t := ⟨_, 1, 0⟩)
    · exact ⟨rfl, rfl, rfl⟩
    apply Interleaves.step (A := WorkerAnswer) (e := .borrow) (r := false) (t := ⟨_, 2, 0⟩)
    · exact ⟨⟨rfl, rfl⟩, rfl, rfl⟩
    apply Interleaves.step (A := WorkerAnswer) (e := .len) (r := (0 : ℕ)) (t := ⟨_, 3, 0⟩)
    · exact ⟨⟨rfl, rfl⟩, rfl, rfl⟩
    apply Interleaves.step (A := WorkerAnswer) (e := .claimTasks _ _ _ _) (r := ()) (t := ⟨_, 4, 0⟩)
    · exact ⟨rfl, rfl, rfl⟩
    apply Interleaves.drift (t := ⟨_, 4, 0⟩)
    · exact ⟨.signals (.signal _ rfl), rfl, rfl⟩
    apply Interleaves.step (A := WorkerAnswer) (e := .claimed) (r := .ok [sampleTask])
      (t := ⟨_, 4, 1⟩)
    · refine ⟨⟨_, _, rfl, ?_, rfl⟩, rfl, rfl⟩
      rintro tasks ⟨⟩
      exact le_rfl
    apply Interleaves.step (A := WorkerAnswer) (e := .spawn _ _) (r := ()) (t := ⟨_, 4, 2⟩)
    · exact ⟨rfl, rfl, rfl⟩
    exact .refl _ _

theorem shutdown_ends_loop_sample : ∃ q,
    Interleaves counted (beside Happens)
      (workerLoop "default" ⟨none⟩ (fun _ => "error") sampleWorker 19) ⟨Worker.start, 0, 0⟩ q
      sampleFarewell ∧
    Inevitable (Onward counted (beside Concludes))
      (fun x => x.2.since ≤ 13 ∧ Gone x.1 ∧
        (x.1 = .done (.ok ()) → x.2.state.running = [])) (q, sampleFarewell) := by
  obtain ⟨q, hq⟩ := sample_farewell fun _ => "error"
  exact ⟨q, hq, shutdown_ends_loop sampleWorker_normalized hq rfl (by decide)⟩

end Loop

end AbsurdSdk.Execution
