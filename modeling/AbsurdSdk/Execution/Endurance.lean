import AbsurdSdk.Execution.Drain

namespace AbsurdSdk.Execution

open Interaction Model Relation

def Unwinding : ExecutorCall → Prop
  | .panic _ => True
  | _ => False

def steady (workerQueue : String) : Env WorkerCall WorkerAnswer Site := fun w call r w' =>
  site workerQueue w call r w' ∧ ¬ OnErrorPanics call r

section Executions

variable {e e' : Nested}

abbrev Unraised (p : Execute (Result Unit)) : Prop :=
  p.Yields Returns (fun call => ¬ Unwinding call) fun _ => True

def Sturdy (e : Nested) : Prop :=
  match e.outer with
  | .awaiting => True
  | .settling p => Unraised p
  | .ended result => ∃ r, result = .ok r

lemma settle_unraised (s : Settlement) : Unraised (settle s) := by
  refine ⟨not_false, ?_⟩
  rintro (err | _) -
  · trivial
  · exact ⟨not_false, fun _ _ => trivial⟩

lemma failRunPayload_unraised (workerQueue : String) (runId : Uuid) (payload : Json) :
    Unraised (failRunPayload workerQueue runId payload) := by
  apply (settle_unraised _).bind
  rintro (err | _) -
  · trivial
  · trivial

lemma reportExecutionError_unraised (onError : Bool) (err : Error) :
    (reportExecutionError onError err).Yields Returns (fun call => ¬ Unwinding call)
      fun _ => True := by
  rw [reportExecutionError]
  split
  · refine ⟨not_false, ?_⟩
    rintro r rfl
    trivial
  · trivial

lemma afterJoin_unraised (workerQueue : String) (task : ClaimedTask) (config : TaskExecutionConfig)
    (ending : Except JoinError (Result Unit)) :
    Unraised (afterJoin workerQueue task config ending) := by
  rcases ending with (message | _) | result
  · apply (failRunPayload_unraised _ _ _).bind
    intro result _
    apply (reportExecutionError_unraised _ _).bind
    exact fun _ _ => trivial
  · trivial
  · trivial

lemma Moves.sturdy (h : Moves Returns e e') (he : Sturdy e) : Sturdy e' := by
  unfold Sturdy at he ⊢
  cases h with
  | inner => exact he
  | joins => exact afterJoin_unraised _ _ _ _
  | settles r hr houter =>
    rw [houter] at he
    exact he.2 r hr
  | unwinds houter =>
    rw [houter] at he
    exact absurd trivial he.1
  | returns => exact ⟨_, rfl⟩

end Executions

section Loop

variable {stop : Prop} {w w' : Site} {workerQueue : String} {α : Type}

structure Enduring (stop : Prop) (w : Site) : Prop where
  running : ∀ e ∈ w.running, Sturdy e
  closed : w.closed = true → w.shutdown = true
  stopped : stop → w.shutdown = true

lemma enduring_stable (stop : Prop) : Stable (Progress Returns) (Enduring stop) := by
  intro w w' h hw
  have hrunning := h.running (fun _ _ hmoves => hmoves.sturdy) hw.running
  cases h with
  | moves => exact ⟨hrunning, hw.closed, hw.stopped⟩
  | signals hsignals =>
    cases hsignals with
    | signal => exact ⟨hrunning, fun _ => rfl, fun _ => rfl⟩
    | drop hs => exact ⟨hrunning, fun _ => hs, fun _ => hs⟩

lemma Enduring.takes {result : Joined} (h : Enduring stop w) (ht : Takes w result w') :
    Enduring stop w' ∧ ∃ r, result = .ok r := by
  obtain ⟨e, he, hended, hchannel, -, hrunning⟩ := ht.running h.running
  rw [Sturdy, hended] at he
  refine ⟨⟨hrunning, ?_, ?_⟩, he⟩
  · rw [hchannel]
    exact h.closed
  · rw [hchannel]
    exact h.stopped

def NotPanicking : WorkerCall → Site → Prop
  | .panic _, _ => False
  | _, _ => True

abbrev Endures (workerQueue : String) (p : WorkerM α) (post : α → Site → Prop) (w : Site) : Prop :=
  Always (steady workerQueue) (Progress Returns) NotPanicking post p w

def Unfailed {β : Type} (stop : β → Prop) (r : Result β) (w : Site) : Prop :=
  ∃ b, r = .ok b ∧ Enduring (stop b) w

lemma bind_endures {β : Type} {p : WorkerM α} {f : α → WorkerM β} {mid : α → Site → Prop}
    {post : β → Site → Prop} (hp : Endures workerQueue p mid w)
    (hf : ∀ a t, mid a t → Endures workerQueue (f a) post t) :
    Endures workerQueue (p >>= f) post w :=
  Always.bind hp hf

lemma call_endures {call : WorkerCall} {next : WorkerAnswer call → WorkerM α}
    {post : α → Site → Prop} (h : Enduring stop w) (hcall : ∀ t, NotPanicking call t)
    (hnext : ∀ t r u, Enduring stop t → steady workerQueue t call r u →
      Endures workerQueue (next r) post u) :
    Endures workerQueue (.call call next) post w :=
  Always.call (enduring_stable stop) h (fun t _ => hcall t) hnext

lemma done_endures {β : Type} {stop : β → Prop} (b : β) (h : Enduring (stop b) w) :
    Endures workerQueue (.done (.ok b)) (Unfailed stop) w :=
  Always.done (enduring_stable (stop b)) h fun _ ht => ⟨b, rfl, ht⟩

lemma hang_endures {post : α → Site → Prop} (w : Site) :
    Endures workerQueue (WorkerM.hang : WorkerM α) post w :=
  fun _ _ => ⟨trivial, fun r => r.elim⟩

lemma reportWorkerError_endures (kind : WorkerErrorKind) (err : Error) (h : Enduring stop w) :
    Endures workerQueue (reportWorkerError kind err) (fun _ => Enduring stop) w := by
  apply call_endures h
  · exact fun _ => trivial
  rintro t (text | _) u ht ⟨hu, hpanics⟩
  · exact absurd ⟨text, rfl⟩ hpanics
  · obtain rfl : u = t := hu
    exact Always.done (enduring_stable stop) ht fun _ hv => hv

lemma reportTaskResult_endures (r : Result Unit) (h : Enduring stop w) :
    Endures workerQueue (reportTaskResult (.ok r)) (Unfailed fun _ => stop) w := by
  cases r with
  | ok => exact done_endures _ h
  | error err =>
    apply bind_endures (reportWorkerError_endures _ _ h)
    exact fun _ t ht => done_endures _ ht

lemma drainFinished_endures (turns : ℕ) (h : Enduring stop w) :
    Endures workerQueue (drainFinished turns) (Unfailed fun _ => stop) w := by
  induction turns generalizing w with
  | zero => exact hang_endures w
  | succ turns ih =>
    apply call_endures h
    · exact fun _ => trivial
    rintro t (_ | result) u ht ⟨hu, -⟩
    · obtain rfl : u = t := hu
      exact done_endures _ ht
    · obtain ⟨hnew, r, rfl⟩ := ht.takes hu
      apply bind_endures (reportTaskResult_endures r hnew)
      rintro _ v ⟨_, rfl, hv⟩
      exact ih hv

lemma joinAll_endures (turns : ℕ) (h : Enduring stop w) :
    Endures workerQueue (joinAll turns)
      (fun r t => r = .ok () ∧ t.running = [] ∧ Enduring stop t) w := by
  induction turns generalizing w with
  | zero => exact hang_endures w
  | succ turns ih =>
    apply call_endures h
    · exact fun _ => trivial
    rintro t (_ | result) u ht ⟨hu, -⟩
    · obtain ⟨hempty, rfl⟩ : t.running = [] ∧ u = t := hu
      have hstable : Stable (Progress Returns) fun v => v.running = [] ∧ Enduring stop v := by
        intro v v' hv hP
        refine ⟨?_, enduring_stable stop v v' hv hP.2⟩
        cases hv with
        | moves hrunning =>
          rw [hP.1] at hrunning
          simp at hrunning
        | signals => exact hP.1
      exact Always.done hstable ⟨hempty, ht⟩ fun _ hv => ⟨rfl, hv⟩
    · obtain ⟨hnew, r, rfl⟩ := ht.takes hu
      apply bind_endures (reportTaskResult_endures r hnew)
      rintro _ v ⟨_, rfl, hv⟩
      exact ih hv

def Harmless (selected : Selected) (w : Site) : Prop :=
  match selected with
  | .changed isErr => isErr = true → w.shutdown = true
  | .joined result => ∀ joined, result = some joined → ∃ r, joined = .ok r

lemma Enduring.selects {join : Bool} {selected : Selected} (h : Enduring stop w)
    (hs : (grounds workerQueue).Selects join w selected w') :
    Enduring stop w' ∧ Harmless selected w' := by
  rcases selected with isErr | _ | result
  · obtain ⟨c, hc, rfl⟩ := hs
    obtain ⟨hshutdown, hclosed, herr⟩ := hc.shutdown
    have hon : c.closed = true → c.shutdown = true := fun hc => hshutdown.trans (h.closed (hclosed ▸ hc))
    exact ⟨⟨h.running, hon, fun hstop => hshutdown.trans (h.stopped hstop)⟩,
      fun he => hshutdown.trans (h.closed (herr he))⟩
  · obtain ⟨-, -, rfl⟩ := hs
    exact ⟨h, by rintro _ ⟨⟩⟩
  · obtain ⟨hnew, r, rfl⟩ := h.takes hs.2
    refine ⟨hnew, ?_⟩
    rintro _ ⟨⟩
    exact ⟨r, rfl⟩

lemma afterSelect_endures {selected : Selected} (h : Enduring False w)
    (hs : Harmless selected w) :
    Endures workerQueue (afterSelect selected) (Unfailed fun b => b = true) w := by
  have hon : Enduring (false = true) w := ⟨h.running, h.closed, by rintro ⟨⟩⟩
  rcases selected with isErr | _ | result
  · rw [afterSelect]
    split
    · rename_i hclosed
      exact done_endures true ⟨h.running, h.closed, fun _ => hs hclosed⟩
    · apply call_endures h
      · exact fun _ => trivial
      rintro t r u ht ⟨⟨hr, rfl⟩, -⟩
      exact done_endures r ⟨ht.running, ht.closed, fun hb => hr ▸ hb⟩
  · exact done_endures false hon
  · obtain ⟨r, rfl⟩ := hs result rfl
    apply bind_endures (reportTaskResult_endures r hon)
    rintro _ v ⟨_, rfl, hv⟩
    exact done_endures false hv

lemma waitForCapacityOrShutdown_endures (h : Enduring False w) :
    Endures workerQueue waitForCapacityOrShutdown (Unfailed fun b => b = true) w := by
  apply call_endures h
  · exact fun _ => trivial
  rintro t r u ht ⟨⟨-, rfl⟩, -⟩
  apply call_endures ht
  · exact fun _ => trivial
  rintro v selected x hv ⟨hx, -⟩
  obtain ⟨hnew, hs⟩ := hv.selects hx
  exact afterSelect_endures hnew hs

lemma waitPollIntervalOrShutdown_endures (pollInterval : Duration) (h : Enduring False w) :
    Endures workerQueue (waitPollIntervalOrShutdown pollInterval) (Unfailed fun b => b = true) w := by
  apply call_endures h
  · exact fun _ => trivial
  rintro t r u ht ⟨⟨-, rfl⟩, -⟩
  apply call_endures ht
  · exact fun _ => trivial
  rintro v (_ | selected) x hv ⟨hx, -⟩
  · obtain rfl : x = v := hx
    exact done_endures false ⟨hv.running, hv.closed, by rintro ⟨⟩⟩
  · obtain ⟨hnew, hs⟩ := hv.selects hx
    exact afterSelect_endures hnew hs

lemma spawnAll_endures (config : TaskExecutionConfig) (tasks : List ClaimedTask)
    (h : Enduring stop w) :
    Endures workerQueue (spawnAll config tasks) (fun _ => Enduring stop) w := by
  induction tasks generalizing w with
  | nil => exact Always.done (enduring_stable stop) h fun _ ht => ht
  | cons task tasks ih =>
    apply call_endures h
    · exact fun _ => trivial
    rintro t r u ht ⟨⟨registry, rfl⟩, -⟩
    apply ih
    refine ⟨?_, ht.closed, ht.stopped⟩
    intro e he
    rcases List.mem_append.mp he with hold | hnew
    · exact ht.running e hold
    · obtain rfl := List.mem_singleton.mp hnew
      exact trivial

lemma workerLoop_endures (queueName : String) (hooks : Hooks) (debug : Error → String)
    (options : NormalizedWorkerOptions) (turns : ℕ) (h : Enduring False w) :
    Endures workerQueue (workerLoop queueName hooks debug options turns)
      (fun r t => r = .ok () ∧ t.running = [] ∧ Enduring True t) w := by
  induction turns generalizing w with
  | zero => exact hang_endures w
  | succ turns ih =>
    have hnext : ∀ next, Resumes (workerLoop queueName hooks debug options turns) turns next →
        ∀ r t, Unfailed (fun b => b = true) r t → Endures workerQueue (next r)
          (fun r t => r = .ok () ∧ t.running = [] ∧ Enduring True t) t := by
      rintro next hresumes r t ⟨b, rfl, ht⟩
      cases b with
      | true =>
        rw [hresumes.shutdown]
        exact joinAll_endures turns ⟨ht.running, ht.closed, fun _ => ht.stopped rfl⟩
      | false =>
        rw [hresumes.again]
        exact ih ⟨ht.running, ht.closed, False.elim⟩
    apply bind_endures (drainFinished_endures turns h)
    rintro _ t ⟨_, rfl, ht⟩
    apply call_endures ht
    · exact fun _ => trivial
    rintro t signalled u ht ⟨⟨hsignalled, rfl⟩, -⟩
    cases signalled with
    | true => exact joinAll_endures turns ⟨ht.running, ht.closed, fun _ => hsignalled.symm⟩
    | false =>
      apply call_endures ht
      · exact fun _ => trivial
      rintro v len x hv ⟨⟨rfl, rfl⟩, -⟩
      change Endures workerQueue
        (if options.concurrency - x.running.length = 0 then _ else _) _ x
      split
      · exact bind_endures (waitForCapacityOrShutdown_endures hv) (hnext _ ⟨fun _ => rfl, rfl, rfl⟩)
      · apply call_endures hv
        · exact fun _ => trivial
        rintro y r z hy ⟨rfl, -⟩
        apply call_endures hy
        · exact fun _ => trivial
        rintro a reply b ha ⟨rfl, -⟩
        rcases reply with err | _ | ⟨task, tasks⟩
        · apply bind_endures (reportWorkerError_endures _ _ ha)
          intro _ c hc
          exact bind_endures (waitPollIntervalOrShutdown_endures _ hc)
            (hnext _ ⟨fun _ => rfl, rfl, rfl⟩)
        · change Endures workerQueue (waitPollIntervalOrShutdown options.pollInterval >>= _) _ b
          exact bind_endures (waitPollIntervalOrShutdown_endures _ ha)
            (hnext _ ⟨fun _ => rfl, rfl, rfl⟩)
        · apply bind_endures (spawnAll_endures _ (task :: tasks) ha)
          exact fun _ c hc => ih hc

/-- With an `on_error` that returns, nothing its tasks do (any error, any panic, any reply of the
database to them) and no failing claim ends a worker: its loop never unwinds, and it returns only
after a shutdown, with `Ok` and with every execution joined. -/
theorem worker_outlives_failures {queueName : String} {hooks : Hooks} {debug : Error → String}
    {options : NormalizedWorkerOptions} {turns : ℕ} {q : WorkerM (Result Unit)}
    (h : Interleaves (steady queueName) (Progress Returns)
      (workerLoop queueName hooks debug options turns) Site.start q w) :
    (∀ text next, q ≠ .call (.panic text) next) ∧
    ∀ r, q = .done r → r = .ok () ∧ w.shutdown = true ∧ w.running = [] := by
  have hstart : Enduring False Site.start := by
    refine ⟨?_, by rintro ⟨⟩, False.elim⟩
    intro e he
    cases he
  have hq := (workerLoop_endures queueName hooks debug options turns hstart).interleaves h
  constructor
  · rintro text next rfl
    exact (hq w .refl).1
  · rintro r rfl
    obtain ⟨hr, hempty, henduring⟩ := hq w .refl
    exact ⟨hr, henduring.stopped trivial, hempty⟩

end Loop

section Sample

lemma panicked_unrecorded : ∃ e, ReflTransGen (Moves Returns)
    (Nested.start "default" (some sampleRegistry) sampleTask endlessConfig) e ∧
    e.outer = .ended (.ok (.error (.pool "closed"))) := by
  refine ⟨_, .head (@Moves.inner _ _ (.spawnWatchdog _ _ _) _ () trivial rfl)
    (.head (@Moves.inner _ _ (.context .poolGet) _ (Except.ok ()) trivial rfl)
      (.head (@Moves.inner _ _ (.context (.query (.getTaskCheckpointStates _ _ _))) _
        (Except.ok []) trivial rfl)
        (.head (.joins rfl rfl)
          (.head (@Moves.settles _ _ (.getPool _) _ (.error "closed") trivial rfl)
            (.head (@Moves.settles _ _ (.onError _ _) _ (.ok ()) rfl rfl)
              (.single (.returns rfl))))))), rfl⟩

theorem worker_outlives_failures_sample : ∃ w,
    Interleaves (steady "default") (Progress Returns)
      (workerLoop "default" ⟨none⟩ (fun _ => "error") sampleWorker 4) Site.start
      (.done (.ok ())) w ∧ w.shutdown = true ∧ w.running = [] := by
  obtain ⟨e, he, hended⟩ := panicked_unrecorded
  have hrun : Interleaves (steady "default") (Progress Returns)
      (workerLoop "default" ⟨none⟩ (fun _ => "error") sampleWorker 4) Site.start
      (.done (.ok ())) { Site.start with shutdown := true, version := 1, joined := [e] } := by
    apply Interleaves.step (A := WorkerAnswer) (e := .tryJoinNext) (r := none)
    · exact ⟨rfl, not_false⟩
    apply Interleaves.step (A := WorkerAnswer) (e := .borrow) (r := false)
    · exact ⟨⟨rfl, rfl⟩, not_false⟩
    apply Interleaves.step (A := WorkerAnswer) (e := .len) (r := (0 : ℕ))
    · exact ⟨⟨rfl, rfl⟩, not_false⟩
    apply Interleaves.step (A := WorkerAnswer) (e := .claimTasks _ _ _ _) (r := ())
    · exact ⟨rfl, not_false⟩
    apply Interleaves.step (A := WorkerAnswer) (e := .claimed) (r := .ok [sampleTask])
    · exact ⟨rfl, not_false⟩
    apply Interleaves.step (A := WorkerAnswer) (e := .spawn _ _) (r := ())
    · exact ⟨⟨some sampleRegistry, rfl⟩, not_false⟩
    apply Interleaves.drifts (moves_beside .start he)
    apply Interleaves.step (A := WorkerAnswer) (e := .tryJoinNext)
      (r := some (.ok (.error (.pool "closed"))))
    · exact ⟨⟨[], e, [], rfl, hended, rfl⟩, not_false⟩
    apply Interleaves.step (A := WorkerAnswer) (e := .onError _ _) (r := .ok ())
    · refine ⟨rfl, ?_⟩
      rintro ⟨text, ⟨⟩⟩
    apply Interleaves.step (A := WorkerAnswer) (e := .tryJoinNext) (r := none)
    · exact ⟨rfl, not_false⟩
    apply Interleaves.drift (.signals (.signal _ rfl))
    apply Interleaves.step (A := WorkerAnswer) (e := .borrow) (r := true)
    · exact ⟨⟨rfl, rfl⟩, not_false⟩
    apply Interleaves.step (A := WorkerAnswer) (e := .joinNext) (r := none)
    · exact ⟨⟨rfl, rfl⟩, not_false⟩
    exact .refl _ _
  obtain ⟨-, hdone⟩ := worker_outlives_failures hrun
  obtain ⟨-, hshutdown, hempty⟩ := hdone _ rfl
  exact ⟨_, hrun, hshutdown, hempty⟩

end Sample

end AbsurdSdk.Execution
