import AbsurdSdk.Execution.Settlement
import AbsurdSdk.Model.WorkBatch

namespace AbsurdSdk.Execution

open Interaction Model Program

section Refusal

def resultOf : Settlement → Result Unit → Result Unit
  | .scheduleRunIn _ _ _, r => r
  | _, r => absorbRace r

/-- Whether the database refuses a settling statement: with an error that is not a lost race, and
a deferral can lose no race. -/
def refuses (s : Settlement) : Except PgError Unit → Prop
  | .ok () => False
  | .error err => match s with
    | .scheduleRunIn _ _ _ => True
    | _ => (mapDatabaseError err).isTerminalStateRace = false

def noConnection : Except String Unit → Prop
  | .ok () => False
  | .error _ => True

def Refusal : (Σ call : ExecutorCall, ExecutorAnswer call) → Prop
  | ⟨.getPool _, r⟩ => noConnection r
  | ⟨.settle s, r⟩ => refuses s r
  | _ => False

def Refused (log : Log) : Prop := ∃ e ∈ log, Refusal e

variable {log : Log} {e : Σ call : ExecutorCall, ExecutorAnswer call}

lemma refused_cons : Refused (e :: log) ↔ Refusal e ∨ Refused log := by
  simp only [Refused, List.exists_mem_cons_iff]

lemma Refused.quiet (h : ¬ Refusal e) : Refused (e :: log) ↔ Refused log := by
  rw [refused_cons]
  exact or_iff_right h

lemma Unsettling.no_refusal {call : ExecutorCall} (h : Unsettling call) (r : ExecutorAnswer call) :
    ¬ Refusal ⟨call, r⟩ := by
  cases call with
  | getPool s => exact h.elim
  | settle s => exact h.elim
  | _ => exact id

lemma resultOf_pool (s : Settlement) (err : String) :
    resultOf s (.error (.pool err)) = .error (.pool err) := by
  cases s <;> rfl

lemma resultOf_reply (s : Settlement) (r : Except PgError Unit) :
    (∃ err, resultOf s (r.mapError mapDatabaseError) = .error err) ↔ refuses s r := by
  cases r with
  | ok => cases s <;> simp [resultOf, absorbRace, Except.mapError, refuses]
  | error err =>
    cases hrace : (mapDatabaseError err).isTerminalStateRace <;> cases s <;>
      simp [resultOf, absorbRace, Except.mapError, refuses, hrace]

lemma settle_refused {s : Settlement} (h : ¬ Refused log) :
    Safe replies (fun _ => True)
      (fun r log' => (∃ err, resultOf s r = .error err) ↔ Refused log') (settle s) log := by
  refine ⟨trivial, ?_⟩
  rintro (err | _) log' ⟨-, rfl⟩
  · refine ⟨trivial, ?_⟩
    simp [resultOf_pool, refused_cons, Refusal, noConnection]
  · refine ⟨trivial, ?_⟩
    rintro r log'' ⟨-, rfl⟩
    refine ⟨trivial, (resultOf_reply s r).trans ?_⟩
    simp [refused_cons, h, Refusal, noConnection]

variable {workerQueue : String} {registry : Registry} {task : ClaimedTask}
  {config : TaskExecutionConfig}

lemma report_refused {P : Prop} (kind : WorkerErrorKind) (err : Error)
    (r : ExecutorAnswer (.onError kind err)) (log : Log) (h : P ↔ Refused log) :
    P ↔ Refused (⟨.onError kind err, r⟩ :: log) :=
  h.trans (Refused.quiet id).symm

lemma failRun_refused (queueName : String) (runId : Uuid) (payload : Json) (h : ¬ Refused log) :
    Safe replies (fun _ => True) (fun r log' => (∃ err, r = .error err) ↔ Refused log')
      (failRunPayload queueName runId payload) log := by
  rw [failRunPayload_eq]
  apply (settle_refused h).bind
  intro r log' _ hr
  exact ⟨trivial, hr⟩

lemma settleOutcome_refused (o : Outcome) (h : ¬ Refused log) :
    Safe replies (fun _ => True)
      (fun r log' => ∃ result, r = .ok result ∧ ((∃ err, result = .error err) ↔ Refused log'))
      ((settleOutcome workerQueue task config o).caught joinError) log := by
  have hsettle : ∀ s (f : Result Unit → Result Unit), (∀ r, f r = resultOf s r) →
      Safe replies (fun _ => True)
        (fun r log' => ∃ result, r = .ok result ∧ ((∃ err, result = .error err) ↔ Refused log'))
        (((settle s).bind fun r => .done (f r)).caught joinError) log := by
    intro s f hf
    rw [caught_settle_bind]
    apply (settle_refused h).bind
    intro r log' _ hr
    rw [← hf] at hr
    exact ⟨trivial, f r, rfl, hr⟩
  cases o with
  | unregistered =>
    simp only [settleOutcome, handleUnknownTask]
    cases config.unknownTaskPolicy with
    | fail =>
      simp only [failRunPayload_eq]
      exact hsettle _ _ fun _ => rfl
    | defer =>
      rw [← bind_done (settle _)]
      exact hsettle _ _ fun _ => rfl
  | queueMismatch err =>
    simp only [settleOutcome, failRunError, failRunPayload_eq]
    exact hsettle _ _ fun _ => rfl
  | executed result =>
    cases result with
    | ok value =>
      simp only [settleOutcome, completeRun_eq]
      exact hsettle _ _ fun _ => rfl
    | error err =>
      simp only [settleOutcome]
      split
      · exact ⟨trivial, _, rfl, by simp [h]⟩
      · simp only [failRunError, failRunPayload_eq, Program.bind_assoc, done_bind,
          caught_settle_bind]
        apply (settle_refused h).bind
        intro r log' _ hr
        apply caught_report_safe err config.onError hr (fun _ _ => trivial) report_refused
        intro log'' hr'
        exact ⟨trivial, absorbRace r, rfl, hr'⟩

lemma afterOutcome_refused {ending : Except JoinError Outcome} (hc : ending ≠ .error .cancelled)
    (h : ¬ Refused log) :
    Safe replies (fun _ => True) (fun r log' => (∃ err, r = .error err) ↔ Refused log')
      (afterOutcome workerQueue task config ending) log := by
  rcases ending with (message | _) | o
  · apply (failRun_refused workerQueue task.runId (panicPayload message) h).bind
    intro result log' _ hr
    apply report_safe _ config.onError hr (fun _ _ => trivial) report_refused
    intro log'' hr'
    exact ⟨trivial, hr'⟩
  · exact absurd rfl hc
  · apply (settleOutcome_refused o h).bind
    rintro r log' - ⟨result, rfl, hr⟩
    exact ⟨trivial, hr⟩

lemma execution_error_iff {result : Result Unit} {log : Log}
    (h : Run replies (executeClaimedCatching workerQueue (some registry) task config) []
      (.done result) log) :
    (∃ err, result = .error err) ↔ Refused log := by
  rw [executeClaimedCatching_eq] at h
  have hquiet : Safe replies (fun log => ¬ Refused log) (fun _ _ => True)
      ((outcome workerQueue registry task config).caught joinError) [] := by
    apply Safe.of_calls ((outcome_unsettling workerQueue registry task config).caught joinError)
    · simp [Refused]
    · rintro log call r log' hcall hlog ⟨-, rfl⟩
      rwa [Refused.quiet (hcall.no_refusal r)]
  have hending := hquiet.and (outcome_ending workerQueue registry task config [])
  have hmid : Safe replies (fun _ => True)
      (fun ending log' => ending ≠ .error .cancelled ∧ ¬ Refused log')
      ((outcome workerQueue registry task config).caught joinError) [] :=
    hending.mono (fun _ _ => trivial) fun _ _ hi hp => ⟨hp.2.1, hi.1⟩
  exact (hmid.bind fun _ _ _ hm => afterOutcome_refused hm.1 hm.2).finish h

end Refusal

section Batch

structure Handed where
  task : ClaimedTask
  registry : Option Registry
  log : Log

def Handed.Stops (handed : Handed) : Prop := handed.registry = none ∨ Refused handed.log

structure Batch where
  claimed : List ClaimedTask
  handed : List Handed

def batch (workerQueue : String) : Env ClientCall ClientAnswer Batch := fun b call r b' =>
  match call, r with
  | .getPool, _ => b' = b
  | .claimTask _ _ _ _, .ok tasks => b' = { b with claimed := tasks }
  | .claimTask _ _ _ _, .error _ => b' = b
  | .execute task config, result => ∃ registry log,
    Run replies (executeClaimedCatching workerQueue registry task config) [] (.done result) log ∧
      b' = { b with handed := b.handed ++ [⟨task, registry, log⟩] }

variable {workerQueue : String}

lemma handed_error_iff {registry : Option Registry} {task : ClaimedTask}
    {config : TaskExecutionConfig} {result : Result Unit} {log : Log}
    (h : Run replies (executeClaimedCatching workerQueue registry task config) [] (.done result)
      log) :
    (∃ err, result = .error err) ↔ Handed.Stops ⟨task, registry, log⟩ := by
  cases registry with
  | none =>
    cases h
    simp [Handed.Stops]
  | some registry => simp [Handed.Stops, execution_error_iff h]

lemma executeAll_safe (config : TaskExecutionConfig) (tasks : List ClaimedTask) (b : Batch) :
    Safe (batch workerQueue) (fun _ => True)
      (fun _ b' => ∃ handed, b' = { b with handed := b.handed ++ handed } ∧
        (handed.map Handed.task = tasks ↔
          ∀ (k : ℕ) x, handed[k]? = some x → x.Stops → k + 1 = tasks.length))
      (executeAll config tasks) b := by
  induction tasks generalizing b with
  | nil => exact ⟨trivial, [], by simp, by simp⟩
  | cons task tasks ih =>
    refine ⟨trivial, ?_⟩
    rintro result b' ⟨registry, log, hrun, rfl⟩
    have hstops := handed_error_iff hrun
    cases result with
    | error err =>
      have hx : Handed.Stops ⟨task, registry, log⟩ := hstops.mp ⟨err, rfl⟩
      refine ⟨trivial, [⟨task, registry, log⟩], rfl, ?_⟩
      constructor
      · intro ht k x hk _
        have hnil : tasks = [] := (List.cons.inj ht).2.symm
        have hk' := (List.getElem?_eq_some_iff.mp hk).1
        simp only [List.length_singleton] at hk'
        simp only [hnil, List.length_singleton]
        omega
      · intro hall
        have hlast := hall 0 _ rfl hx
        simp only [List.length_cons] at hlast
        rw [List.eq_nil_of_length_eq_zero (by omega : tasks.length = 0)]
        rfl
    | ok =>
      have hx : ¬ Handed.Stops ⟨task, registry, log⟩ := by simp [← hstops]
      apply (ih _).mono (fun _ _ => trivial)
      rintro result b' - ⟨handed, rfl, hiff⟩
      refine ⟨⟨task, registry, log⟩ :: handed, by simp, ?_⟩
      simp only [List.map_cons, List.cons.injEq, true_and, hiff, List.length_cons]
      constructor
      · intro hall k x hk hs
        cases k with
        | zero => exact absurd (Option.some.inj hk ▸ hs) hx
        | succ k =>
          have hlast := hall k x hk hs
          omega
      · intro hall k x hk hs
        have hlast := hall (k + 1) x hk hs
        omega

lemma claimTasks_safe (queueName workerId : String) (seconds size : ℕ) :
    Safe (batch workerQueue) (fun _ => True)
      (fun r b => b.handed = [] ∧ match r with
        | .ok tasks => b.claimed = tasks
        | .error _ => b.claimed = [])
      (claimTasks queueName workerId seconds size) ⟨[], []⟩ := by
  refine ⟨trivial, ?_⟩
  rintro (err | _) b rfl
  · exact ⟨trivial, rfl, rfl⟩
  · refine ⟨trivial, ?_⟩
    rintro (err | tasks) b rfl
    · exact ⟨trivial, rfl, rfl⟩
    · exact ⟨trivial, rfl, rfl⟩

lemma workBatch_safe (client : Client) (debug : Error → String) (options : WorkBatchOptions) :
    Safe (batch client.queueName) (fun _ => True)
      (fun _ b => b.handed.map Handed.task = b.claimed ↔
        ∀ (k : ℕ) x, b.handed[k]? = some x → x.Stops → k + 1 = b.claimed.length)
      (client.workBatch debug options) ⟨[], []⟩ := by
  simp only [Client.workBatch]
  cases options.claimTimeoutSeconds with
  | error err => simp
  | ok seconds =>
    apply (claimTasks_safe client.queueName _ seconds _).bind
    rintro (err | tasks) b - ⟨hh, hc⟩
    · refine ⟨trivial, ?_⟩
      dsimp only at hc
      simp [hh, hc]
    · apply (executeAll_safe _ tasks b).bind
      rintro result b' - ⟨handed, rfl, hiff⟩
      have hpost : (b.handed ++ handed).map Handed.task = b.claimed ↔
          ∀ (k : ℕ) x, (b.handed ++ handed)[k]? = some x → x.Stops → k + 1 = b.claimed.length := by
        rw [hh, List.nil_append, show b.claimed = tasks from hc]
        exact hiff
      cases result with
      | error err => exact ⟨trivial, hpost⟩
      | ok => exact ⟨trivial, hpost⟩

/-- A batch hands over every claimed task, in the order of the claim and once each, exactly when no
execution before the last one is stopped by a refused settlement. -/
theorem batch_complete_iff (client : Client) (debug : Error → String) (options : WorkBatchOptions)
    {result : Result ℕ} {b : Batch}
    (h : Run (batch client.queueName) (client.workBatch debug options) ⟨[], []⟩ (.done result) b) :
    b.handed.map Handed.task = b.claimed ↔
      ∀ (k : ℕ) x, b.handed[k]? = some x → x.Stops → k + 1 = b.claimed.length :=
  (workBatch_safe client debug options).finish h

def sampleClient : Client := ⟨"default", ⟨none⟩⟩

def sampleBatch : WorkBatchOptions where
  workerId := none
  claimTimeout := Duration.fromSecs 120
  batchSize := 2
  unknownTaskPolicy := .defer

def returning : Registry := fun _ => some ⟨"default", fun _ _ => .done (.ok .null)⟩

lemma sample_batch : ∃ result b,
    Run (batch sampleClient.queueName) (sampleClient.workBatch Error.toString sampleBatch) ⟨[], []⟩
      (.done result) b ∧
    b.claimed = [sampleTask, sampleTask] ∧ b.handed.map Handed.task = [sampleTask] := by
  have hexecution : Reaches replies (fun result _ => ∃ err, result = .error err)
      (executeClaimedCatching "default" (some returning) sampleTask
        ⟨⟨none⟩, sampleBatch.claimTimeout, .defer, false, false, Error.toString⟩) [] :=
    ⟨(), _, ⟨trivial, rfl⟩, Except.ok (), _, ⟨trivial, rfl⟩, Except.ok [], _, ⟨trivial, rfl⟩,
      (), _, ⟨trivial, rfl⟩, Except.ok (), _, ⟨trivial, rfl⟩,
      Except.error ⟨none, "connection closed"⟩, _, ⟨trivial, rfl⟩, _, rfl⟩
  have hbatch : Reaches (batch sampleClient.queueName)
      (fun _ b => b.claimed = [sampleTask, sampleTask] ∧ b.handed.map Handed.task = [sampleTask])
      (sampleClient.workBatch Error.toString sampleBatch) ⟨[], []⟩ := by
    refine ⟨Except.ok (), _, rfl, Except.ok [sampleTask, sampleTask], _, rfl, ?_⟩
    obtain ⟨result, log, hrun, err, rfl⟩ := hexecution.exists_run
    exact ⟨Except.error err, _, ⟨some returning, log, hrun, rfl⟩, rfl, rfl⟩
  obtain ⟨result, b, hrun, hb⟩ := hbatch.exists_run
  exact ⟨result, b, hrun, hb⟩

theorem batch_drops_task : ¬ ∀ (client : Client) (debug : Error → String)
    (options : WorkBatchOptions) result b,
    Run (batch client.queueName) (client.workBatch debug options) ⟨[], []⟩ (.done result) b →
      b.handed.map Handed.task = b.claimed := by
  intro hall
  obtain ⟨result, b, hrun, hc, hh⟩ := sample_batch
  have htwo := hall sampleClient Error.toString sampleBatch result b hrun
  rw [hc, hh] at htwo
  simp at htwo

theorem batch_complete_iff_sample : ∃ result b,
    Run (batch sampleClient.queueName) (sampleClient.workBatch Error.toString sampleBatch) ⟨[], []⟩
      (.done result) b ∧
    b.claimed = [sampleTask, sampleTask] ∧ b.handed.map Handed.task = [sampleTask] ∧
    ∃ (k : ℕ) (x : Handed), b.handed[k]? = some x ∧ x.Stops ∧ k + 1 ≠ b.claimed.length := by
  obtain ⟨result, b, hrun, hc, hh⟩ := sample_batch
  refine ⟨result, b, hrun, hc, hh, ?_⟩
  by_contra! hall
  have htwo := (batch_complete_iff sampleClient _ _ hrun).mpr hall
  rw [hc, hh] at htwo
  simp at htwo

end Batch

end AbsurdSdk.Execution
