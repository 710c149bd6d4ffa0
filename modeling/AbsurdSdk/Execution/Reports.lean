import AbsurdSdk.Execution.Batch
import AbsurdSdk.Execution.WorkerLoop

namespace AbsurdSdk.Execution

open Interaction Model Program

section Tally

def report? : (Σ call : ExecutorCall, ExecutorAnswer call) → Option (WorkerErrorKind × Error)
  | ⟨.onError kind err, _⟩ => some (kind, err)
  | _ => none

def accepted (payload : Json) : Except PgError Unit → Option Json
  | .ok () => some payload
  | .error _ => none

def failure? : (Σ call : ExecutorCall, ExecutorAnswer call) → Option Json
  | ⟨.settle (.failRun _ _ payload _), r⟩ => accepted payload r
  | _ => none

def errorOf : Result Unit → Option Error
  | .ok () => none
  | .error err => some err

def settlingError? : (Σ call : ExecutorCall, ExecutorAnswer call) → Option Error
  | ⟨.getPool _, r⟩ => errorOf (Except.mapError .pool r)
  | ⟨.settle _, r⟩ => errorOf (Except.mapError mapDatabaseError r)
  | _ => none

def reports (log : Log) : List (WorkerErrorKind × Error) := log.filterMap report?

def failures (log : Log) : List Json := log.filterMap failure?

def settlingErrors (log : Log) : List Error := log.filterMap settlingError?

def recorded : Settlement → Result Unit → List Json
  | .failRun _ _ payload _, .ok () => [payload]
  | _, _ => []

structure Blank (log : Log) : Prop where
  attempted : attempts log = []
  failed : failures log = []
  errors : settlingErrors log = []
  reported : reports log = []

structure Tally (s : Settlement) (r : Result Unit) (err : Option Error) (log : Log) : Prop where
  attempted : attempts log = [s]
  failed : failures log = recorded s r
  errors : settlingErrors log = (errorOf r).toList
  reported : reports log = err.toList.map (Prod.mk .execution)

variable {s : Settlement} {log : Log}

lemma settle_tally (h : Blank log) :
    Safe replies (fun _ => True) (fun r log' => Tally s r none log') (settle s) log := by
  have hrefused : ∀ err, recorded s (.error err) = [] := fun err => by cases s <;> rfl
  refine ⟨trivial, ?_⟩
  rintro (err | _) log' ⟨-, rfl⟩
  · refine ⟨trivial, congrArg (s :: ·) h.attempted, ?_, congrArg (Error.pool err :: ·) h.errors,
      h.reported⟩
    rw [hrefused]
    exact h.failed
  refine ⟨trivial, ?_⟩
  rintro (err | _) log'' ⟨-, rfl⟩
  · have hfailure : failure? ⟨.settle s, .error err⟩ = none := by cases s <;> rfl
    refine ⟨trivial, congrArg (s :: ·) h.attempted, ?_,
      congrArg (mapDatabaseError err :: ·) h.errors, h.reported⟩
    change _ = recorded s (.error (mapDatabaseError err))
    rw [hrefused, failures, List.filterMap_cons_none hfailure]
    exact h.failed
  · refine ⟨trivial, congrArg (s :: ·) h.attempted, ?_, h.errors, h.reported⟩
    cases s with
    | failRun queueName runId payload retryAt => exact congrArg (payload :: ·) h.failed
    | completeRun | scheduleRunIn => exact h.failed

lemma Tally.report {r : Result Unit} {err : Error} {reply : ExecutorAnswer (.onError .execution err)}
    (h : Tally s r none log) : Tally s r (some err) (⟨.onError .execution err, reply⟩ :: log) := by
  refine ⟨h.attempted, h.failed, h.errors, ?_⟩
  simpa [reports, report?] using h.reported

end Tally

section Execution

variable {workerQueue : String} {registry : Registry} {task : ClaimedTask}
  {config : TaskExecutionConfig} {log : Log}

def reportOf : Except JoinError Outcome → Option Error
  | .ok (.executed (.error err)) => if err.isControlFlow then none else some err
  | .error (.panic message) => some (.message ("task panicked: " ++ message))
  | _ => none

def Concluded (workerQueue : String) (task : ClaimedTask) (config : TaskExecutionConfig)
    (ending : Except JoinError Outcome) (result : Result Unit) (log : Log) : Prop :=
  match settlementOf workerQueue task config ending with
  | none => result = .ok () ∧ Blank log
  | some s => ∃ r, result = resultOf s r ∧ Tally s r (reportOf ending) log

lemma settleOutcome_tally (o : Outcome) (honError : config.onError = true) (h : Blank log) :
    Safe replies (fun _ => True) (fun r log' => ∃ result, r = .ok result ∧
        Concluded workerQueue task config (.ok o) result log')
      ((settleOutcome workerQueue task config o).caught joinError) log := by
  have hsettle : ∀ s (f : Result Unit → Result Unit),
      settlementOf workerQueue task config (.ok o) = some s → reportOf (.ok o) = none →
      (∀ r, f r = resultOf s r) → Safe replies (fun _ => True)
        (fun r log' => ∃ result, r = .ok result ∧
          Concluded workerQueue task config (.ok o) result log')
        (((settle s).bind fun r => .done (f r)).caught joinError) log := by
    intro s f hs hnone hf
    rw [caught_settle_bind]
    apply (settle_tally h).bind
    intro r log' _ ht
    refine ⟨trivial, f r, rfl, ?_⟩
    rw [Concluded, hs, hnone]
    exact ⟨r, hf r, ht⟩
  cases o with
  | unregistered =>
    simp only [settleOutcome, handleUnknownTask]
    cases hp : config.unknownTaskPolicy with
    | fail =>
      simp only [failRunPayload_eq]
      apply hsettle
      · simp only [settlementOf, hp]
      · rfl
      · exact fun _ => rfl
    | defer =>
      dsimp only
      rw [← bind_done (settle _)]
      apply hsettle _ id
      · simp only [settlementOf, hp]
      · rfl
      · exact fun _ => rfl
  | queueMismatch err =>
    simp only [settleOutcome, failRunError, failRunPayload_eq]
    exact hsettle _ _ rfl rfl fun _ => rfl
  | executed result =>
    cases result with
    | ok value =>
      simp only [settleOutcome, completeRun_eq]
      exact hsettle _ _ rfl rfl fun _ => rfl
    | error err =>
      by_cases hflow : err.isControlFlow = true
      · simp only [settleOutcome, hflow, if_true]
        refine ⟨trivial, _, rfl, ?_⟩
        simp only [Concluded, settlementOf, hflow, if_true]
        exact ⟨trivial, h⟩
      · simp only [settleOutcome, hflow, Bool.false_eq_true, if_false, failRunError,
          failRunPayload_eq, Program.bind_assoc, done_bind, caught_settle_bind, honError]
        apply (settle_tally h).bind
        intro r log' _ ht
        refine ⟨trivial, ?_⟩
        rintro reply log'' ⟨rfl, rfl⟩
        refine ⟨trivial, absorbRace r, rfl, ?_⟩
        simp only [Concluded, settlementOf, hflow, Bool.false_eq_true, if_false, reportOf]
        exact ⟨r, rfl, ht.report⟩

lemma afterOutcome_tally {ending : Except JoinError Outcome} (hc : ending ≠ .error .cancelled)
    (honError : config.onError = true) (h : Blank log) :
    Safe replies (fun _ => True) (fun joined log' => ∃ result, joined = .ok result ∧
        Concluded workerQueue task config ending result log')
      ((afterOutcome workerQueue task config ending).caught joinError) log := by
  rcases ending with (message | _) | o
  · simp only [afterOutcome, afterJoin, failRunPayload_eq, Program.bind_assoc, done_bind, honError,
      caught_settle_bind]
    apply (settle_tally h).bind
    intro r log' _ ht
    refine ⟨trivial, ?_⟩
    rintro reply log'' ⟨rfl, rfl⟩
    exact ⟨trivial, _, rfl, r, rfl, ht.report⟩
  · exact absurd rfl hc
  · simp only [afterOutcome, caught_bind_caught]
    apply (settleOutcome_tally o honError h).bind
    rintro r log' - ⟨result, rfl, hr⟩
    exact ⟨trivial, result, rfl, hr⟩

lemma outcome_blank (workerQueue : String) (registry : Registry) (task : ClaimedTask)
    (config : TaskExecutionConfig) :
    Safe replies Blank (fun _ _ => True)
      ((outcome workerQueue registry task config).caught joinError) [] := by
  have hcalls : (outcome workerQueue registry task config).Calls fun call => ∀ r,
      attempt? ⟨call, r⟩ = none ∧ failure? ⟨call, r⟩ = none ∧ settlingError? ⟨call, r⟩ = none ∧
        report? ⟨call, r⟩ = none :=
    outcome_calls (fun _ _ => ⟨rfl, rfl, rfl, rfl⟩) (fun _ _ _ _ => ⟨rfl, rfl, rfl, rfl⟩)
      (fun _ => ⟨rfl, rfl, rfl, rfl⟩) workerQueue registry task config
  apply Safe.of_calls (hcalls.caught joinError) ⟨rfl, rfl, rfl, rfl⟩
  rintro log call r log' hcall h ⟨-, rfl⟩
  obtain ⟨hattempt, hfailure, herror, hreport⟩ := hcall r
  constructor
  · rw [attempts, List.filterMap_cons_none hattempt]
    exact h.attempted
  · rw [failures, List.filterMap_cons_none hfailure]
    exact h.failed
  · rw [settlingErrors, List.filterMap_cons_none herror]
    exact h.errors
  · rw [reports, List.filterMap_cons_none hreport]
    exact h.reported

def Possible (workerQueue : String) (registry : Registry) (task : ClaimedTask) :
    Except JoinError Outcome → Prop
  | .ok .unregistered => registry task.taskName = none
  | .ok (.queueMismatch _) => ∃ registration, registry task.taskName = some registration ∧
      registration.queueName ≠ workerQueue
  | .ok (.executed _) | .error (.panic _) => ∃ registration,
      registry task.taskName = some registration ∧ registration.queueName = workerQueue
  | .error .cancelled => False

lemma outcome_possible (log : Log) :
    Safe replies (fun _ => True) (fun ending _ => Possible workerQueue registry task ending)
      ((outcome workerQueue registry task config).caught joinError) log := by
  apply outcome_ends
  · exact id
  · exact fun registration hr hq => ⟨registration, hr, hq⟩
  · exact fun registration _ hr hq => ⟨registration, hr, hq⟩
  · exact fun registration _ hr hq => ⟨registration, hr, hq⟩

lemma execution_concluded {joined : Joined} (honError : config.onError = true)
    (h : Run replies
      ((executeClaimedCatching workerQueue (some registry) task config).caught joinError) []
      (.done joined) log) :
    ∃ ending result, joined = .ok result ∧ Possible workerQueue registry task ending ∧
      Concluded workerQueue task config ending result log := by
  rw [executeClaimedCatching_eq, caught_bind_caught] at h
  have hmid : Safe replies (fun _ => True)
      (fun ending log => Blank log ∧ Possible workerQueue registry task ending)
      ((outcome workerQueue registry task config).caught joinError) [] :=
    ((outcome_blank workerQueue registry task config).and (outcome_possible [])).mono
      (fun _ _ => trivial) fun _ _ hblank hp => ⟨hblank.1, hp.2⟩
  have hpost : Safe replies (fun _ => True)
      (fun joined log => ∃ ending result, joined = .ok result ∧
        Possible workerQueue registry task ending ∧
        Concluded workerQueue task config ending result log)
      (((outcome workerQueue registry task config).caught joinError).bind fun ending =>
        (afterOutcome workerQueue task config ending).caught joinError) [] := by
    apply hmid.bind
    rintro ending log - ⟨hblank, hp⟩
    have hc : ending ≠ .error .cancelled := by
      rintro rfl
      exact hp
    apply (afterOutcome_tally hc honError hblank).mono (fun _ _ => trivial)
    rintro joined log - ⟨result, rfl, hconcluded⟩
    exact ⟨ending, result, rfl, hp, hconcluded⟩
  exact hpost.finish h

def Describes (debug : Error → String) (err : Error) (payload : Json) : Prop :=
  payload = errorFailurePayload debug err ∨
    ∃ message, err = .message ("task panicked: " ++ message) ∧ payload = panicPayload message

lemma reportOf_describes {ending : Except JoinError Outcome} {err : Error}
    (h : reportOf ending = some err) : ∃ payload,
      settlementOf workerQueue task config ending =
        some (.failRun workerQueue task.runId payload none) ∧
      Describes config.debug err payload := by
  rcases ending with (message | _) | _ | mismatch | error | value
  · obtain rfl := Option.some.inj h
    exact ⟨_, rfl, Or.inr ⟨message, rfl, rfl⟩⟩
  · cases h
  · cases h
  · cases h
  · simp only [reportOf, settlementOf] at h ⊢
    split at h
    · cases h
    · obtain rfl := Option.some.inj h
      exact ⟨_, if_neg ‹_›, Or.inl rfl⟩
  · cases h

def Reportable (workerQueue : String) (registry : Option Registry) (task : ClaimedTask)
    (policy : UnknownTaskPolicy) : Prop :=
  match registry with
  | none => True
  | some registry => match registry task.taskName with
    | none => policy = .defer
    | some registration => registration.queueName = workerQueue

lemma failRun_reported {ending : Except JoinError Outcome} {queueName : String} {runId : Uuid}
    {payload : Json} {retryAt : Option DateTime}
    (hr : Reportable workerQueue (some registry) task config.unknownTaskPolicy)
    (hp : Possible workerQueue registry task ending)
    (hs : settlementOf workerQueue task config ending =
      some (.failRun queueName runId payload retryAt)) :
    ∃ err, reportOf ending = some err ∧ Describes config.debug err payload := by
  have hreport : ∃ err, reportOf ending = some err := by
    rcases ending with (message | _) | _ | mismatch | error | value
    · exact ⟨_, rfl⟩
    · cases hs
    · have hnone : registry task.taskName = none := hp
      simp only [Reportable, hnone] at hr
      simp [settlementOf, hr] at hs
    · obtain ⟨registration, hregistered, hq⟩ := hp
      simp only [Reportable, hregistered] at hr
      exact absurd hr hq
    · simp only [settlementOf] at hs
      split at hs
      · cases hs
      · exact ⟨error, if_neg ‹_›⟩
    · cases hs
  obtain ⟨err, herr⟩ := hreport
  obtain ⟨payload', hs', hd⟩ :=
    (reportOf_describes herr : ∃ payload, settlementOf workerQueue task config ending =
      some (.failRun workerQueue task.runId payload none) ∧ Describes config.debug err payload)
  rw [hs] at hs'
  cases hs'
  exact ⟨err, herr, hd⟩

def joinedReport : Joined → Option Error
  | .ok result => errorOf result
  | .error err => some (.join err.toString)

/-- Every failure that was recorded is reported once, by the execution, and every settling error
that is not a lost race once, by the worker loop. There are no other reports than that of the
failure the execution wanted recorded, and that of the settling error. -/
structure ReportedOnce (debug : Error → String) (joined : Joined) (log : Log) : Prop where
  failure : ∀ payload ∈ failures log, joinedReport joined = none ∧
    ∃ err, Describes debug err payload ∧ reports log = [(.execution, err)]
  settling : ∀ err ∈ settlingErrors log, err.isTerminalStateRace = false →
    joinedReport joined = some err
  own : ∀ report ∈ reports log, reports log = [report] ∧ report.1 = .execution ∧
    ∃ queueName runId payload retryAt, attempts log = [.failRun queueName runId payload retryAt] ∧
      Describes debug report.2 payload
  joined : ∀ err, joinedReport joined = some err → settlingErrors log = [err] ∨
    log = [] ∧ err = .config "task registry lock poisoned"

lemma mem_recorded {s : Settlement} {r : Result Unit} {payload : Json}
    (h : payload ∈ recorded s r) :
    r = .ok () ∧ ∃ queueName runId retryAt, s = .failRun queueName runId payload retryAt := by
  cases s with
  | failRun queueName runId payload' retryAt =>
    cases r with
    | error err => cases h
    | ok =>
      obtain rfl := List.mem_singleton.mp h
      exact ⟨rfl, _, _, _, rfl⟩
  | completeRun | scheduleRunIn => cases r <;> cases h

lemma resultOf_kept {s : Settlement} {err : Error} (h : err.isTerminalStateRace = false) :
    resultOf s (.error err) = .error err := by
  cases s <;> simp [resultOf, absorbRace, h]

lemma resultOf_error {s : Settlement} {r : Result Unit} {err : Error}
    (h : resultOf s r = .error err) : r = .error err := by
  rcases r with err' | _
  · have habsorbed : ∀ err'', absorbRace (.error err') = .error err'' → err' = err'' := by
      intro err'' hr
      simp only [absorbRace] at hr
      split at hr
      · cases hr
      · exact Except.error.inj hr
    cases s with
    | scheduleRunIn => exact h
    | completeRun | failRun => exact congrArg _ (habsorbed err h)
  · cases s <;> cases h

lemma errorOf_eq_some {r : Result Unit} {err : Error} : errorOf r = some err ↔ r = .error err := by
  cases r <;> simp [errorOf]

lemma Concluded.reportedOnce {ending : Except JoinError Outcome} {result : Result Unit}
    (h : Concluded workerQueue task config ending result log)
    (hp : Possible workerQueue registry task ending)
    (hr : Reportable workerQueue (some registry) task config.unknownTaskPolicy) :
    ReportedOnce config.debug (.ok result) log := by
  rw [Concluded] at h
  cases hs : settlementOf workerQueue task config ending with
  | none =>
    rw [hs] at h
    obtain ⟨rfl, hblank⟩ := h
    constructor
    · simp [hblank.failed]
    · simp [hblank.errors]
    · simp [hblank.reported]
    · exact fun err he => nomatch he
  | some s =>
    rw [hs] at h
    obtain ⟨r, rfl, ht⟩ := h
    constructor
    · intro payload hmem
      rw [ht.failed] at hmem
      obtain ⟨rfl, queueName, runId, retryAt, rfl⟩ := mem_recorded hmem
      obtain ⟨err, herr, hd⟩ := failRun_reported hr hp hs
      refine ⟨rfl, err, hd, ?_⟩
      rw [ht.reported, herr]
      rfl
    · intro err hmem hrace
      rw [ht.errors, Option.mem_toList, errorOf_eq_some] at hmem
      rw [hmem, joinedReport, resultOf_kept hrace]
      rfl
    · intro report hmem
      rw [ht.reported] at hmem ⊢
      obtain ⟨err, herr, rfl⟩ := List.mem_map.mp hmem
      rw [Option.mem_toList] at herr
      obtain ⟨payload, hs', hd⟩ := reportOf_describes herr
      rw [hs] at hs'
      obtain rfl := Option.some.inj hs'
      rw [herr]
      exact ⟨rfl, rfl, _, _, payload, _, ht.attempted, hd⟩
    · intro err he
      rw [joinedReport, errorOf_eq_some] at he
      rw [ht.errors, resultOf_error he]
      exact Or.inl rfl

end Execution

section Loop

def workerConfig (hooks : Hooks) (debug : Error → String) (options : NormalizedWorkerOptions) :
    TaskExecutionConfig where
  hooks := hooks
  claimTimeout := options.claimTimeout
  unknownTaskPolicy := options.unknownTaskPolicy
  fatalOnLeaseTimeout := options.fatalOnLeaseTimeout
  onError := true
  debug := debug

structure Finished where
  task : ClaimedTask
  registry : Option Registry
  joined : Joined
  log : Log

structure Desk where
  running : List (ClaimedTask × TaskExecutionConfig)
  finished : List Finished
  reported : List (WorkerErrorKind × Error)

namespace Desk

def start : Desk := ⟨[], [], []⟩

def owed (d : Desk) : List Error := d.finished.filterMap fun e => joinedReport e.joined

def executionErrors (d : Desk) : List Error :=
  d.reported.filterMap fun report => if report.1 = .execution then some report.2 else none

end Desk

def Finishes (workerQueue : String) (d : Desk) (joined : Joined) (d' : Desk) : Prop :=
  ∃ before task config after registry log, d.running = before ++ (task, config) :: after ∧
    Run replies ((executeClaimedCatching workerQueue registry task config).caught joinError) []
      (.done joined) log ∧
    d' = { d with running := before ++ after, finished := ⟨task, registry, joined, log⟩ :: d.finished }

def Picks (workerQueue : String) (d : Desk) : Selected → Desk → Prop
  | .changed _, d' => d' = d
  | .joined none, d' => d.running = [] ∧ d' = d
  | .joined (some joined), d' => Finishes workerQueue d joined d'

def desk (workerQueue : String) : Env WorkerCall WorkerAnswer Desk := fun d call r d' =>
  match call, r with
  | .tryJoinNext, none => d' = d
  | .tryJoinNext, some joined => Finishes workerQueue d joined d'
  | .joinNext, none => d.running = [] ∧ d' = d
  | .joinNext, some joined => Finishes workerQueue d joined d'
  | .spawn task config, _ => d' = { d with running := d.running ++ [(task, config)] }
  | .select _, r => Picks workerQueue d r d'
  | .selectOrSleep _ _, none => d' = d
  | .selectOrSleep _ _, some r => Picks workerQueue d r d'
  | .onError kind err, r => r = (.ok () : Except String Unit) ∧
      d' = { d with reported := (kind, err) :: d.reported }
  | _, _ => d' = d

variable {workerQueue : String} {config : TaskExecutionConfig} {d d' : Desk}

structure Orderly (workerQueue : String) (config : TaskExecutionConfig) (d : Desk) : Prop where
  running : ∀ x ∈ d.running, x.2 = config
  finished : ∀ e ∈ d.finished, Run replies
    ((executeClaimedCatching workerQueue e.registry e.task config).caught joinError) []
    (.done e.joined) e.log

def Even (workerQueue : String) (config : TaskExecutionConfig) (d : Desk) : Prop :=
  Orderly workerQueue config d ∧ d.executionErrors = d.owed

def Behind (workerQueue : String) (config : TaskExecutionConfig) (d : Desk) : Prop :=
  Orderly workerQueue config d ∧
    (d.executionErrors = d.owed ∨ ∃ err, d.owed = err :: d.executionErrors)

lemma Even.behind (h : Even workerQueue config d) : Behind workerQueue config d :=
  ⟨h.1, Or.inl h.2⟩

lemma Orderly.pays {err : Error} (h : Orderly workerQueue config d)
    (howed : d.owed = err :: d.executionErrors) :
    Even workerQueue config { d with reported := (.execution, err) :: d.reported } :=
  ⟨⟨h.running, h.finished⟩, howed.symm⟩

lemma joined_ok {registry : Option Registry} {task : ClaimedTask} {joined : Joined} {log : Log}
    (honError : config.onError = true)
    (h : Run replies ((executeClaimedCatching workerQueue registry task config).caught joinError) []
      (.done joined) log) : ∃ result, joined = .ok result := by
  cases registry with
  | none =>
    cases h
    exact ⟨_, rfl⟩
  | some registry =>
    obtain ⟨ending, result, rfl, -⟩ := execution_concluded honError h
    exact ⟨result, rfl⟩

abbrev KeepsEven {β : Type} (workerQueue : String) (config : TaskExecutionConfig)
    (p : WorkerM (Result β)) (d : Desk) : Prop :=
  Safe (desk workerQueue) (Behind workerQueue config)
    (fun r d => Even workerQueue config d ∧ ∃ b, r = .ok b) p d

lemma finishes_reported (honError : config.onError = true) {joined : Joined}
    (h : Even workerQueue config d) (hf : Finishes workerQueue d joined d') :
    KeepsEven workerQueue config (reportTaskResult joined) d' := by
  obtain ⟨before, task, config', after, registry, log, hrunning, hrun, rfl⟩ := hf
  obtain ⟨horderly, heven⟩ := h
  have hconfig : config' = config := by
    apply horderly.running (task, config')
    rw [hrunning]
    exact List.mem_append_right _ List.mem_cons_self
  subst hconfig
  obtain ⟨result, rfl⟩ := joined_ok honError hrun
  have horderly' : Orderly workerQueue config'
      { d with running := before ++ after
               finished := ⟨task, registry, .ok result, log⟩ :: d.finished } := by
    constructor
    · intro x hx
      apply horderly.running x
      rw [hrunning]
      rcases List.mem_append.mp hx with hbefore | hafter
      · exact List.mem_append_left _ hbefore
      · exact List.mem_append_right _ (List.mem_cons_of_mem _ hafter)
    · intro e he
      rcases List.mem_cons.mp he with rfl | he
      · exact hrun
      · exact horderly.finished e he
  cases result with
  | ok =>
    have hpost : Even workerQueue config' _ := ⟨horderly', heven⟩
    exact ⟨hpost.behind, hpost, (), rfl⟩
  | error err =>
    have howed := congrArg (err :: ·) heven.symm
    refine ⟨⟨horderly', Or.inr ⟨err, howed⟩⟩, ?_⟩
    rintro r d'' ⟨rfl, rfl⟩
    have hpost := horderly'.pays howed
    exact ⟨hpost.behind, hpost, (), rfl⟩

lemma drainFinished_even (honError : config.onError = true) (turns : ℕ)
    (h : Even workerQueue config d) :
    KeepsEven workerQueue config (drainFinished turns) d := by
  induction turns generalizing d with
  | zero => exact ⟨h.behind, fun r => r.elim⟩
  | succ turns ih =>
    refine ⟨h.behind, ?_⟩
    rintro (_ | joined) d' he
    · obtain rfl : d' = d := he
      exact ⟨h.behind, h, (), rfl⟩
    · apply (finishes_reported honError h he).bind
      rintro r d'' - ⟨heven, _, rfl⟩
      exact ih heven

lemma joinAll_even (honError : config.onError = true) (turns : ℕ)
    (h : Even workerQueue config d) :
    Safe (desk workerQueue) (Behind workerQueue config)
      (fun _ d => Even workerQueue config d ∧ d.running = []) (joinAll turns) d := by
  induction turns generalizing d with
  | zero => exact ⟨h.behind, fun r => r.elim⟩
  | succ turns ih =>
    refine ⟨h.behind, ?_⟩
    rintro (_ | joined) d' he
    · obtain ⟨hempty, rfl⟩ : d.running = [] ∧ d' = d := he
      exact ⟨h.behind, h, hempty⟩
    · apply (finishes_reported honError h he).bind
      rintro r d'' - ⟨heven, _, rfl⟩
      exact ih heven

lemma afterSelect_even (honError : config.onError = true) {selected : Selected}
    (h : Even workerQueue config d) (hp : Picks workerQueue d selected d') :
    KeepsEven workerQueue config (afterSelect selected) d' := by
  rcases selected with isErr | _ | joined
  · obtain rfl : d' = d := hp
    rw [afterSelect]
    split
    · exact ⟨h.behind, h, _, rfl⟩
    · refine ⟨h.behind, ?_⟩
      rintro r d'' rfl
      exact ⟨h.behind, h, _, rfl⟩
  · obtain ⟨-, rfl⟩ : d.running = [] ∧ d' = d := hp
    exact ⟨h.behind, h, _, rfl⟩
  · apply (finishes_reported honError h hp).bind
    rintro r d'' - ⟨heven, _, rfl⟩
    exact ⟨heven.behind, heven, _, rfl⟩

lemma waitForCapacityOrShutdown_even (honError : config.onError = true)
    (h : Even workerQueue config d) :
    KeepsEven workerQueue config waitForCapacityOrShutdown d := by
  refine ⟨h.behind, ?_⟩
  rintro r d' rfl
  refine ⟨h.behind, ?_⟩
  intro selected d'' he
  exact afterSelect_even honError h he

lemma waitPollIntervalOrShutdown_even (honError : config.onError = true) (pollInterval : Duration)
    (h : Even workerQueue config d) :
    KeepsEven workerQueue config (waitPollIntervalOrShutdown pollInterval) d := by
  refine ⟨h.behind, ?_⟩
  rintro r d' rfl
  refine ⟨h.behind, ?_⟩
  rintro (_ | selected) d'' he
  · obtain rfl : d'' = d' := he
    exact ⟨h.behind, h, _, rfl⟩
  · exact afterSelect_even honError h he

lemma spawnAll_even (tasks : List ClaimedTask) (h : Even workerQueue config d) :
    Safe (desk workerQueue) (Behind workerQueue config) (fun _ => Even workerQueue config)
      (spawnAll config tasks) d := by
  induction tasks generalizing d with
  | nil => exact ⟨h.behind, h⟩
  | cons task tasks ih =>
    refine ⟨h.behind, ?_⟩
    rintro r d' rfl
    apply ih
    refine ⟨⟨?_, h.1.finished⟩, h.2⟩
    intro x hx
    rcases List.mem_append.mp hx with hold | hnew
    · exact h.1.running x hold
    · exact congrArg Prod.snd (List.mem_singleton.mp hnew)

lemma workerLoop_even (queueName : String) (hooks : Hooks) (debug : Error → String)
    (options : NormalizedWorkerOptions) (turns : ℕ)
    (h : Even workerQueue (workerConfig hooks debug options) d) :
    Safe (desk workerQueue) (Behind workerQueue (workerConfig hooks debug options))
      (fun _ d => Even workerQueue (workerConfig hooks debug options) d ∧ d.running = [])
      (workerLoop queueName hooks debug options turns) d := by
  induction turns generalizing d with
  | zero => exact ⟨h.behind, fun r => r.elim⟩
  | succ turns ih =>
    have hwait : ∀ {p : WorkerM (Result Bool)} {d},
        KeepsEven workerQueue (workerConfig hooks debug options) p d →
        ∀ next, Resumes (workerLoop queueName hooks debug options turns) turns next →
          Safe (desk workerQueue) (Behind workerQueue (workerConfig hooks debug options))
            (fun _ d => Even workerQueue (workerConfig hooks debug options) d ∧ d.running = [])
            (p.bind next) d := by
      intro p d hp next hresumes
      apply hp.bind
      rintro r d' - ⟨heven, b, rfl⟩
      cases b with
      | true =>
        rw [hresumes.shutdown]
        exact joinAll_even rfl turns heven
      | false =>
        rw [hresumes.again]
        exact ih heven
    apply (drainFinished_even rfl turns h).bind
    rintro r d - ⟨h, _, rfl⟩
    refine ⟨h.behind, ?_⟩
    rintro signalled d' rfl
    cases signalled with
    | true => exact joinAll_even rfl turns h
    | false =>
      refine ⟨h.behind, ?_⟩
      rintro (len : ℕ) d'' rfl
      change Safe _ _ _ (if options.concurrency - len = 0 then _ else _) _
      split
      · exact hwait (waitForCapacityOrShutdown_even rfl h) _ ⟨fun _ => rfl, rfl, rfl⟩
      · refine ⟨h.behind, ?_⟩
        rintro r d' rfl
        refine ⟨h.behind, ?_⟩
        rintro reply d'' rfl
        rcases reply with err | _ | ⟨task, tasks⟩
        · refine ⟨h.behind, ?_⟩
          rintro r d' ⟨rfl, rfl⟩
          have heven : Even workerQueue (workerConfig hooks debug options)
              { d'' with reported := (.claim, err) :: d''.reported } :=
            ⟨⟨h.1.running, h.1.finished⟩, h.2⟩
          exact hwait (waitPollIntervalOrShutdown_even rfl _ heven) _ ⟨fun _ => rfl, rfl, rfl⟩
        · exact hwait (waitPollIntervalOrShutdown_even rfl _ h) _ ⟨fun _ => rfl, rfl, rfl⟩
        · apply (spawnAll_even (task :: tasks) h).bind
          rintro _ d' - heven
          exact ih heven

end Loop

section Worker

variable {workerQueue : String} {registry : Option Registry} {task : ClaimedTask}
  {config : TaskExecutionConfig}

lemma reported_once {joined : Joined} {log : Log} (honError : config.onError = true)
    (hr : Reportable workerQueue registry task config.unknownTaskPolicy)
    (h : Run replies ((executeClaimedCatching workerQueue registry task config).caught joinError) []
      (.done joined) log) : ReportedOnce config.debug joined log := by
  cases registry with
  | none =>
    cases h
    constructor
    · exact fun payload hmem => nomatch hmem
    · exact fun err hmem => nomatch hmem
    · exact fun report hmem => nomatch hmem
    · exact fun err he => Or.inr ⟨rfl, (Option.some.inj he).symm⟩
  | some registry =>
    obtain ⟨ending, result, rfl, hp, hconcluded⟩ := execution_concluded honError h
    exact hconcluded.reportedOnce hp hr

lemma unreported_failure {payload : Json}
    (h : executeClaimed workerQueue registry task config =
      failRunPayload workerQueue task.runId payload) :
    ∃ joined log, Run replies
      ((executeClaimedCatching workerQueue registry task config).caught joinError) []
      (.done joined) log ∧ failures log = [payload] ∧ reports log = [] := by
  have hreach : Reaches replies (fun _ log => failures log = [payload] ∧ reports log = [])
      ((executeClaimedCatching workerQueue registry task config).caught joinError) [] := by
    simp only [executeClaimedCatching, h]
    exact ⟨Except.ok (), _, ⟨trivial, rfl⟩, Except.ok (), _, ⟨trivial, rfl⟩, rfl, rfl⟩
  exact hreach.exists_run

lemma not_reportable (h : ¬ Reportable workerQueue registry task config.unknownTaskPolicy) :
    ∃ payload, executeClaimed workerQueue registry task config =
      failRunPayload workerQueue task.runId payload := by
  cases registry with
  | none => exact absurd trivial h
  | some registry =>
    simp only [Reportable] at h
    cases hregistered : registry task.taskName with
    | none =>
      rw [hregistered] at h
      cases hp : config.unknownTaskPolicy with
      | defer => exact absurd hp h
      | fail =>
        have hunknown : executeClaimed workerQueue (some registry) task config =
            handleUnknownTask workerQueue task .fail := by
          simp only [executeClaimed, hregistered, hp]
        rw [hunknown]
        exact ⟨_, rfl⟩
    | some registration =>
      rw [hregistered] at h
      have hfail : executeClaimed workerQueue (some registry) task config =
          failRunError config.debug workerQueue task.runId
            (queueMismatch task registration workerQueue) := by
        simp only [executeClaimed, hregistered, if_pos h]
      rw [hfail]
      exact ⟨_, rfl⟩

structure Accounted (debug : Error → String) (q : WorkerM (Result Unit)) (d : Desk) : Prop where
  each : ∀ e ∈ d.finished, ReportedOnce debug e.joined e.log
  loop : d.executionErrors = d.owed ∨ ∃ err, d.owed = err :: d.executionErrors
  done : ∀ result, q = .done result → d.running = [] ∧ d.executionErrors = d.owed

/-- Every run of the execution of a claimed task reports each of its errors once exactly if the
worker's queue is the one of the task or the worker defers tasks it does not know; and in every run
of a worker's loop in which this holds of the tasks it has joined, the loop reports for each of them,
once and in their order, the error it has left to the loop. -/
theorem reported_once_iff (queueName : String) (hooks : Hooks) (debug : Error → String)
    (options : NormalizedWorkerOptions) (registry : Option Registry) (task : ClaimedTask) :
    ((∀ joined log, Run replies ((executeClaimedCatching queueName registry task
        (workerConfig hooks debug options)).caught joinError) [] (.done joined) log →
        ReportedOnce debug joined log) ↔
      Reportable queueName registry task options.unknownTaskPolicy) ∧
    ∀ turns q d, Run (desk queueName) (workerLoop queueName hooks debug options turns) Desk.start q d →
      (∀ e ∈ d.finished, Reportable queueName e.registry e.task options.unknownTaskPolicy) →
      Accounted debug q d := by
  refine ⟨⟨?_, ?_⟩, ?_⟩
  · intro hall
    by_contra hr
    have hfails : ∃ payload, executeClaimed queueName registry task (workerConfig hooks debug options) =
        failRunPayload queueName task.runId payload := not_reportable hr
    obtain ⟨payload, he⟩ := hfails
    obtain ⟨joined, log, hrun, hfailures, hreports⟩ := unreported_failure he
    have hmem : payload ∈ failures log := by
      rw [hfailures]
      exact List.mem_singleton_self payload
    obtain ⟨-, err, -, hreported⟩ := (hall joined log hrun).failure payload hmem
    rw [hreports] at hreported
    cases hreported
  · intro hr joined log hrun
    exact reported_once rfl hr hrun
  · intro turns q d hrun hall
    have hstart : Even queueName (workerConfig hooks debug options) Desk.start := by
      refine ⟨⟨?_, ?_⟩, rfl⟩
      · exact fun x hx => nomatch hx
      · exact fun e he => nomatch he
    have hloop := workerLoop_even queueName hooks debug options turns hstart
    obtain ⟨horderly, howed⟩ := hloop.cut hrun
    constructor
    · intro e he
      exact reported_once rfl (hall e he) (horderly.finished e he)
    · exact howed
    · rintro result rfl
      obtain ⟨heven, hempty⟩ := hloop.finish hrun
      exact ⟨hempty, heven.2⟩

theorem queue_mismatch_unreported : ¬ ∀ joined log, Run replies
    ((executeClaimedCatching "critical" (some sampleRegistry) sampleTask
      (workerConfig ⟨none⟩ Error.toString sampleWorker)).caught joinError) [] (.done joined) log →
    ReportedOnce Error.toString joined log := by
  intro hall
  have hfails : executeClaimed "critical" (some sampleRegistry) sampleTask
      (workerConfig ⟨none⟩ Error.toString sampleWorker) =
      failRunPayload "critical" sampleTask.runId (errorFailurePayload Error.toString
        (queueMismatch sampleTask ⟨"default", fun _ _ => (Async.panic "boom").run⟩ "critical")) := rfl
  obtain ⟨joined, log, hrun, hfailures, hreports⟩ := unreported_failure hfails
  have hmem := List.mem_singleton_self (errorFailurePayload Error.toString
    (queueMismatch sampleTask ⟨"default", fun _ _ => (Async.panic "boom").run⟩ "critical"))
  rw [← hfailures] at hmem
  obtain ⟨-, err, -, hreported⟩ := (hall joined log hrun).failure _ hmem
  rw [hreports] at hreported
  cases hreported

end Worker

end AbsurdSdk.Execution
