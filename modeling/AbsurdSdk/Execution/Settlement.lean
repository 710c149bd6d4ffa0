import AbsurdSdk.Interaction.Run
import AbsurdSdk.Model.Executor

namespace AbsurdSdk.Execution

open Interaction Model Program

abbrev Log := List (Σ call : ExecutorCall, ExecutorAnswer call)

def Returns : (call : ExecutorCall) → ExecutorAnswer call → Prop
  | .onError _ _, r => r = (.ok () : Except String Unit)
  | _, _ => True

def replies : Env ExecutorCall ExecutorAnswer Log := fun log call r log' =>
  Returns call r ∧ log' = ⟨call, r⟩ :: log

def attempt? : (Σ call : ExecutorCall, ExecutorAnswer call) → Option Settlement
  | ⟨.getPool settlement, _⟩ => some settlement
  | _ => none

def statement? : (Σ call : ExecutorCall, ExecutorAnswer call) → Option Settlement
  | ⟨.settle settlement, _⟩ => some settlement
  | _ => none

def attempts (log : Log) : List Settlement := log.filterMap attempt?

def statements (log : Log) : List Settlement := log.filterMap statement?

inductive Outcome
  | unregistered
  | queueMismatch (err : Error)
  | executed (result : Result Json)

section Execution

variable (workerQueue : String) (registry : Registry) (task : ClaimedTask)
  (config : TaskExecutionConfig)

def outcome : Execute Outcome :=
  match registry task.taskName with
  | none => .done .unregistered
  | some registration =>
    if registration.queueName ≠ workerQueue then
      .done (.queueMismatch (queueMismatch task registration workerQueue))
    else
      (spawnWatchdog config.claimTimeout (task.taskName ++ " (" ++ task.taskId.toString ++ ")")
          config.fatalOnLeaseTimeout).bind fun _ =>
        (Execute.context (TaskContext.new registration.queueName { task with params := .null }
          config.claimTimeout true).run).bind fun ctx =>
          (match ctx with
          | .ok ctx => Execute.context (runHandler registration.handler task.params ctx config.hooks)
          | .error err => .done (.error err)).bind fun result =>
            abortWatchdog.bind fun _ => .done (.executed result)

def settleOutcome : Outcome → Execute (Result Unit)
  | .unregistered => handleUnknownTask workerQueue task config.unknownTaskPolicy
  | .queueMismatch err => failRunError config.debug workerQueue task.runId err
  | .executed (.ok value) => completeRun workerQueue task.runId value
  | .executed (.error err) =>
    if err.isControlFlow then
      .done (.ok ())
    else
      (failRunError config.debug workerQueue task.runId err).bind fun result =>
        (reportExecutionError config.onError err).bind fun _ => .done result

lemma executeClaimed_eq :
    executeClaimed workerQueue (some registry) task config =
      (outcome workerQueue registry task config).bind (settleOutcome workerQueue task config) := by
  simp only [executeClaimed, outcome]
  cases registry task.taskName with
  | none => rfl
  | some registration =>
    by_cases h : registration.queueName ≠ workerQueue
    · simp only [if_pos h]
      rfl
    · simp only [if_neg h, bind_eq, bind_assoc, pure_eq, done_bind]
      apply Program.bind_congr
      intro _
      apply Program.bind_congr
      intro ctx
      cases ctx with
      | error err => rfl
      | ok ctx =>
        apply Program.bind_congr
        intro result
        cases result with
        | ok value => rfl
        | error err => rfl

def panicPayload (message : String) : Json :=
  failurePayload "panic" message ("task panicked: " ++ message)

def settlementOf : Except JoinError Outcome → Option Settlement
  | .ok .unregistered => match config.unknownTaskPolicy with
    | .defer => some (.scheduleRunIn workerQueue task.runId (unknownTaskDeferDelay task.runId))
    | .fail => some (.failRun workerQueue task.runId (failurePayload "TaskNotRegistered"
        ("task " ++ debugStr task.taskName ++ " is not registered")
        ("TaskNotRegistered(" ++ debugStr task.taskName ++ ")")) none)
  | .ok (.queueMismatch err) =>
    some (.failRun workerQueue task.runId (errorFailurePayload config.debug err) none)
  | .ok (.executed (.ok value)) => some (.completeRun workerQueue task.runId value)
  | .ok (.executed (.error err)) =>
    if err.isControlFlow then
      none
    else
      some (.failRun workerQueue task.runId (errorFailurePayload config.debug err) none)
  | .error (.panic message) =>
    some (.failRun workerQueue task.runId (panicPayload message) none)
  | .error .cancelled => none

def afterJoin : Except JoinError (Result Unit) → Execute (Result Unit)
  | .ok result => .done result
  | .error (.panic message) =>
    (failRunPayload workerQueue task.runId (panicPayload message)).bind fun result =>
      (reportExecutionError config.onError (.message ("task panicked: " ++ message))).bind fun _ =>
        .done result
  | .error .cancelled => .done (.error (.join "task was cancelled"))

def afterOutcome : Except JoinError Outcome → Execute (Result Unit)
  | .ok o => ((settleOutcome workerQueue task config o).caught joinError).bind
      (afterJoin workerQueue task config)
  | .error err => afterJoin workerQueue task config (.error err)

lemma executeClaimedCatching_eq :
    executeClaimedCatching workerQueue (some registry) task config =
      ((outcome workerQueue registry task config).caught joinError).bind
        (afterOutcome workerQueue task config) := by
  have hsplit : executeClaimedCatching workerQueue (some registry) task config =
      ((executeClaimed workerQueue (some registry) task config).caught joinError).bind
        (afterJoin workerQueue task config) := by
    simp only [executeClaimedCatching, bind_eq, pure_eq]
    apply Program.bind_congr
    intro ending
    rcases ending with (message | _) | result
    · rfl
    · rfl
    · rfl
  rw [hsplit, executeClaimed_eq, caught_bind, Program.bind_assoc]
  apply Program.bind_congr
  intro ending
  cases ending with
  | ok o => rfl
  | error err => rfl

variable {workerQueue registry task config}

def Settled (s : Option Settlement) (log log' : Log) : Prop :=
  attempts log' = s.toList ++ attempts log ∧
    (statements log' = statements log ∨ statements log' = s.toList ++ statements log)

lemma Settled.quiet {s : Option Settlement} {log log' : Log} {e : Σ call, ExecutorAnswer call}
    (h : Settled s log log') (ha : attempt? e = none) (hs : statement? e = none) :
    Settled s log (e :: log') := by
  simp only [Settled, attempts, statements, List.filterMap_cons_none ha,
    List.filterMap_cons_none hs]
  exact h

lemma Settled.idle (log : Log) : Settled none log log := ⟨rfl, Or.inl rfl⟩

def Settling (s : Option Settlement) (log log' : Log) : Prop :=
  Settled none log log' ∨ Settled s log log'

lemma Settling.attempted {s : Option Settlement} {log log' : Log} (h : Settling s log log')
    (ha : attempts log = []) (hs : statements log = []) :
    (attempts log').Sublist s.toList ∧ (statements log').Sublist (attempts log') := by
  simp only [Settling, Settled, ha, hs, List.append_nil] at h
  rcases h with ⟨ht, hu⟩ | ⟨ht, hu | hu⟩
  · have hnone : statements log' = [] := hu.elim id id
    simp [ht, hnone]
  · simp [ht, hu]
  · simp [ht, hu]

lemma settle_bind_safe {β : Type} {s : Settlement} {log : Log} {f : Result Unit → Execute β}
    {post : β → Log → Prop}
    (hf : ∀ r log', Settled (some s) log log' →
      Safe replies (Settling (some s) log) post (f r) log') :
    Safe replies (Settling (some s) log) post ((settle s).bind f) log := by
  rw [Safe.bind_iff]
  refine ⟨Or.inl (.idle log), ?_⟩
  rintro (err | _) log' ⟨-, rfl⟩
  · have h : Settled (some s) log (⟨.getPool s, .error err⟩ :: log) := ⟨rfl, Or.inl rfl⟩
    exact ⟨Or.inr h, hf _ _ h⟩
  · refine ⟨Or.inr ⟨rfl, Or.inl rfl⟩, ?_⟩
    rintro r log'' ⟨-, rfl⟩
    have h : Settled (some s) log (⟨.settle s, r⟩ :: ⟨.getPool s, .ok ()⟩ :: log) :=
      ⟨rfl, Or.inr rfl⟩
    exact ⟨Or.inr h, hf _ _ h⟩

section Report

variable {P inv : Log → Prop} {log : Log} (err : Error) (onError : Bool) {β : Type}
  {f : Unit → Execute β}

lemma report_safe {post : β → Log → Prop} (h : P log) (hinv : ∀ log', P log' → inv log')
    (hP : ∀ kind err r log', P log' → P (⟨.onError kind err, r⟩ :: log'))
    (hf : ∀ log', P log' → Safe replies inv post (f ()) log') :
    Safe replies inv post ((reportExecutionError onError err).bind f) log := by
  cases onError with
  | false => exact hf log h
  | true =>
    refine ⟨hinv log h, ?_⟩
    rintro r log' ⟨rfl, rfl⟩
    exact hf _ (hP _ _ _ _ h)

lemma caught_report_safe {post : Except JoinError β → Log → Prop} (h : P log)
    (hinv : ∀ log', P log' → inv log')
    (hP : ∀ kind err r log', P log' → P (⟨.onError kind err, r⟩ :: log'))
    (hf : ∀ log', P log' → Safe replies inv post ((f ()).caught joinError) log') :
    Safe replies inv post (((reportExecutionError onError err).bind f).caught joinError) log := by
  cases onError with
  | false => exact hf log h
  | true =>
    refine ⟨hinv log h, ?_⟩
    rintro r log' ⟨rfl, rfl⟩
    exact hf _ (hP _ _ _ _ h)

end Report

def absorbRace : Result Unit → Result Unit
  | .error err => if err.isTerminalStateRace then .ok () else .error err
  | .ok () => .ok ()

lemma failRunPayload_eq (queueName : String) (runId : Uuid) (payload : Json) :
    failRunPayload queueName runId payload =
      (settle (.failRun queueName runId payload none)).bind fun r => .done (absorbRace r) := by
  apply Program.bind_congr
  rintro (err | _)
  · rfl
  · rfl

lemma completeRun_eq (queueName : String) (runId : Uuid) (result : Json) :
    completeRun queueName runId result =
      (settle (.completeRun queueName runId result)).bind fun r => .done (absorbRace r) := by
  apply Program.bind_congr
  rintro (err | _)
  · rfl
  · rfl

lemma caught_settle_bind (s : Settlement) (f : Result Unit → Execute (Result Unit)) :
    ((settle s).bind f).caught joinError = (settle s).bind fun r => (f r).caught joinError := by
  rw [caught_bind]
  simp only [settle, call_bind, caught_call, joinError]
  refine congrArg _ (funext fun r => ?_)
  cases r with
  | error err => rfl
  | ok => rfl

lemma settleOutcome_safe (o : Outcome) (log : Log) :
    Safe replies (Settling (settlementOf workerQueue task config (.ok o)) log)
      (fun r log' => (∃ result, r = .ok result) ∧
        Settled (settlementOf workerQueue task config (.ok o)) log log')
      ((settleOutcome workerQueue task config o).caught joinError) log := by
  have hfail : ∀ payload, Safe replies
      (Settling (some (.failRun workerQueue task.runId payload none)) log)
      (fun r log' => (∃ result, r = .ok result) ∧
        Settled (some (.failRun workerQueue task.runId payload none)) log log')
      ((failRunPayload workerQueue task.runId payload).caught joinError) log := by
    intro payload
    rw [failRunPayload_eq, caught_settle_bind]
    apply settle_bind_safe
    intro r log' h
    exact ⟨Or.inr h, ⟨_, rfl⟩, h⟩
  cases o with
  | unregistered =>
    simp only [settleOutcome, handleUnknownTask, settlementOf]
    cases config.unknownTaskPolicy with
    | fail => exact hfail _
    | defer =>
      rw [← bind_done (settle _), caught_settle_bind]
      apply settle_bind_safe
      intro r log' h
      exact ⟨Or.inr h, ⟨r, rfl⟩, h⟩
  | queueMismatch err => exact hfail _
  | executed result =>
    cases result with
    | ok value =>
      simp only [settleOutcome, completeRun_eq, caught_settle_bind]
      apply settle_bind_safe
      intro r log' h
      exact ⟨Or.inr h, ⟨_, rfl⟩, h⟩
    | error err =>
      simp only [settleOutcome, settlementOf]
      split
      · exact ⟨Or.inl (.idle log), ⟨_, rfl⟩, .idle log⟩
      · simp only [failRunError, failRunPayload_eq, Program.bind_assoc, done_bind,
          caught_settle_bind]
        apply settle_bind_safe
        intro r log' h
        apply caught_report_safe err config.onError h (fun _ => Or.inr)
          (fun _ _ _ _ h => h.quiet rfl rfl)
        intro log'' h''
        exact ⟨Or.inr h'', ⟨_, rfl⟩, h''⟩

lemma afterOutcome_safe (ending : Except JoinError Outcome) (log : Log) :
    Safe replies (Settling (settlementOf workerQueue task config ending) log)
      (fun _ log' => Settled (settlementOf workerQueue task config ending) log log')
      (afterOutcome workerQueue task config ending) log := by
  rcases ending with (message | _) | o
  · simp only [afterOutcome, afterJoin, failRunPayload_eq, Program.bind_assoc, done_bind]
    apply settle_bind_safe
    intro r log' h
    apply report_safe _ config.onError h (fun _ => Or.inr) (fun _ _ _ _ h => h.quiet rfl rfl)
    intro log'' h''
    exact ⟨Or.inr h'', h''⟩
  · exact ⟨Or.inl (.idle log), .idle log⟩
  · apply (settleOutcome_safe o log).bind
    rintro r log' - ⟨⟨result, rfl⟩, h⟩
    exact ⟨Or.inr h, h⟩

def Unsettling : ExecutorCall → Prop
  | .getPool _ | .settle _ => False
  | _ => True

lemma Unsettling.attempt? {call : ExecutorCall} (h : Unsettling call) (r : ExecutorAnswer call) :
    attempt? ⟨call, r⟩ = none := by
  cases call with
  | getPool s => exact h.elim
  | _ => rfl

lemma Unsettling.statement? {call : ExecutorCall} (h : Unsettling call)
    (r : ExecutorAnswer call) : statement? ⟨call, r⟩ = none := by
  cases call with
  | settle s => exact h.elim
  | _ => rfl

lemma outcome_calls {P : ExecutorCall → Prop} (hcontext : ∀ call, P (.context call))
    (hspawn : ∀ lease label fatal, P (.spawnWatchdog lease label fatal)) (habort : P .abortWatchdog)
    (workerQueue : String) (registry : Registry) (task : ClaimedTask)
    (config : TaskExecutionConfig) : (outcome workerQueue registry task config).Calls P := by
  have hcalls : ∀ {α : Type} (p : Process α), (Execute.context p).Calls P :=
    fun p => Calls.relabel _ _ hcontext
  simp only [outcome]
  cases registry task.taskName with
  | none => exact True.intro
  | some registration =>
    by_cases hq : registration.queueName ≠ workerQueue
    · simp only [if_pos hq]
      exact True.intro
    · simp only [if_neg hq]
      refine ⟨hspawn _ _ _, fun _ => (hcalls _).bind fun ctx => ?_⟩
      apply Calls.bind
      · cases ctx with
        | ok ctx => exact hcalls _
        | error err => exact True.intro
      · exact fun _ => ⟨habort, fun _ => trivial⟩

lemma outcome_unsettling (workerQueue : String) (registry : Registry) (task : ClaimedTask)
    (config : TaskExecutionConfig) :
    (outcome workerQueue registry task config).Calls Unsettling :=
  outcome_calls (fun _ => trivial) (fun _ _ _ => trivial) trivial workerQueue registry task config

lemma outcome_settles_nothing (workerQueue : String) (registry : Registry) (task : ClaimedTask)
    (config : TaskExecutionConfig) (log : Log) :
    Safe replies (Settled none log) (fun _ _ => True)
      ((outcome workerQueue registry task config).caught joinError) log := by
  apply Safe.of_calls ((outcome_unsettling workerQueue registry task config).caught joinError)
    (.idle log)
  rintro log' call r log'' hcall h ⟨-, rfl⟩
  exact h.quiet (hcall.attempt? r) (hcall.statement? r)

lemma joinError_panic {call : ExecutorCall} {err : JoinError} (h : joinError call = some err) :
    ∃ text, err = .panic text := by
  cases call with
  | context call =>
    cases call with
    | panic text => exact ⟨text, (Option.some.inj h).symm⟩
    | _ => cases h
  | panic text => exact ⟨text, (Option.some.inj h).symm⟩
  | _ => cases h

lemma outcome_ends {post : Except JoinError Outcome → Prop}
    (hnone : registry task.taskName = none → post (.ok .unregistered))
    (hmismatch : ∀ registration, registry task.taskName = some registration →
      registration.queueName ≠ workerQueue →
      post (.ok (.queueMismatch (queueMismatch task registration workerQueue))))
    (hresult : ∀ registration result, registry task.taskName = some registration →
      registration.queueName = workerQueue → post (.ok (.executed result)))
    (hpanic : ∀ registration text, registry task.taskName = some registration →
      registration.queueName = workerQueue → post (.error (.panic text))) (log : Log) :
    Safe replies (fun _ => True) (fun ending _ => post ending)
      ((outcome workerQueue registry task config).caught joinError) log := by
  simp only [outcome]
  cases hr : registry task.taskName with
  | none => exact ⟨trivial, hnone hr⟩
  | some registration =>
    by_cases hq : registration.queueName ≠ workerQueue
    · simp only [if_pos hq]
      exact ⟨trivial, hmismatch registration hr hq⟩
    · simp only [if_neg hq]
      have heq : registration.queueName = workerQueue := not_ne_iff.mp hq
      apply Safe.caught
      · refine (Safe.any _ log).bind fun _ _ _ _ => (Safe.any _ _).bind fun _ _ _ _ =>
          (Safe.any _ _).bind fun result _ _ _ => (Safe.any _ _).bind fun _ _ _ _ => ?_
        exact ⟨trivial, hresult registration result hr heq⟩
      · intro call err log' he _
        obtain ⟨text, rfl⟩ := joinError_panic he
        exact hpanic registration text hr heq

lemma outcome_ending (workerQueue : String) (registry : Registry) (task : ClaimedTask)
    (config : TaskExecutionConfig) (log : Log) :
    Safe replies (fun _ => True)
      (fun ending _ => ending ≠ .error .cancelled ∧
        (ending = .ok .unregistered ↔ registry task.taskName = none))
      ((outcome workerQueue registry task config).caught joinError) log := by
  apply outcome_ends
  · exact fun hr => ⟨nofun, iff_of_true rfl hr⟩
  · exact fun _ hr _ => ⟨nofun, iff_of_false nofun (by simp [hr])⟩
  · exact fun _ _ hr _ => ⟨nofun, iff_of_false nofun (by simp [hr])⟩
  · exact fun _ _ hr _ => ⟨nofun, iff_of_false nofun (by simp [hr])⟩

def Ended (workerQueue : String) (registry : Registry) (task : ClaimedTask)
    (config : TaskExecutionConfig) (ending : Except JoinError Outcome) (log : Log) : Prop :=
  ∃ log', Run replies ((outcome workerQueue registry task config).caught joinError) []
    (.done ending) log' ∧ log' <:+ log

lemma log_suffix {α : Type} {p q : Execute α} {log log' : Log} (h : Run replies p log q log') :
    log <:+ log' := by
  induction h with
  | refl => exact List.suffix_rfl
  | step hr _ ih =>
    obtain ⟨-, rfl⟩ := hr
    exact (List.suffix_cons _ _).trans ih

lemma settlementOf_kinds (workerQueue : String) (task : ClaimedTask)
    (config : TaskExecutionConfig) {ending : Except JoinError Outcome} (hc : ending ≠ .error .cancelled) :
    ((∃ value, settlementOf workerQueue task config ending =
        some (.completeRun workerQueue task.runId value)) ↔
      ∃ value, ending = .ok (.executed (.ok value))) ∧
    ((∃ seconds, settlementOf workerQueue task config ending =
        some (.scheduleRunIn workerQueue task.runId seconds)) ↔
      ending = .ok .unregistered ∧ config.unknownTaskPolicy = .defer) ∧
    (settlementOf workerQueue task config ending = none ↔
      ∃ err, ending = .ok (.executed (.error err)) ∧ err.isControlFlow = true) := by
  rcases ending with (message | _) | _ | err | err | value
  · simp [settlementOf]
  · exact absurd rfl hc
  · cases hp : config.unknownTaskPolicy <;> simp [settlementOf, hp]
  · simp [settlementOf]
  · by_cases he : err.isControlFlow = true <;> simp [settlementOf, he]
  · simp [settlementOf]

lemma finished_attempts {ending : Except JoinError Outcome} {result : Result Unit} {log log' : Log}
    (hp : Run replies ((outcome workerQueue registry task config).caught joinError) []
      (.done ending) log') (ha : attempts log' = [])
    (hq : Run replies (afterOutcome workerQueue task config ending) log' (.done result) log) :
    attempts log = (settlementOf workerQueue task config ending).toList ∧
      ((∃ value, attempts log = [.completeRun workerQueue task.runId value]) ↔
        ∃ value, ending = .ok (.executed (.ok value))) ∧
      ((∃ seconds, attempts log = [.scheduleRunIn workerQueue task.runId seconds]) ↔
        registry task.taskName = none ∧ config.unknownTaskPolicy = .defer) ∧
      (attempts log = [] ↔
        ∃ err, ending = .ok (.executed (.error err)) ∧ err.isControlFlow = true) := by
  have hsettled := ((afterOutcome_safe ending log').finish hq).1
  rw [ha, List.append_nil] at hsettled
  obtain ⟨hc, hu⟩ := (outcome_ending workerQueue registry task config []).finish hp
  obtain ⟨hcomplete, hdefer, hnone⟩ :=
    settlementOf_kinds workerQueue task config hc
  rw [← hu]
  refine ⟨hsettled, ?_, ?_, ?_⟩
  · rw [← hcomplete, hsettled]
    cases settlementOf workerQueue task config ending <;> simp
  · rw [← hdefer, hsettled]
    cases settlementOf workerQueue task config ending <;> simp
  · rw [← hnone, hsettled]
    cases settlementOf workerQueue task config ending <;> simp

end Execution

def sampleRegistry : Registry := fun _ => some ⟨"default", fun _ _ => (Async.panic "boom").run⟩

def sampleConfig : TaskExecutionConfig where
  hooks := ⟨none⟩
  claimTimeout := Duration.fromSecs 120
  unknownTaskPolicy := .defer
  fatalOnLeaseTimeout := true
  onError := true
  debug := Error.toString

end AbsurdSdk.Execution
