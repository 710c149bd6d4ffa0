import AbsurdSdk.Execution.Registration

namespace AbsurdSdk.Execution

open Interaction Model Program

def Occurs {α : Type} (p : Execute α) (log : Log) (a : α) : Prop :=
  ∃ log₁ log₂, Run replies p log₁ (.done a) log₂ ∧ log₂ <:+ log

section Occurs

variable {α β : Type} {p : Execute α} {f : α → Execute β} {log log' : Log} {a : α} {b : β}

lemma Occurs.bind (h : Occurs (p.bind f) log b) : ∃ a, Occurs p log a ∧ Occurs (f a) log b := by
  obtain ⟨log₁, log₂, hrun, hsuffix⟩ := h
  obtain ⟨a, log₃, hp, hf⟩ := hrun.bind_done
  exact ⟨a, ⟨log₁, log₃, hp, (log_suffix hf).trans hsuffix⟩, log₃, log₂, hf, hsuffix⟩

lemma Occurs.done {b : α} (h : Occurs (.done a) log b) : b = a := by
  obtain ⟨log₁, log₂, hrun, -⟩ := h
  cases hrun
  rfl

end Occurs

def Raises {α : Type} (p : Execute α) (log : Log) (text : String) : Prop :=
  ∃ call next log₁ log₂, joinError call = some (.panic text) ∧
    Run replies p log₁ (.call call next) log₂ ∧ log₂ <:+ log

section Raises

variable {α β : Type} {p : Execute α} {f : α → Execute β} {log : Log} {text : String}

lemma Raises.bind (h : Raises (p.bind f) log text) :
    Raises p log text ∨ ∃ a, Occurs p log a ∧ Raises (f a) log text := by
  obtain ⟨call, next, log₁, log₂, hraise, hrun, hsuffix⟩ := h
  rcases hrun.bind_cases with ⟨q, hq, hcall⟩ | ⟨a, log₃, hp, hf⟩
  · cases q with
    | done a =>
      have hf : f a = .call call next := hcall.symm
      exact Or.inr ⟨a, ⟨log₁, log₂, hq, hsuffix⟩, call, next, log₂, log₂, hraise, hf ▸ .refl _ _,
        hsuffix⟩
    | call call' next' =>
      obtain ⟨rfl, -⟩ := Program.call.inj hcall
      exact Or.inl ⟨_, next', log₁, log₂, hraise, hq, hsuffix⟩
  · exact Or.inr ⟨a, ⟨log₁, log₃, hp, (log_suffix hf).trans hsuffix⟩, call, next, log₃, log₂, hraise,
      hf, hsuffix⟩

lemma Raises.of_calm (h : Raises p log text) (hp : p.Calls fun call => joinError call = none) :
    False := by
  obtain ⟨call, next, log₁, log₂, hraise, hrun, -⟩ := h
  have hcalm : joinError call = none := (hrun.calls hp).1
  rw [hraise] at hcalm
  cases hcalm

lemma new_calm (queueName : String) (task : ClaimedTask) (claimTimeout : Duration)
    (leaseTx : Bool) :
    (Execute.context (TaskContext.new queueName task claimTimeout leaseTx).run).Calls
      fun call => joinError call = none := by
  refine ⟨rfl, ?_⟩
  rintro (text | _)
  · trivial
  · refine ⟨rfl, ?_⟩
    rintro (err | rows)
    · trivial
    · obtain ⟨runId, taskId, attempt, taskName, params, retryStrategy, maxAttempts, headers,
        wakeEvent, eventPayload⟩ := task
      rcases headers with _ | headers
      · trivial
      · cases headers with
        | _ => trivial

end Raises

section Typed

variable {P R : Type} {params : Serde P} {result : Serde R}
  {handler : P → TaskContext → Process (Result R)} {p : P} {sent : Json}

def encoded (serde : Serde R) (r : Result R) : Result Json :=
  r.bind fun value => (serde.toValue value).mapError .serialization

lemma eraseHandler_eq (hparams : params.Lossless) (hsent : params.toValue p = .ok sent)
    (ctx : TaskContext) : eraseHandler params result handler sent ctx =
      (handler p ctx).bind fun r => .done (encoded result r) := by
  rw [eraseHandler, Async.decode, hparams p sent hsent]
  change (handler p ctx).bind _ = _
  apply Program.bind_congr
  intro r
  cases r with
  | error err => rfl
  | ok value => rfl

def Returned (handler : P → TaskContext → Process (Result R)) (p : P) (log : Log) (r : Result R) :
    Prop :=
  ∃ ctx, Occurs (Execute.context (handler p ctx)) log r

def Panicked (handler : P → TaskContext → Process (Result R)) (p : P) (log : Log) (text : String) :
    Prop :=
  ∃ ctx, Raises (Execute.context (handler p ctx)) log text

variable {workerQueue : String} {tasks : Registry} {task : ClaimedTask}
  {config : TaskExecutionConfig} {registration : RegisteredTask} {log : Log} {text : String}

def Unprepared (registration : RegisteredTask) (task : ClaimedTask) (config : TaskExecutionConfig)
    (log : Log) (err : Error) : Prop :=
  Occurs (Execute.context (TaskContext.new registration.queueName { task with params := .null }
    config.claimTimeout true).run) log (.error err)

lemma outcome_executed {r : Result Json} (hregistered : tasks task.taskName = some registration)
    (hhooks : config.hooks.wrapTaskExecution = none)
    (h : Occurs (outcome workerQueue tasks task config) log (.executed r)) :
    (∃ err, r = .error err ∧ Unprepared registration task config log err) ∨
      ∃ ctx, Occurs (Execute.context (registration.handler task.params ctx)) log r := by
  rw [outcome, hregistered] at h
  by_cases hqueue : registration.queueName = workerQueue
  · simp only [hqueue, ne_eq, not_true_eq_false, if_false] at h
    obtain ⟨_, -, h⟩ := h.bind
    obtain ⟨ctx, hctx, h⟩ := h.bind
    obtain ⟨r', hr, h⟩ := h.bind
    obtain ⟨_, -, h⟩ := h.bind
    obtain rfl := Outcome.executed.inj h.done
    cases ctx with
    | error err =>
      refine Or.inl ⟨err, hr.done, ?_⟩
      rw [Unprepared, hqueue]
      exact hctx
    | ok ctx =>
      simp only [runHandler, hhooks] at hr
      exact Or.inr ⟨ctx, hr⟩
  · simp only [hqueue, ne_eq, not_false_eq_true, if_true] at h
    cases h.done

lemma outcome_raises (hregistered : tasks task.taskName = some registration)
    (hhooks : config.hooks.wrapTaskExecution = none)
    (h : Raises (outcome workerQueue tasks task config) log text) :
    ∃ ctx, Raises (Execute.context (registration.handler task.params ctx)) log text := by
  rw [outcome, hregistered] at h
  by_cases hqueue : registration.queueName = workerQueue
  · simp only [hqueue, ne_eq, not_true_eq_false, if_false] at h
    rcases h.bind with h | ⟨_, -, h⟩
    · exact (h.of_calm ⟨rfl, fun _ => trivial⟩).elim
    rcases h.bind with h | ⟨ctx, -, h⟩
    · exact (h.of_calm (new_calm _ _ _ _)).elim
    rcases h.bind with h | ⟨r, -, h⟩
    · cases ctx with
      | error err => exact (h.of_calm trivial).elim
      | ok ctx =>
        simp only [runHandler, hhooks] at h
        exact ⟨ctx, h⟩
    · exact (h.of_calm ⟨rfl, fun _ => trivial⟩).elim
  · simp only [hqueue, ne_eq, not_false_eq_true, if_true] at h
    exact (h.of_calm trivial).elim

lemma handler_panicked {ctx : TaskContext} (hparams : params.Lossless)
    (hsent : params.toValue p = .ok sent)
    (h : Raises (Execute.context (eraseHandler params result handler sent ctx)) log text) :
    Panicked handler p log text := by
  rw [eraseHandler_eq hparams hsent, Execute.context_bind] at h
  rcases h.bind with h | ⟨r, -, h⟩
  · exact ⟨ctx, h⟩
  · exact (h.of_calm trivial).elim

lemma handler_returned {r : Result Json} {ctx : TaskContext} (hparams : params.Lossless)
    (hsent : params.toValue p = .ok sent)
    (h : Occurs (Execute.context (eraseHandler params result handler sent ctx)) log r) :
    ∃ r', Returned handler p log r' ∧ r = encoded result r' := by
  rw [eraseHandler_eq hparams hsent, Execute.context_bind] at h
  obtain ⟨r', hr, h⟩ := h.bind
  exact ⟨r', ⟨ctx, hr⟩, h.done⟩

lemma attempted_ending {q : Execute (Result Unit)} {s : Settlement}
    (h : Run replies (executeClaimedCatching workerQueue (some tasks) task config) [] q log)
    (hs : s ∈ attempts log) :
    ∃ ending, settlementOf workerQueue task config ending = some s ∧
      Ended workerQueue tasks task config ending log := by
  rw [executeClaimedCatching_eq] at h
  rcases h.bind_cases with ⟨q', hp, -⟩ | ⟨ending, log', hp, hq⟩
  · obtain ⟨hnone, -⟩ := (outcome_settles_nothing workerQueue tasks task config []).cut hp
    rw [hnone] at hs
    cases hs
  · obtain ⟨hnone, hunsent⟩ := (outcome_settles_nothing workerQueue tasks task config []).cut hp
    obtain ⟨hsub, -⟩ := ((afterOutcome_safe ending log').cut hq).attempted hnone (hunsent.elim id id)
    exact ⟨ending, Option.mem_toList.mp (hsub.subset hs), log', hp, log_suffix hq⟩

lemma ended_occurs {o : Outcome} (h : Ended workerQueue tasks task config (.ok o) log) :
    Occurs (outcome workerQueue tasks task config) log o := by
  obtain ⟨log', hrun, hsuffix⟩ := h
  exact ⟨[], log', hrun.of_caught, hsuffix⟩

lemma ended_raises (h : Ended workerQueue tasks task config (.error (.panic text)) log) :
    Raises (outcome workerQueue tasks task config) log text := by
  obtain ⟨log', hrun, hsuffix⟩ := h
  obtain ⟨call, next, hraise, hstands⟩ := hrun.raised
  exact ⟨call, next, [], log', hraise, hstands, hsuffix⟩

/-- Why a typed task fails, with the payload it leaves. -/
inductive Fails (result : Serde R) (handler : P → TaskContext → Process (Result R)) (p : P)
    (workerQueue : String) (registration : RegisteredTask) (task : ClaimedTask)
    (config : TaskExecutionConfig) (log : Log) : Json → Prop
  | mismatched : registration.queueName ≠ workerQueue →
      Fails result handler p workerQueue registration task config log
        (errorFailurePayload config.debug (queueMismatch task registration workerQueue))
  | panicked {text : String} : Panicked handler p log text →
      Fails result handler p workerQueue registration task config log (panicPayload text)
  | unprepared {err : Error} : Unprepared registration task config log err →
      err.isControlFlow = false →
      Fails result handler p workerQueue registration task config log
        (errorFailurePayload config.debug err)
  | refused {err : Error} : Returned handler p log (.error err) → err.isControlFlow = false →
      Fails result handler p workerQueue registration task config log
        (errorFailurePayload config.debug err)
  | unwritable {r : R} {text : String} : Returned handler p log (.ok r) →
      result.toValue r = .error text →
      Fails result handler p workerQueue registration task config log
        (errorFailurePayload config.debug (.serialization text))

inductive TypedSettlement (result : Serde R) (handler : P → TaskContext → Process (Result R)) (p : P)
    (workerQueue : String) (registration : RegisteredTask) (task : ClaimedTask)
    (config : TaskExecutionConfig) (log : Log) : Settlement → Prop
  | completes {r : R} {written : Json} : Returned handler p log (.ok r) →
      result.toValue r = .ok written →
      TypedSettlement result handler p workerQueue registration task config log
        (.completeRun workerQueue task.runId written)
  | fails {payload : Json} :
      Fails result handler p workerQueue registration task config log payload →
      TypedSettlement result handler p workerQueue registration task config log
        (.failRun workerQueue task.runId payload none)

lemma encoded_ok {r : Result R} {written : Json} (h : encoded result r = .ok written) :
    ∃ value, r = .ok value ∧ result.toValue value = .ok written := by
  cases r with
  | error err => cases h
  | ok value =>
    simp only [encoded, Except.bind] at h
    cases hvalue : result.toValue value with
    | error text =>
      rw [hvalue] at h
      cases h
    | ok written' =>
      rw [hvalue] at h
      cases h
      exact ⟨value, rfl, hvalue⟩

lemma encoded_error {r : Result R} {err : Error} (h : encoded result r = .error err) :
    r = .error err ∨ ∃ value text, r = .ok value ∧ result.toValue value = .error text ∧
      err = .serialization text := by
  cases r with
  | error err' =>
    cases h
    exact Or.inl rfl
  | ok value =>
    simp only [encoded, Except.bind] at h
    cases hvalue : result.toValue value with
    | error text =>
      rw [hvalue] at h
      cases h
      exact Or.inr ⟨value, text, rfl, hvalue, rfl⟩
    | ok written =>
      rw [hvalue] at h
      cases h

def EndsRegistered (workerQueue : String) (registration : RegisteredTask) (task : ClaimedTask)
    (ending : Except JoinError Outcome) : Prop :=
  (registration.queueName ≠ workerQueue ∧
      ending = .ok (.queueMismatch (queueMismatch task registration workerQueue))) ∨
    (∃ r, ending = .ok (.executed r)) ∨ ∃ text, ending = .error (.panic text)

lemma ended_registered {ending : Except JoinError Outcome}
    (hregistered : tasks task.taskName = some registration)
    (h : Ended workerQueue tasks task config ending log) :
    EndsRegistered workerQueue registration task ending := by
  have hends : Safe replies (fun _ => True)
      (fun ending _ => EndsRegistered workerQueue registration task ending)
      ((outcome workerQueue tasks task config).caught joinError) [] := by
    apply outcome_ends
    · intro hnone
      rw [hregistered] at hnone
      cases hnone
    · intro other hother hqueue
      obtain rfl := Option.some.inj (hregistered.symm.trans hother)
      exact Or.inl ⟨hqueue, rfl⟩
    · exact fun _ r _ _ => Or.inr (Or.inl ⟨r, rfl⟩)
    · exact fun _ text _ _ => Or.inr (Or.inr ⟨text, rfl⟩)
  obtain ⟨log', hrun, -⟩ := h
  exact hends.finish hrun

lemma executed_settles {r : Result Json} {s : Settlement}
    (h : settlementOf workerQueue task config (.ok (.executed r)) = some s) :
    (∃ written, r = .ok written ∧ s = .completeRun workerQueue task.runId written) ∨
      ∃ err, r = .error err ∧ err.isControlFlow = false ∧
        s = .failRun workerQueue task.runId (errorFailurePayload config.debug err) none := by
  cases r with
  | ok written =>
    cases h
    exact Or.inl ⟨written, rfl, rfl⟩
  | error err =>
    cases hflow : err.isControlFlow with
    | true => simp [settlementOf, hflow] at h
    | false =>
      simp only [settlementOf, hflow, Bool.false_eq_true, if_false, Option.some.injEq] at h
      exact Or.inr ⟨err, rfl, hflow, h.symm⟩

lemma attempts_settle {queueName : String} {q : Execute (Result Unit)} {s : Settlement}
    (hparams : params.Lossless) (hsent : params.toValue p = .ok task.params)
    (hregistered : tasks task.taskName =
      some ⟨queueName, eraseHandler params result handler⟩)
    (hhooks : config.hooks.wrapTaskExecution = none)
    (h : Run replies (executeClaimedCatching workerQueue (some tasks) task config) [] q log)
    (hs : s ∈ attempts log) :
    TypedSettlement result handler p workerQueue ⟨queueName, eraseHandler params result handler⟩ task
      config log s := by
  obtain ⟨ending, hsettlement, hended⟩ := attempted_ending h hs
  rcases ended_registered hregistered hended with ⟨hqueue, rfl⟩ | ⟨r, rfl⟩ | ⟨text, rfl⟩
  · cases hsettlement
    exact .fails (.mismatched hqueue)
  · rcases outcome_executed hregistered hhooks (ended_occurs hended) with
      ⟨err, rfl, hunprepared⟩ | ⟨ctx, hoccurs⟩
    · rcases executed_settles hsettlement with ⟨written, herr, -⟩ | ⟨err', herr, hflow, rfl⟩
      · cases herr
      · cases herr
        exact .fails (.unprepared hunprepared hflow)
    · obtain ⟨r', hreturned, rfl⟩ := handler_returned hparams hsent hoccurs
      rcases executed_settles hsettlement with ⟨written, hr, rfl⟩ | ⟨err, hr, hflow, rfl⟩
      · obtain ⟨value, rfl, hwritten⟩ := encoded_ok hr
        exact .completes hreturned hwritten
      · rcases encoded_error hr with rfl | ⟨value, text, rfl, hunwritable, rfl⟩
        · exact .fails (.refused hreturned hflow)
        · exact .fails (.unwritable hreturned hunwritable)
  · cases hsettlement
    obtain ⟨ctx, hraises⟩ := outcome_raises hregistered hhooks (ended_raises hended)
    exact .fails (.panicked (handler_panicked hparams hsent hraises))

end Typed

section RoundTrip

def Sends (taskName : String) (params : Except String Json) : RegistryCall → Prop
  | .spawnTask _ name value _ => name = taskName ∧ params = .ok value
  | _ => True

lemma spawnResolved_sends (client : ClientClone) (taskName : String)
    (taskOptions : Option TaskOptions) (params : Except String Json) (options : SpawnOptions) :
    (client.spawnResolved taskName taskOptions params options).Calls (Sends taskName params) := by
  simp only [ClientClone.spawnResolved]
  split
  · trivial
  · cases params with
    | error err => trivial
    | ok value =>
      apply Program.Calls.bind
      · rw [ClientClone.applyBeforeSpawn]
        split
        · exact ⟨trivial, fun _ => trivial⟩
        · trivial
      · intro hooked
        cases hooked with
        | error err => trivial
        | ok options =>
          refine ⟨trivial, fun registration => ?_⟩
          cases registration with
          | none => trivial
          | some registration =>
            dsimp only
            split
            · trivial
            · refine ⟨trivial, fun pool => ?_⟩
              cases pool with
              | error err => trivial
              | ok => exact ⟨⟨rfl, rfl⟩, fun _ => trivial⟩

variable {P R : Type} {params : Serde P} {result : Serde R}

lemma completed_reads {r : R} {written : Json} {row failure : Option Json}
    (hresult : result.Lossless) (hwritten : result.toValue r = .ok written)
    (hrow : row.getD .null = written) :
    (TaskResultSnapshot.fromSqlParts "completed" row failure >>=
      TaskResultSnapshot.deserializeResult result) = .ok (some r) := by
  change TaskResultSnapshot.deserializeResult result (.completed (row.getD .null)) = _
  rw [hrow]
  simp [TaskResultSnapshot.deserializeResult, TaskResultSnapshot.result, hresult r written hwritten,
    Except.mapError, Functor.map, Except.map]

def anything : Env RegistryCall RegistryAnswer Unit := fun _ _ _ _ => True

def echo : Json → TaskContext → Process (Result Json) := fun params _ => .done (.ok params)

def echoRegistry : Registry := fun _ => some ⟨"critical", eraseHandler Serde.json Serde.json echo⟩

def echoTask : ClaimedTask := { sampleTask with params := .string "hello" }

lemma sample_sends : ∃ optionsJson next,
    Run anything
      (sampleClone.spawn sampleTaskOptions (Serde.json.toValue (.string "hello")) sampleSpawnOptions)
      () (.call (.spawnTask "critical" "task" (.string "hello") optionsJson) next) () := by
  simp only [ClientClone.spawn, ClientClone.spawnResolved]
  rw [if_neg (by decide)]
  refine ⟨?optionsJson, ?next, ?run⟩
  case run =>
    apply Run.step (A := RegistryAnswer) (e := .getRegistration "task")
      (r := some (some sampleClientTask.toRegistration)) (t := ()) trivial
    apply Run.step (A := RegistryAnswer) (e := .poolGet) (r := Except.ok ()) (t := ()) trivial
    exact .refl _ _

lemma echo_completes : ∃ log,
    Run replies (executeClaimedCatching "critical" (some echoRegistry) echoTask sampleConfig) []
      (.done (.ok ())) log ∧ attempts log = [.completeRun "critical" Uuid.nil (.string "hello")] := by
  have hreach : Reaches replies (fun result log => result = .ok () ∧
        attempts log = [.completeRun "critical" Uuid.nil (.string "hello")])
      (executeClaimedCatching "critical" (some echoRegistry) echoTask sampleConfig) [] := by
    refine ⟨(), _, ⟨trivial, rfl⟩, Except.ok (), _, ⟨trivial, rfl⟩, Except.ok [], _, ⟨trivial, rfl⟩,
      (), _, ⟨trivial, rfl⟩, Except.ok (), _, ⟨trivial, rfl⟩, Except.ok (), _, ⟨trivial, rfl⟩,
      rfl, rfl⟩
  obtain ⟨result, log, hrun, rfl, hattempts⟩ := hreach.exists_run
  exact ⟨log, hrun, hattempts⟩

end RoundTrip

end AbsurdSdk.Execution
