import AbsurdSdk.Execution.Batch

namespace AbsurdSdk.Execution

open Interaction Model Program

section SetUp

inductive Start
  | unregistered
  | queueMismatch (err : Error)
  | failed (err : Error)
  | ready (ctx : TaskContext)

variable (workerQueue : String) (registry : Registry) (task : ClaimedTask)
  (config : TaskExecutionConfig)

def setUp : Execute Start :=
  match registry task.taskName with
  | none => .done .unregistered
  | some registration =>
    if registration.queueName ≠ workerQueue then
      .done (.queueMismatch (queueMismatch task registration workerQueue))
    else
      (spawnWatchdog config.claimTimeout (task.taskName ++ " (" ++ task.taskId.toString ++ ")")
          config.fatalOnLeaseTimeout).bind fun _ =>
        (Execute.context (TaskContext.new registration.queueName { task with params := .null }
          config.claimTimeout true).run).bind fun
          | .ok ctx => .done (.ready ctx)
          | .error err => .done (.failed err)

def handle : Start → Execute Outcome
  | .unregistered => .done .unregistered
  | .queueMismatch err => .done (.queueMismatch err)
  | .failed err => abortWatchdog.bind fun _ => .done (.executed (.error err))
  | .ready ctx => match registry task.taskName with
    | none => .done .unregistered
    | some registration =>
      (Execute.context (runHandler registration.handler task.params ctx config.hooks)).bind
        fun result => abortWatchdog.bind fun _ => .done (.executed result)

lemma outcome_eq : outcome workerQueue registry task config =
    (setUp workerQueue registry task config).bind (handle registry task config) := by
  cases hr : registry task.taskName with
  | none =>
    simp only [outcome, setUp, hr]
    rfl
  | some registration =>
    by_cases h : registration.queueName ≠ workerQueue
    · simp only [outcome, setUp, hr, if_pos h]
      rfl
    · simp only [outcome, setUp, hr, if_neg h, Program.bind_assoc]
      apply Program.bind_congr
      intro _
      apply Program.bind_congr
      intro ctx
      cases ctx with
      | ok ctx => simp [handle, hr]
      | error err => rfl

def afterStart : Except JoinError Start → Execute (Result Unit)
  | .ok start => ((handle registry task config start).caught joinError).bind
      (afterOutcome workerQueue task config)
  | .error err => afterOutcome workerQueue task config (.error err)

lemma executeClaimedCatching_start :
    executeClaimedCatching workerQueue (some registry) task config =
      ((setUp workerQueue registry task config).caught joinError).bind
        (afterStart workerQueue registry task config) := by
  rw [executeClaimedCatching_eq, outcome_eq, caught_bind, Program.bind_assoc]
  apply Program.bind_congr
  intro start
  cases start with
  | ok start => rfl
  | error err => rfl

end SetUp

section Timing

/-- Every call takes some time, and a sleep at least what it was asked for. -/
def timed : Env ExecutorCall ExecutorAnswer ℕ := fun now call _ later =>
  now ≤ later ∧ ∀ d, call = .context (.sleep d) → now + d.nanos ≤ later

structure TimedClaim where
  task : ClaimedTask
  expiry : ℕ

/-- `executed` counts the executions that have ended. -/
structure TimedBatch where
  clock : ℕ
  claims : List TimedClaim
  executed : ℕ

/-- How long a batch takes: the reply of the claim after its effect in the database, and the
execution at each position, up to the start of its handler and from there on. -/
structure Schedule where
  reply : ℕ
  setUp : ℕ → ℕ
  rest : ℕ → ℕ

namespace Schedule

variable (s : Schedule)

def duration (k : ℕ) : ℕ := s.setUp k + s.rest k

def elapsed : ℕ → ℕ
  | 0 => 0
  | k + 1 => elapsed k + s.duration k

end Schedule

/-- A claimed task is claimed for the seconds that were asked for, from the moment at which the
claim takes effect. -/
def timedBatch (workerQueue : String) (s : Schedule) : Env ClientCall ClientAnswer TimedBatch :=
  fun b call r b' => match call, r with
    | .getPool, _ => ∃ later, b.clock ≤ later ∧ b' = { b with clock := later }
    | .claimTask _ _ _ _, .error _ => ∃ later, b.clock ≤ later ∧ b' = { b with clock := later }
    | .claimTask _ _ seconds size, .ok tasks => tasks.length ≤ size ∧
      ∃ claimedAt, b.clock ≤ claimedAt ∧ b' =
        { clock := claimedAt + s.reply
          claims := tasks.map fun task => ⟨task, claimedAt + seconds * nanosPerSecond⟩
          executed := 0 }
    | .execute task config, result =>
      (∃ registry, Run timed (executeClaimedCatching workerQueue registry task config) b.clock
        (.done result) (b.clock + s.duration b.executed)) ∧
      b' = { b with clock := b.clock + s.duration b.executed, executed := b.executed + 1 }

def HandlerStart (workerQueue : String) (s : Schedule) (q : ClientM (Result ℕ)) (b : TimedBatch)
    (task : ClaimedTask) (now : ℕ) : Prop :=
  ∃ config next registry ctx, q = .call (.execute task config) next ∧
    now = b.clock + s.setUp b.executed ∧
    Run timed (executeClaimedCatching workerQueue (some registry) task config) b.clock
      (afterStart workerQueue registry task config (.ok (.ready ctx))) now

end Timing

section Batch

variable {workerQueue : String} {s : Schedule} {claimedAt : ℕ} {claims : List TimedClaim}
  {config : TaskExecutionConfig} {task : ClaimedTask} {tasks : List ClaimedTask}

def Schedule.standing (s : Schedule) (claimedAt : ℕ) (claims : List TimedClaim) (k : ℕ) : TimedBatch :=
  ⟨claimedAt + s.reply + s.elapsed k, claims, k⟩

lemma standing_succ (s : Schedule) (claimedAt : ℕ) (claims : List TimedClaim) (k : ℕ) :
    (⟨claimedAt + s.reply + s.elapsed k + s.duration k, claims, k + 1⟩ : TimedBatch) =
      s.standing claimedAt claims (k + 1) := by
  simp only [Schedule.standing, Schedule.elapsed, Nat.add_assoc]

lemma executeAll_at {config' : TaskExecutionConfig} {next : Result Unit → ClientM (Result Unit)}
    {k : ℕ} {b : TimedBatch}
    (h : Run (timedBatch workerQueue s) (executeAll config tasks) (s.standing claimedAt claims k)
      (.call (.execute task config') next) b) :
    ∃ before after, tasks = before ++ task :: after ∧
      b = s.standing claimedAt claims (k + before.length) := by
  induction tasks generalizing k with
  | nil => cases h
  | cons first tasks ih =>
    cases h with
    | refl => exact ⟨[], tasks, rfl, rfl⟩
    | @step _ _ result _ t _ _ hexecuted hrest =>
      obtain ⟨-, rfl⟩ := hexecuted
      cases result with
      | error err => cases hrest
      | ok =>
        obtain ⟨before, after, rfl, rfl⟩ := ih (standing_succ s claimedAt claims k ▸ hrest)
        refine ⟨first :: before, after, rfl, ?_⟩
        rw [List.length_cons, Nat.add_right_comm k 1, Nat.add_assoc k]

def claimsOf (options : WorkBatchOptions) (claimedAt : ℕ) (tasks : List ClaimedTask) :
    List TimedClaim :=
  tasks.map fun task =>
    ⟨task, claimedAt + durationSecondsCeil options.claimTimeout * nanosPerSecond⟩

def batchLimit (options : WorkBatchOptions) : ℕ := min (max options.batchSize 1) (2 ^ 31 - 1)

lemma claimTasks_claims (options : WorkBatchOptions) (queueName workerId : String) (b : TimedBatch) :
    Safe (timedBatch workerQueue s) (fun _ => True)
      (fun r b' => ∀ tasks, r = .ok tasks → tasks.length ≤ batchLimit options ∧
        ∃ claimedAt, b' = s.standing claimedAt (claimsOf options claimedAt tasks) 0)
      (claimTasks queueName workerId (durationSecondsCeil options.claimTimeout) (batchLimit options))
      b := by
  refine ⟨trivial, ?_⟩
  rintro (err | _) b' -
  · exact ⟨trivial, by simp⟩
  refine ⟨trivial, ?_⟩
  rintro (err | tasks) b'' h
  · exact ⟨trivial, by simp [Except.mapError]⟩
  · obtain ⟨hsize, claimedAt, -, rfl⟩ := h
    refine ⟨trivial, ?_⟩
    rintro _ ⟨⟩
    exact ⟨hsize, claimedAt, rfl⟩

lemma workBatch_at {client : Client} {debug : Error → String} {options : WorkBatchOptions}
    {b b' : TimedBatch} {next : Result Unit → ClientM (Result ℕ)}
    (h : Run (timedBatch client.queueName s) (client.workBatch debug options) b
      (.call (.execute task config) next) b') :
    ∃ claimedAt before after, (before ++ task :: after).length ≤ batchLimit options ∧
      b' = s.standing claimedAt (claimsOf options claimedAt (before ++ task :: after))
        before.length := by
  simp only [Client.workBatch, WorkBatchOptions.claimTimeoutSeconds] at h
  by_cases hzero : options.claimTimeout.isZero = true
  · rw [if_pos hzero] at h
    cases h
  rw [if_neg hzero] at h
  have hcalls : (claimTasks client.queueName options.workerIdValue
      (durationSecondsCeil options.claimTimeout) (batchLimit options)).Calls
      fun call => ∀ task config, call ≠ .execute task config := by
    refine ⟨by simp, ?_⟩
    rintro (err | _)
    · trivial
    · exact ⟨by simp, fun _ => trivial⟩
  rcases h.bind_at hcalls with hne | ⟨r, u, hclaim, hrest⟩
  · exact absurd rfl (hne task config)
  rcases r with err | tasks
  · cases hrest
  obtain ⟨hsize, claimedAt, rfl⟩ := (claimTasks_claims options _ _ b).finish hclaim tasks rfl
  rcases hrest.bind_cases with ⟨p, hp, hcall⟩ | ⟨result, v, -, hdone⟩
  · cases p with
    | done result => rcases result with err | _ <;> cases hcall
    | call call next' =>
      obtain ⟨rfl, -⟩ := Program.call.inj hcall
      obtain ⟨before, after, rfl, rfl⟩ := executeAll_at hp
      rw [Nat.zero_add]
      exact ⟨claimedAt, before, after, hsize, rfl⟩
  · rcases result with err | _ <;> cases hdone

lemma timed_after {call : ExecutorCall} (h : ∀ d, call ≠ .context (.sleep d))
    (r : ExecutorAnswer call) (now later : ℕ) : timed now call r (now + later) :=
  ⟨Nat.le_add_right _ _, fun d hd => absurd hd (h d)⟩

lemma setUp_takes (workerQueue : String) (config : TaskExecutionConfig) (now later : ℕ) :
    ∃ registry ctx, Run timed ((setUp workerQueue registry sampleTask config).caught joinError) now
      (.done (.ok (.ready ctx))) (now + later) := by
  have hreach : Reaches timed (fun start t => (∃ ctx, start = .ok (.ready ctx)) ∧ t = now + later)
      ((setUp workerQueue (fun _ => some ⟨workerQueue, fun _ _ => .done (.ok .null)⟩) sampleTask
        config).caught joinError) now := by
    simp only [setUp, ne_eq, not_true_eq_false, if_false]
    exact ⟨(), now, timed_after (by simp) _ _ 0, Except.ok (), now, timed_after (by simp) _ _ 0,
      Except.ok [], _, timed_after (by simp) _ _ later, ⟨_, rfl⟩, rfl⟩
  obtain ⟨start, t, hrun, ⟨ctx, rfl⟩, rfl⟩ := hreach.exists_run
  exact ⟨_, ctx, hrun⟩

lemma execution_takes (workerQueue : String) (task : ClaimedTask) (config : TaskExecutionConfig)
    (now later : ℕ) : ∃ registry, Run timed (executeClaimedCatching workerQueue registry task config)
      now (.done (.ok ())) (now + later) := by
  have hreach : Reaches timed (fun result t => result = .ok () ∧ t = now + later)
      (executeClaimedCatching workerQueue (some fun _ => none) task config) now := by
    obtain ⟨hooks, claimTimeout, policy, fatal, onError, debug⟩ := config
    cases policy with
    | defer | fail =>
      exact ⟨Except.ok (), now, timed_after (by simp) _ _ 0, Except.ok (), _,
        timed_after (by simp) _ _ later, rfl, rfl⟩
  obtain ⟨result, t, hrun, rfl, rfl⟩ := hreach.exists_run
  exact ⟨_, hrun⟩

lemma executeAll_reaches (workerQueue : String) (s : Schedule) (config : TaskExecutionConfig)
    (claimedAt : ℕ) (claims : List TimedClaim) (before : List ClaimedTask) (task : ClaimedTask)
    (k : ℕ) :
    ∃ next, Run (timedBatch workerQueue s) (executeAll config (before ++ [task]))
      (s.standing claimedAt claims k) (.call (.execute task config) next)
      (s.standing claimedAt claims (k + before.length)) := by
  induction before generalizing k with
  | nil => exact ⟨_, .refl _ _⟩
  | cons first before ih =>
    obtain ⟨next, hnext⟩ := ih (k + 1)
    refine ⟨next, .step (r := .ok ())
      ⟨execution_takes workerQueue first config _ (s.duration k), rfl⟩ ?_⟩
    rw [List.length_cons, Nat.add_comm before.length, ← Nat.add_assoc k]
    exact standing_succ s claimedAt claims k ▸ hnext

lemma workBatch_reaches (client : Client) (debug : Error → String) {options : WorkBatchOptions}
    (haccepted : options.claimTimeout.isZero = false) (s : Schedule) {k : ℕ}
    (hk : k < batchLimit options) : ∃ q b,
      Run (timedBatch client.queueName s) (client.workBatch debug options) ⟨0, [], 0⟩ q b ∧
      HandlerStart client.queueName s q b sampleTask (b.clock + s.setUp k) ∧
      b = s.standing 0 (claimsOf options 0 (List.replicate (k + 1) sampleTask)) k := by
  have hreplicate : List.replicate (k + 1) sampleTask = List.replicate k sampleTask ++ [sampleTask] :=
    List.replicate_succ'
  simp only [Client.workBatch, WorkBatchOptions.claimTimeoutSeconds, haccepted, if_false,
    Bool.false_eq_true]
  set config : TaskExecutionConfig := ⟨client.hooks, options.claimTimeout, options.unknownTaskPolicy,
    false, false, debug⟩
  set claims := claimsOf options 0 (List.replicate (k + 1) sampleTask)
  obtain ⟨next, hnext⟩ := executeAll_reaches client.queueName s config 0 claims
    (List.replicate k sampleTask) sampleTask 0
  rw [List.length_replicate, Nat.zero_add, ← hreplicate] at hnext
  obtain ⟨registry, ctx, hset⟩ := setUp_takes client.queueName config
    (s.standing 0 claims k).clock (s.setUp k)
  have hstart : Run timed (executeClaimedCatching client.queueName (some registry) sampleTask config)
      (s.standing 0 claims k).clock
      (afterStart client.queueName registry sampleTask config (.ok (.ready ctx)))
      ((s.standing 0 claims k).clock + s.setUp k) := by
    rw [executeClaimedCatching_start]
    exact hset.bind _
  refine ⟨_, s.standing 0 claims k,
    .step (r := .ok ()) (t := ⟨0, [], 0⟩) ⟨0, le_rfl, rfl⟩
      (.step (r := .ok (List.replicate (k + 1) sampleTask)) ⟨?_, 0, le_rfl, rfl⟩ (hnext.bind _)),
    ⟨config, _, registry, ctx, rfl, rfl, hstart⟩, rfl⟩
  rw [List.length_replicate]
  exact hk

section Sample

def hundredSeconds : Schedule := ⟨0, fun _ => 0, fun _ => 100 * nanosPerSecond⟩

def threeTasks : WorkBatchOptions := { sampleBatch with batchSize := 3 }

end Sample

end Batch

end AbsurdSdk.Execution
