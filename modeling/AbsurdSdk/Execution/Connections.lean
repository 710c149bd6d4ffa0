import AbsurdSdk.Execution.Isolation
import AbsurdSdk.Interaction.Pool
import AbsurdSdk.Model.Administration

/-! The connections of the pool that the operations of a client and the executions of its tasks
share. A pool without a timeout answers `get` when a connection is free. -/

namespace AbsurdSdk.Execution

open Interaction Model Relation

def poolGetRole : Role (Except String Unit) := .takes Except.toBool (.ok ())

/-- A future takes a connection for one statement and drops it with the answer. The user's code runs
and a future sleeps with none. -/
def futurePool : Pooling Call Answer where
  role
    | .poolGet => poolGetRole
    | .query _ => .gives
    | .sendLease _ | .now | .sleep _ | .closure _ | .supply _ | .panic _ | .pending => .keeps
  bare
    | .sleep _ | .closure _ | .supply _ | .panic _ | .pending => True
    | .poolGet | .query _ | .sendLease _ | .now => False

def executorPool : Pooling ExecutorCall ExecutorAnswer where
  role
    | .context call => futurePool.role call
    | .getPool _ => poolGetRole
    | .settle _ => .gives
    | .spawnWatchdog _ _ _ | .abortWatchdog | .onError _ _ | .panic _ => .keeps
  bare
    | .context call => futurePool.bare call
    | .onError _ _ | .panic _ => True
    | .getPool _ | .settle _ | .spawnWatchdog _ _ _ | .abortWatchdog => False

def registryPool : Pooling RegistryCall RegistryAnswer where
  role
    | .poolGet => poolGetRole
    | .spawnTask _ _ _ _ => .gives
    | .beforeSpawn _ _ _ | .getRegistration _ | .update _ => .keeps
  bare
    | .beforeSpawn _ _ _ | .getRegistration _ | .update _ => True
    | .poolGet | .spawnTask _ _ _ _ => False

def clientPool : Pooling ClientCall ClientAnswer where
  role
    | .getPool => poolGetRole
    | .claimTask _ _ _ _ => .gives
    | .execute _ _ => .keeps
  bare
    | .execute _ _ => True
    | .getPool | .claimTask _ _ _ _ => False

def adminPool : Pooling AdminCall AdminAnswer where
  role
    | .poolGet => poolGetRole
    | .execute _ => .keeps
    | .release => .gives
    | .future call => futurePool.role call
  bare
    | .future call => futurePool.bare call
    | .poolGet | .execute _ | .release => False

section Futures

abbrev Modest {α : Type} (p : Process α) : Prop := futurePool.Thrifty 1 0 p 0

namespace Modest

variable {α β : Type}

lemma bind {x : Async α} {f : α → Async β} (hx : Modest x.run) (hf : ∀ a, Modest (f a).run) :
    Modest (x >>= f).run := by
  apply Pooling.Thrifty.bind hx
  intro r
  cases r with
  | error err => exact rfl
  | ok a => exact hf a

lemma query (statement : Statement α) : Modest (Async.query statement).run := by
  refine ⟨fun _ => Nat.zero_lt_one, fun _ => rfl, fun r => ?_⟩
  cases r with
  | error err => exact rfl
  | ok _ => exact .call False.elim id ⟨.error ⟨none, ""⟩⟩ fun _ => rfl

lemma panic (text : String) : Modest (Async.panic text : Async α).run :=
  ⟨False.elim, fun _ => rfl, fun r => r.elim⟩

lemma hang : Modest (Async.hang : Async α).run := ⟨False.elim, fun _ => rfl, fun r => r.elim⟩

lemma closure (T : Type) : Modest (Async.closure T).run := by
  refine ⟨False.elim, fun _ => rfl, fun r => ?_⟩
  cases r with
  | error text => exact panic text
  | ok r => exact rfl

lemma supply (T : Type) : Modest (Async.supply T).run := by
  refine ⟨False.elim, fun _ => rfl, fun r => ?_⟩
  cases r with
  | error text => exact panic text
  | ok r => exact rfl

lemma sendLease (d : Duration) : Modest (Async.sendLease d).run :=
  ⟨False.elim, fun _ => rfl, fun _ => rfl⟩

lemma futures : Futures fun x => Modest x.run where
  bind := bind
  ofResult _ := rfl
  now := ⟨False.elim, fun _ => rfl, fun _ => rfl⟩
  sleep _ := ⟨False.elim, fun _ => rfl, fun _ => rfl⟩
  hang := hang

end Modest

abbrev ModestMethod {α : Type} (m : ContextM α) (c : TaskContext) : Prop := Modest (m.run c)

namespace ModestMethod

variable {α β : Type} {c : TaskContext}

lemma bind {m : ContextM α} {f : α → ContextM β} (hm : ModestMethod m c)
    (hf : ∀ a d, ModestMethod (f a) d) : ModestMethod (m >>= f) c := by
  apply Pooling.Thrifty.bind hm
  rintro ⟨r, d⟩
  cases r with
  | error err => exact rfl
  | ok a => exact hf a d

lemma lift {x : Async α} (hx : Modest x.run) : ModestMethod (liftM x) c :=
  Pooling.Thrifty.bind hx fun _ => rfl

lemma pure (a : α) : ModestMethod (pure a) c := rfl

lemma context : ModestMethod ContextM.context c := rfl

lemma modify (f : TaskContext → TaskContext) : ModestMethod (ContextM.modify f) c := rfl

lemma notifyLeaseExtended (d : Duration) :
    ModestMethod (TaskContext.notifyLeaseExtended d) c := by
  apply bind context
  intro e _
  split
  · exact lift (.sendLease d)
  · exact pure ()

lemma nextCheckpointName (name : String) :
    ModestMethod (TaskContext.nextCheckpointName name) c := by
  apply bind context
  intro d _
  apply bind (modify _)
  intro _ _
  split
  · exact pure _
  · exact pure _

lemma lookupCheckpoint (name : String) : ModestMethod (TaskContext.lookupCheckpoint name) c := by
  apply bind context
  intro d _
  split
  · exact pure _
  · apply bind (lift (.query _))
    intro row _
    cases row with
    | none => exact pure _
    | some value => exact bind (modify _) fun _ _ => pure _

lemma persistCheckpoint (name : String) (value : Json) :
    ModestMethod (TaskContext.persistCheckpoint name value) c := by
  apply bind context
  intro d _
  apply bind (lift (.query _))
  intro _ _
  exact bind (modify _) fun _ _ => notifyLeaseExtended _

lemma heartbeatFor (d : Duration) : ModestMethod (TaskContext.heartbeatFor d) c := by
  apply bind context
  intro e _
  exact bind (lift (.query _)) fun _ _ => notifyLeaseExtended d

end ModestMethod

def modest : Discipline where
  async x := Modest x.run
  context m c := ModestMethod m c
  sound _ := True
  slots _ := True
  takes _ _ := True
  futures := Modest.futures
  panic := .panic
  closure := .closure
  passive statement _ := .query statement
  awaitEvent _ _ _ _ _ _ := .query _
  beat := by
    intro c _ next
    apply Modest.bind (.query _)
    intro _
    split
    · exact .bind (.sendLease _) fun _ => rfl
    · exact rfl
  pure _ _ _ := rfl
  throw _ _ _ := rfl
  bind hm hf := .bind hm fun a d => hf a d trivial
  lift_bind := by
    intro α β x f c _ hx hf
    change Modest ((x.run.bind _).bind _)
    rw [Program.bind_assoc]
    apply Pooling.Thrifty.bind hx
    intro r
    cases r with
    | error err => exact rfl
    | ok a => exact hf a
  context_bind := id
  next_bind _ _ hf := .bind (.nextCheckpointName _) fun slot d => hf slot d trivial trivial
  lookup _ _ := .lookupCheckpoint _
  persist _ _ value := .persistCheckpoint _ value
  cache _ _ _ := rfl
  timeOut _ _ := rfl
  forget _ _ := rfl

lemma method_modest (chrono : Serde DateTime) (turns : ℕ) (m : Method) (c : TaskContext) :
    ModestMethod (m.run chrono turns) c := by
  cases m with
  | step serde name => exact modest.step serde trivial trivial
  | beginStep serde name => exact modest.beginStep serde trivial trivial
  | completeStep serde handle value => exact modest.completeStep serde value trivial trivial
  | sleepFor name duration => exact modest.sleepFor chrono duration trivial trivial
  | sleepUntil name wakeAt => exact modest.sleepUntil chrono wakeAt trivial trivial
  | awaitEvent serde eventName options =>
    exact modest.awaitEventWithOptions serde trivial trivial
  | awaitTaskResult taskId options => exact modest.awaitTaskResult turns trivial trivial
  | emitEvent serde eventName payload => exact modest.emitEvent serde eventName payload trivial
  | heartbeat => exact .bind .context fun c _ => .heartbeatFor c.claimTimeout
  | heartbeatFor duration => exact .heartbeatFor duration
  | supply T => exact .lift (.supply T)

lemma process_modest (chrono : Serde DateTime) (turns : ℕ) (handler : MethodHandler (Result Json))
    (c : TaskContext) : Modest (MethodHandler.process chrono turns handler c) := by
  induction handler generalizing c with
  | done result => exact rfl
  | call m next ih =>
    apply Pooling.Thrifty.bind (method_modest chrono turns m c)
    exact fun r => ih r.1 r.2

lemma taskContext_modest (queueName : String) (task : ClaimedTask) (claimTimeout : Duration)
    (leaseTx : Bool) : Modest (TaskContext.new queueName task claimTimeout leaseTx).run := by
  apply Modest.bind (.query _)
  intro rows
  split
  · exact rfl
  · exact rfl
  · exact rfl
  · exact rfl

end Futures

section Executions

abbrev Frugal {α : Type} (p : Execute α) : Prop := executorPool.Thrifty 1 0 p 0

lemma context_frugal {α : Type} {p : Process α} (h : Modest p) : Frugal (Execute.context p) :=
  h.relabel (fun _ hw => hw) (fun _ _ _ => rfl) (fun _ he => he) fun _ he => he

lemma settle_frugal (settlement : Settlement) : Frugal (settle settlement) := by
  refine ⟨fun _ => Nat.zero_lt_one, fun _ => rfl, fun r => ?_⟩
  cases r with
  | error err => exact rfl
  | ok _ => exact .call False.elim id ⟨.ok ()⟩ fun _ => rfl

lemma completeRun_frugal (queueName : String) (runId : Uuid) (result : Json) :
    Frugal (completeRun queueName runId result) := by
  apply (settle_frugal _).bind
  intro r
  cases r with
  | error err => exact rfl
  | ok _ => exact rfl

lemma failRunPayload_frugal (queueName : String) (runId : Uuid) (payload : Json) :
    Frugal (failRunPayload queueName runId payload) := by
  apply (settle_frugal _).bind
  intro r
  cases r with
  | error err => exact rfl
  | ok _ => exact rfl

lemma handleUnknownTask_frugal (workerQueue : String) (task : ClaimedTask)
    (policy : UnknownTaskPolicy) : Frugal (handleUnknownTask workerQueue task policy) := by
  cases policy with
  | defer => exact settle_frugal _
  | fail => exact failRunPayload_frugal _ _ _

lemma reportExecutionError_frugal (onError : Bool) (err : Error) :
    Frugal (reportExecutionError onError err) := by
  rw [reportExecutionError]
  split
  · refine ⟨False.elim, fun _ => rfl, fun r => ?_⟩
    cases r with
    | ok _ => exact rfl
    | error text => exact ⟨False.elim, fun _ => rfl, fun r => r.elim⟩
  · exact rfl

variable {workerQueue : String} {registry : Option Registry} {task : ClaimedTask}
  {config : TaskExecutionConfig}

lemma outcome_frugal {tasks : Registry} {chrono : Serde DateTime} {turns : ℕ}
    (h : UsesMethods chrono turns (some tasks) task config) :
    Frugal (outcome workerQueue tasks task config) := by
  rw [outcome]
  cases hregistered : tasks task.taskName with
  | none => exact rfl
  | some registration =>
    dsimp only
    split
    · exact rfl
    · refine ⟨False.elim, fun _ => rfl, fun _ => ?_⟩
      apply (context_frugal (taskContext_modest _ _ _ _)).bind
      intro ctx
      have habort (result : Result Json) :
          Frugal (abortWatchdog.bind fun _ => .done (Outcome.executed result)) :=
        ⟨False.elim, fun _ => rfl, fun _ => rfl⟩
      cases ctx with
      | error err => exact habort _
      | ok ctx =>
        obtain ⟨handler, he⟩ := h tasks registration rfl hregistered ctx
        have hprocess := process_modest chrono turns handler ctx
        rw [← he] at hprocess
        exact (context_frugal hprocess).bind habort

lemma settleOutcome_frugal (o : Outcome) :
    Frugal (settleOutcome workerQueue task config o) := by
  rcases o with _ | err | (err | value)
  · exact handleUnknownTask_frugal _ _ _
  · exact failRunPayload_frugal _ _ _
  · rw [settleOutcome]
    split
    · exact rfl
    · apply (failRunPayload_frugal _ _ _).bind
      intro result
      exact (reportExecutionError_frugal _ _).bind fun _ => rfl
  · exact completeRun_frugal _ _ _

lemma afterJoin_frugal (ending : Except JoinError (Result Unit)) :
    Frugal (afterJoin workerQueue task config ending) := by
  rcases ending with (message | _) | result
  · apply (failRunPayload_frugal _ _ _).bind
    intro result
    exact (reportExecutionError_frugal _ _).bind fun _ => rfl
  · exact rfl
  · exact rfl

lemma joinError_unanswered (e : ExecutorCall) (err : JoinError) (h : joinError e = some err) :
    IsEmpty (ExecutorAnswer e) := by
  rcases e with (_ | _) | _ | _ | _ | _ | _ | _ <;> cases h
  · exact inferInstanceAs (IsEmpty Empty)
  · exact inferInstanceAs (IsEmpty Empty)

lemma execution_frugal {chrono : Serde DateTime} {turns : ℕ}
    (h : UsesMethods chrono turns registry task config) :
    Frugal (executeClaimedCatching workerQueue registry task config) := by
  cases registry with
  | none => exact rfl
  | some tasks =>
    rw [executeClaimedCatching_eq]
    apply ((outcome_frugal h).caught joinError_unanswered).bind
    intro ending
    cases ending with
    | ok o => exact ((settleOutcome_frugal o).caught joinError_unanswered).bind afterJoin_frugal
    | error err => exact afterJoin_frugal _

end Executions

section Spawns

variable {client : ClientClone}

lemma claimTasks_frugal (queueName workerId : String) (claimTimeoutSeconds batchSize : ℕ) :
    clientPool.Thrifty 1 0 (claimTasks queueName workerId claimTimeoutSeconds batchSize) 0 := by
  refine ⟨fun _ => Nat.zero_lt_one, fun _ => rfl, fun r => ?_⟩
  cases r with
  | error err => exact rfl
  | ok _ => exact .call False.elim id ⟨.ok []⟩ fun _ => rfl

lemma spawnResolved_frugal (taskName : String) (taskOptions : Option TaskOptions)
    (params : Except String Json) (options : SpawnOptions) :
    registryPool.Thrifty 1 0 (client.spawnResolved taskName taskOptions params options) 0 := by
  unfold ClientClone.spawnResolved
  split
  · exact rfl
  · cases params with
    | error err => exact rfl
    | ok params =>
      have hhook : registryPool.Thrifty 1 0 (client.applyBeforeSpawn taskName params options) 0 := by
        rw [ClientClone.applyBeforeSpawn]
        split
        · exact ⟨False.elim, fun _ => rfl, fun _ => rfl⟩
        · exact rfl
      apply hhook.bind
      intro r
      cases r with
      | error err => exact rfl
      | ok options =>
        refine ⟨False.elim, fun _ => rfl, fun registration => ?_⟩
        cases registration with
        | none => exact rfl
        | some registration =>
          dsimp only
          cases client.resolveSpawn taskName taskOptions options registration with
          | error err => exact rfl
          | ok resolved =>
            refine ⟨fun _ => Nat.zero_lt_one, fun _ => rfl, fun r => ?_⟩
            cases r with
            | error err => exact rfl
            | ok _ => exact .call False.elim id ⟨.error ⟨none, ""⟩⟩ fun _ => rfl

end Spawns

section Operations

abbrev Keeps (need n : ℕ) {α : Type} (x : Admin α) : Prop := adminPool.Thrifty need n x.run n

namespace Keeps

variable {α β : Type} {need n : ℕ}

lemma bind {x : Admin α} {f : α → Admin β} (hx : Keeps need n x) (hf : ∀ a, Keeps need n (f a)) :
    Keeps need n (x >>= f) := by
  apply Pooling.Thrifty.bind hx
  intro r
  cases r with
  | error err => exact rfl
  | ok a => exact hf a

lemma ofResult (r : Result α) : Keeps need n (Admin.ofResult r) := rfl

lemma pure (a : α) : Keeps need n (pure a : Admin α) := rfl

lemma execute (statement : AdminStatement α) : Keeps need n (Admin.execute statement) :=
  .call False.elim id ⟨.error ⟨none, ""⟩⟩ fun _ => rfl

lemma ofAsync {x : Async α} (hx : Modest x.run) : Keeps 1 0 (Admin.ofAsync x) :=
  Pooling.Thrifty.relabel hx (fun _ hw => hw) (fun _ _ _ => rfl) (fun _ he => he) fun _ he => he

lemma withConnection {rest : Admin α} (h : Keeps need (n + 1) rest) (hn : n < need) :
    Keeps need n (Admin.withConnection rest) := by
  apply Pooling.Thrifty.call (fun _ => hn) id ⟨.ok ()⟩
  intro r
  cases r with
  | error err => exact rfl
  | ok _ =>
    apply Pooling.Thrifty.bind h
    intro a
    exact .call False.elim id ⟨()⟩ fun _ => rfl

lemma statement (s : AdminStatement α) : Keeps 1 0 (Admin.withConnection (Admin.execute s)) :=
  withConnection (execute s) Nat.zero_lt_one

lemma setQueuePolicyIn (queueName : String) (options : QueuePolicyOptions)
    (h : options.isEmpty ∨ n < need) : Keeps need n (Client.setQueuePolicyIn queueName options) := by
  apply bind (ofResult _)
  intro _
  split
  · exact pure ()
  · rename_i hempty
    exact withConnection (execute _) (h.resolve_left hempty)

lemma createQueueInWithOptions (queueName : String) (options : CreateQueueOptions)
    (h : options.policyOptions.isEmpty ∨ 1 < need) (hneed : 0 < need) :
    Keeps need 0 (Client.createQueueInWithOptions queueName options) := by
  apply bind (ofResult _)
  intro _
  apply withConnection _ hneed
  split
  · exact bind (execute _) fun _ => setQueuePolicyIn _ _ h
  · exact bind (execute _) fun _ => setQueuePolicyIn _ _ h

end Keeps

end Operations

inductive Activity : Type 1
  | createQueueIn (queueName : String)
  | createQueueInWithOptions (queueName : String) (options : CreateQueueOptions)
  | setQueuePolicyIn (queueName : String) (options : QueuePolicyOptions)
  | getQueuePolicyIn (queueName : String)
  | dropQueueIn (queueName : String)
  | listQueues
  | emitEvent (eventName : String) (payload : Except String Json) (queueName : Option String)
  | retryTask (taskId : Uuid) (options : RetryTaskOptions)
  | fetchTaskResult (taskId : Uuid) (queueName : Option String)
  | awaitTaskResult (turns : ℕ) (taskId : Uuid) (options : AwaitTaskResultOptions)
  | cancelTask (taskId : Uuid) (queueName : Option String)
  | cleanupWithLimit (ttl : Duration) (limit : ℤ) (queueName : Option String)
  | spawn (taskName : String) (taskOptions : Option TaskOptions) (params : Except String Json)
      (options : SpawnOptions)
  | claimTasks (queueName workerId : String) (claimTimeoutSeconds batchSize : ℕ)
  | execution (workerQueue : String) (registry : Option Registry) (task : ClaimedTask)
      (config : TaskExecutionConfig)

inductive PoolCall : Type 1
  | admin (call : AdminCall)
  | spawn (call : RegistryCall)
  | claim (call : ClientCall)
  | execution (call : ExecutorCall)

def PoolAnswer : PoolCall → Type
  | .admin call => AdminAnswer call
  | .spawn call => RegistryAnswer call
  | .claim call => ClientAnswer call
  | .execution call => ExecutorAnswer call

def connections : Pooling PoolCall PoolAnswer where
  role
    | .admin call => adminPool.role call
    | .spawn call => registryPool.role call
    | .claim call => clientPool.role call
    | .execution call => executorPool.role call
  bare
    | .admin call => adminPool.bare call
    | .spawn call => registryPool.bare call
    | .claim call => clientPool.bare call
    | .execution call => executorPool.bare call

def erased {α : Type} (p : Program PoolCall PoolAnswer α) : Program PoolCall PoolAnswer Unit :=
  p.bind fun _ => .done ()

def administers {α : Type} (x : Admin α) : Program PoolCall PoolAnswer Unit :=
  erased (x.run.relabel .admin fun _ r => r)

namespace Activity

def program (client : ClientClone) : Activity → Program PoolCall PoolAnswer Unit
  | createQueueIn queueName => administers (Client.createQueueIn queueName)
  | createQueueInWithOptions queueName options =>
    administers (Client.createQueueInWithOptions queueName options)
  | setQueuePolicyIn queueName options => administers (Client.setQueuePolicyIn queueName options)
  | getQueuePolicyIn queueName => administers (Client.getQueuePolicyIn queueName)
  | dropQueueIn queueName => administers (Client.dropQueueIn queueName)
  | listQueues => administers Client.listQueues
  | emitEvent eventName payload queueName =>
    administers (client.toClient.emitEvent eventName payload queueName)
  | retryTask taskId options => administers (client.toClient.retryTask taskId options)
  | fetchTaskResult taskId queueName =>
    administers (client.toClient.fetchTaskResult taskId queueName)
  | awaitTaskResult turns taskId options =>
    administers (client.toClient.awaitTaskResult turns taskId options)
  | cancelTask taskId queueName => administers (client.toClient.cancelTask taskId queueName)
  | cleanupWithLimit ttl limit queueName =>
    administers (client.toClient.cleanupWithLimit ttl limit queueName)
  | spawn taskName taskOptions params options =>
    erased ((client.spawnResolved taskName taskOptions params options).relabel .spawn fun _ r => r)
  | claimTasks queueName workerId claimTimeoutSeconds batchSize =>
    erased ((Model.claimTasks queueName workerId claimTimeoutSeconds batchSize).relabel .claim
      fun _ r => r)
  | execution workerQueue registry task config =>
    erased ((executeClaimedCatching workerQueue registry task config).relabel .execution
      fun _ r => r)

/-- The queue's policy is set while the connection that created the queue is held. -/
def nests : Activity → Bool
  | createQueueInWithOptions queueName options =>
    (validateQueueName queueName).toBool && !options.policyOptions.isEmpty
  | _ => false

def UsesMethods (chrono : Serde DateTime) : Activity → Prop
  | execution _ registry task config =>
    ∃ turns, Execution.UsesMethods chrono turns registry task config
  | _ => True

def need (activity : Activity) : ℕ := if activity.nests then 2 else 1

end Activity

lemma erased_thrifty {α : Type} {need : ℕ} {p : Program PoolCall PoolAnswer α}
    (h : connections.Thrifty need 0 p 0) : connections.Thrifty need 0 (erased p) 0 :=
  h.bind fun _ => rfl

lemma Keeps.administers {α : Type} {need : ℕ} {x : Admin α} (h : Keeps need 0 x) :
    connections.Thrifty need 0 (administers x) 0 := by
  apply erased_thrifty
  exact Pooling.Thrifty.relabel h (fun _ hw => hw) (fun _ _ _ => rfl) (fun _ he => he) fun _ he => he

namespace Activity

lemma createQueueInWithOptions_thrifty (client : ClientClone) (queueName : String)
    (options : CreateQueueOptions) :
    connections.Thrifty (createQueueInWithOptions queueName options).need 0
      ((createQueueInWithOptions queueName options).program client) 0 := by
  rw [need, nests]
  apply Keeps.administers
  cases hvalid : validateQueueName queueName with
  | error err =>
    rw [Client.createQueueInWithOptions, hvalid]
    exact rfl
  | ok _ =>
    cases hempty : options.policyOptions.isEmpty with
    | false => exact .createQueueInWithOptions _ _ (.inr Nat.one_lt_two) Nat.zero_lt_two
    | true => exact .createQueueInWithOptions _ _ (.inl hempty) Nat.zero_lt_one

lemma program_thrifty (client : ClientClone) {chrono : Serde DateTime} (activity : Activity)
    (h : activity.UsesMethods chrono) :
    connections.Thrifty activity.need 0 (activity.program client) 0 := by
  cases activity with
  | createQueueIn queueName =>
    exact Keeps.administers (.bind (.ofResult _) fun _ => .statement _)
  | createQueueInWithOptions queueName options =>
    exact createQueueInWithOptions_thrifty client queueName options
  | setQueuePolicyIn queueName options =>
    exact Keeps.administers (.setQueuePolicyIn _ _ (.inr Nat.zero_lt_one))
  | getQueuePolicyIn queueName =>
    apply Keeps.administers
    apply Keeps.bind (.ofResult _)
    intro _
    exact .withConnection (.bind (.execute _) fun _ => .ofResult _) Nat.zero_lt_one
  | dropQueueIn queueName => exact Keeps.administers (.bind (.ofResult _) fun _ => .statement _)
  | listQueues => exact Keeps.administers (.statement _)
  | emitEvent eventName payload queueName =>
    apply Keeps.administers
    rw [Client.emitEvent]
    split
    · exact rfl
    · exact .bind (.ofResult _) fun _ => .bind (.ofResult _) fun _ => .statement _
  | retryTask taskId options =>
    exact Keeps.administers
      (.bind (.ofResult _) fun _ => .bind (.ofResult _) fun _ => .statement _)
  | fetchTaskResult taskId queueName =>
    apply Keeps.administers
    exact .bind (.ofResult _) fun _ => .ofAsync (Modest.futures.fetchTaskResultSnapshot (.query _))
  | awaitTaskResult turns taskId options =>
    apply Keeps.administers
    apply Keeps.bind (.ofResult _)
    intro _
    exact .ofAsync (Modest.futures.awaitTaskResultWithBackoff (.query _)
      (fun b => Modest.futures.pure b) turns ())
  | cancelTask taskId queueName =>
    exact Keeps.administers (.bind (.ofResult _) fun _ => .statement _)
  | cleanupWithLimit ttl limit queueName =>
    apply Keeps.administers
    apply Keeps.bind (.ofResult _)
    intro _
    apply Keeps.withConnection _ Nat.zero_lt_one
    exact .bind (.execute _) fun _ => .bind (.execute _) fun _ => .pure _
  | spawn taskName taskOptions params options =>
    apply erased_thrifty
    exact (spawnResolved_frugal taskName taskOptions params options).relabel
      (fun _ hw => hw) (fun _ _ _ => rfl) (fun _ he => he) fun _ he => he
  | claimTasks queueName workerId claimTimeoutSeconds batchSize =>
    apply erased_thrifty
    exact (claimTasks_frugal queueName workerId claimTimeoutSeconds batchSize).relabel
      (fun _ hw => hw) (fun _ _ _ => rfl) (fun _ he => he) fun _ he => he
  | execution workerQueue registry task config =>
    obtain ⟨turns, hmethods⟩ := h
    apply erased_thrifty
    exact (execution_frugal hmethods).relabel
      (fun _ hw => hw) (fun _ _ _ => rfl) (fun _ he => he) fun _ he => he

lemma nests_climbs (client : ClientClone) {activity : Activity} (h : activity.nests = true) :
    ∃ q : Party PoolCall PoolAnswer Unit,
      connections.Climbs 1 ⟨activity.program client, 0⟩ q ∧ q.held = 1 ∧ q.Waits connections := by
  cases activity with
  | createQueueInWithOptions queueName options =>
    rw [nests, Bool.and_eq_true, Bool.not_eq_true'] at h
    obtain ⟨hvalid, hpolicy⟩ := h
    have hok : validateQueueName queueName = .ok () := by
      cases hv : validateQueueName queueName with
      | error err =>
        rw [hv] at hvalid
        cases hvalid
      | ok _ => rfl
    have hset : Client.setQueuePolicyIn queueName options.policyOptions = Admin.withConnection
        (Admin.execute (.setQueuePolicy queueName options.policyOptions.toSqlJson)) := by
      rw [Client.setQueuePolicyIn, hok, hpolicy]
      rfl
    rw [program, Client.createQueueInWithOptions, hok, hset]
    by_cases hmode : options.storageMode = .unpartitioned
    · rw [if_pos hmode]
      refine Pooling.exists_climbs_call (Except.ok ()) (fun _ => Nat.zero_lt_one) ?_
      refine Pooling.exists_climbs_call (Except.ok ()) False.elim ?_
      exact ⟨_, .refl, rfl, _, _, rfl, trivial⟩
    · rw [if_neg hmode]
      refine Pooling.exists_climbs_call (Except.ok ()) (fun _ => Nat.zero_lt_one) ?_
      refine Pooling.exists_climbs_call (Except.ok ()) False.elim ?_
      exact ⟨_, .refl, rfl, _, _, rfl, trivial⟩
  | _ => cases h

end Activity

variable {ι : Type} [Fintype ι]

lemma sum_need (activities : ι → Activity) :
    ∑ i, ((activities i).need - 1) = (Finset.univ.filter fun i => (activities i).nests).card := by
  rw [Finset.card_filter]
  apply Finset.sum_congr rfl
  intro i _
  rw [Activity.need]
  split
  · rfl
  · rfl

variable [DecidableEq ι]

def together (client : ClientClone) (activities : ι → Activity) :
    ι → Party PoolCall PoolAnswer Unit :=
  fun i => ⟨(activities i).program client, 0⟩

lemma nests_lock (client : ClientClone) {activities : ι → Activity} {capacity : ℕ}
    (hcapacity : 0 < capacity)
    (hnests : capacity ≤ (Finset.univ.filter fun i => (activities i).nests).card) :
    ∃ s, ReflTransGen (connections.Step capacity) (together client activities) s ∧
      connections.Locked capacity s := by
  obtain ⟨holders, hsub, hcard⟩ := Finset.exists_subset_card_eq hnests
  have hstands (i : ι) : ∃ q : Party PoolCall PoolAnswer Unit,
      connections.Climbs q.held (together client activities i) q ∧
        q.held = (if i ∈ holders then 1 else 0) ∧ (i ∈ holders → q.Waits connections) := by
    by_cases hi : i ∈ holders
    · have hnest : (activities i).nests = true := (Finset.mem_filter.1 (hsub hi)).2
      obtain ⟨q, hclimbs, hheld, hwaits⟩ := Activity.nests_climbs client hnest
      rw [if_pos hi]
      exact ⟨q, hheld ▸ hclimbs, hheld, fun _ => hwaits⟩
    · rw [if_neg hi]
      exact ⟨_, .refl, rfl, fun h => absurd h hi⟩
  choose stand hclimbs hheld hwaits using hstands
  have htotal : Pooling.total stand = capacity := by
    rw [Pooling.total, Finset.sum_congr rfl fun i _ => hheld i, ← Finset.card_filter,
      Finset.filter_mem_eq_inter, Finset.univ_inter, hcard]
  obtain ⟨i, hi⟩ : holders.Nonempty := Finset.card_pos.1 (hcard ▸ hcapacity)
  refine ⟨stand, Pooling.steps_of_climbs (fun _ => rfl) hclimbs htotal.le, htotal.ge,
    ⟨i, hwaits i hi⟩, ?_⟩
  intro j hj
  apply hwaits j
  by_contra hout
  rw [hheld j, if_neg hout] at hj
  exact hj.false

/-- Whatever the activities of a client do at the same time on a pool, they cannot come to where
everybody who has a connection waits for another, exactly if fewer of them nest than the pool has
connections. Where they have come to that, it is for ever; elsewhere one of them goes on, unless all
have ended or stand where they are not answered. -/
theorem pool_never_deadlocks_iff {client : ClientClone} {chrono : Serde DateTime}
    {activities : ι → Activity} {capacity : ℕ} (hcapacity : 0 < capacity)
    (hmethods : ∀ i, (activities i).UsesMethods chrono) :
    ((∀ s, ReflTransGen (connections.Step capacity) (together client activities) s →
        ¬ connections.Locked capacity s) ↔
      (Finset.univ.filter fun i => (activities i).nests).card < capacity) ∧
    ∀ s, ReflTransGen (connections.Step capacity) (together client activities) s →
      (connections.Locked capacity s → ∀ t, ReflTransGen (connections.Step capacity) s t →
        connections.Locked capacity t ∧ ∀ i, 0 < (s i).held → t i = s i) ∧
      (¬ connections.Locked capacity s →
        (∀ i, (s i).Rests) ∨ ∃ t, connections.Step capacity s t) := by
  have hthrifty (s : ι → Party PoolCall PoolAnswer Unit)
      (hs : ReflTransGen (connections.Step capacity) (together client activities) s) (i : ι) :
      connections.Thrifty (activities i).need 0 (s i).program (s i).held := by
    obtain ⟨-, hall⟩ := Pooling.accounted hs
      (fun i => Activity.program_thrifty client _ (hmethods i)) fun _ => rfl
    exact (hall i).2
  refine ⟨⟨?_, ?_⟩, ?_⟩
  · intro hfree
    by_contra hmany
    obtain ⟨s, hs, hlocked⟩ := nests_lock client hcapacity (not_lt.1 hmany)
    exact hfree s hs hlocked
  · intro hfew s hs
    rw [← sum_need] at hfew
    exact Pooling.not_locked (hthrifty s hs) hfew
  · exact fun s hs => ⟨fun h t ht => h.steps ht, Pooling.rests_or_steps (hthrifty s hs)⟩

section Sample

def spawningClient : ClientClone :=
  { queueName := "default", hooks := ⟨none⟩, defaultMaxAttempts := 5, beforeSpawn := false }

def policyOptionsSample : CreateQueueOptions where
  partitionLookahead := none
  partitionLookback := none
  cleanupTtl := some "30 days"
  cleanupLimit := none
  detachMode := none
  detachMinAge := none
  storageMode := .unpartitioned

def jostling : Fin 2 → Activity
  | 0 => .createQueueInWithOptions "default" policyOptionsSample
  | 1 => .execution "default" (some beatingRegistry) sampleTask sampleConfig

lemma jostling_usesMethods (i : Fin 2) : (jostling i).UsesMethods unreadable := by
  rcases i with ⟨_ | _ | _, hi⟩
  · trivial
  · exact ⟨0, beating_usesMethods⟩
  · omega

theorem pool_never_deadlocks_sample :
    (∃ s, ReflTransGen (connections.Step 1) (together spawningClient jostling) s ∧
      connections.Locked 1 s) ∧
    ¬ ∃ s, ReflTransGen (connections.Step 2) (together spawningClient jostling) s ∧
      connections.Locked 2 s := by
  have hone := (@pool_never_deadlocks_iff _ _ _ spawningClient _ _ _ Nat.zero_lt_one
    jostling_usesMethods).1
  have htwo := (@pool_never_deadlocks_iff _ _ _ spawningClient _ _ _ Nat.zero_lt_two
    jostling_usesMethods).1
  constructor
  · by_contra hnone
    push Not at hnone
    exact absurd (hone.1 hnone) (by decide)
  · rintro ⟨s, hs, hlocked⟩
    exact htwo.2 (by decide) s hs hlocked

end Sample

/-- Whatever the activities of a client do at the same time on a pool, no more connections are out
than the pool has, an activity holds at most one, or two while it nests, and it holds none when it
has ended, while it sleeps and while code of the user runs. -/
theorem connections_accounted {client : ClientClone} {chrono : Serde DateTime}
    {activities : ι → Activity} {capacity : ℕ} {s : ι → Party PoolCall PoolAnswer Unit}
    (hmethods : ∀ i, (activities i).UsesMethods chrono)
    (hs : ReflTransGen (connections.Step capacity)
      (fun i => ⟨(activities i).program client, 0⟩) s) :
    Pooling.total s ≤ capacity ∧ ∀ i, (s i).held ≤ (activities i).need ∧
      ((s i).Rests → (s i).held = 0) ∧
      ∀ e next, (s i).program = .call e next → connections.bare e → (s i).held = 0 := by
  obtain ⟨htotal, hall⟩ := Pooling.accounted hs
    (fun i => Activity.program_thrifty client _ (hmethods i)) fun _ => rfl
  refine ⟨htotal, fun i => ?_⟩
  obtain ⟨hheld, hthrifty⟩ := hall i
  exact ⟨hheld, hthrifty.rests, fun _ _ hp he => hthrifty.bare hp he⟩

lemma executes_climbs : ∃ q : Party PoolCall PoolAnswer Unit,
    connections.Climbs 1 (together spawningClient jostling 1) q ∧ q.held = 1 := by
  refine Pooling.exists_climbs_call () False.elim ?_
  refine Pooling.exists_climbs_call (Except.ok ()) (fun _ => Nat.zero_lt_one) ?_
  exact ⟨_, .refl, rfl⟩

theorem connections_accounted_sample : ∃ s : Fin 2 → Party PoolCall PoolAnswer Unit,
    ReflTransGen (connections.Step 2) (together spawningClient jostling) s ∧ (s 0).held = 1 ∧
      (s 1).held = 1 ∧ Pooling.total s ≤ 2 ∧ (s 0).held ≤ (jostling 0).need ∧
      (s 1).held ≤ (jostling 1).need := by
  have hnests : (jostling 0).nests = true := by decide
  obtain ⟨q, hclimbs, hheld, -⟩ := Activity.nests_climbs spawningClient hnests
  obtain ⟨q', hclimbs', hheld'⟩ := executes_climbs
  let s : Fin 2 → Party PoolCall PoolAnswer Unit := Function.update (fun _ => q') 0 q
  have htotal : Pooling.total s = 2 := by
    have hupdate := Pooling.total_update (fun _ : Fin 2 => q') 0 q
    have hconst : Pooling.total (fun _ : Fin 2 => q') = 2 := by
      rw [Pooling.total, Finset.sum_const, hheld']
      decide
    rw [hconst, hheld, hheld'] at hupdate
    exact Nat.succ.inj hupdate
  have hclimbs (i : Fin 2) :
      connections.Climbs (s i).held (together spawningClient jostling i) (s i) := by
    rcases i with ⟨_ | _ | _, hi⟩
    · exact hheld.symm ▸ hclimbs
    · exact hheld'.symm ▸ hclimbs'
    · omega
  have hreach : ReflTransGen (connections.Step 2) (together spawningClient jostling) s :=
    Pooling.steps_of_climbs (fun _ => rfl) hclimbs htotal.le
  obtain ⟨hfits, hall⟩ := connections_accounted jostling_usesMethods hreach
  exact ⟨s, hreach, hheld, hheld', hfits, (hall 0).1, (hall 1).1⟩

end AbsurdSdk.Execution
