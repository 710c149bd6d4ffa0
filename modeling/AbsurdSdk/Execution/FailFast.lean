import AbsurdSdk.Interaction.Monitor
import AbsurdSdk.Model.Administration

/-! The operations of a client as plans of statements: they check their arguments first, send the
statements of the plan in order, and end at the first failure. -/

namespace AbsurdSdk.Execution

open Interaction Model

abbrev Sending := Σ α : Type, AdminStatement α

abbrev AdminLog := Transcript AdminCall AdminAnswer

structure Errand where
  left : List Sending
  failed : Option Error

namespace Errand

def after (errand : Errand) : (call : AdminCall) → AdminAnswer call → Errand
  | .poolGet, .error err => { errand with failed := some (.pool err) }
  | .execute _, .ok _ => { errand with left := errand.left.tail }
  | .execute _, .error err => ⟨errand.left.tail, some (mapDatabaseError err)⟩
  | _, _ => errand

def Allows : AdminCall → Errand → Prop
  | .poolGet, errand => errand.failed = none ∧ errand.left ≠ []
  | .execute statement, errand => errand.failed = none ∧ errand.left.head? = some ⟨_, statement⟩
  | .release, _ => True
  | .future _, _ => False

end Errand

lemma Errand.Allows.release {call : AdminCall} {errand : Errand} {err : Error}
    (h : Errand.Allows call errand) (hfailed : errand.failed = some err) : call = .release := by
  have hgoes (hnone : errand.failed = none) : call = .release := by
    rw [hfailed] at hnone
    cases hnone
  cases call with
  | poolGet => exact hgoes h.1
  | execute => exact hgoes h.1
  | release => rfl
  | future => cases h

def errands : Monitor AdminCall AdminAnswer Errand where
  after := Errand.after
  allows := Errand.Allows

section Pursues

variable {α β : Type} {parses : Bool} {plan plan' : List Sending}

def Ends (parses : Bool) (rest : List Sending) (r : Result α) (errand : Errand) : Prop :=
  (∃ err, errand.failed = some err ∧ r = .error err) ∨
    errand = ⟨rest, none⟩ ∧ (parses = false → ∃ a, r = .ok a)

def Pursues (parses : Bool) (plan : List Sending) (x : Admin α) : Prop :=
  ∀ rest, errands.Heeds (Ends parses rest) x.run ⟨plan ++ rest, none⟩

namespace Pursues

lemma ofResult (r : Result α) (h : parses = false → ∃ a, r = .ok a) :
    Pursues parses [] (Admin.ofResult r) :=
  fun _ => Or.inr ⟨rfl, h⟩

lemma pure (a : α) : Pursues false [] (pure a : Admin α) := fun _ => Or.inr ⟨rfl, fun _ => ⟨a, rfl⟩⟩

lemma bind {x : Admin α} {f : α → Admin β} (hx : Pursues false plan x)
    (hf : ∀ a, Pursues parses plan' (f a)) : Pursues parses (plan ++ plan') (x >>= f) := by
  intro rest
  rw [List.append_assoc]
  apply (hx (plan' ++ rest)).bind
  rintro r errand (⟨err, hfailed, rfl⟩ | ⟨rfl, hok⟩)
  · exact Or.inl ⟨err, hfailed, rfl⟩
  · obtain ⟨a, rfl⟩ := hok rfl
    exact hf a rest

lemma execute (statement : AdminStatement α) :
    Pursues false [⟨α, statement⟩] (Admin.execute statement) := by
  intro rest
  refine ⟨⟨rfl, rfl⟩, ?_⟩
  rintro (err | a)
  · exact Or.inl ⟨_, rfl, rfl⟩
  · exact Or.inr ⟨rfl, fun _ => ⟨a, rfl⟩⟩

lemma withConnection {x : Admin α} (hx : Pursues parses plan x) (hplan : plan ≠ []) :
    Pursues parses plan (Admin.withConnection x) := by
  intro rest
  refine ⟨⟨rfl, fun h => hplan (List.append_eq_nil_iff.1 h).1⟩, ?_⟩
  rintro (err | _)
  · exact Or.inl ⟨_, rfl, rfl⟩
  · apply (hx rest).bind
    intro r errand hends
    exact ⟨trivial, fun _ => hends⟩

end Pursues

end Pursues

inductive Operation : Type → Type
  | createQueueIn (queueName : String) : Operation Unit
  | createQueueInWithOptions (queueName : String) (options : CreateQueueOptions) : Operation Unit
  | setQueuePolicyIn (queueName : String) (options : QueuePolicyOptions) : Operation Unit
  | getQueuePolicyIn (queueName : String) : Operation (Option QueuePolicy)
  | dropQueueIn (queueName : String) : Operation Unit
  | listQueues : Operation (List String)
  | emitEvent (eventName : String) (payload : Except String Json) (queueName : Option String) :
    Operation Unit
  | retryTask (taskId : Uuid) (options : RetryTaskOptions) : Operation SpawnResult
  | cancelTask (taskId : Uuid) (queueName : Option String) : Operation Unit
  | cleanupWithLimit (ttl : Duration) (limit : ℤ) (queueName : Option String) :
    Operation CleanupResult

namespace Operation

variable {α : Type}

def run (client : Client) : Operation α → Admin α
  | createQueueIn queueName => Client.createQueueIn queueName
  | createQueueInWithOptions queueName options => Client.createQueueInWithOptions queueName options
  | setQueuePolicyIn queueName options => Client.setQueuePolicyIn queueName options
  | getQueuePolicyIn queueName => Client.getQueuePolicyIn queueName
  | dropQueueIn queueName => Client.dropQueueIn queueName
  | listQueues => Client.listQueues
  | emitEvent eventName payload queueName => client.emitEvent eventName payload queueName
  | retryTask taskId options => client.retryTask taskId options
  | cancelTask taskId queueName => client.cancelTask taskId queueName
  | cleanupWithLimit ttl limit queueName => client.cleanupWithLimit ttl limit queueName

def parses : Operation α → Bool
  | getQueuePolicyIn _ => true
  | _ => false

def policyPlan (queueName : String) (options : QueuePolicyOptions) : List Sending :=
  if options.isEmpty then [] else [⟨_, .setQueuePolicy queueName options.toSqlJson⟩]

def storageModeArgument (mode : QueueStorageMode) : Option String :=
  if mode = .unpartitioned then none else some mode.asStr

def plan (client : Client) : Operation α → Except Error (List Sending)
  | createQueueIn queueName =>
    (validateQueueName queueName).bind fun _ => .ok [⟨_, .createQueue queueName none⟩]
  | createQueueInWithOptions queueName options =>
    (validateQueueName queueName).bind fun _ =>
      .ok (⟨_, .createQueue queueName (storageModeArgument options.storageMode)⟩ ::
        policyPlan queueName options.policyOptions)
  | setQueuePolicyIn queueName options =>
    (validateQueueName queueName).bind fun _ => .ok (policyPlan queueName options)
  | getQueuePolicyIn queueName =>
    (validateQueueName queueName).bind fun _ => .ok [⟨_, .getQueuePolicy queueName⟩]
  | dropQueueIn queueName =>
    (validateQueueName queueName).bind fun _ => .ok [⟨_, .dropQueue queueName⟩]
  | listQueues => .ok [⟨_, .listQueues⟩]
  | emitEvent eventName payload queueName =>
    if isBlank eventName then
      .error (.config "event name must be provided")
    else
      (validateQueueName (queueName.getD client.queueName)).bind fun _ =>
        (payload.mapError .serialization).bind fun payload =>
          .ok [⟨_, .emitEvent (queueName.getD client.queueName) eventName payload⟩]
  | retryTask taskId options =>
    (validateQueueName (options.queue.getD client.queueName)).bind fun _ =>
      options.toSqlJson.bind fun optionsJson =>
        .ok [⟨_, .retryTask (options.queue.getD client.queueName) taskId optionsJson⟩]
  | cancelTask taskId queueName =>
    (validateQueueName (queueName.getD client.queueName)).bind fun _ =>
      .ok [⟨_, .cancelTask (queueName.getD client.queueName) taskId⟩]
  | cleanupWithLimit ttl limit queueName =>
    (validateQueueName (queueName.getD client.queueName)).bind fun _ =>
      .ok [⟨_, .cleanupTasks (queueName.getD client.queueName) (durationSecondsCeil ttl) limit⟩,
        ⟨_, .cleanupEvents (queueName.getD client.queueName) (durationSecondsCeil ttl) limit⟩]

end Operation

section Operations

variable {α β : Type} {parses : Bool}

def Checks (parses : Bool) (plan : Except Error (List Sending)) (x : Admin α) : Prop :=
  (∀ err, plan = .error err → x = Admin.throw err) ∧ ∀ sendings, plan = .ok sendings →
    Pursues parses sendings x

lemma Checks.of_pursues {plan : List Sending} {x : Admin α} (h : Pursues parses plan x) :
    Checks parses (.ok plan) x := by
  constructor
  · rintro err ⟨⟩
  · rintro _ ⟨⟩
    exact h

lemma Checks.check {r : Result β} {plan : β → Except Error (List Sending)} {f : β → Admin α}
    (h : ∀ b, r = .ok b → Checks parses (plan b) (f b)) :
    Checks parses (r.bind plan) (Admin.ofResult r >>= f) := by
  cases r with
  | error err =>
    constructor
    · rintro _ ⟨⟩
      rfl
    · rintro _ ⟨⟩
  | ok b => exact h b rfl

lemma Pursues.statement (statement : AdminStatement α) :
    Pursues false [⟨α, statement⟩] (Admin.withConnection (Admin.execute statement)) :=
  (Pursues.execute statement).withConnection (List.cons_ne_nil _ _)

lemma setQueuePolicyIn_checks (queueName : String) (options : QueuePolicyOptions) :
    Checks false ((validateQueueName queueName).bind fun _ =>
      .ok (Operation.policyPlan queueName options))
      (Client.setQueuePolicyIn queueName options) := by
  apply Checks.check
  intro _ _
  apply Checks.of_pursues
  rw [Operation.policyPlan]
  split
  · exact Pursues.pure ()
  · exact Pursues.statement _

lemma Checks.statement {r : Result Unit} (statement : AdminStatement α) :
    Checks false (r.bind fun _ => .ok [⟨α, statement⟩])
      (Admin.ofResult r >>= fun _ => Admin.withConnection (Admin.execute statement)) :=
  .check fun _ _ => .of_pursues (.statement statement)

lemma createQueueInWithOptions_pursues {queueName : String} {options : CreateQueueOptions}
    (hvalid : validateQueueName queueName = .ok ()) :
    Pursues false
      (⟨_, .createQueue queueName (Operation.storageModeArgument options.storageMode)⟩ ::
        Operation.policyPlan queueName options.policyOptions)
      (Admin.withConnection do
        if options.storageMode = .unpartitioned then
          Admin.execute (.createQueue queueName none)
        else
          Admin.execute (.createQueue queueName (some options.storageMode.asStr))
        Client.setQueuePolicyIn queueName options.policyOptions) := by
  have hpolicy : Pursues false (Operation.policyPlan queueName options.policyOptions)
      (Client.setQueuePolicyIn queueName options.policyOptions) := by
    apply (setQueuePolicyIn_checks queueName options.policyOptions).2
    rw [hvalid]
    rfl
  apply Pursues.withConnection _ (List.cons_ne_nil _ _)
  rw [Operation.storageModeArgument]
  split
  · exact (Pursues.execute _).bind fun _ => hpolicy
  · exact (Pursues.execute _).bind fun _ => hpolicy

lemma operation_checks (client : Client) (operation : Operation α) :
    Checks operation.parses (operation.plan client) (operation.run client) := by
  cases operation with
  | createQueueIn queueName => exact .statement _
  | createQueueInWithOptions queueName options =>
    apply Checks.check
    intro _ hvalid
    exact .of_pursues (createQueueInWithOptions_pursues hvalid)
  | setQueuePolicyIn queueName options => exact setQueuePolicyIn_checks queueName options
  | getQueuePolicyIn queueName =>
    apply Checks.check
    intro _ _
    apply Checks.of_pursues
    apply Pursues.withConnection _ (List.cons_ne_nil _ _)
    exact (Pursues.execute _).bind fun row => Pursues.ofResult _ fun h => by cases h
  | dropQueueIn queueName => exact .statement _
  | listQueues => exact .of_pursues (.statement _)
  | emitEvent eventName payload queueName =>
    rw [Operation.run, Operation.plan, Client.emitEvent]
    split
    · constructor
      · rintro _ ⟨⟩
        rfl
      · rintro _ ⟨⟩
    · apply Checks.check
      intro _ _
      apply Checks.check
      exact fun _ _ => .of_pursues (.statement _)
  | retryTask taskId options =>
    apply Checks.check
    intro _ _
    apply Checks.check
    exact fun _ _ => .of_pursues (.statement _)
  | cancelTask taskId queueName => exact .statement _
  | cleanupWithLimit ttl limit queueName =>
    apply Checks.check
    intro _ _
    apply Checks.of_pursues
    apply Pursues.withConnection _ (List.cons_ne_nil _ _)
    exact (Pursues.execute _).bind fun _ => (Pursues.execute _).bind fun _ => Pursues.pure _

end Operations

section Logs

def sending : (Σ call : AdminCall, AdminAnswer call) → Option Sending
  | ⟨.execute statement, _⟩ => some ⟨_, statement⟩
  | _ => none

def failure : (Σ call : AdminCall, AdminAnswer call) → Option Error
  | ⟨.poolGet, .error err⟩ => some (.pool err)
  | ⟨.execute _, .error err⟩ => some (mapDatabaseError err)
  | _ => none

def sent (log : AdminLog) : List Sending := (log.filterMap sending).reverse

structure Errand.Accounts (plan : List Sending) (log : AdminLog) (errand : Errand) : Prop where
  ordered : sent log ++ errand.left = plan
  failures : log.filterMap failure = errand.failed.toList

lemma sent_execute {α : Type} (statement : AdminStatement α)
    (r : AdminAnswer (.execute statement)) (log : AdminLog) :
    sent (⟨.execute statement, r⟩ :: log) = sent log ++ [⟨α, statement⟩] :=
  List.reverse_cons

lemma Errand.Accounts.step {plan : List Sending} {log : AdminLog} {errand : Errand}
    {call : AdminCall} {r : AdminAnswer call} (h : errand.Accounts plan log)
    (hallowed : Errand.Allows call errand) :
    (errand.after call r).Accounts plan (⟨call, r⟩ :: log) := by
  obtain ⟨hsent, hfailures⟩ := h
  cases call with
  | poolGet =>
    rw [hallowed.1] at hfailures
    cases r with
    | error err => exact ⟨hsent, congrArg (Error.pool err :: ·) hfailures⟩
    | ok _ => exact ⟨hsent, hallowed.1 ▸ hfailures⟩
  | execute statement =>
    obtain ⟨hnone, hhead⟩ := hallowed
    rw [hnone] at hfailures
    have hnext : sent (⟨.execute statement, r⟩ :: log) ++ errand.left.tail = plan := by
      rw [sent_execute, List.append_assoc, List.singleton_append, List.cons_head?_tail hhead, hsent]
    cases r with
    | error err => exact ⟨hnext, congrArg (mapDatabaseError err :: ·) hfailures⟩
    | ok _ => exact ⟨hnext, hnone ▸ hfailures⟩
  | release => exact ⟨hsent, hfailures⟩
  | future => cases hallowed

end Logs

/-- How an operation with a plan stands: it has sent the first statements of the plan, in their
order; after a failure, of which there is one at most, it only gives connections back, and returns
it; and without one it has sent all of the plan when it returns. -/
structure FailsFast {α : Type} (parses : Bool) (plan : List Sending)
    (q : Program AdminCall AdminAnswer (Result α)) (log : AdminLog) : Prop where
  ordered : sent log <+: plan
  once : (log.filterMap failure).length ≤ 1
  stops : ∀ err ∈ log.filterMap failure, (∀ call next, q = .call call next → call = .release) ∧
    ∀ r, q = .done r → r = .error err
  complete : ∀ r, q = .done r → log.filterMap failure = [] →
    sent log = plan ∧ (parses = false → ∃ a, r = .ok a)

lemma Pursues.failsFast {α : Type} {parses : Bool} {plan : List Sending} {x : Admin α}
    {q : Program AdminCall AdminAnswer (Result α)} {log : AdminLog} (h : Pursues parses plan x)
    (hr : Run transcribed x.run [] q log) : FailsFast parses plan q log := by
  have hheeds : errands.Heeds (Ends parses []) x.run (errands.reads ⟨plan, none⟩ []) := by
    have hrest := h []
    rw [List.append_nil] at hrest
    exact hrest
  have hstands := hheeds.run hr
  obtain ⟨hordered, hfailures⟩ : (errands.reads ⟨plan, none⟩ log).Accounts plan log :=
    hheeds.keeps hr (fun _ _ _ _ => Errand.Accounts.step) ⟨rfl, rfl⟩
  generalize errands.reads ⟨plan, none⟩ log = errand at hstands hordered hfailures
  refine ⟨⟨_, hordered⟩, ?_, ?_, ?_⟩
  · rw [hfailures]
    exact Option.length_toList_le
  · intro err herr
    rw [hfailures, Option.mem_toList] at herr
    constructor
    · rintro call next rfl
      exact Errand.Allows.release hstands.1 herr
    · rintro r rfl
      rcases hstands with ⟨err', hfailed, rfl⟩ | ⟨rfl, -⟩
      · cases hfailed.symm.trans herr
        rfl
      · cases herr
  · rintro r rfl hnone
    rcases hstands with ⟨err, hfailed, -⟩ | ⟨rfl, hok⟩
    · rw [hfailures, hfailed] at hnone
      cases hnone
    · exact ⟨by rwa [List.append_nil] at hordered, hok⟩

/-- An operation whose arguments are not valid makes no call, and takes no connection. One whose
arguments are valid fails fast, whatever the pool and the database answer. -/
theorem operations_fail_fast (client : Client) {α : Type} (operation : Operation α) :
    (∀ err, operation.plan client = .error err →
      (operation.run client).run = .done (.error err)) ∧
    ∀ plan, operation.plan client = .ok plan → ∀ q log,
      Run transcribed (operation.run client).run [] q log →
        FailsFast operation.parses plan q log := by
  obtain ⟨hinvalid, hvalid⟩ := operation_checks client operation
  constructor
  · intro err herr
    rw [hinvalid err herr]
    rfl
  · intro plan hplan q log hr
    exact (hvalid plan hplan).failsFast hr

end AbsurdSdk.Execution
