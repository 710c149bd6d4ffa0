import AbsurdSdk.Execution.Reports
import AbsurdSdk.Model.Spawning

/-! The clones of a client at work on their registry, in any order. What is spawned for a registered
task goes to its queue, where a worker with this registry finds it. -/

namespace AbsurdSdk.Execution

open Interaction Model Relation

section Resolution

variable {client : ClientClone} {taskName queueName : String} {taskOptions : Option TaskOptions}
  {options : SpawnOptions} {registration : Option Registration} {maxAttempts : ℤ}
  {cancellation : Option CancellationPolicy}

lemma validateQueueName_ok (h : validateQueueName queueName = .ok ()) :
    1 ≤ queueName.utf8ByteSize ∧ queueName.utf8ByteSize ≤ 57 := by
  simp only [validateQueueName] at h
  split at h
  · cases h
  · split at h
    · cases h
    · rename_i hempty hlong
      have hne : queueName.utf8ByteSize ≠ 0 := by
        intro hzero
        exact hempty (by simp [String.isEmpty, hzero])
      omega

lemma resolveQueue_registered {r : Registration}
    (h : ClientClone.resolveQueue taskName taskOptions options (some r) = .ok queueName) :
    queueName = r.queueName := by
  have htargeted : ClientClone.resolveQueue.targeted taskName taskOptions r = .ok queueName →
      queueName = r.queueName := by
    intro h
    simp only [ClientClone.resolveQueue.targeted] at h
    split at h
    · split at h
      · cases h
      · exact (Except.ok.inj h).symm
    · exact (Except.ok.inj h).symm
  simp only [ClientClone.resolveQueue] at h
  split at h
  · split at h
    · cases h
    · exact htargeted h
  · exact htargeted h

lemma resolveSpawn_ok
    (h : client.resolveSpawn taskName taskOptions options registration =
      .ok (queueName, maxAttempts, cancellation)) :
    (1 ≤ queueName.utf8ByteSize ∧ queueName.utf8ByteSize ≤ 57) ∧ 1 ≤ maxAttempts ∧
      ∀ r, registration = some r → queueName = r.queueName := by
  simp only [ClientClone.resolveSpawn] at h
  cases hqueue : ClientClone.resolveQueue taskName taskOptions options registration with
  | error err =>
    rw [hqueue] at h
    cases h
  | ok queue =>
    rw [hqueue] at h
    cases hvalid : validateQueueName queue with
    | error err =>
      simp only [bind, Except.bind, hvalid] at h
      cases h
    | ok =>
      simp only [bind, Except.bind, hvalid] at h
      split at h
      · cases h
      · cases h
        refine ⟨validateQueueName_ok hvalid, by omega, ?_⟩
        rintro r rfl
        exact resolveQueue_registered hqueue

def maxAttemptsOf : Json → Option ℤ
  | .object fields => match fields.lookup "max_attempts" with
    | some (.number (.int n)) => some n
    | _ => none
  | _ => none

lemma lookup_optionalField {α : Type} {name key : String} (value : Option α) (f : α → Json)
    (fields : List (String × Json)) (h : (key == name) = false) :
    (optionalField name value f ++ fields).lookup key = fields.lookup key := by
  cases value with
  | none => rfl
  | some a => simp [optionalField, List.lookup_cons, h]

lemma maxAttemptsOf_toSqlJson (options : SpawnOptions) (maxAttempts : ℤ)
    (cancellation : Option CancellationPolicy) :
    maxAttemptsOf (options.toSqlJson maxAttempts cancellation) = some maxAttempts := by
  simp only [SpawnOptions.toSqlJson, maxAttemptsOf, List.append_assoc]
  rw [lookup_optionalField _ _ _ rfl, lookup_optionalField _ _ _ rfl, lookup_optionalField _ _ _ rfl]
  rfl

end Resolution

abbrev Seen := Option (String × Option Registration)

def Extends (registry registry' : ClientRegistry) : Prop :=
  ∀ name task, registry name = some task → registry' name = some task

def Allowed (seen : Seen) : RegistryCall → Prop
  | .update f => ∀ registry registry', f registry = .ok registry' → Extends registry registry'
  | .spawnTask queueName taskName _ options =>
    (1 ≤ queueName.utf8ByteSize ∧ queueName.utf8ByteSize ≤ 57) ∧
      (∃ n, maxAttemptsOf options = some n ∧ 1 ≤ n) ∧
      ∃ registration, seen = some (taskName, registration) ∧
        ∀ r, registration = some r → queueName = r.queueName
  | _ => True

def sees (seen : Seen) : (call : RegistryCall) → RegistryAnswer call → Seen
  | .getRegistration taskName, r => r.map fun registration => (taskName, registration)
  | _, _ => seen

def Contract {α : Type} : Seen → RegistryM α → Prop
  | _, .done _ => True
  | seen, .call e next => Allowed seen e ∧ ∀ r, Contract (sees seen e r) (next r)

section Contract

variable {α β : Type} {seen : Seen}

lemma Contract.bind {p : RegistryM α} {f : α → RegistryM β} (hp : Contract seen p)
    (hf : ∀ a seen, Contract seen (f a)) : Contract seen (p.bind f) := by
  induction p generalizing seen with
  | done a => exact hf a seen
  | call e next ih => exact ⟨hp.1, fun r => ih r (hp.2 r)⟩

lemma insertTask_extends (name : String) (task : ClientTask) (registry registry' : ClientRegistry)
    (h : insertTask name task registry = .ok registry') : Extends registry registry' := by
  simp only [insertTask] at h
  split at h
  · cases h
  · rename_i hnone
    obtain rfl := Except.ok.inj h
    intro other found hother
    have hne : other ≠ name := by
      rintro rfl
      rw [hnone] at hother
      cases hother
    rwa [Function.update_of_ne hne]

lemma registerWithOptions_contract (client : ClientClone) {P R : Type} (params : Serde P)
    (result : Serde R) (options : TaskOptions) (handler : P → TaskContext → Process (Result R)) :
    Contract seen (client.registerWithOptions params result options handler) := by
  simp only [ClientClone.registerWithOptions]
  split
  · exact trivial
  · split
    · exact trivial
    · split
      · exact trivial
      · refine ⟨insertTask_extends _ _, ?_⟩
        rintro (_ | r)
        · exact trivial
        · exact trivial

lemma spawnResolved_contract (client : ClientClone) (taskName : String)
    (taskOptions : Option TaskOptions) (params : Except String Json) (options : SpawnOptions) :
    Contract seen (client.spawnResolved taskName taskOptions params options) := by
  simp only [ClientClone.spawnResolved]
  split
  · exact trivial
  · split
    · exact trivial
    · have hhook : Contract seen (client.applyBeforeSpawn taskName ‹Json› options) := by
        rw [ClientClone.applyBeforeSpawn]
        split
        · exact ⟨trivial, fun _ => trivial⟩
        · exact trivial
      apply hhook.bind
      rintro (err | options) seen
      · exact trivial
      · refine ⟨trivial, ?_⟩
        rintro (_ | registration)
        · exact trivial
        · cases hresolved : client.resolveSpawn taskName taskOptions options registration with
          | error err =>
            simp only [hresolved]
            exact trivial
          | ok resolved =>
            obtain ⟨queueName, maxAttempts, cancellation⟩ := resolved
            obtain ⟨hqueue, hattempts, hregistered⟩ := resolveSpawn_ok hresolved
            simp only [hresolved]
            refine ⟨trivial, ?_⟩
            rintro (err | _)
            · exact trivial
            · refine ⟨⟨hqueue, ?_, registration, rfl, hregistered⟩, fun _ => trivial⟩
              exact ⟨_, maxAttemptsOf_toSqlJson _ _ _, hattempts⟩

end Contract

/-- `began` is the shared registry when the spawn was begun, and `resolved` when its spawner last held
the read lock. -/
structure Spawned where
  queueName : String
  taskName : String
  params : Json
  options : Json
  began : ClientRegistry
  resolved : Option ClientRegistry

structure Party where
  program : RegistryM Unit
  began : ClientRegistry
  resolved : Option ClientRegistry

namespace Party

def reads (party : Party) (registry : ClientRegistry) : RegistryCall → Option ClientRegistry
  | .getRegistration _ => some registry
  | _ => party.resolved

def spawns (party : Party) : RegistryCall → List Spawned
  | .spawnTask queueName taskName params options =>
    [⟨queueName, taskName, params, options, party.began, party.resolved⟩]
  | _ => []

end Party

structure Clients where
  registry : ClientRegistry
  parties : List Party
  spawned : List Spawned

def Clients.start : Clients := ⟨fun _ => none, [], []⟩

inductive Begins : RegistryM Unit → Prop
  | register {P R : Type} (client : ClientClone) (params : Serde P) (result : Serde R)
      (options : TaskOptions) (handler : P → TaskContext → Process (Result R)) :
      Begins ((client.registerWithOptions params result options handler).bind fun _ => .done ())
  | spawn (client : ClientClone) (taskOptions : TaskOptions) (params : Except String Json)
      (options : SpawnOptions) :
      Begins ((client.spawn taskOptions params options).bind fun _ => .done ())
  | spawnNamed (client : ClientClone) (taskName : String) (params : Except String Json)
      (options : SpawnOptions) :
      Begins ((client.spawnNamed taskName params options).bind fun _ => .done ())

/-- The answers of the registry; any reply of a hook, of the pool and of the database. -/
def Answers (registry registry' : ClientRegistry) : (call : RegistryCall) → RegistryAnswer call → Prop
  | .getRegistration name, some r =>
    r = (registry name).map ClientTask.toRegistration ∧ registry' = registry
  | .update f, some (.ok ()) => f registry = .ok registry'
  | .update f, some (.error err) => f registry = .error err ∧ registry' = registry
  | _, _ => registry' = registry

inductive Serves : Clients → Clients → Prop
  | begins {s : Clients} {program : RegistryM Unit} : Begins program →
      Serves s { s with parties := s.parties ++ [⟨program, s.registry, none⟩] }
  | answers {s : Clients} {before after : List Party} {party : Party} {call : RegistryCall}
      {next : RegistryAnswer call → RegistryM Unit} {r : RegistryAnswer call}
      {registry : ClientRegistry} : s.parties = before ++ party :: after →
      party.program = .call call next → Answers s.registry registry call r →
      Serves s ⟨registry, before ++ ⟨next r, party.began, party.reads s.registry call⟩ :: after,
        party.spawns call ++ s.spawned⟩

section Clients

variable {registry registry' began : ClientRegistry} {resolved : Option ClientRegistry}
  {P Q : ClientRegistry → Prop} {seen : Seen} {s t : Clients}

lemma Extends.refl (registry : ClientRegistry) : Extends registry registry := fun _ _ => id

lemma Extends.trans {registry'' : ClientRegistry} (h : Extends registry registry')
    (h' : Extends registry' registry'') : Extends registry registry'' :=
  fun name task htask => h' name task (h name task htask)

def Resolved (registry began : ClientRegistry) (resolved : Option ClientRegistry)
    (P : ClientRegistry → Prop) : Prop :=
  ∃ read, resolved = some read ∧ Extends began read ∧ Extends read registry ∧ P read

structure Fits (registry : ClientRegistry) (x : Spawned) : Prop where
  queue : 1 ≤ x.queueName.utf8ByteSize ∧ x.queueName.utf8ByteSize ≤ 57
  attempts : ∃ n, maxAttemptsOf x.options = some n ∧ 1 ≤ n
  resolved : Resolved registry x.began x.resolved fun read =>
    ∀ registered, read x.taskName = some registered → x.queueName = registered.queueName

/-- What an operation has seen is what the registry held when it read it. -/
structure Conforms (registry : ClientRegistry) (party : Party) (seen : Seen) : Prop where
  contract : Contract seen party.program
  began : Extends party.began registry
  resolved : ∀ name registration, seen = some (name, registration) →
    Resolved registry party.began party.resolved fun read =>
      registration = (read name).map ClientTask.toRegistration

structure Agrees (s : Clients) : Prop where
  parties : ∀ party ∈ s.parties, ∃ seen, Conforms s.registry party seen
  spawned : ∀ x ∈ s.spawned, Fits s.registry x

lemma Resolved.mono (h : Resolved registry began resolved P) (hr : Extends registry registry')
    (hPQ : ∀ read, P read → Q read) : Resolved registry' began resolved Q := by
  obtain ⟨read, hread, hbegan, hnow, hP⟩ := h
  exact ⟨read, hread, hbegan, hnow.trans hr, hPQ read hP⟩

lemma Fits.mono {x : Spawned} (h : Fits registry x) (hr : Extends registry registry') :
    Fits registry' x :=
  ⟨h.queue, h.attempts, h.resolved.mono hr fun _ => id⟩

lemma Conforms.mono {party : Party} (h : Conforms registry party seen)
    (hr : Extends registry registry') : Conforms registry' party seen :=
  ⟨h.contract, h.began.trans hr,
    fun name registration hseen => (h.resolved name registration hseen).mono hr fun _ => id⟩

lemma Begins.contract {program : RegistryM Unit} (h : Begins program) : Contract none program := by
  cases h with
  | register client params result options handler =>
    exact (registerWithOptions_contract client params result options handler).bind
      fun _ _ => trivial
  | spawn client taskOptions params options =>
    exact (spawnResolved_contract client _ _ params options).bind fun _ _ => trivial
  | spawnNamed client taskName params options =>
    exact (spawnResolved_contract client _ _ params options).bind fun _ _ => trivial

lemma Answers.extends {call : RegistryCall} {r : RegistryAnswer call}
    (h : Answers registry registry' call r) (ha : Allowed seen call) :
    Extends registry registry' := by
  have hsame : registry' = registry → Extends registry registry' := by
    rintro rfl
    exact .refl _
  cases call with
  | beforeSpawn | poolGet | spawnTask => exact hsame h
  | getRegistration name =>
    cases r with
    | none => exact hsame h
    | some registration => exact hsame h.2
  | update f =>
    rcases r with _ | err | _
    · exact hsame h
    · exact hsame h.2
    · exact ha registry registry' h

lemma Serves.extends (h : Serves s t) (hs : Agrees s) : Extends s.registry t.registry := by
  cases h with
  | begins => exact .refl _
  | @answers before after party call next r registry hparties hprogram hanswers =>
    have hmem : party ∈ s.parties := by
      rw [hparties]
      exact List.mem_append_right _ List.mem_cons_self
    obtain ⟨seen, hparty⟩ := hs.parties party hmem
    have hcontract := hparty.contract
    rw [hprogram] at hcontract
    exact hanswers.extends hcontract.1

lemma Conforms.answers {party : Party} {call : RegistryCall}
    {next : RegistryAnswer call → RegistryM Unit} {r : RegistryAnswer call}
    (h : Conforms registry party seen) (hprogram : party.program = .call call next)
    (ha : Answers registry registry' call r) (hr : Extends registry registry') :
    Conforms registry' ⟨next r, party.began, party.reads registry call⟩ (sees seen call r) := by
  have hcontract := h.contract
  rw [hprogram] at hcontract
  refine ⟨hcontract.2 r, h.began.trans hr, ?_⟩
  intro name registration hsees
  cases call with
  | beforeSpawn | poolGet | spawnTask | update =>
    exact (h.resolved name registration hsees).mono hr fun _ => id
  | getRegistration taskName =>
    cases r with
    | none => cases hsees
    | some read =>
      obtain ⟨rfl, rfl⟩ := Prod.mk.inj (Option.some.inj hsees)
      exact ⟨registry, rfl, h.began, hr, ha.1⟩

lemma Conforms.spawns {party : Party} {call : RegistryCall}
    {next : RegistryAnswer call → RegistryM Unit} {x : Spawned} (h : Conforms registry party seen)
    (hprogram : party.program = .call call next) (hx : x ∈ party.spawns call) :
    Fits registry x := by
  cases call with
  | spawnTask queueName taskName params options =>
    obtain rfl := List.mem_singleton.mp hx
    have hcontract := h.contract
    rw [hprogram] at hcontract
    obtain ⟨hqueue, hattempts, registration, hseen, hregistered⟩ := hcontract.1
    refine ⟨hqueue, hattempts, ?_⟩
    apply (h.resolved taskName registration hseen).mono (.refl _)
    rintro read rfl registered hfound
    exact hregistered _ (by rw [hfound]; rfl)
  | beforeSpawn | getRegistration | update | poolGet => cases hx

lemma Serves.agrees (h : Serves s t) (hs : Agrees s) : Agrees t := by
  have hextends := h.extends hs
  cases h with
  | @begins program hbegins =>
    refine ⟨?_, hs.spawned⟩
    intro party hparty
    rcases List.mem_append.mp hparty with hold | hnew
    · exact hs.parties party hold
    · obtain rfl := List.mem_singleton.mp hnew
      exact ⟨none, hbegins.contract, .refl _, nofun⟩
  | @answers before after party call next r registry hparties hprogram hanswers =>
    have hall := hs.parties
    rw [hparties] at hall
    obtain ⟨seen, hparty⟩ := hall party (List.mem_append_right _ List.mem_cons_self)
    have hkept : ∀ other ∈ before ++ party :: after, ∃ seen, Conforms registry other seen := by
      intro other hother
      obtain ⟨seen, hconforms⟩ := hall other hother
      exact ⟨seen, hconforms.mono hextends⟩
    constructor
    · intro other hmem
      rcases List.mem_append.mp hmem with hbefore | hafter
      · exact hkept other (List.mem_append_left _ hbefore)
      · rcases List.mem_cons.mp hafter with rfl | hafter
        · exact ⟨_, hparty.answers hprogram hanswers hextends⟩
        · exact hkept other (List.mem_append_right _ (List.mem_cons_of_mem _ hafter))
    · intro x hx
      rcases List.mem_append.mp hx with hnew | hold
      · exact (hparty.spawns hprogram hnew).mono hextends
      · exact (hs.spawned x hold).mono hextends

lemma agrees_run (h : ReflTransGen Serves s t) (hs : Agrees s) :
    Agrees t ∧ Extends s.registry t.registry := by
  induction h with
  | refl => exact ⟨hs, .refl _⟩
  | tail _ hstep ih =>
    obtain ⟨hagrees, hextends⟩ := ih
    exact ⟨hstep.agrees hagrees, hextends.trans (hstep.extends hagrees)⟩

end Clients

def Entered (ending : Except JoinError Outcome) : Prop :=
  (∃ result, ending = .ok (.executed result)) ∨ ∃ text, ending = .error (.panic text)

/-- What clones of a client spawn, in whatever order they register and spawn, has a queue name of 1
to 57 bytes and at least one attempt. Its spawner has looked into the shared registry since it began,
and what was registered there for the task when it last did gives the queue; and as no registration
is ever replaced or removed, a worker of that queue finds the task registered for it whenever it
executes it. -/
theorem spawn_agrees_with_execution {s t : Clients} (hs : ReflTransGen Serves Clients.start s)
    (ht : ReflTransGen Serves s t) :
    Extends s.registry t.registry ∧ ∀ x ∈ s.spawned,
      (1 ≤ x.queueName.utf8ByteSize ∧ x.queueName.utf8ByteSize ≤ 57) ∧
      (∃ n, maxAttemptsOf x.options = some n ∧ 1 ≤ n) ∧
      ∃ read, x.resolved = some read ∧ Extends x.began read ∧ Extends read s.registry ∧
        ∀ registered, read x.taskName = some registered → x.queueName = registered.queueName ∧
          ∀ (task : ClaimedTask) (config : TaskExecutionConfig), task.taskName = x.taskName →
            (∃ found, t.registry.tasks task.taskName = some found ∧ found.queueName = x.queueName) ∧
            ∀ ending log,
              Ended x.queueName t.registry.tasks task config ending log → Entered ending := by
  have hstart : Agrees Clients.start := by
    constructor
    · exact fun _ hparty => nomatch hparty
    · exact fun _ hx => nomatch hx
  obtain ⟨hagrees, -⟩ := agrees_run hs hstart
  obtain ⟨-, hextends⟩ := agrees_run ht hagrees
  refine ⟨hextends, ?_⟩
  intro x hx
  have hfits := hagrees.spawned x hx
  obtain ⟨read, hread, hbegan, hnow, hqueue⟩ := hfits.resolved
  refine ⟨hfits.queue, hfits.attempts, read, hread, hbegan, hnow, ?_⟩
  intro registered hregistered
  have hsame := hqueue registered hregistered
  refine ⟨hsame, ?_⟩
  intro task config hname
  have hfound : t.registry.tasks task.taskName = some ⟨registered.queueName, registered.handler⟩ := by
    rw [ClientRegistry.tasks, hname, hextends _ _ (hnow _ _ hregistered)]
    rfl
  refine ⟨⟨_, hfound, hsame.symm⟩, ?_⟩
  rintro ending log ⟨log', hrun, -⟩
  have hpossible := (outcome_possible []).finish hrun
  rcases ending with (text | _) | _ | err | result
  · exact Or.inr ⟨text, rfl⟩
  · exact hpossible.elim
  · have hnone : t.registry.tasks task.taskName = none := hpossible
    rw [hfound] at hnone
    cases hnone
  · obtain ⟨registration, hother, hne⟩ := hpossible
    obtain rfl := Option.some.inj (hfound.symm.trans hother)
    exact absurd hsame.symm hne
  · exact Or.inl ⟨result, rfl⟩

section Sample

def sampleClone : ClientClone where
  queueName := "default"
  hooks := ⟨none⟩
  defaultMaxAttempts := 5
  beforeSpawn := false

def sampleTaskOptions : TaskOptions := ⟨"task", some "critical", none, none⟩

def sampleSpawnOptions : SpawnOptions := ⟨none, none, none, none, none, none⟩

def sampleClientTask : ClientTask where
  queueName := "critical"
  defaultMaxAttempts := none
  defaultCancellation := none
  handler := eraseHandler Serde.json Serde.json fun params _ => .done (.ok params)

def sampleClientRegistry : ClientRegistry :=
  Function.update (fun _ => none) "task" (some sampleClientTask)

def sampleSpawned : Spawned where
  queueName := "critical"
  taskName := "task"
  params := .null
  options := sampleSpawnOptions.toSqlJson 5 none
  began := fun _ => none
  resolved := some sampleClientRegistry

def sampleClients : Clients where
  registry := sampleClientRegistry
  parties := [⟨.done (), fun _ => none, some sampleClientRegistry⟩, ⟨.done (), fun _ => none, none⟩]
  spawned := [sampleSpawned]

lemma sample_registers : ∃ next, sampleClone.registerWithOptions Serde.json Serde.json
      sampleTaskOptions (fun params _ => .done (.ok params)) =
        .call (.update (insertTask "task" sampleClientTask)) next ∧
    next (some (.ok ())) = .done (.ok ()) := by
  simp only [ClientClone.registerWithOptions]
  rw [if_neg (by decide), if_neg (by decide)]
  exact ⟨_, rfl, rfl⟩

lemma sample_spawns : ∃ next next₁ next₂,
    sampleClone.spawnNamed "task" (.ok .null) sampleSpawnOptions =
      .call (.getRegistration "task") next ∧
    next (some (some sampleClientTask.toRegistration)) = .call .poolGet next₁ ∧
    next₁ (Except.ok () : Except String Unit) =
      .call (.spawnTask "critical" "task" .null (sampleSpawnOptions.toSqlJson 5 none)) next₂ ∧
    ∃ result, next₂ (.error ⟨none, ""⟩ : Except PgError SpawnResult) = .done result := by
  simp only [ClientClone.spawnNamed, ClientClone.spawnResolved]
  rw [if_neg (by decide)]
  exact ⟨_, _, _, rfl, rfl, rfl, _, rfl⟩

lemma sample_served : ReflTransGen Serves Clients.start sampleClients := by
  obtain ⟨next, next₁, next₂, hspawn, hresolved, hpool, result, hsent⟩ := sample_spawns
  obtain ⟨inserted, hregister, hinserted⟩ := sample_registers
  have hspawns := Begins.spawnNamed sampleClone "task" (.ok .null) sampleSpawnOptions
  have hregisters := Begins.register sampleClone Serde.json Serde.json sampleTaskOptions
    fun params _ => .done (.ok params)
  apply ReflTransGen.head (.begins hspawns)
  apply ReflTransGen.head (.begins hregisters)
  rw [hspawn, hregister]
  have hupdate : Answers (fun _ => none) sampleClientRegistry
      (.update (insertTask "task" sampleClientTask)) (some (.ok ())) := rfl
  apply ReflTransGen.head (@Serves.answers _ [_] [] _ _ _ _ _ rfl rfl hupdate)
  have hread : Answers sampleClientRegistry sampleClientRegistry (.getRegistration "task")
      (some (some sampleClientTask.toRegistration)) := ⟨rfl, rfl⟩
  apply ReflTransGen.head (@Serves.answers _ [] [_] _ _ _ _ _ rfl rfl hread)
  have hgot : Answers sampleClientRegistry sampleClientRegistry .poolGet
      (.ok () : Except String Unit) := rfl
  simp only [hresolved]
  apply ReflTransGen.head (@Serves.answers _ [] [_] _ _ _ _ _ rfl rfl hgot)
  have hfails : Answers sampleClientRegistry sampleClientRegistry (.spawnTask "critical" "task" .null
      (sampleSpawnOptions.toSqlJson 5 none)) (.error ⟨none, ""⟩ : Except PgError SpawnResult) := rfl
  simp only [hpool]
  apply ReflTransGen.head (@Serves.answers _ [] [_] _ _ _ _ _ rfl rfl hfails)
  simp only [hsent, hinserted]
  exact .refl

theorem spawn_agrees_with_execution_sample :
    ReflTransGen Serves Clients.start sampleClients ∧ sampleSpawned ∈ sampleClients.spawned ∧
    (∃ read, sampleSpawned.resolved = some read ∧ read "task" = some sampleClientTask) ∧
    sampleSpawned.queueName = sampleClientTask.queueName ∧
    ∃ found, sampleClients.registry.tasks sampleTask.taskName = some found ∧
      found.queueName = sampleSpawned.queueName := by
  have hmem : sampleSpawned ∈ sampleClients.spawned := List.mem_singleton_self _
  obtain ⟨-, hall⟩ := spawn_agrees_with_execution sample_served .refl
  obtain ⟨-, -, read, hread, -, -, hregistered⟩ := hall sampleSpawned hmem
  obtain rfl := Option.some.inj hread
  obtain ⟨hqueue, hworker⟩ := hregistered sampleClientTask rfl
  obtain ⟨hfound, -⟩ := hworker sampleTask sampleConfig rfl
  exact ⟨sample_served, hmem, ⟨_, rfl, rfl⟩, hqueue, hfound⟩

end Sample

end AbsurdSdk.Execution
