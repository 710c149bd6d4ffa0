import AbsurdSdk.Execution.Silence

namespace AbsurdSdk.Execution

open Interaction Model Relation

/-- The calls of an execution beside its watchdog, as long as there is one and the process lives. A
lease can be sent only while a sender is left. -/
def supervised : Env ExecutorCall ExecutorAnswer (Option Timed) := fun w call _ w' =>
  (∀ t ∈ w, ¬ t.watch.Exits) ∧ match call with
    | .spawnWatchdog lease _ fatalOnLeaseTimeout =>
      ∃ now, w' = some (.start fatalOnLeaseTimeout ⟨now, lease⟩)
    | .abortWatchdog => w' = none
    | .context (.sendLease lease) =>
      (∀ t ∈ w, t.dropped = none) ∧ w' = w.map fun t => t.renew lease
    | _ => w' = w

/-- The watchdog beside the execution, and whoever holds the context, the handler or a task that it
has spawned: the holder may renew the lease, and drop the last sender or keep it. -/
inductive Beside (fatalOnLeaseTimeout : Bool) : Option Timed → Option Timed → Prop
  | advances {t t' : Timed} : Advances fatalOnLeaseTimeout t t' →
      Beside fatalOnLeaseTimeout (some t) (some t')

section Kept

variable {fatalOnLeaseTimeout : Bool} {w w' : Option Timed} {t : Timed}

def Kept (fatalOnLeaseTimeout : Bool) (w : Option Timed) : Prop :=
  ∀ t ∈ w, Sent t ∧ Phase fatalOnLeaseTimeout t

def SpawnsAs (fatalOnLeaseTimeout : Bool) : ExecutorCall → Prop
  | .spawnWatchdog _ _ fatal => fatal = fatalOnLeaseTimeout
  | _ => True

lemma none_kept (fatalOnLeaseTimeout : Bool) : Kept fatalOnLeaseTimeout none := by
  rintro _ ⟨⟩

lemma kept_stable (fatalOnLeaseTimeout : Bool) :
    Stable (Beside fatalOnLeaseTimeout) (Kept fatalOnLeaseTimeout) := by
  rintro _ _ ⟨hstep⟩ h _ ⟨⟩
  exact advances_phase hstep (h _ rfl)

lemma Kept.call {call : ExecutorCall} {r : ExecutorAnswer call} (h : Kept fatalOnLeaseTimeout w)
    (hcall : SpawnsAs fatalOnLeaseTimeout call) (hw : supervised w call r w') :
    Kept fatalOnLeaseTimeout w' := by
  obtain ⟨hexits, hw⟩ := hw
  rcases call with ⟨call⟩ | ⟨lease, label, fatal⟩ | _ | _ | _ | _ | _
  case context =>
    cases call with
    | sendLease lease =>
      obtain ⟨hopen, rfl⟩ := hw
      intro t ht
      obtain ⟨s, hs, rfl⟩ := Option.map_eq_some_iff.mp ht
      obtain ⟨hsent, hphase⟩ := h s hs
      exact ⟨hsent.renew lease, renew_phase hphase lease (hopen s hs) (hexits s hs)⟩
    | _ =>
      obtain rfl : w' = w := hw
      exact h
  case spawnWatchdog =>
    obtain ⟨now, rfl⟩ := hw
    obtain rfl : fatal = fatalOnLeaseTimeout := hcall
    rintro _ ⟨⟩
    exact start_phase fatal ⟨now, lease⟩
  case abortWatchdog =>
    obtain rfl : w' = none := hw
    exact nofun
  all_goals
    obtain rfl : w' = w := hw
    exact h

end Kept

section Executions

variable (workerQueue : String) (task : ClaimedTask) (config : TaskExecutionConfig)

lemma context_spawnsAs {α : Type} (fatalOnLeaseTimeout : Bool) (p : Process α) :
    (Execute.context p).Calls (SpawnsAs fatalOnLeaseTimeout) :=
  Program.Calls.relabel _ _ fun _ => trivial

lemma outcome_spawnsAs (registry : Registry) :
    (outcome workerQueue registry task config).Calls (SpawnsAs config.fatalOnLeaseTimeout) := by
  rw [outcome]
  split
  · trivial
  · split
    · trivial
    · refine ⟨rfl, fun _ => ?_⟩
      apply (context_spawnsAs _ _).bind
      rintro (err | c)
      · exact ⟨trivial, fun _ => trivial⟩
      · exact (context_spawnsAs _ _).bind fun _ => ⟨trivial, fun _ => trivial⟩

lemma Settles.spawnsAs {call : ExecutorCall} (h : Settles call) (fatalOnLeaseTimeout : Bool) :
    SpawnsAs fatalOnLeaseTimeout call := by
  cases call with
  | spawnWatchdog => exact h.elim
  | _ => trivial

lemma execution_spawnsAs (registry : Option Registry) :
    (executeClaimedCatching workerQueue registry task config).Calls
      (SpawnsAs config.fatalOnLeaseTimeout) := by
  cases registry with
  | none => trivial
  | some registry =>
    rw [executeClaimedCatching_eq]
    apply ((outcome_spawnsAs workerQueue task config registry).caught joinError).bind
    intro ending
    exact (afterOutcome_settles workerQueue task config ending).mono fun _ h => h.spawnsAs _

end Executions

section Aborted

variable {workerQueue : String} {task : ClaimedTask} {config : TaskExecutionConfig}
  {fatalOnLeaseTimeout : Bool} {w : Option Timed}

lemma none_stable (fatalOnLeaseTimeout : Bool) :
    Stable (Beside fatalOnLeaseTimeout) fun w => w = none := by
  rintro _ _ ⟨⟩ h
  cases h

lemma outcome_aborts (registry : Registry) :
    Always supervised (Beside fatalOnLeaseTimeout) (fun _ _ => True) (fun _ w => w = none)
      (outcome workerQueue registry task config) none := by
  have hnone := none_stable fatalOnLeaseTimeout
  have hany : Stable (Beside fatalOnLeaseTimeout) fun _ => True := fun _ _ _ _ => trivial
  have hcontext : ∀ {α : Type} (p : Process α) w, Always supervised (Beside fatalOnLeaseTimeout)
      (fun _ _ => True) (fun _ _ => True) (Execute.context p) w := by
    intro α p w
    exact .of_calls (context_spawnsAs fatalOnLeaseTimeout p) hany trivial fun _ _ _ _ _ _ _ => trivial
  have habort : ∀ result w, Always supervised (Beside fatalOnLeaseTimeout) (fun _ _ => True)
      (fun _ w => w = none) (abortWatchdog.bind fun _ => .done (Outcome.executed result)) w := by
    intro result w
    apply Always.call hany trivial (fun _ _ => trivial)
    rintro t r u - ⟨-, rfl⟩
    exact .done hnone rfl fun _ ht => ht
  rw [outcome]
  split
  · exact .done hnone rfl fun _ ht => ht
  · split
    · exact .done hnone rfl fun _ ht => ht
    · apply Always.call hany trivial (fun _ _ => trivial)
      intro t r u _ _
      change Always _ _ _ _ ((Execute.context _).bind _) _
      apply (hcontext _ _).bind
      rintro (err | c) v -
      · exact habort _ _
      · exact (hcontext _ _).bind fun result x _ => habort result x

lemma settles_none {α : Type} {p : Execute α} (hp : p.Calls Settles) :
    Always supervised (Beside fatalOnLeaseTimeout) (fun _ w => w = none) (fun _ w => w = none)
      p none := by
  apply Always.of_calls hp (none_stable fatalOnLeaseTimeout) rfl
  rintro t call r u hcall rfl ⟨-, hu⟩
  cases call with
  | context | spawnWatchdog | abortWatchdog => exact hcall.elim
  | _ => exact hu

lemma joinError_not_cancelled (call : ExecutorCall) : joinError call ≠ some .cancelled := by
  cases call with
  | context call => cases call <;> nofun
  | _ => nofun

def Aborted : Except JoinError Outcome → Option Timed → Prop
  | .ok _, w => w = none
  | .error _, _ => True

lemma unwound {registry : Option Registry} {r : Result Unit}
    (h : Interleaves supervised (Beside fatalOnLeaseTimeout)
      (executeClaimedCatching workerQueue registry task config) none (.done r) w) (hw : w ≠ none) :
    ∃ tasks message call next u, registry = some tasks ∧ joinError call = some (.panic message) ∧
      u ≠ none ∧ Interleaves supervised (Beside fatalOnLeaseTimeout)
        (outcome workerQueue tasks task config) none (.call call next) u := by
  cases registry with
  | none =>
    have hdone : Always supervised (Beside fatalOnLeaseTimeout) (fun _ _ => True)
        (fun _ w => w = none) (executeClaimedCatching workerQueue none task config) none :=
      .done (none_stable fatalOnLeaseTimeout) rfl fun _ ht => ht
    exact absurd (hdone.interleaves h w .refl) hw
  | some tasks =>
    rw [executeClaimedCatching_eq] at h
    obtain ⟨ending, u, hinner, houter⟩ := h.bind_done
    have hu : u ≠ none := by
      rintro rfl
      have hafter := @settles_none fatalOnLeaseTimeout _ _
        (afterOutcome_settles workerQueue task config ending)
      exact hw (hafter.interleaves houter w .refl)
    have hcaught : Always supervised (Beside fatalOnLeaseTimeout) (fun _ _ => True) Aborted
        ((outcome workerQueue tasks task config).caught joinError) none :=
      Always.caught (outcome_aborts tasks) fun _ _ _ _ _ => trivial
    rcases ending with (message | _) | o
    · obtain ⟨call, next, hjoin, hrun⟩ := hinner.raised
      exact ⟨tasks, message, call, next, u, rfl, hjoin, hu, hrun⟩
    · obtain ⟨call, next, hjoin, -⟩ := hinner.raised
      exact absurd hjoin (joinError_not_cancelled call)
    · exact absurd (hcaught.interleaves hinner u .refl) hu

end Aborted

section Survival

variable {fatalOnLeaseTimeout : Bool} {w v : Option Timed} {t t' : Timed} {dropped : ℕ}

def Spared (fatalOnLeaseTimeout : Bool) (w : Option Timed) : Prop :=
  ∀ v, ReflTransGen (Beside fatalOnLeaseTimeout) w v → ∀ t ∈ v, ¬ t.watch.Exits

lemma Closed.advances (h : Closed fatalOnLeaseTimeout dropped t)
    (hstep : Advances fatalOnLeaseTimeout t t') :
    Closed fatalOnLeaseTimeout dropped t' ∧ t'.renewals = t.renewals ∧ t.now ≤ t'.now := by
  have hquiet := h.quiet hstep
  refine ⟨h.step hquiet, hquiet.renewals, ?_⟩
  cases hquiet with
  | turn | poll => exact le_rfl
  | time hlater => exact hlater.le

lemma Closed.beside (h : Closed fatalOnLeaseTimeout dropped t)
    (hv : ReflTransGen (Beside fatalOnLeaseTimeout) (some t) v) :
    ∃ t', v = some t' ∧ Closed fatalOnLeaseTimeout dropped t' ∧ t'.renewals = t.renewals ∧
      t.now ≤ t'.now := by
  induction hv with
  | refl => exact ⟨t, rfl, h, rfl, le_rfl⟩
  | tail _ hstep ih =>
    obtain ⟨s, rfl, hs, hrenewals, hle⟩ := ih
    obtain ⟨hadvances⟩ := hstep
    obtain ⟨hs', hsame, hle'⟩ := hs.advances hadvances
    exact ⟨_, rfl, hs', hsame.trans hrenewals, hle.trans hle'⟩

lemma Closed.past (h : Closed fatalOnLeaseTimeout dropped t) : dropped ≤ t.now := by
  have hdropped := h.dropped
  cases h.phase with
  | head halert | listening halert | overdue halert | exit halert =>
    exact (halert.drop dropped hdropped).le
  | ended _ hdrop hle =>
    rw [hdropped] at hdrop
    obtain rfl := Option.some.inj hdrop
    exact hle

lemma Closed.spared (h : Closed fatalOnLeaseTimeout dropped t)
    (hin : dropped < t.now ∨ t.InTime) : Spared fatalOnLeaseTimeout (some t) := by
  intro v hv t' ht'
  obtain ⟨s, rfl, hclosed, hrenewals, hle⟩ := h.beside hv
  obtain rfl : t' = s := (Option.some.inj ht').symm
  have hended : ∀ {s}, Closed fatalOnLeaseTimeout dropped s → dropped < s.now → ¬ s.watch.Exits := by
    rintro s hs hlt ⟨code, next, hexit⟩
    have hrunning : ¬ s.Ended := by
      intro hended
      rw [Timed.Ended, hexit] at hended
      cases hended
    have hnow := hs.now_eq hrunning
    omega
  rcases hin with hlt | ⟨hprompt, hlast⟩
  · exact hended hclosed (Nat.lt_of_lt_of_le hlt hle)
  · intro hexits
    by_cases hlt : dropped < t'.now
    · exact hended hclosed hlt hexits
    · refine hclosed.phase.spared hclosed.sent ⟨?_, ?_⟩ hexits
      · rw [Timed.Prompt, hrenewals]
        exact hprompt
      · intro r hr
        rw [hrenewals] at hr
        refine Or.inr ⟨dropped, hclosed.dropped, ?_⟩
        rcases hlast r hr with hdue | ⟨time, htime, hdue⟩
        · exact Nat.lt_of_le_of_lt h.past hdue
        · rw [h.dropped] at htime
          obtain rfl := Option.some.inj htime
          exact hdue

lemma Kept.spared_of_not_fatal (h : Kept false w) : Spared false w := by
  intro v hv t ht
  exact ((kept_stable false).drifts hv h t ht).2.spared_of_not_fatal

lemma Kept.exits (h : Kept true (some t)) (halive : t.dropped = none) :
    ∃ t', ReflTransGen (Beside true) (some t) (some t') ∧ t'.watch.Exits := by
  obtain ⟨hsent, hphase⟩ := h t rfl
  obtain ⟨r, rest, hr⟩ := List.exists_cons_of_length_eq_add_one hsent.version
  have hsilent : Silent r t := ⟨hsent, hphase, halive, by rw [hr]; rfl⟩
  obtain ⟨t', ht', hexits, -⟩ := hsilent.exits_inevitably.reached
  exact ⟨t', ht'.lift some fun _ _ hstep => ⟨.quiet hstep⟩, hexits⟩

end Survival

section Returned

variable {workerQueue : String} {registry : Option Registry} {task : ClaimedTask}
  {config : TaskExecutionConfig} {r : Result Unit} {w : Option Timed}

/-- When an execution has returned, its watchdog cannot end the process if it was not unwound by a
panic while it was watched, or the watchdog is not fatal, or the last sender has been dropped, in
time or some time ago; a fatal one whose sender is left can. -/
theorem watchdog_stops_unless_sender_survives
    (h : Interleaves supervised (Beside config.fatalOnLeaseTimeout)
      (executeClaimedCatching workerQueue registry task config) none (.done r) w) :
    ((∀ t ∈ w, config.fatalOnLeaseTimeout = true →
        ∃ dropped, t.dropped = some dropped ∧ (dropped < t.now ∨ t.InTime)) →
      ∀ v, ReflTransGen (Beside config.fatalOnLeaseTimeout) w v → ∀ t ∈ v, ¬ t.watch.Exits) ∧
    (∀ t ∈ w, config.fatalOnLeaseTimeout = true → t.dropped = none →
      ∃ t', ReflTransGen (Beside config.fatalOnLeaseTimeout) w (some t') ∧ t'.watch.Exits) ∧
    (w ≠ none → ∃ tasks message call next u, registry = some tasks ∧
      joinError call = some (.panic message) ∧ u ≠ none ∧
      Interleaves supervised (Beside config.fatalOnLeaseTimeout)
        (outcome workerQueue tasks task config) none (.call call next) u) := by
  have hkept : Kept config.fatalOnLeaseTimeout w :=
    (Always.of_calls (execution_spawnsAs workerQueue task config registry)
      (kept_stable config.fatalOnLeaseTimeout) (none_kept _)
      fun _ _ _ _ hcall hs hu => hs.call hcall hu).interleaves h w .refl
  refine ⟨?_, ?_, unwound h⟩
  · intro hdropped
    cases hfatal : config.fatalOnLeaseTimeout with
    | false => exact (hfatal ▸ hkept).spared_of_not_fatal
    | true =>
      rw [hfatal] at hkept
      cases w with
      | none =>
        intro v hv
        rw [(none_stable true).drifts hv rfl]
        exact nofun
      | some t =>
        obtain ⟨dropped, hdrop, hin⟩ := hdropped t rfl hfatal
        obtain ⟨hsent, hphase⟩ := hkept t rfl
        exact Closed.spared ⟨hsent, hphase, hdrop⟩ hin
  · rintro t rfl hfatal halive
    rw [hfatal] at hkept ⊢
    exact hkept.exits halive

def panicking : Registry := fun _ => some ⟨"default", fun _ _ => .call (.panic "boom") Empty.elim⟩

def panickingExecution : Execute (Result Unit) :=
  executeClaimedCatching "default" (some panicking) sampleTask (silentConfig (Duration.fromSecs 120))

def spawned : Timed := .start true ⟨0, Duration.fromSecs 120⟩

lemma spawned_running : ∀ t ∈ some spawned, ¬ t.watch.Exits := by
  rintro _ ⟨⟩ ⟨code, next, hexit⟩
  cases hexit

lemma panicking_returns :
    Interleaves supervised (Beside true) panickingExecution none (.done (.ok ())) (some spawned) := by
  apply Interleaves.step (A := ExecutorAnswer) (e := .spawnWatchdog _ _ _) (r := ())
  · exact ⟨nofun, 0, rfl⟩
  apply Interleaves.step (A := ExecutorAnswer) (e := .context .poolGet) (r := .ok ())
  · exact ⟨spawned_running, rfl⟩
  apply Interleaves.step (A := ExecutorAnswer) (e := .context (.query _)) (r := .ok [])
  · exact ⟨spawned_running, rfl⟩
  apply Interleaves.step (A := ExecutorAnswer) (e := .getPool _) (r := .ok ())
  · exact ⟨spawned_running, rfl⟩
  apply Interleaves.step (A := ExecutorAnswer) (e := .settle _) (r := .ok ())
  · exact ⟨spawned_running, rfl⟩
  exact .refl _ _

theorem watchdog_outlives_panic : ∃ registry task config r w v t,
    Interleaves supervised (Beside config.fatalOnLeaseTimeout)
      (executeClaimedCatching "default" registry task config) none (.done r) w ∧
    ReflTransGen (Beside config.fatalOnLeaseTimeout) w v ∧ v = some t ∧ t.watch.Exits := by
  have hkept : Kept true (some spawned) := by
    rintro _ ⟨⟩
    exact start_phase true ⟨0, Duration.fromSecs 120⟩
  obtain ⟨t, ht, hexits⟩ := hkept.exits rfl
  exact ⟨some panicking, sampleTask, silentConfig (Duration.fromSecs 120), _, _, _, t,
    panicking_returns, ht, rfl, hexits⟩

theorem watchdog_stops_with_panicking_handler : ∃ w,
    Interleaves supervised (Beside true) panickingExecution none (.done (.ok ())) (some w) ∧
    ∀ v, ReflTransGen (Beside true) (some w) v → ∀ t ∈ v, ¬ t.watch.Exits := by
  have hdrop : Beside true (some spawned) (some spawned.drop) :=
    ⟨.drop rfl (spawned_running _ rfl)⟩
  have hrun : Interleaves supervised
      (Beside (silentConfig (Duration.fromSecs 120)).fatalOnLeaseTimeout)
      (executeClaimedCatching "default" (some panicking) sampleTask
        (silentConfig (Duration.fromSecs 120))) none (.done (.ok ())) (some spawned.drop) :=
    panicking_returns.then_drift hdrop
  refine ⟨spawned.drop, hrun, (watchdog_stops_unless_sender_survives hrun).1 ?_⟩
  rintro _ ⟨⟩ -
  refine ⟨0, rfl, Or.inr ⟨List.isChain_singleton _, ?_⟩⟩
  rintro r ⟨⟩
  exact Or.inl (by decide)

end Returned

end AbsurdSdk.Execution
