import AbsurdSdk.Execution.WorkerLoop
import AbsurdSdk.Interaction.Monitor

namespace AbsurdSdk.Execution

open Interaction Model

structure Pace where
  counted : Option ℕ
  barren : Bool
  unreported : Option Error

namespace Pace

def start : Pace := ⟨none, false, none⟩

def after (pace : Pace) : (call : WorkerCall) → WorkerAnswer call → Pace
  | .len, occupied => { pace with counted := some occupied }
  | .isEmpty, _ => pace
  | .claimTasks _ _ _ _, _ => { pace with counted := none, barren := true }
  | .claimed, .ok tasks => { pace with counted := none, barren := tasks.isEmpty }
  | .claimed, .error err => { pace with counted := none, unreported := some err }
  | .select _, _ => { pace with counted := none, barren := false }
  | .selectOrSleep _ _, _ => { pace with counted := none, barren := false }
  | .onError .claim _, _ => { pace with counted := none, unreported := none }
  | _, _ => { pace with counted := none }

end Pace

/-- The loop claims what there is room for, right after it has counted, and not again before it has
waited if the last claim brought nothing; it waits for capacity only when it has counted that there
is none, and for the poll interval only when the last claim brought nothing; and the error of a
claim is reported before anything else is done. -/
def Paces (options : NormalizedWorkerOptions) : WorkerCall → Pace → Prop
  | .claimTasks _ workerId claimTimeoutSeconds toClaim, pace =>
    pace.unreported = none ∧ pace.barren = false ∧ workerId = options.workerId ∧
      claimTimeoutSeconds = options.claimTimeoutSeconds ∧ ∃ occupied < options.concurrency,
        pace.counted = some occupied ∧
          toClaim = min (min (options.concurrency - occupied) options.batchSize) (2 ^ 31 - 1)
  | .select _, pace => pace.unreported = none ∧ pace.barren = false ∧
    ∃ occupied ≥ options.concurrency, pace.counted = some occupied
  | .selectOrSleep pollInterval _, pace =>
    pace.unreported = none ∧ pace.barren = true ∧ pollInterval = options.pollInterval
  | .onError .claim err, pace => pace.unreported = some err
  | _, pace => pace.unreported = none

lemma Paces.report_due {options : NormalizedWorkerOptions} {call : WorkerCall} {pace : Pace}
    {err : Error} (h : Paces options call pace) (hdue : pace.unreported = some err) :
    call = .onError .claim err := by
  have hpaid (hnone : pace.unreported = none) : call = .onError .claim err := by
    rw [hdue] at hnone
    cases hnone
  cases call with
  | claimTasks => exact hpaid h.1
  | select => exact hpaid h.1
  | selectOrSleep => exact hpaid h.1
  | onError kind reported =>
    cases kind with
    | claim =>
      rw [Paces, hdue] at h
      cases h
      rfl
    | execution => exact hpaid h
  | _ => exact hpaid h

def pacing (options : NormalizedWorkerOptions) : Monitor WorkerCall WorkerAnswer Pace where
  after := Pace.after
  allows := Paces options

section Loop

variable {options : NormalizedWorkerOptions} {pace : Pace} {barren : Bool} {α β : Type}

def Clear (barren : Bool) (pace : Pace) : Prop := pace.unreported = none ∧ pace.barren = barren

abbrev Steps (options : NormalizedWorkerOptions) (barren : Bool) (p : WorkerM α) (pace : Pace) :
    Prop :=
  (pacing options).Heeds (fun _ => Clear barren) p pace

lemma bind_steps {mid : Bool} {p : WorkerM α} {f : α → WorkerM β} (hp : Steps options mid p pace)
    (hf : ∀ a t, Clear mid t → Steps options barren (f a) t) :
    Steps options barren (p >>= f) pace :=
  Monitor.Heeds.bind hp hf

lemma reportWorkerError_steps (kind : WorkerErrorKind) (err : Error)
    (h : Paces options (.onError kind err) pace) (hbarren : pace.barren = barren) :
    Steps options barren (reportWorkerError kind err) pace := by
  refine ⟨h, ?_⟩
  cases kind with
  | claim =>
    rintro (text | _)
    · exact ⟨rfl, fun r => r.elim⟩
    · exact ⟨rfl, hbarren⟩
  | execution =>
    rintro (text | _)
    · exact ⟨h, fun r => r.elim⟩
    · exact ⟨h, hbarren⟩

lemma reportTaskResult_steps (result : Joined) (h : Clear barren pace) :
    Steps options barren (reportTaskResult result) pace := by
  rcases result with err | err | _
  · exact bind_steps (reportWorkerError_steps _ _ h.1 h.2) fun _ _ ht => ht
  · exact bind_steps (reportWorkerError_steps _ _ h.1 h.2) fun _ _ ht => ht
  · exact h

lemma drainFinished_steps (turns : ℕ) (h : Clear barren pace) :
    Steps options barren (drainFinished turns) pace := by
  induction turns generalizing pace with
  | zero => exact ⟨h.1, fun r => r.elim⟩
  | succ turns ih =>
    refine ⟨h.1, ?_⟩
    rintro (_ | result)
    · exact h
    · have hjoined : Clear barren (pace.after .tryJoinNext (some result)) := h
      apply bind_steps (reportTaskResult_steps result hjoined)
      rintro (err | _) t ht
      · exact ht
      · exact ih ht

lemma joinAll_steps (turns : ℕ) (h : Clear barren pace) :
    Steps options barren (joinAll turns) pace := by
  induction turns generalizing pace with
  | zero => exact ⟨h.1, fun r => r.elim⟩
  | succ turns ih =>
    refine ⟨h.1, ?_⟩
    rintro (_ | result)
    · exact h
    · have hjoined : Clear barren (pace.after .joinNext (some result)) := h
      apply bind_steps (reportTaskResult_steps result hjoined)
      rintro (err | _) t ht
      · exact ht
      · exact ih ht

lemma afterSelect_steps (selected : Selected) (h : Clear barren pace) :
    Steps options barren (afterSelect selected) pace := by
  rcases selected with isErr | _ | result
  · rw [afterSelect]
    split
    · exact h
    · exact ⟨h.1, fun _ => h⟩
  · exact h
  · apply bind_steps (reportTaskResult_steps result h)
    rintro (err | _) t ht
    · exact ht
    · exact ht

lemma waitForCapacityOrShutdown_steps {occupied : ℕ} (h : Clear false pace)
    (hfull : options.concurrency ≤ occupied) (hcounted : pace.counted = some occupied) :
    Steps options false waitForCapacityOrShutdown pace := by
  refine ⟨h.1, fun _ => ⟨⟨h.1, h.2, occupied, hfull, hcounted⟩, ?_⟩⟩
  exact fun selected => afterSelect_steps selected ⟨h.1, rfl⟩

lemma waitPollIntervalOrShutdown_steps (h : Clear true pace) :
    Steps options false (waitPollIntervalOrShutdown options.pollInterval) pace := by
  refine ⟨h.1, fun _ => ⟨⟨h.1, h.2, rfl⟩, ?_⟩⟩
  rintro (_ | selected)
  · exact ⟨h.1, rfl⟩
  · exact afterSelect_steps selected ⟨h.1, rfl⟩

lemma spawnAll_steps (config : TaskExecutionConfig) (tasks : List ClaimedTask)
    (h : Clear barren pace) : Steps options barren (spawnAll config tasks) pace := by
  induction tasks generalizing pace with
  | nil => exact h
  | cons task tasks ih => exact ⟨h.1, fun _ => ih h⟩

lemma workerLoop_steps (queueName : String) (hooks : Hooks) (debug : Error → String) (turns : ℕ)
    (h : Clear false pace) :
    Steps options false (workerLoop queueName hooks debug options turns) pace := by
  induction turns generalizing pace with
  | zero => exact ⟨h.1, fun r => r.elim⟩
  | succ turns ih =>
    have hnext : ∀ next, Resumes (workerLoop queueName hooks debug options turns) turns next →
        ∀ r t, Clear false t → Steps options false (next r) t := by
      rintro next hresumes (err | _ | _) t ht
      · rw [hresumes.failed]
        exact ht
      · rw [hresumes.again]
        exact ih ht
      · rw [hresumes.shutdown]
        exact joinAll_steps turns ht
    apply bind_steps (drainFinished_steps turns h)
    rintro (err | _) t ht
    · exact ht
    refine ⟨ht.1, ?_⟩
    intro signalled
    cases signalled with
    | true => exact joinAll_steps turns ht
    | false =>
      refine ⟨ht.1, ?_⟩
      intro occupied
      change ℕ at occupied
      let counted : Pace := ⟨some occupied, t.barren, t.unreported⟩
      change Steps options false (if options.concurrency - occupied = 0 then _ else _) _
      split
      · rename_i hfull
        apply bind_steps
        · have hcounted : counted.counted = some occupied := rfl
          exact waitForCapacityOrShutdown_steps ht (by omega) hcounted
        · exact hnext _ ⟨fun _ => rfl, rfl, rfl⟩
      · rename_i hroom
        refine ⟨⟨ht.1, ht.2, rfl, rfl, occupied, by omega, rfl, rfl⟩, fun _ => ⟨ht.1, ?_⟩⟩
        rintro (err | _ | ⟨task, tasks⟩)
        · have hfailed : Paces options (.onError .claim err) ⟨none, true, some err⟩ := rfl
          apply bind_steps (reportWorkerError_steps .claim err hfailed rfl)
          intro _ u hu
          exact bind_steps (waitPollIntervalOrShutdown_steps hu) (hnext _ ⟨fun _ => rfl, rfl, rfl⟩)
        · have hempty : Clear true ⟨none, true, t.unreported⟩ := ⟨ht.1, rfl⟩
          change Steps options false (waitPollIntervalOrShutdown options.pollInterval >>= _) _
          exact bind_steps (waitPollIntervalOrShutdown_steps hempty)
            (hnext _ ⟨fun _ => rfl, rfl, rfl⟩)
        · have hclaimed : Clear false ⟨none, false, t.unreported⟩ := ⟨ht.1, rfl⟩
          apply bind_steps (spawnAll_steps _ (task :: tasks) hclaimed)
          exact fun _ _ hu => ih hu

end Loop

section Account

abbrev WorkerLog := Transcript WorkerCall WorkerAnswer

def isClaim : (Σ call : WorkerCall, WorkerAnswer call) → Bool
  | ⟨.claimTasks _ _ _ _, _⟩ => true
  | _ => false

def isWait : (Σ call : WorkerCall, WorkerAnswer call) → Bool
  | ⟨.select _, _⟩ | ⟨.selectOrSleep _ _, _⟩ => true
  | _ => false

def isFruitful : (Σ call : WorkerCall, WorkerAnswer call) → Bool
  | ⟨.claimed, .ok (_ :: _)⟩ => true
  | _ => false

def claimError : (Σ call : WorkerCall, WorkerAnswer call) → Option Error
  | ⟨.claimed, .error err⟩ => some err
  | _ => none

def claimReport : (Σ call : WorkerCall, WorkerAnswer call) → Option Error
  | ⟨.onError .claim err, _⟩ => some err
  | _ => none

structure Account (log : WorkerLog) (pace : Pace) : Prop where
  claims : log.countP isClaim ≤ log.countP isWait + log.countP isFruitful + pace.barren.toNat
  reports : log.filterMap claimError = pace.unreported.toList ++ log.filterMap claimReport

lemma Account.step {options : NormalizedWorkerOptions} {log : WorkerLog} {pace : Pace}
    {call : WorkerCall} {r : WorkerAnswer call} (h : Account log pace)
    (hallowed : Paces options call pace) : Account (⟨call, r⟩ :: log) (pace.after call r) := by
  obtain ⟨hclaims, hreports⟩ := h
  have hle := Bool.toNat_le pace.barren
  cases call with
  | claimTasks =>
    rw [hallowed.2.1] at hclaims
    refine ⟨?_, hreports⟩
    rw [List.countP_cons_of_pos (p := isClaim) rfl]
    exact Nat.succ_le_succ hclaims
  | claimed =>
    have hpaid : pace.unreported = none := hallowed
    rw [hpaid] at hreports
    rcases r with err | _ | ⟨task, tasks⟩
    · exact ⟨hclaims, congrArg (err :: ·) hreports⟩
    · exact ⟨hclaims.trans (Nat.add_le_add_left hle _), hpaid ▸ hreports⟩
    · refine ⟨?_, hpaid ▸ hreports⟩
      rw [List.countP_cons_of_pos (p := isFruitful) rfl]
      exact hclaims.trans (Nat.add_le_add_left hle _)
  | select =>
    have hwaited : log.countP isClaim ≤ log.countP isWait + 1 + log.countP isFruitful := by omega
    refine ⟨?_, hreports⟩
    rw [List.countP_cons_of_pos (p := isWait) rfl]
    exact hwaited
  | selectOrSleep =>
    have hwaited : log.countP isClaim ≤ log.countP isWait + 1 + log.countP isFruitful := by omega
    refine ⟨?_, hreports⟩
    rw [List.countP_cons_of_pos (p := isWait) rfl]
    exact hwaited
  | onError kind err =>
    cases kind with
    | claim =>
      have hdue : pace.unreported = some err := hallowed
      rw [hdue] at hreports
      exact ⟨hclaims, hreports⟩
    | execution => exact ⟨hclaims, hreports⟩
  | _ => exact ⟨hclaims, hreports⟩

end Account

/-- On every run of the loop, finished or cut: it keeps its pace at every call; it has begun at most
one claim more than it has waited and got tasks; and it has reported the error of every claim that
failed, but the last one while it stands at that report. -/
theorem worker_keeps_pace {options : NormalizedWorkerOptions} {queueName : String} {hooks : Hooks}
    {debug : Error → String} {turns : ℕ} {q : WorkerM (Result Unit)} {log : WorkerLog}
    (h : Run transcribed (workerLoop queueName hooks debug options turns) [] q log) :
    (∀ call next, q = .call call next →
      Paces options call ((pacing options).reads Pace.start log)) ∧
    log.countP isClaim ≤ log.countP isWait + log.countP isFruitful + 1 ∧
    (log.filterMap claimError = log.filterMap claimReport ∨ ∃ err next,
      q = .call (.onError .claim err) next ∧
        log.filterMap claimError = err :: log.filterMap claimReport) := by
  have hstart : (pacing options).Heeds (fun _ => Clear false)
      (workerLoop queueName hooks debug options turns) ((pacing options).reads Pace.start []) :=
    workerLoop_steps queueName hooks debug turns ⟨rfl, rfl⟩
  have hrest := hstart.run h
  have haccount : Account log ((pacing options).reads Pace.start log) :=
    hstart.keeps h (fun _ _ _ _ => Account.step) ⟨Nat.zero_le _, rfl⟩
  have hle := Bool.toNat_le ((pacing options).reads Pace.start log).barren
  refine ⟨?_, haccount.claims.trans (Nat.add_le_add_left hle _), ?_⟩
  · rintro call next rfl
    exact hrest.1
  · rw [haccount.reports]
    cases hdue : ((pacing options).reads Pace.start log).unreported with
    | none => exact Or.inl rfl
    | some err =>
      cases q with
      | done result => cases hdue.symm.trans hrest.1
      | call call next =>
        obtain rfl := Paces.report_due hrest.1 hdue
        exact Or.inr ⟨err, next, rfl, rfl⟩

lemma sample_barren : ∃ q log next,
    Run transcribed (workerLoop "default" ⟨none⟩ (fun _ => "error") sampleWorker 2) [] q log ∧
      q = .call (.selectOrSleep sampleWorker.pollInterval false) next := by
  refine ⟨?q, ?log, ?next, ?run, ?same⟩
  case run =>
    apply Run.step (A := WorkerAnswer) (e := .tryJoinNext) (r := none)
    · exact rfl
    apply Run.step (A := WorkerAnswer) (e := .borrow) (r := false)
    · exact rfl
    apply Run.step (A := WorkerAnswer) (e := .len) (r := (0 : ℕ))
    · exact rfl
    apply Run.step (A := WorkerAnswer) (e := .claimTasks _ _ _ _) (r := ())
    · exact rfl
    apply Run.step (A := WorkerAnswer) (e := .claimed) (r := .ok [])
    · exact rfl
    apply Run.step (A := WorkerAnswer) (e := .isEmpty) (r := true)
    · exact rfl
    exact .refl _ _
  case same => exact rfl

theorem worker_keeps_pace_sample : ∃ next log,
    Run transcribed (workerLoop "default" ⟨none⟩ (fun _ => "error") sampleWorker 2) []
      (.call (.selectOrSleep sampleWorker.pollInterval false) next) log ∧
    ((pacing sampleWorker).reads Pace.start log).barren = true ∧
    log.countP isClaim ≤ log.countP isWait + log.countP isFruitful + 1 := by
  obtain ⟨_, log, next, hrun, rfl⟩ := sample_barren
  obtain ⟨hpaces, hclaims, -⟩ := worker_keeps_pace hrun
  have hwait := hpaces _ next rfl
  exact ⟨next, log, hrun, hwait.2.1, hclaims⟩

end AbsurdSdk.Execution
