import AbsurdSdk.Execution.Settlement
import AbsurdSdk.Execution.WorkerLoop

namespace AbsurdSdk.Execution

open Interaction Model Relation

/-- The task in the `JoinSet`: it awaits the inner one, does what follows its end, and ends. -/
inductive Outer
  | awaiting
  | settling (p : Execute (Result Unit))
  | ended (result : Joined)

structure Nested where
  workerQueue : String
  task : ClaimedTask
  config : TaskExecutionConfig
  inner : Execute (Except JoinError (Result Unit))
  outer : Outer

namespace Nested

def start (workerQueue : String) (registry : Option Registry) (task : ClaimedTask)
    (config : TaskExecutionConfig) : Nested where
  workerQueue := workerQueue
  task := task
  config := config
  inner := (executeClaimed workerQueue registry task config).caught joinError
  outer := .awaiting

def Over (e : Nested) : Prop := ∃ ending, e.inner = .done ending

end Nested

abbrev Permits := (call : ExecutorCall) → ExecutorAnswer call → Prop

inductive Moves (permits : Permits) : Nested → Nested → Prop
  | inner {e : Nested} {call : ExecutorCall} {next : ExecutorAnswer call → Execute _}
      (r : ExecutorAnswer call) : permits call r → e.inner = .call call next →
      Moves permits e { e with inner := next r }
  | joins {e : Nested} {ending : Except JoinError (Result Unit)} :
      e.inner = .done ending → e.outer = .awaiting →
      Moves permits e { e with outer := .settling (afterJoin e.workerQueue e.task e.config ending) }
  | settles {e : Nested} {call : ExecutorCall} {next : ExecutorAnswer call → Execute _}
      (r : ExecutorAnswer call) : permits call r → e.outer = .settling (.call call next) →
      Moves permits e { e with outer := .settling (next r) }
  | unwinds {e : Nested} {text : String} {next : Empty → Execute _} :
      e.outer = .settling (.call (.panic text) next) →
      Moves permits e { e with outer := .ended (.error (.panic text)) }
  | returns {e : Nested} {result : Result Unit} : e.outer = .settling (.done result) →
      Moves permits e { e with outer := .ended (.ok result) }

structure Site extends ShutdownChannel where
  running : List Nested
  joined : List Nested

def Site.start : Site := ⟨.start, [], []⟩

def Site.Idle (w : Site) : Prop := ∀ e ∈ w.running, e.Over

inductive Progress (permits : Permits) : Site → Site → Prop
  | moves {w : Site} {before after : List Nested} {e e' : Nested} :
      w.running = before ++ e :: after → Moves permits e e' →
      Progress permits w { w with running := before ++ e' :: after }
  | signals {w : Site} {c : ShutdownChannel} : w.toShutdownChannel.Signals c →
      Progress permits w { w with toShutdownChannel := c }

def anyAnswer : Permits := fun _ _ => True

def Takes (w : Site) (result : Joined) (w' : Site) : Prop :=
  ∃ before e after, w.running = before ++ e :: after ∧ e.outer = .ended result ∧
    w' = { w with running := before ++ after, joined := e :: w.joined }

def grounds (workerQueue : String) : Surroundings Site Nested where
  running := Site.running
  channel := Site.toShutdownChannel
  notices w c := { w with toShutdownChannel := c }
  takes := Takes
  begins w _ w' := w' = w
  replies w _ w' := w' = w
  spawns w task config w' := ∃ registry, w' =
    { w with running := w.running ++ [.start workerQueue registry task config] }

/-- The answers to the loop of a worker for this queue; any reply to a claim, and `on_error` may
panic whenever it is called. -/
def site (workerQueue : String) : Env WorkerCall WorkerAnswer Site := (grounds workerQueue).answers

def joined? : (call : WorkerCall) → WorkerAnswer call → Option Joined
  | .tryJoinNext, r => r
  | .joinNext, r => r
  | .select _, .joined r => r
  | .selectOrSleep _ _, some (.joined r) => r
  | _, _ => none

def OnErrorPanics : (call : WorkerCall) → WorkerAnswer call → Prop
  | .onError _ _, r => ∃ text, r = (.error text : Except String Unit)
  | _, _ => False

/-- No handler is executing when `on_error` panics in the loop, nor when the loop joins an outer
task that has panicked. -/
def undisturbed (workerQueue : String) : Env WorkerCall WorkerAnswer Site := fun w call r w' =>
  site workerQueue w call r w' ∧ (OnErrorPanics call r → w.Idle) ∧
    ∀ err, joined? call r = some (.error err) → w'.Idle

def Gone (q : WorkerM (Result Unit)) : Prop :=
  (∃ result, q = .done result) ∨ ∃ text next, q = .call (.panic text) next

section Tidy

variable {w w' : Site} {e e' : Nested} {P : Site → Prop} {workerQueue : String} {α : Type}
  {turns : ℕ}

structure Tidy (w : Site) : Prop where
  running : ∀ e ∈ w.running, e.outer = .awaiting ∨ e.Over
  joined : ∀ e ∈ w.joined, e.Over

variable {permits : Permits}

lemma Moves.over (h : Moves permits e e') (he : e.Over) : e'.Over := by
  obtain ⟨ending, he⟩ := he
  cases h with
  | inner _ _ hcall =>
    rw [he] at hcall
    cases hcall
  | joins | settles | unwinds | returns => exact ⟨ending, he⟩

lemma Moves.tidy (h : Moves permits e e') (he : e.outer = .awaiting ∨ e.Over) :
    e'.outer = .awaiting ∨ e'.Over := by
  rcases he with hawaiting | hover
  · cases h with
    | inner => exact Or.inl hawaiting
    | joins hdone => exact Or.inr ⟨_, hdone⟩
    | settles _ _ hcall | unwinds hcall | returns hcall =>
      rw [hawaiting] at hcall
      cases hcall
  · exact Or.inr (h.over hover)

lemma Progress.running {Q : Nested → Prop} (h : Progress permits w w')
    (hQ : ∀ e e', Moves permits e e' → Q e → Q e') (hw : ∀ e ∈ w.running, Q e) :
    ∀ e ∈ w'.running, Q e := by
  cases h with
  | moves hrunning hmoves =>
    rw [hrunning] at hw
    intro e he
    rcases List.mem_append.mp he with hbefore | hafter
    · exact hw e (List.mem_append_left _ hbefore)
    · rcases List.mem_cons.mp hafter with rfl | hafter
      · exact hQ _ _ hmoves (hw _ (List.mem_append_right _ List.mem_cons_self))
      · exact hw e (List.mem_append_right _ (List.mem_cons_of_mem _ hafter))
  | signals => exact hw

lemma Progress.joined (h : Progress permits w w') : w'.joined = w.joined := by
  cases h <;> rfl

lemma tidy_stable : Stable (Progress permits) Tidy := fun _ _ h hw =>
  ⟨h.running (fun _ _ hmoves => hmoves.tidy) hw.running, h.joined.symm ▸ hw.joined⟩

lemma idle_stable : Stable (Progress permits) Site.Idle := fun _ _ h hw =>
  h.running (fun _ _ hmoves => hmoves.over) hw

lemma quiet_stable : Stable (Progress permits) fun w => Tidy w ∧ w.Idle :=
  fun w w' h hw => ⟨tidy_stable w w' h hw.1, idle_stable w w' h hw.2⟩

lemma Takes.running {Q : Nested → Prop} {result : Joined} (h : Takes w result w')
    (hw : ∀ e ∈ w.running, Q e) : ∃ e, Q e ∧ e.outer = .ended result ∧
      w'.toShutdownChannel = w.toShutdownChannel ∧ w'.joined = e :: w.joined ∧
      ∀ e ∈ w'.running, Q e := by
  obtain ⟨before, e, after, hrunning, hended, rfl⟩ := h
  rw [hrunning] at hw
  refine ⟨e, hw e (List.mem_append_right _ List.mem_cons_self), hended, rfl, rfl, ?_⟩
  intro e' he
  rcases List.mem_append.mp he with hbefore | hafter
  · exact hw e' (List.mem_append_left _ hbefore)
  · exact hw e' (List.mem_append_right _ (List.mem_cons_of_mem _ hafter))

lemma Tidy.takes {result : Joined} (h : Tidy w) (ht : Takes w result w') : Tidy w' := by
  obtain ⟨e, he, hended, -, hjoined, hrunning⟩ := ht.running h.running
  refine ⟨hrunning, ?_⟩
  rw [hjoined]
  intro e' he'
  rcases List.mem_cons.mp he' with rfl | he'
  · rcases he with hawaiting | hover
    · rw [hended] at hawaiting
      cases hawaiting
    · exact hover
  · exact h.joined e' he'

lemma Tidy.selects {join : Bool} {selected : Selected} (h : Tidy w)
    (hs : (grounds workerQueue).Selects join w selected w') : Tidy w' := by
  rcases selected with isErr | _ | result
  · obtain ⟨c, -, rfl⟩ := hs
    exact ⟨h.running, h.joined⟩
  · obtain ⟨-, -, rfl⟩ := hs
    exact h
  · exact h.takes hs.2

def Tends : WorkerCall → Site → Prop
  | .panic _, w => Tidy w ∧ w.Idle
  | _, _ => True

def Leaves {β : Type} (r : Result β) (w : Site) : Prop :=
  Tidy w ∧ ∀ err, r = .error err → w.Idle

abbrev KeepsTidy (workerQueue : String) (p : WorkerM α) (post : α → Site → Prop) (w : Site) : Prop :=
  Always (undisturbed workerQueue) (Progress anyAnswer) Tends post p w

lemma bind_tidy {β : Type} {p : WorkerM α} {f : α → WorkerM β} {mid : α → Site → Prop}
    {post : β → Site → Prop} (hp : KeepsTidy workerQueue p mid w)
    (hf : ∀ a t, mid a t → KeepsTidy workerQueue (f a) post t) :
    KeepsTidy workerQueue (p >>= f) post w :=
  Always.bind hp hf

lemma done_tidy {β : Type} {r : Result β} (hw : Tidy w) (hr : ∀ err, r = .error err → w.Idle) :
    KeepsTidy workerQueue (.done r) Leaves w := by
  cases r with
  | ok b => exact .done tidy_stable hw fun t ht => ⟨ht, nofun⟩
  | error err =>
    exact .done quiet_stable ⟨hw, hr err rfl⟩ fun t ht => ⟨ht.1, fun _ _ => ht.2⟩

lemma ok_tidy {β : Type} (b : β) (hw : Tidy w) :
    KeepsTidy workerQueue (.done (.ok b)) Leaves w := by
  apply done_tidy hw
  intro err he
  cases he

lemma hang_tidy {post : α → Site → Prop} (w : Site) :
    KeepsTidy workerQueue (WorkerM.hang : WorkerM α) post w :=
  fun _ _ => ⟨trivial, fun r => r.elim⟩

lemma reportWorkerError_tidy (kind : WorkerErrorKind) (err : Error) (hP : Stable (Progress anyAnswer) P)
    (hsub : ∀ t, P t → Tidy t) (hw : P w) :
    KeepsTidy workerQueue (reportWorkerError kind err) (fun _ => P) w := by
  apply Always.call hP hw
  · exact fun _ _ => trivial
  rintro t (text | _) u ht ⟨rfl, hpanics, -⟩
  · have hidle : u.Idle := hpanics ⟨text, rfl⟩
    apply Always.call quiet_stable ⟨hsub u ht, hidle⟩
    · exact fun _ hv => hv
    · exact fun _ r => r.elim
  · exact .done hP ht fun _ hv => hv

lemma reportTaskResult_tidy (result : Joined) (hw : Tidy w)
    (hr : ∀ err, result = .error err → w.Idle) :
    KeepsTidy workerQueue (reportTaskResult result) Leaves w := by
  rcases result with err | err | _
  · apply bind_tidy (reportWorkerError_tidy _ _ quiet_stable (fun _ ht => ht.1) ⟨hw, hr err rfl⟩)
    exact fun _ t ht => done_tidy ht.1 fun _ _ => ht.2
  · apply bind_tidy (reportWorkerError_tidy _ _ tidy_stable (fun _ ht => ht) hw)
    exact fun _ t ht => ok_tidy _ ht
  · exact ok_tidy _ hw

lemma joined_tidy {t u : Site} {result : Joined} (ht : Tidy t) (hu : Takes t result u)
    (hjoined : ∀ err, some result = some (.error err) → u.Idle) :
    KeepsTidy workerQueue (reportTaskResult result) Leaves u :=
  reportTaskResult_tidy result (ht.takes hu) fun err he => hjoined err (congrArg some he)

lemma drainFinished_tidy (turns : ℕ) (hw : Tidy w) :
    KeepsTidy workerQueue (drainFinished turns) Leaves w := by
  induction turns generalizing w with
  | zero => exact hang_tidy w
  | succ turns ih =>
    apply Always.call tidy_stable hw
    · exact fun _ _ => trivial
    rintro t (_ | result) u ht ⟨hu, -, hjoined⟩
    · obtain rfl : u = t := hu
      exact ok_tidy _ ht
    · apply bind_tidy (joined_tidy ht hu hjoined)
      rintro (err | _) v ⟨hv, hidle⟩
      · exact done_tidy hv fun _ _ => hidle err rfl
      · exact ih hv

lemma joinAll_tidy (turns : ℕ) (hw : Tidy w) :
    KeepsTidy workerQueue (joinAll turns) (fun _ t => Tidy t ∧ t.Idle) w := by
  induction turns generalizing w with
  | zero => exact hang_tidy w
  | succ turns ih =>
    apply Always.call tidy_stable hw
    · exact fun _ _ => trivial
    rintro t (_ | result) u ht ⟨hu, -, hjoined⟩
    · obtain ⟨hempty, rfl⟩ : t.running = [] ∧ u = t := hu
      refine .done quiet_stable ⟨ht, ?_⟩ fun _ hv => hv
      rw [Site.Idle, hempty]
      exact fun e he => nomatch he
    · apply bind_tidy (joined_tidy ht hu hjoined)
      rintro (err | _) v ⟨hv, hidle⟩
      · exact .done quiet_stable ⟨hv, hidle err rfl⟩ fun _ hx => hx
      · exact ih hv

lemma afterSelect_tidy (selected : Selected) (hw : Tidy w)
    (hr : ∀ err, selected = .joined (some (.error err)) → w.Idle) :
    KeepsTidy workerQueue (afterSelect selected) Leaves w := by
  rcases selected with isErr | _ | result
  · rw [afterSelect]
    split
    · exact ok_tidy _ hw
    · apply Always.call tidy_stable hw
      · exact fun _ _ => trivial
      rintro t r u ht ⟨⟨-, rfl⟩, -⟩
      exact ok_tidy _ ht
  · exact ok_tidy _ hw
  · apply bind_tidy (reportTaskResult_tidy result hw fun err he => hr err (he ▸ rfl))
    rintro (err | _) v ⟨hv, hidle⟩
    · exact done_tidy hv fun _ _ => hidle err rfl
    · exact ok_tidy _ hv

lemma waitForCapacityOrShutdown_tidy (hw : Tidy w) :
    KeepsTidy workerQueue waitForCapacityOrShutdown Leaves w := by
  apply Always.call tidy_stable hw
  · exact fun _ _ => trivial
  rintro t r u ht ⟨⟨-, rfl⟩, -⟩
  apply Always.call tidy_stable ht
  · exact fun _ _ => trivial
  rintro v selected x hv ⟨hx, -, hjoined⟩
  exact afterSelect_tidy selected (hv.selects hx) fun err he => hjoined err (he ▸ rfl)

lemma waitPollIntervalOrShutdown_tidy (pollInterval : Duration) (hw : Tidy w) :
    KeepsTidy workerQueue (waitPollIntervalOrShutdown pollInterval) Leaves w := by
  apply Always.call tidy_stable hw
  · exact fun _ _ => trivial
  rintro t r u ht ⟨⟨-, rfl⟩, -⟩
  apply Always.call tidy_stable ht
  · exact fun _ _ => trivial
  rintro v (_ | selected) x hv ⟨hx, -, hjoined⟩
  · obtain rfl : x = v := hx
    exact ok_tidy _ hv
  · exact afterSelect_tidy selected (hv.selects hx) fun err he => hjoined err (he ▸ rfl)

lemma spawnAll_tidy (config : TaskExecutionConfig) (tasks : List ClaimedTask) (hw : Tidy w) :
    KeepsTidy workerQueue (spawnAll config tasks) (fun _ => Tidy) w := by
  induction tasks generalizing w with
  | nil => exact .done tidy_stable hw fun _ ht => ht
  | cons task tasks ih =>
    apply Always.call tidy_stable hw
    · exact fun _ _ => trivial
    rintro t r u ht ⟨⟨registry, rfl⟩, -⟩
    apply ih
    refine ⟨?_, ht.joined⟩
    intro e he
    rcases List.mem_append.mp he with hold | hnew
    · exact ht.running e hold
    · obtain rfl := List.mem_singleton.mp hnew
      exact Or.inl rfl

lemma workerLoop_tidy (queueName : String) (hooks : Hooks) (debug : Error → String)
    (options : NormalizedWorkerOptions) (turns : ℕ) (hw : Tidy w) :
    KeepsTidy workerQueue (workerLoop queueName hooks debug options turns)
      (fun _ t => Tidy t ∧ t.Idle) w := by
  induction turns generalizing w with
  | zero => exact hang_tidy w
  | succ turns ih =>
    have hnext : ∀ next, Resumes (workerLoop queueName hooks debug options turns) turns next →
        ∀ r t, Leaves r t → KeepsTidy workerQueue (next r) (fun _ t => Tidy t ∧ t.Idle) t := by
      rintro next hresumes (err | _ | _) t ⟨ht, hidle⟩
      · rw [hresumes.failed]
        exact .done quiet_stable ⟨ht, hidle err rfl⟩ fun _ hu => hu
      · rw [hresumes.again]
        exact ih ht
      · rw [hresumes.shutdown]
        exact joinAll_tidy turns ht
    apply bind_tidy (drainFinished_tidy turns hw)
    rintro (err | _) t ⟨ht, hidle⟩
    · exact .done quiet_stable ⟨ht, hidle err rfl⟩ fun _ hu => hu
    apply Always.call tidy_stable ht
    · exact fun _ _ => trivial
    rintro t signalled u ht ⟨⟨-, rfl⟩, -⟩
    cases signalled with
    | true => exact joinAll_tidy turns ht
    | false =>
      apply Always.call tidy_stable ht
      · exact fun _ _ => trivial
      rintro v len x hv ⟨⟨rfl, rfl⟩, -⟩
      change KeepsTidy workerQueue
        (if options.concurrency - x.running.length = 0 then _ else _) _ x
      split
      · exact bind_tidy (waitForCapacityOrShutdown_tidy hv) (hnext _ ⟨fun _ => rfl, rfl, rfl⟩)
      · apply Always.call tidy_stable hv
        · exact fun _ _ => trivial
        rintro y r z hy ⟨rfl, -⟩
        apply Always.call tidy_stable hy
        · exact fun _ _ => trivial
        rintro a reply b ha ⟨rfl, -⟩
        rcases reply with err | _ | ⟨task, tasks⟩
        · apply bind_tidy (reportWorkerError_tidy _ _ tidy_stable (fun _ ht => ht) ha)
          intro _ c hc
          exact bind_tidy (waitPollIntervalOrShutdown_tidy _ hc) (hnext _ ⟨fun _ => rfl, rfl, rfl⟩)
        · change KeepsTidy workerQueue (waitPollIntervalOrShutdown options.pollInterval >>= _) _ b
          exact bind_tidy (waitPollIntervalOrShutdown_tidy _ ha) (hnext _ ⟨fun _ => rfl, rfl, rfl⟩)
        · apply bind_tidy (spawnAll_tidy _ (task :: tasks) ha)
          exact fun _ c hc => ih hc

end Tidy

section Close

variable {workerQueue queueName : String} {hooks : Hooks} {debug : Error → String}
  {options : NormalizedWorkerOptions} {turns : ℕ} {q : WorkerM (Result Unit)} {w : Site}

/-- When the loop of a worker is gone, and `close` returns, no handler of a task it has claimed is
executing, if none was whenever `on_error` panicked in the loop or the loop joined an outer task
that had panicked. -/
theorem close_drains_undisturbed
    (h : Interleaves (undisturbed queueName) (Progress anyAnswer)
      (workerLoop queueName hooks debug options turns) Site.start q w) (hq : Gone q) :
    ∀ e ∈ w.running ++ w.joined, e.Over := by
  have hstart : Tidy Site.start := ⟨by simp [Site.start], by simp [Site.start]⟩
  have htidy := (workerLoop_tidy queueName hooks debug options turns hstart).interleaves h
  have hgone : Tidy w ∧ w.Idle := by
    rcases hq with ⟨result, rfl⟩ | ⟨text, next, rfl⟩
    · exact htidy w .refl
    · exact (htidy w .refl).1
  intro e he
  rcases List.mem_append.mp he with hrunning | hjoined
  · exact hgone.2 e hrunning
  · exact hgone.1.joined e hjoined

end Close

section Sample

def endless : Registry := fun _ => some ⟨"default", fun _ _ => .call .pending Empty.elim⟩

def dozing : Registry := fun _ =>
  some ⟨"default", fun _ _ => .call (.sleep (Duration.fromSecs 1)) fun _ => .done (.ok .null)⟩

def pairWorker : NormalizedWorkerOptions := { sampleWorker with concurrency := 2 }

def endlessConfig : TaskExecutionConfig :=
  { sampleConfig with debug := fun _ => "error" }

lemma handler_entered : ∃ e, ReflTransGen (Moves anyAnswer)
    (Nested.start "default" (some endless) sampleTask endlessConfig) e ∧ ¬ e.Over := by
  refine ⟨_, .head (@Moves.inner _ _ (.spawnWatchdog _ _ _) _ () trivial rfl)
    (.head (@Moves.inner _ _ (.context .poolGet) _ (Except.ok ()) trivial rfl)
      (.single (@Moves.inner _ _ (.context (.query (.getTaskCheckpointStates _ _ _))) _
        (Except.ok []) trivial rfl))), ?_⟩
  rintro ⟨ending, h⟩
  cases h

lemma handler_returns : ∃ e e', ReflTransGen (Moves anyAnswer)
    (Nested.start "default" (some dozing) sampleTask endlessConfig) e ∧ ¬ e.Over ∧
    ReflTransGen (Moves anyAnswer) e e' ∧ e'.outer = .ended (.ok (.ok ())) := by
  refine ⟨_, _, .head (@Moves.inner _ _ (.spawnWatchdog _ _ _) _ () trivial rfl)
    (.head (@Moves.inner _ _ (.context .poolGet) _ (Except.ok ()) trivial rfl)
      (.single (@Moves.inner _ _ (.context (.query (.getTaskCheckpointStates _ _ _))) _
        (Except.ok []) trivial rfl))), ?_,
    .head (@Moves.inner _ _ (.context (.sleep _)) _ () trivial rfl)
      (.head (@Moves.inner _ _ .abortWatchdog _ () trivial rfl)
        (.head (@Moves.inner _ _ (.getPool _) _ (Except.ok ()) trivial rfl)
          (.head (@Moves.inner _ _ (.settle _) _ (Except.ok ()) trivial rfl)
            (.head (.joins rfl rfl) (.single (.returns rfl)))))), rfl⟩
  rintro ⟨ending, h⟩
  cases h

lemma moves_beside {permits : Permits} {e e' : Nested} (c : ShutdownChannel)
    (h : ReflTransGen (Moves permits) e e') :
    ReflTransGen (Progress permits) ⟨c, [e], []⟩ ⟨c, [e'], []⟩ :=
  h.lift (fun e => (⟨c, [e], []⟩ : Site)) fun e e' h =>
    @Progress.moves _ ⟨c, [e], []⟩ [] [] e e' rfl h

theorem close_drains_running_handler : ∃ q v w,
    Interleaves (undisturbed "default") (Progress anyAnswer)
      (workerLoop "default" ⟨none⟩ (fun _ => "error") sampleWorker 4) Site.start q v ∧
    v.shutdown = true ∧ (∃ e ∈ v.running, ¬ e.Over) ∧
    Interleaves (undisturbed "default") (Progress anyAnswer) q v (.done (.ok ())) w ∧
    w.joined.length = 1 ∧ ∀ e ∈ w.running ++ w.joined, e.Over := by
  obtain ⟨e, e', he, hover, he', hended⟩ := handler_returns
  have hrunning : ∃ next, Interleaves (undisturbed "default") (Progress anyAnswer)
      (workerLoop "default" ⟨none⟩ (fun _ => "error") sampleWorker 4) Site.start
      (.call .borrow next) ⟨⟨true, 1, 0, false⟩, [e], []⟩ ∧
      next true = joinAll 2 := by
    refine ⟨?next, ?_, ?_⟩
    rotate_left
    · apply Interleaves.step (A := WorkerAnswer) (e := .tryJoinNext) (r := none)
      · exact ⟨rfl, nofun, nofun⟩
      apply Interleaves.step (A := WorkerAnswer) (e := .borrow) (r := false)
      · exact ⟨⟨rfl, rfl⟩, nofun, nofun⟩
      apply Interleaves.step (A := WorkerAnswer) (e := .len) (r := (0 : ℕ))
      · exact ⟨⟨rfl, rfl⟩, nofun, nofun⟩
      apply Interleaves.step (A := WorkerAnswer) (e := .claimTasks _ _ _ _) (r := ())
      · exact ⟨rfl, nofun, nofun⟩
      apply Interleaves.step (A := WorkerAnswer) (e := .claimed) (r := .ok [sampleTask])
      · exact ⟨rfl, nofun, nofun⟩
      apply Interleaves.step (A := WorkerAnswer) (e := .spawn _ _) (r := ())
      · exact ⟨⟨some dozing, rfl⟩, nofun, nofun⟩
      apply Interleaves.drifts (moves_beside .start he)
      apply Interleaves.step (A := WorkerAnswer) (e := .tryJoinNext) (r := none)
      · exact ⟨rfl, nofun, nofun⟩
      apply Interleaves.drift (.signals (.signal _ rfl))
      exact .refl _ _
    · rfl
  obtain ⟨next, hrun, hnext⟩ := hrunning
  have hdrained : Interleaves (undisturbed "default") (Progress anyAnswer) (.call .borrow next)
      ⟨⟨true, 1, 0, false⟩, [e], []⟩ (.done (.ok ())) ⟨⟨true, 1, 0, false⟩, [], [e']⟩ := by
    apply Interleaves.step (A := WorkerAnswer) (e := .borrow) (r := true)
    · exact ⟨⟨rfl, rfl⟩, nofun, nofun⟩
    rw [hnext]
    apply Interleaves.drifts (moves_beside _ he')
    apply Interleaves.step (A := WorkerAnswer) (e := .joinNext) (r := some (.ok (.ok ())))
    · exact ⟨⟨[], e', [], rfl, hended, rfl⟩, nofun, nofun⟩
    apply Interleaves.step (A := WorkerAnswer) (e := .joinNext) (r := none)
    · exact ⟨⟨rfl, rfl⟩, nofun, nofun⟩
    exact .refl _ _
  exact ⟨_, _, _, hrun, rfl, ⟨e, List.mem_singleton_self e, hover⟩, hdrained, rfl,
    close_drains_undisturbed (hrun.trans hdrained) (Or.inl ⟨_, rfl⟩)⟩

theorem close_abandons_handler : ∃ q w,
    Interleaves (site "default") (Progress anyAnswer)
      (workerLoop "default" ⟨none⟩ (fun _ => "error") pairWorker 3) Site.start q w ∧
    Gone q ∧ ∃ e ∈ w.running, ¬ e.Over := by
  obtain ⟨e, he, hover⟩ := handler_entered
  have hrun : ∃ next, Interleaves (site "default") (Progress anyAnswer)
      (workerLoop "default" ⟨none⟩ (fun _ => "error") pairWorker 3) Site.start
      (.call (.panic "boom") next) { Site.start with running := [e] } := by
    refine ⟨?next, ?_⟩
    rotate_left
    · apply Interleaves.step (A := WorkerAnswer) (e := .tryJoinNext) (r := none)
      · exact rfl
      apply Interleaves.step (A := WorkerAnswer) (e := .borrow) (r := false)
      · exact ⟨rfl, rfl⟩
      apply Interleaves.step (A := WorkerAnswer) (e := .len) (r := (0 : ℕ))
      · exact ⟨rfl, rfl⟩
      apply Interleaves.step (A := WorkerAnswer) (e := .claimTasks _ _ _ _) (r := ())
      · exact rfl
      apply Interleaves.step (A := WorkerAnswer) (e := .claimed) (r := .ok [sampleTask])
      · exact rfl
      apply Interleaves.step (A := WorkerAnswer) (e := .spawn _ _) (r := ())
      · exact ⟨some endless, rfl⟩
      apply Interleaves.drifts (moves_beside .start he)
      apply Interleaves.step (A := WorkerAnswer) (e := .tryJoinNext) (r := none)
      · exact rfl
      apply Interleaves.step (A := WorkerAnswer) (e := .borrow) (r := false)
      · exact ⟨rfl, rfl⟩
      apply Interleaves.step (A := WorkerAnswer) (e := .len) (r := (1 : ℕ))
      · exact ⟨rfl, rfl⟩
      apply Interleaves.step (A := WorkerAnswer) (e := .claimTasks _ _ _ _) (r := ())
      · exact rfl
      apply Interleaves.step (A := WorkerAnswer) (e := .claimed) (r := .error (.pool "closed"))
      · exact rfl
      apply Interleaves.step (A := WorkerAnswer) (e := .onError _ _) (r := .error "boom")
      · exact rfl
      exact .refl _ _
  obtain ⟨next, hrun⟩ := hrun
  exact ⟨_, _, hrun, Or.inr ⟨"boom", next, rfl⟩, e, List.mem_singleton_self e, hover⟩

end Sample

end AbsurdSdk.Execution
