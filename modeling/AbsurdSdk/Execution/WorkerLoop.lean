import AbsurdSdk.Interaction.Interleaving
import AbsurdSdk.Model.Worker

namespace AbsurdSdk.Execution

open Interaction Model Relation

universe u

/-- The channel that tells the loop to shut down. `version` counts its messages, `seen` is the last
one its receiver has noticed, and `closed` says that the sender is gone. -/
structure ShutdownChannel where
  shutdown : Bool
  version : ℕ
  seen : ℕ
  closed : Bool

namespace ShutdownChannel

def start : ShutdownChannel := ⟨false, 0, 0, false⟩

inductive Signals : ShutdownChannel → ShutdownChannel → Prop
  | signal (c : ShutdownChannel) : c.closed = false →
      Signals c { c with shutdown := true, version := c.version + 1 }
  | drop (c : ShutdownChannel) : c.shutdown = true → Signals c { c with closed := true }

def Changed (c : ShutdownChannel) (isErr : Bool) (c' : ShutdownChannel) : Prop :=
  if c.seen ≠ c.version then isErr = false ∧ c' = { c with seen := c.version }
  else c.closed = true ∧ isErr = true ∧ c' = c

lemma Signals.shutdown {c c' : ShutdownChannel} (h : Signals c c') (hs : c.shutdown = true) :
    c'.shutdown = true := by
  cases h with
  | signal => rfl
  | drop => exact hs

lemma Changed.shutdown {c c' : ShutdownChannel} {isErr : Bool} (h : c.Changed isErr c') :
    c'.shutdown = c.shutdown ∧ c'.closed = c.closed ∧ (isErr = true → c.closed = true) := by
  rw [Changed] at h
  split at h
  · obtain ⟨rfl, rfl⟩ := h
    exact ⟨rfl, rfl, by rintro ⟨⟩⟩
  · obtain ⟨hclosed, -, rfl⟩ := h
    exact ⟨rfl, rfl, fun _ => hclosed⟩

end ShutdownChannel

/-- What the loop shares with its surroundings: the members of its `JoinSet`, of which it takes those
that have ended, the shutdown channel, and what comes of its claims and spawns. -/
structure Surroundings (S M : Type u) where
  running : S → List M
  channel : S → ShutdownChannel
  notices : S → ShutdownChannel → S
  takes : S → Joined → S → Prop
  begins : S → ℕ → S → Prop
  replies : S → Result (List ClaimedTask) → S → Prop
  spawns : S → ClaimedTask → TaskExecutionConfig → S → Prop

namespace Surroundings

variable {S M : Type u} (x : Surroundings S M)

def Selects (join : Bool) (w : S) : Selected → S → Prop
  | .changed isErr, w' => ∃ c, (x.channel w).Changed isErr c ∧ w' = x.notices w c
  | .joined none, w' => join = true ∧ x.running w = [] ∧ w' = w
  | .joined (some result), w' => join = true ∧ x.takes w result w'

def answers : Env WorkerCall WorkerAnswer S := fun w call r w' =>
  match call, r with
  | .tryJoinNext, none => w' = w
  | .tryJoinNext, some result => x.takes w result w'
  | .joinNext, none => x.running w = [] ∧ w' = w
  | .joinNext, some result => x.takes w result w'
  | .borrow, r => r = (x.channel w).shutdown ∧ w' = w
  | .len, r => r = (x.running w).length ∧ w' = w
  | .isEmpty, r => r = (x.running w).isEmpty ∧ w' = w
  | .claimTasks _ _ _ toClaim, _ => x.begins w toClaim w'
  | .claimed, r => x.replies w r w'
  | .spawn task config, _ => x.spawns w task config w'
  | .select join, r => x.Selects join w r w'
  | .selectOrSleep _ _, none => w' = w
  | .selectOrSleep _ join, some r => x.Selects join w r w'
  | .onError _ _, _ => w' = w
  | .panic _, _ => False
  | .pending, _ => False

end Surroundings

structure Member where
  task : ClaimedTask
  ended : Option Joined

/-- A claim, with the size of the `JoinSet` and the state of the shutdown when it was begun. -/
structure Claim where
  toClaim : ℕ
  occupied : ℕ
  afterShutdown : Bool
  reply : Option (Result (List ClaimedTask))

/-- The claims are listed the newest first. -/
structure Worker extends ShutdownChannel where
  running : List Member
  claims : List Claim
  spawned : List ClaimedTask

namespace Worker

def start : Worker := ⟨.start, [], [], []⟩

def claimed (w : Worker) : List ClaimedTask :=
  w.claims.reverse.flatMap fun claim => match claim.reply with
    | some (.ok tasks) => tasks
    | _ => []

def inProgress (w : Worker) : ℕ := w.running.countP fun m => m.ended.isNone

def lateClaims (w : Worker) : ℕ := w.claims.countP fun claim => claim.afterShutdown

end Worker

inductive Happens : Worker → Worker → Prop
  | ends {w : Worker} {before after : List Member} {task : ClaimedTask} (result : Joined) :
      w.running = before ++ ⟨task, none⟩ :: after →
      Happens w { w with running := before ++ ⟨task, some result⟩ :: after }
  | signals {w : Worker} {c : ShutdownChannel} : w.toShutdownChannel.Signals c →
      Happens w { w with toShutdownChannel := c }

def Joins (w : Worker) (result : Joined) (w' : Worker) : Prop :=
  ∃ before task after, w.running = before ++ ⟨task, some result⟩ :: after ∧
    w' = { w with running := before ++ after }

def crew : Surroundings Worker Member where
  running := Worker.running
  channel := Worker.toShutdownChannel
  notices w c := { w with toShutdownChannel := c }
  takes := Joins
  begins w toClaim w' := w' = { w with
    claims := ⟨toClaim, w.running.length, w.shutdown, none⟩ :: w.claims }
  replies w r w' := ∃ claim claims, w.claims = claim :: claims ∧
    (∀ tasks, r = .ok tasks → tasks.length ≤ claim.toClaim) ∧
    w' = { w with claims := { claim with reply := some r } :: claims }
  spawns w task _ w' := w' = { w with
    running := w.running ++ [⟨task, none⟩], spawned := w.spawned ++ [task] }

abbrev Selects := crew.Selects

def tokio : Env WorkerCall WorkerAnswer Worker := crew.answers

section Loop

variable {options : NormalizedWorkerOptions} {pending : List ClaimedTask} {w w' : Worker}
  {α : Type} {turns : ℕ}

structure Sound (options : NormalizedWorkerOptions) (pending : List ClaimedTask) (w : Worker) :
    Prop where
  room : w.running.length + pending.length ≤ options.concurrency
  asked : ∀ claim ∈ w.claims, 1 ≤ claim.toClaim ∧ claim.toClaim ≤
    min (min (options.concurrency - claim.occupied) options.batchSize) (2 ^ 31 - 1)
  spawned : w.claimed = w.spawned ++ pending
  late : w.lateClaims ≤ 1
  signalled : w.lateClaims ≠ 0 → w.shutdown = true

lemma happens_length (h : Happens w w') : w'.running.length = w.running.length := by
  cases h with
  | ends result hw => simp [hw]
  | signals => rfl

lemma happens_claims (h : Happens w w') : w'.claims = w.claims ∧ w'.spawned = w.spawned := by
  cases h with
  | ends => exact ⟨rfl, rfl⟩
  | signals => exact ⟨rfl, rfl⟩

lemma happens_shutdown (h : Happens w w') (hs : w.shutdown = true) : w'.shutdown = true := by
  cases h with
  | ends => exact hs
  | signals hsignals => exact hsignals.shutdown hs

lemma sound_stable (options : NormalizedWorkerOptions) (pending : List ClaimedTask) :
    Stable Happens (Sound options pending) := by
  intro w w' h hw
  obtain ⟨hclaims, hspawned⟩ := happens_claims h
  have hlate : w'.lateClaims = w.lateClaims := by rw [Worker.lateClaims, hclaims, Worker.lateClaims]
  refine ⟨?_, hclaims ▸ hw.asked, ?_, ?_, ?_⟩
  · rw [happens_length h]
    exact hw.room
  · rw [Worker.claimed, hclaims, hspawned]
    exact hw.spawned
  · rw [hlate]
    exact hw.late
  · rw [hlate]
    exact fun hn => happens_shutdown h (hw.signalled hn)

lemma Sound.fewer (h : Sound options [] w) {running : List Member} {c : ShutdownChannel}
    (hlen : running.length ≤ w.running.length) (hshutdown : c.shutdown = w.shutdown) :
    Sound options [] { w with toShutdownChannel := c, running := running } := by
  refine ⟨?_, h.asked, h.spawned, h.late, fun hn => hshutdown.trans (h.signalled hn)⟩
  have hroom := h.room
  simp only [List.length_nil, Nat.add_zero] at hroom ⊢
  omega

lemma Sound.joins {result : Joined} (h : Sound options [] w) (hj : Joins w result w') :
    Sound options [] w' := by
  obtain ⟨before, task, after, hw, rfl⟩ := hj
  exact h.fewer (by simp [hw]) rfl

lemma Sound.selects {join : Bool} {selected : Selected} (h : Sound options [] w)
    (hs : Selects join w selected w') : Sound options [] w' := by
  rcases selected with isErr | _ | result
  · obtain ⟨c, hc, rfl⟩ := hs
    exact h.fewer le_rfl hc.shutdown.1
  · obtain ⟨-, -, rfl⟩ := hs
    exact h
  · exact h.joins hs.2

def Stands (options : NormalizedWorkerOptions) : WorkerCall → Worker → Prop
  | .spawn task _, w => ∃ tasks, Sound options (task :: tasks) w
  | .select join, w => Sound options [] w ∧ join = true ∧ w.running ≠ []
  | _, w => Sound options [] w

lemma stands_pending {call : WorkerCall} (h : Stands options call w) : ∃ pending,
    Sound options pending w ∧
      ∀ task tasks, pending = task :: tasks → ∃ config, call = .spawn task config := by
  cases call with
  | spawn task config =>
    obtain ⟨tasks, htasks⟩ := h
    refine ⟨task :: tasks, htasks, ?_⟩
    rintro _ _ ⟨⟩
    exact ⟨config, rfl⟩
  | select join => exact ⟨[], h.1, by simp⟩
  | _ => exact ⟨[], h, by simp⟩

abbrev KeepsSound (options : NormalizedWorkerOptions) (p : WorkerM α) (w : Worker) : Prop :=
  Always tokio Happens (Stands options) (fun _ => Sound options []) p w

lemma done_sound (a : α) (h : Sound options [] w) : KeepsSound options (.done a) w :=
  Always.done (sound_stable options []) h fun _ ht => ht

lemma bind_sound {β : Type} {p : WorkerM α} {f : α → WorkerM β} (hp : KeepsSound options p w)
    (hf : ∀ a t, Sound options [] t → KeepsSound options (f a) t) :
    KeepsSound options (p >>= f) w :=
  Always.bind hp hf

lemma call_sound {call : WorkerCall} {next : WorkerAnswer call → WorkerM α}
    (h : Sound options [] w) (hhere : ∀ t, Sound options [] t → Stands options call t)
    (hnext : ∀ t r u, Sound options [] t → tokio t call r u → KeepsSound options (next r) u) :
    KeepsSound options (.call call next) w :=
  Always.call (sound_stable options []) h hhere hnext

lemma reportWorkerError_sound (kind : WorkerErrorKind) (err : Error) (h : Sound options [] w) :
    KeepsSound options (reportWorkerError kind err) w := by
  apply call_sound h
  · exact fun _ ht => ht
  rintro t (text | _) u ht rfl
  · apply call_sound ht
    · exact fun _ ht => ht
    exact fun _ r => r.elim
  · exact done_sound _ ht

lemma reportTaskResult_sound (result : Joined) (h : Sound options [] w) :
    KeepsSound options (reportTaskResult result) w := by
  rcases result with err | err | _
  · apply bind_sound (reportWorkerError_sound _ _ h)
    exact fun _ t ht => done_sound _ ht
  · apply bind_sound (reportWorkerError_sound _ _ h)
    exact fun _ t ht => done_sound _ ht
  · exact done_sound _ h

lemma hang_sound (h : Sound options [] w) : KeepsSound options (WorkerM.hang : WorkerM α) w := by
  apply call_sound h
  · exact fun _ ht => ht
  exact fun _ r => r.elim

lemma drainFinished_sound (turns : ℕ) (h : Sound options [] w) :
    KeepsSound options (drainFinished turns) w := by
  induction turns generalizing w with
  | zero => exact hang_sound h
  | succ turns ih =>
    apply call_sound h
    · exact fun _ ht => ht
    rintro t (_ | result) u ht he
    · obtain rfl : u = t := he
      exact done_sound _ ht
    · apply bind_sound (reportTaskResult_sound result (ht.joins he))
      rintro (err | _) v hv
      · exact done_sound _ hv
      · exact ih hv

lemma joinAll_sound (turns : ℕ) (h : Sound options [] w) :
    KeepsSound options (joinAll turns) w := by
  induction turns generalizing w with
  | zero => exact hang_sound h
  | succ turns ih =>
    apply call_sound h
    · exact fun _ ht => ht
    rintro t (_ | result) u ht he
    · obtain ⟨-, rfl⟩ : t.running = [] ∧ u = t := he
      exact done_sound _ ht
    · apply bind_sound (reportTaskResult_sound result (ht.joins he))
      rintro (err | _) v hv
      · exact done_sound _ hv
      · exact ih hv

lemma afterSelect_sound (selected : Selected) (h : Sound options [] w) :
    KeepsSound options (afterSelect selected) w := by
  rcases selected with isErr | _ | result
  · rw [afterSelect]
    split
    · exact done_sound _ h
    · apply call_sound h
      · exact fun _ ht => ht
      rintro t r u ht ⟨-, rfl⟩
      exact done_sound _ ht
  · exact done_sound _ h
  · apply bind_sound (reportTaskResult_sound result h)
    rintro (err | _) v hv
    · exact done_sound _ hv
    · exact done_sound _ hv

lemma waitForCapacityOrShutdown_sound (h : Sound options [] w) (hne : w.running ≠ []) :
    KeepsSound options waitForCapacityOrShutdown w := by
  have hstable : Stable Happens fun t => Sound options [] t ∧ t.running ≠ [] := by
    intro t u hu ht
    refine ⟨sound_stable options [] t u hu ht.1, ?_⟩
    have hlen := happens_length hu
    intro hnil
    rw [hnil, List.length_nil, eq_comm, List.length_eq_zero_iff] at hlen
    exact ht.2 hlen
  apply Always.call hstable ⟨h, hne⟩
  · exact fun t ht => ht.1
  rintro t r u ht ⟨rfl, rfl⟩
  have hjoin : (!u.running.isEmpty) = true := by simpa using ht.2
  apply Always.call hstable ht
  · exact fun v hv => ⟨hv.1, hjoin, hv.2⟩
  intro v selected x hv hx
  exact afterSelect_sound selected (hv.1.selects hx)

lemma waitPollIntervalOrShutdown_sound (pollInterval : Duration) (h : Sound options [] w) :
    KeepsSound options (waitPollIntervalOrShutdown pollInterval) w := by
  apply call_sound h
  · exact fun _ ht => ht
  rintro t r u ht ⟨rfl, rfl⟩
  apply call_sound ht
  · exact fun _ hv => hv
  rintro v (_ | selected) x hv hx
  · obtain rfl : x = v := hx
    exact done_sound _ hv
  · exact afterSelect_sound selected (hv.selects hx)

lemma spawnAll_sound (config : TaskExecutionConfig) {tasks : List ClaimedTask}
    (h : Sound options tasks w) : KeepsSound options (spawnAll config tasks) w := by
  induction tasks generalizing w with
  | nil => exact done_sound _ h
  | cons task tasks ih =>
    apply Always.call (sound_stable options (task :: tasks)) h
    · exact fun t ht => ⟨tasks, ht⟩
    rintro t r u ht rfl
    apply ih
    refine ⟨?_, ht.asked, ?_, ht.late, ht.signalled⟩
    · have hroom := ht.room
      simp only [List.length_cons, List.length_append, List.length_nil] at hroom ⊢
      omega
    · have hspawned := ht.spawned
      simpa [Worker.claimed] using hspawned

def Claiming (options : NormalizedWorkerOptions) (w : Worker) : Prop :=
  Sound options [] w ∧ ∃ claim claims, w.claims = claim :: claims ∧ claim.reply = none ∧
    w.running.length + claim.toClaim ≤ options.concurrency

lemma claiming_stable (options : NormalizedWorkerOptions) :
    Stable Happens (Claiming options) := by
  rintro w w' h ⟨hw, claim, claims, hclaims, hreply, hroom⟩
  refine ⟨sound_stable options [] w w' h hw, claim, claims, ?_, hreply, ?_⟩
  · rw [(happens_claims h).1, hclaims]
  · rw [happens_length h]
    exact hroom

lemma Sound.begins {toClaim : ℕ} (h : Sound options [] w) (hlate : w.lateClaims = 0)
    (hone : 1 ≤ toClaim) (hmax : toClaim ≤
      min (min (options.concurrency - w.running.length) options.batchSize) (2 ^ 31 - 1)) :
    Claiming options
      { w with claims := ⟨toClaim, w.running.length, w.shutdown, none⟩ :: w.claims } := by
  have hle : Worker.lateClaims { w with
      claims := ⟨toClaim, w.running.length, w.shutdown, none⟩ :: w.claims } =
        if w.shutdown = true then 1 else 0 := by
    have hcount : List.countP (fun claim : Claim => claim.afterShutdown) w.claims = 0 := hlate
    simp [Worker.lateClaims, List.countP_cons, hcount]
  refine ⟨⟨h.room, ?_, ?_, ?_, ?_⟩, _, _, rfl, rfl, ?_⟩
  · intro claim hmem
    rcases List.mem_cons.mp hmem with rfl | hmem
    · exact ⟨hone, hmax⟩
    · exact h.asked claim hmem
  · have hspawned := h.spawned
    simpa [Worker.claimed] using hspawned
  · rw [hle]
    split <;> omega
  · rw [hle]
    split
    · exact fun _ => ‹_›
    · exact fun hn => absurd rfl hn
  · have hroom := h.room
    simp only [List.length_nil, Nat.add_zero] at hroom
    simp only
    omega

lemma Claiming.replies {reply : Result (List ClaimedTask)} (h : Claiming options w)
    (he : tokio w .claimed reply w') :
    (∀ err, reply = .error err → Sound options [] w') ∧
      ∀ tasks, reply = .ok tasks → Sound options tasks w' := by
  obtain ⟨hw, claim, claims, hclaims, hreply, hroom⟩ := h
  obtain ⟨claim', claims', hclaims', hlen, rfl⟩ := he
  rw [hclaims] at hclaims'
  obtain ⟨rfl, rfl⟩ := List.cons.inj hclaims'
  have hasked : ∀ c ∈ ({ claim with reply := some reply } :: claims : List Claim),
      1 ≤ c.toClaim ∧ c.toClaim ≤
        min (min (options.concurrency - c.occupied) options.batchSize) (2 ^ 31 - 1) := by
    intro c hc
    rcases List.mem_cons.mp hc with rfl | hc
    · exact hw.asked claim (hclaims ▸ List.mem_cons_self)
    · exact hw.asked c (hclaims ▸ List.mem_cons_of_mem _ hc)
  have hlate : Worker.lateClaims { w with claims := { claim with reply := some reply } :: claims } =
      w.lateClaims := by
    simp [Worker.lateClaims, hclaims, List.countP_cons]
  have hspawned := hw.spawned
  simp only [Worker.claimed, hclaims, hreply, List.reverse_cons, List.flatMap_append,
    List.flatMap_singleton, List.append_nil] at hspawned
  constructor
  · rintro err rfl
    refine ⟨hw.room, hasked, ?_, hlate ▸ hw.late, hlate ▸ hw.signalled⟩
    simpa [Worker.claimed] using hspawned
  · rintro tasks rfl
    refine ⟨?_, hasked, ?_, hlate ▸ hw.late, hlate ▸ hw.signalled⟩
    · have htasks := hlen tasks rfl
      simp only
      omega
    · simp [Worker.claimed, hspawned]

lemma unsignalled_stable (options : NormalizedWorkerOptions) :
    Stable Happens fun w => Sound options [] w ∧ w.lateClaims = 0 := by
  rintro w w' h ⟨hw, hlate⟩
  refine ⟨sound_stable options [] w w' h hw, ?_⟩
  rw [Worker.lateClaims, (happens_claims h).1]
  exact hlate

lemma counted_stable (options : NormalizedWorkerOptions) (len : ℕ) :
    Stable Happens fun w => (Sound options [] w ∧ w.lateClaims = 0) ∧ w.running.length = len :=
  fun w w' h hw => ⟨unsignalled_stable options w w' h hw.1, (happens_length h).trans hw.2⟩

structure Resumes (loop : WorkerM (Result Unit)) (turns : ℕ)
    (next : Result Bool → WorkerM (Result Unit)) : Prop where
  failed : ∀ err, next (.error err) = .done (.error err)
  shutdown : next (.ok true) = joinAll turns
  again : next (.ok false) = loop

lemma workerLoop_sound (queueName : String) (hooks : Hooks) (debug : Error → String)
    (hconcurrency : 1 ≤ options.concurrency) (hbatch : 1 ≤ options.batchSize) (turns : ℕ)
    (h : Sound options [] w) :
    KeepsSound options (workerLoop queueName hooks debug options turns) w := by
  induction turns generalizing w with
  | zero => exact hang_sound h
  | succ turns ih =>
    have hnext : ∀ next, Resumes (workerLoop queueName hooks debug options turns) turns next →
        ∀ r t, Sound options [] t → KeepsSound options (next r) t := by
      rintro next hresumes (err | _ | _) t ht
      · rw [hresumes.failed]
        exact done_sound _ ht
      · rw [hresumes.again]
        exact ih ht
      · rw [hresumes.shutdown]
        exact joinAll_sound turns ht
    apply bind_sound (drainFinished_sound turns h)
    rintro (err | _) t ht
    · exact done_sound _ ht
    apply call_sound ht
    · exact fun _ hu => hu
    rintro t signalled u ht ⟨hsignalled, rfl⟩
    cases signalled with
    | true => exact joinAll_sound turns ht
    | false =>
      have hlate : u.lateClaims = 0 := by
        by_contra hn
        have hunsignalled : false = u.shutdown := hsignalled
        rw [ht.signalled hn] at hunsignalled
        cases hunsignalled
      apply Always.call (unsignalled_stable options) ⟨ht, hlate⟩
      · exact fun _ hv => hv.1
      rintro v len x hv ⟨hlen, rfl⟩
      obtain rfl : len = x.running.length := hlen
      change KeepsSound options (if options.concurrency - x.running.length = 0 then _ else _) x
      split
      · rename_i hfull
        apply bind_sound
        · apply waitForCapacityOrShutdown_sound hv.1
          intro hnil
          simp only [hnil, List.length_nil] at hfull
          omega
        · exact hnext _ ⟨fun _ => rfl, rfl, rfl⟩
      · rename_i hroom
        apply Always.call (counted_stable options x.running.length) ⟨hv, rfl⟩
        · exact fun _ hy => hy.1.1
        rintro y r z ⟨hy, hlen⟩ rfl
        apply Always.call (claiming_stable options)
        · apply hy.1.begins hy.2
          · omega
          · rw [hlen]
        · exact fun _ hz => hz.1
        intro z reply z' hz he
        obtain ⟨herror, htasks⟩ := hz.replies he
        rcases reply with err | _ | ⟨task, tasks⟩
        · apply bind_sound (reportWorkerError_sound _ _ (herror err rfl))
          intro _ a ha
          exact bind_sound (waitPollIntervalOrShutdown_sound _ ha) (hnext _ ⟨fun _ => rfl, rfl, rfl⟩)
        · change KeepsSound options (waitPollIntervalOrShutdown options.pollInterval >>= _) z'
          exact bind_sound (waitPollIntervalOrShutdown_sound _ (htasks [] rfl))
            (hnext _ ⟨fun _ => rfl, rfl, rfl⟩)
        · apply bind_sound (spawnAll_sound _ (htasks (task :: tasks) rfl))
          exact fun _ a ha => ih ha

lemma start_sound (options : NormalizedWorkerOptions) : Sound options [] Worker.start :=
  ⟨Nat.zero_le _, by simp [Worker.start], rfl, Nat.zero_le _, fun h => absurd rfl h⟩

lemma normalized_positive {workerOptions : WorkerOptions} {defaultWorkerId : String}
    (h : workerOptions.normalized defaultWorkerId = .ok options) :
    1 ≤ options.concurrency ∧ 1 ≤ options.batchSize := by
  simp only [WorkerOptions.normalized] at h
  split at h
  · cases h
  · split at h
    · cases h
    · cases h
      exact ⟨le_max_right _ _, le_max_right _ _⟩

/-- In every interleaving of the loop with its executions, claims and a shutdown: the executions in
progress never exceed the concurrency; a claim asks for at least one task and for no more than there
is room for; the tasks of the replies are those spawned, in order, up to those the loop is about to
spawn; at most one claim is begun after the shutdown; and the loop waits for capacity only while
some execution can end. -/
theorem worker_loop_safe {workerOptions : WorkerOptions} {defaultWorkerId queueName : String}
    {hooks : Hooks} {debug : Error → String} {q : WorkerM (Result Unit)}
    (hoptions : workerOptions.normalized defaultWorkerId = .ok options)
    (h : Interleaves tokio Happens (workerLoop queueName hooks debug options turns) Worker.start
      q w) :
    w.inProgress ≤ options.concurrency ∧
    (∀ claim ∈ w.claims, 1 ≤ claim.toClaim ∧ claim.toClaim ≤
      min (min (options.concurrency - claim.occupied) options.batchSize) (2 ^ 31 - 1)) ∧
    (∃ pending, w.claimed = w.spawned ++ pending ∧ ∀ task tasks, pending = task :: tasks →
      ∃ config next, q = .call (.spawn task config) next) ∧
    w.lateClaims ≤ 1 ∧
    ∀ join next, q = .call (.select join) next → join = true ∧ w.running ≠ [] := by
  obtain ⟨hconcurrency, hbatch⟩ := normalized_positive hoptions
  have hsound := (workerLoop_sound queueName hooks debug hconcurrency hbatch turns
    (start_sound options)).interleaves h
  obtain ⟨pending, hpending, hspawn⟩ : ∃ pending, Sound options pending w ∧
      ∀ task tasks, pending = task :: tasks → ∃ config next, q = .call (.spawn task config) next := by
    cases q with
    | done a => exact ⟨[], hsound w .refl, by simp⟩
    | call call next =>
      obtain ⟨pending, hpending, hspawn⟩ := stands_pending (hsound w .refl).1
      refine ⟨pending, hpending, ?_⟩
      intro task tasks he
      obtain ⟨config, rfl⟩ := hspawn task tasks he
      exact ⟨config, next, rfl⟩
  have hselect : ∀ join next, q = .call (.select join) next → join = true ∧ w.running ≠ [] := by
    rintro join next rfl
    exact (hsound w .refl).1.2
  have hroom := hpending.room
  have hcount : w.inProgress ≤ w.running.length := List.countP_le_length
  refine ⟨by omega, hpending.asked, ⟨pending, hpending.spawned, hspawn⟩, hpending.late, hselect⟩

end Loop

section Sample

def sampleWorker : NormalizedWorkerOptions where
  workerId := "worker"
  claimTimeout := Duration.fromSecs 120
  claimTimeoutSeconds := durationSecondsCeil (Duration.fromSecs 120)
  concurrency := 1
  batchSize := 1
  pollInterval := Duration.fromMillis 250
  unknownTaskPolicy := .defer
  fatalOnLeaseTimeout := true

lemma sampleWorker_normalized : WorkerOptions.default.normalized "worker" = .ok sampleWorker := by
  have hclaim : (Duration.fromSecs 120).isZero = false := by decide +kernel
  have hpoll : (Duration.fromMillis 250).isZero = false := by decide +kernel
  simp [WorkerOptions.normalized, WorkerOptions.default, sampleWorker, hclaim, hpoll]

def sampleState : Worker where
  running := [⟨sampleTask, none⟩]
  shutdown := true
  version := 1
  seen := 0
  closed := false
  claims := [⟨1, 0, false, some (.ok [sampleTask])⟩]
  spawned := [sampleTask]

lemma sample_interleaves (debug : Error → String) : ∃ q,
    Interleaves tokio Happens (workerLoop "default" ⟨none⟩ debug sampleWorker 2) Worker.start q
      sampleState := by
  refine ⟨?q, ?_⟩
  rotate_left
  · apply Interleaves.step (A := WorkerAnswer) (e := .tryJoinNext) (r := none)
    · exact rfl
    apply Interleaves.step (A := WorkerAnswer) (e := .borrow) (r := false)
    · exact ⟨rfl, rfl⟩
    apply Interleaves.step (A := WorkerAnswer) (e := .len) (r := (0 : ℕ))
    · exact ⟨rfl, rfl⟩
    apply Interleaves.step (A := WorkerAnswer) (e := .claimTasks _ _ _ _) (r := ())
    · exact rfl
    apply Interleaves.drift (.signals (.signal _ rfl))
    apply Interleaves.step (A := WorkerAnswer) (e := .claimed) (r := .ok [sampleTask])
    · refine ⟨_, _, rfl, ?_, rfl⟩
      rintro tasks ⟨⟩
      exact le_rfl
    apply Interleaves.step (A := WorkerAnswer) (e := .spawn _ _) (r := ())
    · exact rfl
    exact .refl _ _

theorem worker_loop_safe_sample : ∃ q,
    Interleaves tokio Happens
      (workerLoop "default" ⟨none⟩ (fun _ => "error") sampleWorker 2) Worker.start q sampleState ∧
    sampleState.inProgress ≤ 1 ∧
    (∃ pending, sampleState.claimed = sampleState.spawned ++ pending) ∧
    sampleState.lateClaims ≤ 1 := by
  obtain ⟨q, hq⟩ := sample_interleaves fun _ => "error"
  obtain ⟨hrunning, -, ⟨pending, hpending, -⟩, hlate, -⟩ :=
    worker_loop_safe sampleWorker_normalized hq
  exact ⟨q, hq, hrunning, ⟨pending, hpending⟩, hlate⟩

end Sample

end AbsurdSdk.Execution
