import AbsurdSdk.Interaction.Interleaving
import AbsurdSdk.Waiting.ResultWait

namespace AbsurdSdk.Waiting

open Interaction Model

inductive Seen
  | fetched (row : Except PgError (Option (String × Option Json × Option Json)))
  | slept (d : Duration)

/-- What a wait did, from when to when. -/
structure Sight where
  began : ℕ
  ended : ℕ
  seen : Seen

def sighted (began ended : ℕ) : (call : Call) → Answer call → List Sight
  | .query (.getTaskResult _ _), r => [⟨began, ended, .fetched r⟩]
  | .sleep d, _ => [⟨began, ended, .slept d⟩]
  | _, _ => []

/-- The time, at which a heartbeat can still be set an interval ahead, and what a wait has fetched
and slept so far. -/
structure Watch (interval : Duration) where
  now : ℕ
  ahead : now + interval.nanos < instantEnd
  sights : List Sight

section Watch

variable {interval : Duration}

def watched : Env Call Answer (Watch interval) := fun s call r t =>
  clocked s.now call r t.now ∧ t.sights = sighted s.now t.now call r ++ s.sights

def elapses (s t : Watch interval) : Prop := s.now ≤ t.now ∧ t.sights = s.sights

end Watch

variable {interval : Duration}

abbrev Watches {α : Type} (p : Process α) (s : Watch interval) (q : Process α)
    (t : Watch interval) : Prop :=
  Interleaves watched elapses p s q t

variable {α β B C : Type} {s t : Watch interval}

namespace Watches

lemma bind_cases {x : Async α} {f : α → Async β} {r : Result β}
    (h : Watches (x >>= f).run s (.done r) t) :
    (∃ a u, Watches x.run s (.done (.ok a)) u ∧ Watches (f a).run u (.done r) t) ∨
      ∃ err, r = .error err ∧ Watches x.run s (.done (.error err)) t := by
  obtain ⟨a, u, hx, hf⟩ := Interleaves.bind_done h
  cases a with
  | ok a => exact .inl ⟨a, u, hx, hf⟩
  | error err =>
    obtain ⟨hr, hdrifts⟩ := hf.done_cases
    cases hr
    exact .inr ⟨err, rfl, hx.trans (.of_drifts _ hdrifts)⟩

lemma bind_ok {x : Async α} {f : α → Async β} {a : α} {u : Watch interval} {q : Process (Result β)}
    (hx : Watches x.run s (.done (.ok a)) u) (hf : Watches (f a).run u q t) :
    Watches (x >>= f).run s q t :=
  Interleaves.then_bind hx hf

lemma bind_error {x : Async α} {f : α → Async β} {err : Error}
    (hx : Watches x.run s (.done (.error err)) t) :
    Watches (x >>= f).run s (.done (.error err)) t :=
  Interleaves.then_bind hx (.refl _ _)

lemma ofResult_cases {r r' : Result α} (h : Watches (Async.ofResult r).run s (.done r') t) :
    r' = r ∧ ∀ r'' : Result β, Watches (.done r'') s (.done r'') t := by
  obtain ⟨hr, hdrifts⟩ := Interleaves.done_cases h
  cases hr
  exact ⟨rfl, fun _ => .of_drifts _ hdrifts⟩

lemma not_hang {r : Result α} : ¬ Watches (Async.hang : Async α).run s (.done r) t := by
  intro h
  generalize hp : (Async.hang : Async α).run = p at h
  generalize hq : (Program.done r : Process (Result α)) = q at h
  induction h with
  | refl =>
    subst hq
    cases hp
  | @step e next answer s t u q he hrest ih =>
    obtain ⟨rfl, -⟩ := Program.call.inj hp
    exact Empty.elim answer
  | drift _ _ ih => exact ih hp hq

end Watches

/-- Whatever `x` does, `y` can let pass, unless `x` fails with an error of `fails`. -/
def Covers (interval : Duration) (x : B → Async B) (y : C → Async C) (fails : Error → Prop) :
    Prop :=
  ∀ b c (s : Watch interval) r t, Watches (x b).run s (.done r) t →
    (∃ c', Watches (y c).run s (.done (.ok c')) t) ∧ ∀ err, r = .error err → fails err

section Loop

variable {fetchSnapshot : Async (Option TaskResultSnapshot)} {taskId : Uuid}
  {timeout : Option Duration} {x : B → Async B} {y : C → Async C} {fails : Error → Prop}
  {startedAt : ℕ} {delay : Duration} {b : B} {c : C}

def Answers (fails : Error → Prop) :
    Result (TaskResultSnapshot ⊕ Duration × B) → Result (TaskResultSnapshot ⊕ Duration × C) → Prop
  | .ok (.inl snapshot), r => r = .ok (.inl snapshot)
  | .ok (.inr (sleepFor, _)), r => ∃ c, r = .ok (.inr (sleepFor, c))
  | .error err, r => r = .error err ∨ fails err ∧ ∃ sleepFor c, r = .ok (.inr (sleepFor, c))

lemma turn_covers (hxy : Covers interval x y fails) {r : Result (TaskResultSnapshot ⊕ Duration × B)}
    (h : Watches (turn fetchSnapshot taskId timeout x startedAt delay b).run s (.done r) t) :
    ∃ r', Watches (turn fetchSnapshot taskId timeout y startedAt delay c).run s (.done r') t ∧
      Answers fails r r' := by
  obtain ⟨snapshot, u, hfetch, hrest⟩ | ⟨err, rfl, hfetch⟩ := Watches.bind_cases h
  · cases snapshot with
    | none =>
      obtain ⟨rfl, hdone⟩ := Watches.ofResult_cases hrest
      exact ⟨.error (.taskNotFound taskId), hfetch.bind_ok (hdone _), .inl rfl⟩
    | some snapshot =>
      dsimp only at hrest
      by_cases hterminal : snapshot.isTerminal
      · rw [if_pos hterminal] at hrest
        obtain ⟨rfl, hdone⟩ := Watches.ofResult_cases hrest
        refine ⟨.ok (.inl snapshot), hfetch.bind_ok ?_, rfl⟩
        dsimp only
        rw [if_pos hterminal]
        exact hdone _
      · rw [if_neg hterminal] at hrest
        have hturn {r' : Result (TaskResultSnapshot ⊕ Duration × C)} {q : Watch interval}
            (hafter : Watches (do
              let sleepFor ← nextSleepDuration startedAt timeout delay taskId
              let c ← y c
              return .inr (sleepFor, c) : Async (TaskResultSnapshot ⊕ Duration × C)).run u
                (.done r') q) :
            Watches (turn fetchSnapshot taskId timeout y startedAt delay c).run s (.done r') q := by
          apply hfetch.bind_ok
          dsimp only
          rw [if_neg hterminal]
          exact hafter
        obtain ⟨sleepFor, v, hnext, hrest⟩ | ⟨err, rfl, hnext⟩ := Watches.bind_cases hrest
        · obtain ⟨b', w, hx, hreturn⟩ | ⟨err, rfl, hx⟩ := Watches.bind_cases hrest
          · obtain ⟨⟨c', hy⟩, -⟩ := hxy b c v _ w hx
            obtain ⟨rfl, hdone⟩ := Watches.ofResult_cases hreturn
            exact ⟨_, hturn (hnext.bind_ok (hy.bind_ok (hdone _))), c', rfl⟩
          · obtain ⟨⟨c', hy⟩, hfails⟩ := hxy b c v _ t hx
            exact ⟨_, hturn (hnext.bind_ok (hy.bind_ok (.refl _ _))),
              .inr ⟨hfails err rfl, sleepFor, c', rfl⟩⟩
        · exact ⟨.error err, hturn hnext.bind_error, .inl rfl⟩
  · exact ⟨.error err, hfetch.bind_error, .inl rfl⟩

lemma loop_covers (hxy : Covers interval x y fails) (turns : ℕ) {r : Result TaskResultSnapshot}
    (h : Watches (backoffLoop fetchSnapshot taskId timeout x startedAt turns delay b).run s
      (.done r) t) :
    Watches (backoffLoop fetchSnapshot taskId timeout y startedAt turns delay c).run s
        (.done r) t ∨
      ∃ err sleepFor next, r = .error err ∧ fails err ∧
        Watches (backoffLoop fetchSnapshot taskId timeout y startedAt turns delay c).run s
          (.call (.sleep sleepFor) next) t := by
  induction turns generalizing delay b c s with
  | zero => exact absurd h Watches.not_hang
  | succ turns ih =>
    rw [backoffLoop_succ] at h ⊢
    obtain ⟨a, u, hturn, hafter⟩ | ⟨err, rfl, hturn⟩ := Watches.bind_cases h
    · obtain ⟨r', hturn', hanswers⟩ := turn_covers (c := c) hxy hturn
      rcases a with snapshot | ⟨sleepFor, b'⟩
      · obtain rfl : r' = .ok (.inl snapshot) := hanswers
        obtain ⟨rfl, hdone⟩ := Watches.ofResult_cases hafter
        exact .inl (hturn'.bind_ok (hdone _))
      · obtain ⟨c', rfl⟩ := hanswers
        obtain ⟨_, v, hsleep, hloop⟩ | ⟨err, rfl, hsleep⟩ := Watches.bind_cases hafter
        · rcases ih (c := c') hloop with hloop' | ⟨err, d, next, rfl, hfails, hcut⟩
          · exact .inl (hturn'.bind_ok (hsleep.bind_ok hloop'))
          · exact .inr ⟨err, d, next, rfl, hfails, hturn'.bind_ok (hsleep.bind_ok hcut)⟩
        · exact .inl (hturn'.bind_ok hsleep.bind_error)
    · obtain ⟨r', hturn', rfl | ⟨hfails, sleepFor, c', rfl⟩⟩ := turn_covers (c := c) hxy hturn
      · exact .inl hturn'.bind_error
      · exact .inr ⟨err, sleepFor, _, rfl, hfails, hturn'.bind_ok (.refl _ _)⟩

end Loop

def Unseen (call : Call) : Prop := ∀ began ended r, sighted began ended call r = []

lemma Watches.unseen {p : Process α} {post : α → Prop} {a : α}
    (hp : p.Yields (fun _ _ => True) Unseen post) (h : Watches p s (.done a) t) :
    elapses s t ∧ post a := by
  generalize hq : (Program.done a : Process α) = q at h
  induction h with
  | refl =>
    subst hq
    exact ⟨⟨le_rfl, rfl⟩, hp⟩
  | @step e next r s t u q he _ ih =>
    obtain ⟨⟨hle, hlog⟩, hpost⟩ := ih (hp.2 r trivial) hq
    refine ⟨⟨he.1.1.trans hle, ?_⟩, hpost⟩
    rw [hlog, he.2, hp.1 _ _ r]
    rfl
  | drift hd _ ih =>
    obtain ⟨⟨hle, hlog⟩, hpost⟩ := ih hp hq
    exact ⟨⟨hd.1.trans hle, hlog.trans hd.2⟩, hpost⟩

def Refusal (err : Error) : Prop :=
  (∃ text, err = .pool text) ∨ ∃ refusal, err = mapDatabaseError refusal

abbrev Refused (r : Result α) : Prop := ∀ err, r = .error err → Refusal err

abbrev Discreet (x : Async α) : Prop :=
  x.run.Yields (fun _ _ => True) Unseen Refused

namespace Discreet

lemma bind {x : Async α} {f : α → Async β} (hx : Discreet x) (hf : ∀ a, Discreet (f a)) :
    Discreet (x >>= f) := by
  apply Program.Yields.bind hx
  intro r hr
  cases r with
  | error err =>
    intro err' he
    cases he
    exact hr err rfl
  | ok a => exact hf a

lemma pure (a : α) : Discreet (pure a) := by
  intro err he
  cases he

lemma now : Discreet Async.now := by
  refine ⟨fun _ _ _ => rfl, fun r _ err he => ?_⟩
  cases he

lemma sendLease (d : Duration) : Discreet (Async.sendLease d) := by
  refine ⟨fun _ _ _ => rfl, fun r _ err he => ?_⟩
  cases he

lemma query (statement : Statement α) (h : Unseen (.query statement)) :
    Discreet (Async.query statement) := by
  refine ⟨fun _ _ _ => rfl, fun r _ => ?_⟩
  cases r with
  | error text =>
    intro err he
    cases he
    exact .inl ⟨text, rfl⟩
  | ok _ =>
    refine ⟨h, fun r _ err he => ?_⟩
    cases r with
    | error refusal =>
      cases he
      exact .inr ⟨refusal, rfl⟩
    | ok _ => cases he

end Discreet

section Heartbeat

variable {ctx : TaskContext}

lemma heartbeat_discreet (next : Instant) :
    Discreet (TaskContext.heartbeatBeforeSleep ctx interval next) := by
  apply Discreet.bind .now
  intro now
  dsimp only
  split
  · apply Discreet.bind .now
    intro now
    apply Discreet.bind (.query _ fun _ _ _ => rfl)
    intro _
    split
    · exact .bind (.sendLease _) fun _ => .pure _
    · exact .pure _
  · exact .pure _

lemma Watches.instant {e : Call} {next : Answer e → Process α} {q : Process α} (r : Answer e)
    (he : watched s e r s) (h : Watches (next r) s q t) : Watches (.call e next) s q t :=
  .step he h

lemma now_instant (s : Watch interval) : Watches Async.now.run s (.done (.ok s.now)) s :=
  .step ⟨⟨le_rfl, le_rfl, le_rfl⟩, rfl⟩ (.refl _ _)

lemma sendLease_instant (d : Duration) (s : Watch interval) :
    Watches (Async.sendLease d).run s (.done (.ok ())) s :=
  Watches.instant () ⟨⟨le_rfl, trivial⟩, rfl⟩ (.refl _ _)

lemma extendClaim_instant (queueName : String) (runId : Uuid) (d : Duration) (s : Watch interval) :
    Watches (extendClaim queueName runId d).run s (.done (.ok ())) s := by
  refine Watches.instant (Except.ok ()) ⟨⟨le_rfl, trivial⟩, rfl⟩ ?_
  exact Watches.instant (Except.ok ()) ⟨⟨le_rfl, trivial⟩, rfl⟩ (.refl _ _)

lemma heartbeat_instant (ctx : TaskContext) (next : Instant) (s : Watch interval) :
    ∃ next', Watches (TaskContext.heartbeatBeforeSleep ctx interval next).run s
      (.done (.ok next')) s := by
  by_cases hdue : next ≤ s.now
  · refine ⟨s.now + interval.nanos, (now_instant s).bind_ok ?_⟩
    dsimp only
    rw [if_pos hdue]
    apply (now_instant s).bind_ok
    apply (extendClaim_instant _ _ _ s).bind_ok
    by_cases hlease : ctx.leaseTx
    · rw [if_pos hlease]
      exact (sendLease_instant _ s).bind_ok (.refl _ _)
    · rw [if_neg hlease]
      exact .refl _ _
  · refine ⟨next, (now_instant s).bind_ok ?_⟩
    dsimp only
    rw [if_neg hdue]
    exact .refl _ _

lemma heartbeat_covers :
    Covers interval (TaskContext.heartbeatBeforeSleep ctx interval) (fun b : Unit => pure b)
      Refusal := by
  intro b c s r t h
  obtain ⟨helapses, hrefused⟩ := Watches.unseen (heartbeat_discreet b) h
  exact ⟨⟨c, .drift helapses (.refl _ _)⟩, hrefused⟩

lemma covers_heartbeat :
    Covers interval (fun b : Unit => pure b) (TaskContext.heartbeatBeforeSleep ctx interval)
      fun _ => False := by
  intro b next s r t h
  obtain ⟨hr, hdrifts⟩ := Interleaves.done_cases h
  cases hr
  obtain ⟨next', hbeat⟩ := heartbeat_instant ctx next t
  refine ⟨⟨next', .drifts hdrifts hbeat⟩, ?_⟩
  intro err he
  cases he

/-- A task that waits for the result of another one sees and returns what a client may see and
return, and the other way round; or one of its heartbeats is refused, and it returns that error
where the client goes on to sleep. -/
theorem task_waits_like_client (queueName : String) (taskId : Uuid) (timeout : Option Duration)
    (turns : ℕ) (next : Instant) (s t : Watch interval) (r : Result TaskResultSnapshot) :
    let fetch := fetchTaskResultSnapshot queueName taskId
    let task := awaitTaskResultWithBackoff fetch taskId timeout
      (TaskContext.heartbeatBeforeSleep ctx interval) turns next
    let client := awaitTaskResultWithBackoff fetch taskId timeout (fun b : Unit => pure b) turns ()
    (Watches client.run s (.done r) t → Watches task.run s (.done r) t) ∧
      (Watches task.run s (.done r) t → Watches client.run s (.done r) t ∨
        ∃ err sleepFor next, r = .error err ∧ Refusal err ∧
          Watches client.run s (.call (.sleep sleepFor) next) t) := by
  intro fetch task client
  constructor
  · intro h
    obtain ⟨startedAt, u, hnow, hloop⟩ | ⟨err, rfl, hnow⟩ := Watches.bind_cases h
    · rcases loop_covers (c := next) covers_heartbeat turns hloop with hloop | ⟨_, _, _, _, h, _⟩
      · exact hnow.bind_ok hloop
      · exact h.elim
    · exact hnow.bind_error
  · intro h
    obtain ⟨startedAt, u, hnow, hloop⟩ | ⟨err, rfl, hnow⟩ := Watches.bind_cases h
    · rcases loop_covers (c := ()) heartbeat_covers turns hloop with hloop | hcut
      · exact .inl (hnow.bind_ok hloop)
      · obtain ⟨err, sleepFor, next, rfl, hrefusal, hcut⟩ := hcut
        exact .inr ⟨err, sleepFor, next, rfl, hrefusal, hnow.bind_ok hcut⟩
    · exact .inl hnow.bind_error

end Heartbeat

end AbsurdSdk.Waiting
