import AbsurdSdk.Model.Rules

namespace AbsurdSdk.Waiting

open Interaction Model

section Backoff

def backoff (k : ℕ) : Duration := nextTaskResultBackoff^[k] initialTaskResultBackoff

lemma backoff_succ (k : ℕ) : backoff (k + 1) = nextTaskResultBackoff (backoff k) :=
  Function.iterate_succ_apply' _ _ _

lemma backoff_nanos (k : ℕ) : (backoff k).nanos = min (50 * 2 ^ k) 1000 * 1000000 := by
  induction k with
  | zero => rfl
  | succ k ih =>
    have hmax : maxTaskResultBackoff.nanos = 1000000000 := rfl
    have hdouble : ((backoff k).saturatingMul 2).nanos = (backoff k).nanos * 2 := by
      apply Duration.ofNanos_nanos
      rw [ih, nanosPerSecond]
      omega
    rw [backoff_succ, nextTaskResultBackoff, Duration.min_nanos, hdouble, hmax, ih]
    have hpow : 50 * 2 ^ (k + 1) = 2 * (50 * 2 ^ k) := by ring
    omega

lemma backoff_pos (k : ℕ) : 0 < (backoff k).nanos := by
  have hpow : 0 < 2 ^ k := Nat.two_pow_pos k
  rw [backoff_nanos]
  omega

def backoffSum (k : ℕ) : ℕ := ((List.range k).map fun i => (backoff i).nanos).sum

lemma backoffSum_succ (k : ℕ) : backoffSum (k + 1) = backoffSum k + (backoff k).nanos := by
  simp [backoffSum, List.range_succ]

lemma backoffSum_mono {j k : ℕ} (h : j ≤ k) : backoffSum j ≤ backoffSum k := by
  induction h with
  | refl => exact le_rfl
  | step _ ih => exact ih.trans (backoffSum_succ _ ▸ Nat.le_add_right _ _)

end Backoff

/-- Every call takes some time, and a sleep at least what it was asked for; the clock is read at
some time during the call. -/
def clocked : Env Call Answer ℕ := fun now call r later =>
  now ≤ later ∧ match call, r with
    | .sleep d, _ => now + d.nanos ≤ later
    | .now, (r : ℕ) => now ≤ r ∧ r ≤ later
    | _, _ => True

lemma clocked_le {α : Type} {p q : Process α} {now later : ℕ} (h : Run clocked p now q later) :
    now ≤ later := by
  induction h with
  | refl => exact le_rfl
  | step he _ ih => exact he.1.trans ih

lemma now_run {r : Result ℕ} {now later : ℕ}
    (h : Run clocked Async.now.run now (.done r) later) :
    ∃ reading : ℕ, r = .ok reading ∧ now ≤ reading ∧ reading ≤ later := by
  cases h with
  | step he hd =>
    cases hd
    exact ⟨_, rfl, he.2⟩

structure Poll where
  snapshot : TaskResultSnapshot
  sleepFor : Duration

section Loop

variable {B : Type} (fetchSnapshot : Async (Option TaskResultSnapshot)) (taskId : Uuid)
  (timeout : Option Duration) (beforeSleep : B → Async B) (startedAt : ℕ)

def turn (delay : Duration) (b : B) : Async (TaskResultSnapshot ⊕ Duration × B) := do
  match ← fetchSnapshot with
  | none => Async.throw (.taskNotFound taskId)
  | some snapshot =>
    if snapshot.isTerminal then
      return .inl snapshot
    else
      let sleepFor ← nextSleepDuration startedAt timeout delay taskId
      let b ← beforeSleep b
      return .inr (sleepFor, b)

def afterTurn (turns : ℕ) (delay : Duration) :
    TaskResultSnapshot ⊕ Duration × B → Async TaskResultSnapshot
  | .inl snapshot => return snapshot
  | .inr (sleepFor, b) => do
    Async.sleep sleepFor
    backoffLoop fetchSnapshot taskId timeout beforeSleep startedAt turns
      (nextTaskResultBackoff delay) b

lemma backoffLoop_succ (turns : ℕ) (delay : Duration) (b : B) :
    backoffLoop fetchSnapshot taskId timeout beforeSleep startedAt (turns + 1) delay b =
      turn fetchSnapshot taskId timeout beforeSleep startedAt delay b >>=
        afterTurn fetchSnapshot taskId timeout beforeSleep startedAt turns delay := by
  rw [turn, async_bind_assoc, backoffLoop]
  apply async_bind_congr
  rintro (_ | snapshot)
  · rfl
  · dsimp only
    split
    · rfl
    · rw [async_bind_assoc]
      apply async_bind_congr
      intro sleepFor
      rw [async_bind_assoc]
      rfl

inductive Asks (delay : Duration) (b : B) (now : ℕ) : Poll → B → ℕ → Prop
  | mk {snapshot : TaskResultSnapshot} {sleepFor : Duration} {b' : B}
      {fetched checked asked : ℕ} :
      Run clocked fetchSnapshot.run now (.done (.ok (some snapshot))) fetched →
      snapshot.isTerminal = false →
      Run clocked (nextSleepDuration startedAt timeout delay taskId).run fetched
        (.done (.ok sleepFor)) checked →
      Run clocked (beforeSleep b).run checked (.done (.ok b')) asked →
      Asks delay b now ⟨snapshot, sleepFor⟩ b' asked

/-- How the loop ends after its last fetch: what it returns for the reply, and when. -/
inductive Ends (b : B) (fetched : ℕ) :
    Result (Option TaskResultSnapshot) → Result TaskResultSnapshot → ℕ → Prop
  | failed {err : Error} : Ends b fetched (.error err) (.error err) fetched
  | missing : Ends b fetched (.ok none) (.error (.taskNotFound taskId)) fetched
  | terminal {snapshot : TaskResultSnapshot} : snapshot.isTerminal = true →
      Ends b fetched (.ok (some snapshot)) (.ok snapshot) fetched
  | timedOut {snapshot : TaskResultSnapshot} {limit : Duration} {reading later : ℕ} :
      snapshot.isTerminal = false → timeout = some limit → fetched ≤ reading → reading ≤ later →
      limit.nanos ≤ reading - startedAt →
      Ends b fetched (.ok (some snapshot)) (.error (.taskResultTimeout taskId)) later
  | interrupted {snapshot : TaskResultSnapshot} {err : Error} {checked later : ℕ} :
      snapshot.isTerminal = false → fetched ≤ checked →
      Run clocked (beforeSleep b).run checked (.done (.error err)) later →
      Ends b fetched (.ok (some snapshot)) (.error err) later

inductive Polled (b : B) (began : ℕ) : List Poll → B → ℕ → Prop
  | start : Polled b began [] b began
  | slept {polls : List Poll} {poll : Poll} {c c' : B} {since asked later : ℕ} :
      Polled b began polls c since →
      Asks fetchSnapshot taskId timeout beforeSleep startedAt (backoff polls.length) c since poll c'
        asked →
      asked + poll.sleepFor.nanos ≤ later → Polled b began (polls ++ [poll]) c' later

/-- Where the loop can stand: in a turn up to its sleep, in a sleep, whose reply is counted among
those before it, or past the turns it is followed for. -/
inductive Waits (turns : ℕ) (b : B) (began : ℕ) :
    List Poll → Process (Result TaskResultSnapshot) → ℕ → Prop
  | polling {polls : List Poll} {c : B} {since later : ℕ} {left : ℕ}
      {p : Process (Result (TaskResultSnapshot ⊕ Duration × B))} :
      Polled fetchSnapshot taskId timeout beforeSleep startedAt b began polls c since →
      polls.length + left + 1 = turns →
      Run clocked (turn fetchSnapshot taskId timeout beforeSleep startedAt (backoff polls.length)
        c).run since p later →
      Waits turns b began polls (Async.mk p >>= afterTurn fetchSnapshot taskId timeout beforeSleep
        startedAt left (backoff polls.length)).run later
  | sleeping {polls : List Poll} {poll : Poll} {c c' : B} {since asked : ℕ} {left : ℕ} :
      Polled fetchSnapshot taskId timeout beforeSleep startedAt b began polls c since →
      polls.length + left + 1 = turns →
      Asks fetchSnapshot taskId timeout beforeSleep startedAt (backoff polls.length) c since poll c'
        asked →
      Waits turns b began (polls ++ [poll]) (afterTurn fetchSnapshot taskId timeout beforeSleep
        startedAt left (backoff polls.length) (.inr (poll.sleepFor, c'))).run asked
  | spent {polls : List Poll} {c : B} {since : ℕ} :
      Polled fetchSnapshot taskId timeout beforeSleep startedAt b began polls c since →
      polls.length = turns → Waits turns b began polls (Async.hang : Async TaskResultSnapshot).run
        since

variable {fetchSnapshot taskId timeout beforeSleep startedAt} {delay : Duration} {b : B}
  {now later : ℕ}

lemma nextSleepDuration_run {r : Result Duration}
    (h : Run clocked (nextSleepDuration startedAt timeout delay taskId).run now (.done r) later) :
    match timeout with
    | none => r = .ok delay ∧ later = now
    | some limit => ∃ reading, now ≤ reading ∧ reading ≤ later ∧
      if limit.nanos ≤ reading - startedAt then
        r = .error (.taskResultTimeout taskId)
      else
        ∃ sleepFor, r = .ok sleepFor ∧
          sleepFor.nanos = min delay.nanos (limit.nanos - (reading - startedAt)) := by
  cases timeout with
  | none =>
    cases h
    exact ⟨rfl, rfl⟩
  | some limit =>
    obtain ⟨r', checked, hnow, hrest⟩ := async_bind_done h
    obtain ⟨reading, rfl, hlower, hupper⟩ := now_run hnow
    have helapsed : (Duration.ofNanos (reading - startedAt)).nanos =
        min (reading - startedAt) (2 ^ 64 * nanosPerSecond - 1) := rfl
    have hbounded := limit.bounded
    dsimp only at hrest
    split at hrest
    · rename_i hle
      cases hrest
      refine ⟨reading, hlower, hupper, ?_⟩
      rw [if_pos]
      omega
    · rename_i hlt
      cases hrest
      refine ⟨reading, hlower, hupper, ?_⟩
      rw [if_neg]
      · refine ⟨_, rfl, ?_⟩
        rw [Duration.min_nanos, Duration.sub_nanos]
        omega
      · omega

lemma turn_run {r : Result (TaskResultSnapshot ⊕ Duration × B)}
    (h : Run clocked (turn fetchSnapshot taskId timeout beforeSleep startedAt delay b).run now
      (.done r) later) :
    match r with
    | .error err => ∃ reply fetched, Run clocked fetchSnapshot.run now (.done reply) fetched ∧
      Ends taskId timeout beforeSleep startedAt b fetched reply (.error err) later
    | .ok (.inl snapshot) => ∃ reply fetched, Run clocked fetchSnapshot.run now (.done reply) fetched ∧
      Ends taskId timeout beforeSleep startedAt b fetched reply (.ok snapshot) later
    | .ok (.inr (sleepFor, b')) => ∃ snapshot,
      Asks fetchSnapshot taskId timeout beforeSleep startedAt delay b now ⟨snapshot, sleepFor⟩ b'
        later := by
  obtain ⟨reply, fetched, hfetch, hrest⟩ := async_bind_done h
  rcases reply with err | _ | snapshot
  · obtain ⟨rfl, rfl⟩ := hrest
    exact ⟨_, _, hfetch, .failed⟩
  · cases hrest
    exact ⟨_, _, hfetch, .missing⟩
  · cases hterminal : snapshot.isTerminal with
    | true =>
      simp only [hterminal, if_true] at hrest
      cases hrest
      exact ⟨_, _, hfetch, .terminal hterminal⟩
    | false =>
      simp only [hterminal, if_false, Bool.false_eq_true] at hrest
      obtain ⟨slept, checked, hsleep, hrest⟩ := async_bind_done hrest
      rcases slept with err | sleepFor
      · obtain ⟨rfl, rfl⟩ := hrest
        have hrun := nextSleepDuration_run hsleep
        cases timeout with
        | none => cases hrun.1
        | some limit =>
          obtain ⟨reading, hlower, hupper, hread⟩ := hrun
          split at hread
          · rename_i hle
            cases hread
            exact ⟨_, _, hfetch, .timedOut hterminal rfl hlower hupper hle⟩
          · obtain ⟨sleepFor, hread, -⟩ := hread
            cases hread
      · obtain ⟨before, asked, hbefore, hrest⟩ := async_bind_done hrest
        rcases before with err | b'
        · obtain ⟨rfl, rfl⟩ := hrest
          exact ⟨_, _, hfetch, .interrupted hterminal (clocked_le hsleep) hbefore⟩
        · cases hrest
          exact ⟨snapshot, hfetch, hterminal, hsleep, hbefore⟩

lemma backoffLoop_waits {began since later : ℕ} {polls : List Poll} {c : B}
    {turns left : ℕ} {q : Process (Result TaskResultSnapshot)}
    (hpolled : Polled fetchSnapshot taskId timeout beforeSleep startedAt b began polls c since)
    (hleft : polls.length + left = turns)
    (h : Run clocked (backoffLoop fetchSnapshot taskId timeout beforeSleep startedAt left
      (backoff polls.length) c).run since q later) :
    ∃ polls', Waits fetchSnapshot taskId timeout beforeSleep startedAt turns b began polls' q later ∧
      ∀ result, q = .done result → ∃ c' since' reply fetched,
        Polled fetchSnapshot taskId timeout beforeSleep startedAt b began polls' c' since' ∧
        Run clocked fetchSnapshot.run since' (.done reply) fetched ∧
        Ends taskId timeout beforeSleep startedAt c' fetched reply result later := by
  induction left generalizing polls c since with
  | zero =>
    cases h with
    | refl => exact ⟨polls, .spent hpolled hleft, nofun⟩
    | @step _ _ r => exact r.elim
  | succ left ih =>
    rw [backoffLoop_succ] at h
    have hfinished : ∀ r ended,
        Run clocked (turn fetchSnapshot taskId timeout beforeSleep startedAt (backoff polls.length)
          c).run since (.done r) ended →
        Run clocked (Async.mk (.done r) >>= afterTurn fetchSnapshot taskId timeout beforeSleep
          startedAt left (backoff polls.length)).run ended q later →
        ∃ polls', Waits fetchSnapshot taskId timeout beforeSleep startedAt turns b began polls' q
            later ∧ ∀ result, q = .done result → ∃ c' since' reply fetched,
          Polled fetchSnapshot taskId timeout beforeSleep startedAt b began polls' c' since' ∧
          Run clocked fetchSnapshot.run since' (.done reply) fetched ∧
          Ends taskId timeout beforeSleep startedAt c' fetched reply result later := by
      intro r ended hturn hrest
      have hends := turn_run hturn
      rcases r with err | snapshot | ⟨sleepFor, c'⟩
      · cases hrest
        refine ⟨polls, .polling hpolled (by omega) hturn, ?_⟩
        rintro result ⟨⟩
        obtain ⟨reply, fetched, hfetch, hends⟩ := hends
        exact ⟨c, since, reply, fetched, hpolled, hfetch, hends⟩
      · cases hrest
        refine ⟨polls, .polling hpolled (by omega) hturn, ?_⟩
        rintro result ⟨⟩
        obtain ⟨reply, fetched, hfetch, hends⟩ := hends
        exact ⟨c, since, reply, fetched, hpolled, hfetch, hends⟩
      · obtain ⟨snapshot, hasks⟩ := hends
        cases hrest with
        | refl => exact ⟨_, .sleeping hpolled (by omega) hasks, nofun⟩
        | step he hrest =>
          apply ih (hpolled.slept hasks he.2)
          · rw [List.length_append, List.length_singleton]
            omega
          · rw [List.length_append, List.length_singleton, backoff_succ]
            exact hrest
    rcases h.bind_cases with ⟨p, hp, rfl⟩ | ⟨r, ended, hturn, hrest⟩
    · cases p with
      | call e next => exact ⟨polls, .polling hpolled (by omega) hp, nofun⟩
      | done r => exact hfinished r later hp (.refl _ _)
    · exact hfinished r ended hturn hrest

section Bounds

lemma Asks.run {poll : Poll} {b' : B} {asked : ℕ}
    (h : Asks fetchSnapshot taskId timeout beforeSleep startedAt delay b now poll b' asked) :
    now ≤ asked ∧ match timeout with
      | none => poll.sleepFor = delay
      | some limit => ∃ reading, now ≤ reading ∧ reading ≤ asked ∧
        reading - startedAt < limit.nanos ∧
        poll.sleepFor.nanos = min delay.nanos (limit.nanos - (reading - startedAt)) := by
  cases h with
  | mk hfetch hterminal hsleep hbefore =>
    have hfetched := clocked_le hfetch
    have hchecked := clocked_le hsleep
    have hasked := clocked_le hbefore
    have hrun := nextSleepDuration_run hsleep
    refine ⟨by omega, ?_⟩
    cases timeout with
    | none =>
      obtain ⟨heq, -⟩ := hrun
      exact Except.ok.inj heq
    | some limit =>
      obtain ⟨reading, hlower, hupper, hread⟩ := hrun
      split at hread
      · cases hread
      · obtain ⟨sleepFor, heq, hnanos⟩ := hread
        cases heq
        exact ⟨reading, by omega, by omega, by omega, hnanos⟩

lemma Asks.sleepFor_bounds {k : ℕ} {poll : Poll} {b' : B} {asked : ℕ}
    (h : Asks fetchSnapshot taskId timeout beforeSleep startedAt (backoff k) b now poll b' asked) :
    0 < poll.sleepFor.nanos ∧ poll.sleepFor.nanos ≤ (backoff k).nanos := by
  have hrun := h.run.2
  have hpos := backoff_pos k
  cases timeout with
  | none =>
    rw [show poll.sleepFor = backoff k from hrun]
    exact ⟨hpos, le_rfl⟩
  | some limit =>
    obtain ⟨reading, -, -, hlt, heq⟩ := hrun
    rw [heq]
    omega

def sleepSum (polls : List Poll) : ℕ := (polls.map fun poll => poll.sleepFor.nanos).sum

lemma sleepSum_concat (polls : List Poll) (poll : Poll) :
    sleepSum (polls ++ [poll]) = sleepSum polls + poll.sleepFor.nanos := by
  simp [sleepSum]

structure Paced (timeout : Option Duration) (startedAt : ℕ) (polls : List Poll) (since : ℕ) :
    Prop where
  sleeps : ∀ k poll, polls[k]? = some poll →
    0 < poll.sleepFor.nanos ∧ poll.sleepFor.nanos ≤ (backoff k).nanos
  elapsed : startedAt + sleepSum polls ≤ since
  sum : ∀ limit, timeout = some limit → sleepSum polls ≤ limit.nanos
  reached : ∀ limit, timeout = some limit →
    backoffSum polls.length ≤ since - startedAt ∨ limit.nanos ≤ since - startedAt
  count : ∀ limit, timeout = some limit → ∀ n, limit.nanos ≤ backoffSum n → polls.length ≤ n

lemma Paced.slept {polls : List Poll} {poll : Poll} {c c' : B} {since asked later : ℕ}
    (h : Paced timeout startedAt polls since)
    (hasks : Asks fetchSnapshot taskId timeout beforeSleep startedAt (backoff polls.length) c since
      poll c' asked) (hlater : asked + poll.sleepFor.nanos ≤ later) :
    Paced timeout startedAt (polls ++ [poll]) later := by
  obtain ⟨hasked, hrun⟩ := hasks.run
  have helapsed := h.elapsed
  have hconcat := sleepSum_concat polls poll
  have hlength : (polls ++ [poll]).length = polls.length + 1 := by simp
  refine ⟨?_, by omega, ?_, ?_, ?_⟩
  · intro k other hk
    by_cases hlt : k < polls.length
    · rw [List.getElem?_append_left hlt] at hk
      exact h.sleeps k other hk
    · have hk' := (List.getElem?_eq_some_iff.mp hk).1
      obtain rfl : k = polls.length := by omega
      rw [List.getElem?_concat_length] at hk
      cases hk
      exact hasks.sleepFor_bounds
  · rintro limit rfl
    obtain ⟨reading, hsince, hreading, hlt, hsleep⟩ := hrun
    omega
  · rintro limit rfl
    obtain ⟨reading, hsince, hreading, hlt, hsleep⟩ := hrun
    have hreached := h.reached limit rfl
    have hsucc := backoffSum_succ polls.length
    rw [hlength]
    omega
  · rintro limit rfl n hn
    obtain ⟨reading, hsince, hreading, hlt, hsleep⟩ := hrun
    have hreached := h.reached limit rfl
    by_contra hgt
    have hmono := backoffSum_mono (show n ≤ polls.length by omega)
    omega

lemma Polled.paced {polls : List Poll} {c : B} {began since : ℕ} (hbegan : startedAt ≤ began)
    (h : Polled fetchSnapshot taskId timeout beforeSleep startedAt b began polls c since) :
    Paced timeout startedAt polls since := by
  induction h with
  | start =>
    refine ⟨by simp, by simpa [sleepSum] using hbegan, ?_, ?_, ?_⟩
    · exact fun _ _ => Nat.zero_le _
    · exact fun _ _ => Or.inl (Nat.zero_le _)
    · exact fun _ _ _ _ => Nat.zero_le _
  | slept _ hasks hlater ih => exact ih.slept hasks hlater

lemma Waits.paced {polls : List Poll} {began later turns : ℕ}
    {q : Process (Result TaskResultSnapshot)} (hbegan : startedAt ≤ began)
    (h : Waits fetchSnapshot taskId timeout beforeSleep startedAt turns b began polls q later) :
    ∃ since, Paced timeout startedAt polls since := by
  cases h with
  | polling hpolled => exact ⟨_, hpolled.paced hbegan⟩
  | sleeping hpolled hturns hasks => exact ⟨_, (hpolled.paced hbegan).slept hasks le_rfl⟩
  | spent hpolled => exact ⟨_, hpolled.paced hbegan⟩

end Bounds

lemma Asks.turn {poll : Poll} {b' : B} {asked : ℕ}
    (h : Asks fetchSnapshot taskId timeout beforeSleep startedAt delay b now poll b' asked) :
    Run clocked (turn fetchSnapshot taskId timeout beforeSleep startedAt delay b).run now
      (.done (.ok (.inr (poll.sleepFor, b')))) asked := by
  cases h with
  | mk hfetch hterminal hsleep hbefore =>
    apply async_bind_run hfetch
    simp only [hterminal, if_false, Bool.false_eq_true]
    apply async_bind_run hsleep
    apply async_bind_run hbefore
    exact .refl _ _

lemma Polled.loop {polls : List Poll} {c : B} {began since turns left : ℕ}
    (h : Polled fetchSnapshot taskId timeout beforeSleep startedAt b began polls c since)
    (hturns : polls.length + left = turns) :
    Run clocked (backoffLoop fetchSnapshot taskId timeout beforeSleep startedAt turns
        initialTaskResultBackoff b).run began
      (backoffLoop fetchSnapshot taskId timeout beforeSleep startedAt left (backoff polls.length)
        c).run since := by
  induction h generalizing left with
  | start =>
    obtain rfl : left = turns := by simpa using hturns
    exact .refl _ _
  | @slept polls poll c c' since asked later hpolled hasks hlater ih =>
    have hlength : (polls ++ [poll]).length = polls.length + 1 := by simp
    apply (@ih (left + 1) (by omega)).trans
    rw [backoffLoop_succ, hlength, backoff_succ]
    apply async_bind_run hasks.turn
    apply Run.step (r := ())
    · exact ⟨le_trans (Nat.le_add_right _ _) hlater, hlater⟩
    · exact .refl _ _

lemma Polled.returns {polls : List Poll} {c : B} {began since turns : ℕ}
    {snapshot : TaskResultSnapshot}
    (h : Polled fetchSnapshot taskId timeout beforeSleep startedAt b began polls c since)
    (hturns : polls.length < turns)
    (hfetch : Run clocked fetchSnapshot.run since (.done (.ok (some snapshot))) later)
    (hterminal : snapshot.isTerminal = true) :
    Run clocked (backoffLoop fetchSnapshot taskId timeout beforeSleep startedAt turns
      initialTaskResultBackoff b).run began (.done (.ok snapshot)) later := by
  obtain ⟨left, hleft⟩ : ∃ left, polls.length + (left + 1) = turns :=
    ⟨turns - polls.length - 1, by omega⟩
  apply (h.loop hleft).trans
  rw [backoffLoop]
  apply async_bind_run hfetch
  simp only [hterminal, if_true]
  exact .refl _ _

section Ends

variable {fetched : ℕ} {reply : Result (Option TaskResultSnapshot)}
  {result : Result TaskResultSnapshot}

lemma Ends.ok {snapshot : TaskResultSnapshot}
    (h : Ends taskId timeout beforeSleep startedAt b fetched reply (.ok snapshot) later) :
    reply = .ok (some snapshot) ∧ snapshot.isTerminal = true ∧ fetched = later := by
  cases h with
  | terminal hterminal => exact ⟨rfl, hterminal, rfl⟩

lemma Ends.of_timeout {err : Error}
    (h : Ends taskId timeout beforeSleep startedAt b fetched reply (.error err) later)
    (herr : err = .taskResultTimeout taskId) :
    reply = .error err ∨ (∃ snapshot, reply = .ok (some snapshot) ∧ snapshot.isTerminal = false) ∧
      ((∃ limit reading, timeout = some limit ∧ fetched ≤ reading ∧ reading ≤ later ∧
          limit.nanos ≤ reading - startedAt) ∨
        ∃ checked, Run clocked (beforeSleep b).run checked (.done (.error err)) later) := by
  cases h with
  | failed => exact Or.inl rfl
  | missing => cases herr
  | timedOut hterminal hlimit hlower hupper hle =>
    exact Or.inr ⟨⟨_, rfl, hterminal⟩, Or.inl ⟨_, _, hlimit, hlower, hupper, hle⟩⟩
  | interrupted hterminal hchecked hbefore =>
    exact Or.inr ⟨⟨_, rfl, hterminal⟩, Or.inr ⟨_, hbefore⟩⟩

end Ends

end Loop

section Sample

lemma sample_wait : Run clocked (awaitTaskResultWithBackoff
      (fetchTaskResultSnapshot "default" sampleTask.taskId) sampleTask.taskId
      (some (Duration.fromSecs 1)) (fun b : Unit => return b) 2 ()).run 0
    (.done (.ok (.completed .null))) 50000000 := by
  have hreaches : Reaches clocked (fun r later => r = .ok (.completed .null) ∧ later = 50000000)
      (awaitTaskResultWithBackoff (fetchTaskResultSnapshot "default" sampleTask.taskId)
        sampleTask.taskId (some (Duration.fromSecs 1)) (fun b : Unit => return b) 2 ()).run 0 := by
    refine ⟨(0 : ℕ), (0 : ℕ), ⟨le_rfl, le_rfl, le_rfl⟩,
      Except.ok (), (0 : ℕ), ⟨le_rfl, trivial⟩,
      Except.ok (some ("running", none, none)), (0 : ℕ), ⟨le_rfl, trivial⟩,
      (0 : ℕ), (0 : ℕ), ⟨le_rfl, le_rfl, le_rfl⟩, ?_⟩
    dsimp only [Program.done_bind]
    rw [if_neg (by decide +kernel)]
    exact ⟨(), (50000000 : ℕ), ⟨Nat.zero_le _, by decide +kernel⟩,
      Except.ok (), (50000000 : ℕ), ⟨le_rfl, trivial⟩,
      Except.ok (some ("completed", none, none)), (50000000 : ℕ), ⟨le_rfl, trivial⟩, rfl, rfl⟩
  obtain ⟨r, later, hrun, rfl, rfl⟩ := hreaches.exists_run
  exact hrun

end Sample

end AbsurdSdk.Waiting
