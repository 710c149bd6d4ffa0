import AbsurdSdk.Execution.Renewals
import AbsurdSdk.Execution.Settlement
import AbsurdSdk.Interaction.Interleaving
import AbsurdSdk.Model.Watchdog

namespace AbsurdSdk.Execution

open Interaction Model Relation

structure Channel where
  value : Duration
  version : ℕ
  closed : Bool

/-- The watchdog between two calls. `since` is when it came to the next one, `seen` the version its
receiver has noticed and `heard` that of the lease it has read. -/
structure Watch where
  program : WatchdogM Unit
  since : ℕ
  seen : ℕ
  heard : ℕ

inductive Polls (now : ℕ) (channel : Channel) : Watch → Watch → Prop
  | borrow {next : Duration → WatchdogM Unit} {since seen heard : ℕ} :
      Polls now channel ⟨.call .borrow next, since, seen, heard⟩
        ⟨next channel.value, now, seen, channel.version⟩
  | changed {lease : Duration} {next : Woken → WatchdogM Unit} {since seen heard : ℕ} :
      seen ≠ channel.version →
      Polls now channel ⟨.call (.select lease) next, since, seen, heard⟩
        ⟨next (.changed false), now, channel.version, heard⟩
  | closed {lease : Duration} {next : Woken → WatchdogM Unit} {since seen heard : ℕ} :
      seen = channel.version → channel.closed = true →
      Polls now channel ⟨.call (.select lease) next, since, seen, heard⟩
        ⟨next (.changed true), now, seen, heard⟩
  | slept {lease : Duration} {next : Woken → WatchdogM Unit} {since seen heard : ℕ} :
      since + lease.nanos ≤ now →
      Polls now channel ⟨.call (.select lease) next, since, seen, heard⟩
        ⟨next .slept, now, seen, heard⟩

section Stages

variable (fatalOnLeaseTimeout : Bool) (turns : ℕ)

def woken (isErr : Bool) : WatchdogM Unit :=
  if isErr then .done () else leaseWatchdog fatalOnLeaseTimeout turns

def overdue (lease : Duration) : WatchdogM Unit :=
  if fatalOnLeaseTimeout then
    .call (.select lease) fun
      | .changed isErr => woken fatalOnLeaseTimeout turns isErr
      | .slept => .call (.exit 1) Empty.elim
  else
    leaseWatchdog fatalOnLeaseTimeout turns

def listening (lease : Duration) : WatchdogM Unit :=
  .call (.select lease) fun
    | .changed isErr => woken fatalOnLeaseTimeout turns isErr
    | .slept => overdue fatalOnLeaseTimeout turns lease

lemma leaseWatchdog_succ : leaseWatchdog fatalOnLeaseTimeout (turns + 1) =
    .call .borrow (listening fatalOnLeaseTimeout turns) := by
  rw [leaseWatchdog]
  refine congrArg (Program.call WatchdogCall.borrow) (funext fun lease => ?_)
  refine congrArg (Program.call (WatchdogCall.select lease)) (funext fun r => ?_)
  cases r with
  | changed isErr => cases isErr <;> rfl
  | slept => cases fatalOnLeaseTimeout with
    | false => rfl
    | true =>
      refine congrArg (Program.call (WatchdogCall.select lease)) (funext fun r => ?_)
      cases r with
      | changed isErr => cases isErr <;> rfl
      | slept => rfl

end Stages

def Watch.Exits (watch : Watch) : Prop := ∃ code next, watch.program = .call (.exit code) next

section Polled

variable {now since seen heard : ℕ} {channel : Channel} {watch : Watch} {lease : Duration}
  {fatalOnLeaseTimeout : Bool}

lemma Polls.of_head (h : Polls now channel ⟨leaseWatchdog fatalOnLeaseTimeout 1, since, seen, heard⟩
    watch) : watch = ⟨listening fatalOnLeaseTimeout 0 channel.value, now, seen, channel.version⟩ := by
  rw [leaseWatchdog_succ] at h
  cases h
  rfl

lemma Polls.of_listening
    (h : Polls now channel ⟨listening fatalOnLeaseTimeout 0 lease, since, seen, heard⟩ watch) :
    seen ≠ channel.version ∧
      watch = ⟨leaseWatchdog fatalOnLeaseTimeout 0, now, channel.version, heard⟩ ∨
    seen = channel.version ∧ channel.closed = true ∧ watch = ⟨.done (), now, seen, heard⟩ ∨
    since + lease.nanos ≤ now ∧ watch = ⟨overdue fatalOnLeaseTimeout 0 lease, now, seen, heard⟩ := by
  cases h with
  | changed hne => exact Or.inl ⟨hne, rfl⟩
  | closed heq hclosed => exact Or.inr (Or.inl ⟨heq, hclosed, rfl⟩)
  | slept hslept => exact Or.inr (Or.inr ⟨hslept, rfl⟩)

lemma Polls.of_overdue (h : Polls now channel ⟨overdue true 0 lease, since, seen, heard⟩ watch) :
    seen ≠ channel.version ∧ watch = ⟨leaseWatchdog true 0, now, channel.version, heard⟩ ∨
    seen = channel.version ∧ channel.closed = true ∧ watch = ⟨.done (), now, seen, heard⟩ ∨
    since + lease.nanos ≤ now ∧ watch = ⟨.call (.exit 1) Empty.elim, now, seen, heard⟩ := by
  cases h with
  | changed hne => exact Or.inl ⟨hne, rfl⟩
  | closed heq hclosed => exact Or.inr (Or.inl ⟨heq, hclosed, rfl⟩)
  | slept hslept => exact Or.inr (Or.inr ⟨hslept, rfl⟩)

end Polled

section Patience

/-- The watchdog sleeps for `need` before it exits unless the channel wakes it, and for twice every
lease that it reads. -/
def Patient : ℕ → WatchdogM Unit → Prop
  | _, .done _ => True
  | _, .call .borrow next => ∀ lease, Patient (2 * lease.nanos) (next lease)
  | need, .call (.select lease) next => Patient (need - lease.nanos) (next .slept) ∧
    ∀ isErr need', Patient need' (next (.changed isErr))
  | need, .call (.exit _) _ => need = 0
  | _, .call .pending _ => True

lemma leaseWatchdog_patient (fatalOnLeaseTimeout : Bool) (turns need : ℕ) :
    Patient need (leaseWatchdog fatalOnLeaseTimeout turns) := by
  induction turns generalizing need with
  | zero => trivial
  | succ turns ih =>
    intro lease
    have hchanged : ∀ isErr need', Patient need'
        (if isErr = true then .done () else leaseWatchdog fatalOnLeaseTimeout turns) := by
      intro isErr need'
      cases isErr with
      | true => trivial
      | false => exact ih need'
    refine ⟨?_, hchanged⟩
    cases fatalOnLeaseTimeout with
    | false => exact ih _
    | true =>
      refine ⟨?_, hchanged⟩
      change _ - _ - _ = 0
      omega

/-- Twice the duration covers the whole seconds that the database is given for it. -/
def Ample (d : Duration) : Prop := nanosPerSecond * durationSecondsCeil d ≤ 2 * d.nanos

lemma ample_iff (d : Duration) : Ample d ↔ d.nanos = 0 ∨ 500000000 ≤ d.nanos := by
  rw [Ample, durationSecondsCeil_eq]
  have hbounded := d.bounded
  simp only [nanosPerSecond] at hbounded ⊢
  omega

end Patience

/-- The claim of a run and the execution that holds it. `expiry` is when the claim expires in the
database, `renewals` counts the renewals that have taken effect there since the watchdog was
spawned, and `renewedAt` is when the newest of them did. -/
structure Leased where
  now : ℕ
  expiry : ℕ
  renewals : ℕ
  renewedAt : ℕ
  channel : Channel
  watch : Option Watch

namespace Leased

def Exits (w : Leased) : Prop := ∃ watch, w.watch = some watch ∧ watch.Exits

def claimed (claimTimeout : Duration) (claimedAt now : ℕ) (channel : Channel) : Leased where
  now := now
  expiry := claimedAt + nanosPerSecond * durationSecondsCeil claimTimeout
  renewals := 0
  renewedAt := claimedAt
  channel := channel
  watch := none

def due (w : Leased) : ℕ := w.renewedAt + 2 * w.channel.value.nanos

def renew (w : Leased) (seconds : ℕ) : Leased :=
  { w with
    expiry := w.now + nanosPerSecond * seconds
    renewals := w.renewals + 1
    renewedAt := w.now }

def send (w : Leased) (lease : Duration) : Leased :=
  { w with channel := { w.channel with value := lease, version := w.channel.version + 1 } }

def after (w : Leased) (call : Call) (r : Answer call) : Leased :=
  match renewed call r, call with
  | some seconds, _ => w.renew seconds
  | none, .sendLease lease => w.send lease
  | none, _ => w

def spawn (w : Leased) (lease : Duration) (fatalOnLeaseTimeout : Bool) (turns : ℕ) : Leased :=
  { w with
    renewals := 0
    renewedAt := w.now
    channel := ⟨lease, 0, false⟩
    watch := some ⟨leaseWatchdog fatalOnLeaseTimeout turns, w.now, 0, 0⟩ }

end Leased

def leased : Env ExecutorCall ExecutorAnswer Leased := fun w call r w' =>
  ¬ w.Exits ∧ match call, r with
    | .context call, r => w' = w.after call r
    | .spawnWatchdog lease _ fatalOnLeaseTimeout, _ =>
      ∃ turns, w' = w.spawn lease fatalOnLeaseTimeout turns
    | .abortWatchdog, _ => w' = { w with watch := none }
    | _, _ => w' = w

/-- What happens beside the execution: time passes, the watchdog is polled, and the last sender of
the lease channel is dropped. -/
inductive Passes : Leased → Leased → Prop
  | time {w : Leased} {later : ℕ} : ¬ w.Exits → w.now ≤ later → Passes w { w with now := later }
  | polls {w : Leased} {watch watch' : Watch} :
      w.watch = some watch → Polls w.now w.channel watch watch' →
      Passes w { w with watch := some watch' }
  | drop {w : Leased} : ¬ w.Exits → Passes w { w with channel := { w.channel with closed := true } }

/-- No time passes while the watchdog can be polled, or while a renewal that has taken effect is yet
to be sent to it. -/
def Promptly (w w' : Leased) : Prop :=
  Passes w w' ∧ (w.now < w'.now → ∀ watch, w.watch = some watch →
    w.channel.version = w.renewals ∧
      ∀ t watch', w.now ≤ t → t < w'.now → ¬ Polls t w.channel watch watch')

/-- Every renewal takes effect before twice the lease that it renews is over. -/
def promptly : Env ExecutorCall ExecutorAnswer Leased := fun w call r w' =>
  leased w call r w' ∧ (w.renewals < w'.renewals → w.now < w.due)

/-- The watchdog sleeps until the newest lease is due, or reads a lease before it gives up any, or is
to be told of a renewal before it gives up an older one. -/
inductive Heeds (now due version renewals : ℕ) (watch : Watch) : Prop
  | newest {need : ℕ} : version = renewals → Patient need watch.program →
      due ≤ watch.since + need → Heeds now due version renewals watch
  | unread : (∀ need, Patient need watch.program) → Heeds now due version renewals watch
  | alerted {need : ℕ} : Patient need watch.program → now < watch.since + need →
      (watch.seen = version → version < renewals) → Heeds now due version renewals watch

namespace Heeds

variable {now due version renewals : ℕ} {channel : Channel} {watch watch' : Watch}

lemma polls (h : Heeds now due channel.version renewals watch)
    (hp : Polls now channel watch watch')
    (hread : ∀ since seen heard next, watch = ⟨.call .borrow next, since, seen, heard⟩ →
      channel.version = renewals ∧ due ≤ now + 2 * channel.value.nanos ∨
        channel.version < renewals ∧ 0 < channel.value.nanos) :
    Heeds now due channel.version renewals watch' := by
  cases hp with
  | @borrow next since seen heard =>
    have hpatient : Patient (2 * channel.value.nanos) (next channel.value) := by
      cases h with
      | newest _ hp | alerted hp => exact hp _
      | unread hp => exact hp 0 _
    rcases hread since seen heard next rfl with ⟨hversion, hdue⟩ | ⟨hversion, hpositive⟩
    · exact .newest hversion hpatient hdue
    · refine .alerted hpatient ?_ fun _ => hversion
      dsimp only
      omega
  | @changed lease next since seen heard =>
    refine .unread fun need => ?_
    cases h with
    | newest _ hp | alerted hp => exact hp.2 _ _
    | unread hp => exact (hp 0).2 _ _
  | @closed lease next since seen heard =>
    refine .unread fun need => ?_
    cases h with
    | newest _ hp | alerted hp => exact hp.2 _ _
    | unread hp => exact (hp 0).2 _ _
  | @slept lease next since seen heard hslept =>
    cases h with
    | newest hversion hp hdue =>
      refine .newest hversion hp.1 ?_
      dsimp only at hdue ⊢
      omega
    | unread hp =>
      refine .unread fun need => ?_
      have hlonger := (hp (need + lease.nanos)).1
      rwa [Nat.add_sub_cancel] at hlonger
    | alerted hp hbefore hnews =>
      refine .alerted hp.1 ?_ hnews
      dsimp only at hbefore ⊢
      omega

lemma exits (h : Heeds now due version renewals watch) (hsince : watch.since ≤ now)
    (hexits : watch.Exits) : version = renewals ∧ due ≤ now := by
  obtain ⟨code, next, hprogram⟩ := hexits
  cases h with
  | newest hversion hp hdue =>
    rw [hprogram] at hp
    obtain rfl := hp
    exact ⟨hversion, by omega⟩
  | unread hp =>
    have hone := hp 1
    rw [hprogram] at hone
    cases hone
  | alerted hp hbefore =>
    rw [hprogram] at hp
    obtain rfl := hp
    omega

lemma later {t : ℕ} (h : Heeds now due channel.version renewals watch) (hlater : now < t)
    (hexits : ¬ watch.Exits) (hversion : channel.version = renewals)
    (hunpolled : ∀ u watch', now ≤ u → u < t → ¬ Polls u channel watch watch') :
    Heeds t due channel.version renewals watch := by
  cases h with
  | newest hversion hp hdue => exact .newest hversion hp hdue
  | unread hp => exact .unread hp
  | alerted hp hbefore hnews =>
    obtain ⟨program, since, seen, heard⟩ := watch
    refine .unread ?_
    cases program with
    | done => exact fun _ => trivial
    | call call next =>
      cases call with
      | borrow => exact absurd .borrow (hunpolled now _ le_rfl hlater)
      | select lease =>
        have hunseen : seen ≠ channel.version := fun hseen => (hnews hseen).ne hversion
        exact absurd (.changed hunseen) (hunpolled now _ le_rfl hlater)
      | exit code => exact absurd ⟨code, next, rfl⟩ hexits
      | pending => exact fun _ => trivial

lemma renew {due' : ℕ} (h : Heeds now due version renewals watch) (hbefore : now < due)
    (hversion : version = renewals) : Heeds now due' version (renewals + 1) watch := by
  cases h with
  | newest _ hp hdue => exact .alerted hp (hbefore.trans_le hdue) fun _ => by omega
  | unread hp => exact .unread hp
  | alerted hp hbefore _ => exact .alerted hp hbefore fun _ => by omega

lemma send {due' : ℕ} (h : Heeds now due version renewals watch) (hversion : version < renewals)
    (hseen : watch.seen ≤ version) : Heeds now due' (version + 1) renewals watch := by
  cases h with
  | newest heq => omega
  | unread hp => exact .unread hp
  | alerted hp hbefore => exact .alerted hp hbefore fun heq => by omega

end Heeds

lemma Polls.since_eq {now : ℕ} {channel : Channel} {watch watch' : Watch}
    (h : Polls now channel watch watch') : watch'.since = now := by
  cases h <;> rfl

lemma Polls.seen_le {now : ℕ} {channel : Channel} {watch watch' : Watch}
    (h : Polls now channel watch watch') (hseen : watch.seen ≤ channel.version) :
    watch'.seen ≤ channel.version := by
  cases h with
  | changed => exact le_rfl
  | borrow | closed | slept => exact hseen

section Watched

variable {allowed : Duration → Prop} {pending : Option ℕ} {w w' : Leased}

structure Watched (allowed : Duration → Prop) (pending : Option ℕ) (w : Leased) : Prop where
  version : w.channel.version + pending.toList.length = w.renewals
  value : allowed w.channel.value
  past : w.renewedAt ≤ w.now
  claim : w.expiry ≤
    w.renewedAt + nanosPerSecond * pending.getD (durationSecondsCeil w.channel.value)
  positive : pending ≠ none → 0 < w.channel.value.nanos
  watch : ∀ watch, w.watch = some watch → watch.seen ≤ w.channel.version ∧
    Heeds w.now w.due w.channel.version w.renewals watch
  spared : w.Exits → w.expiry ≤ w.now

lemma Watched.polls {watch watch' : Watch} (h : Watched allowed pending w)
    (hwatch : w.watch = some watch) (hp : Polls w.now w.channel watch watch') :
    Heeds w.now w.due w.channel.version w.renewals watch' := by
  apply (h.watch watch hwatch).2.polls hp
  intro since seen heard next _
  have hversion := h.version
  cases hpending : pending with
  | none =>
    rw [hpending] at hversion
    exact Or.inl ⟨hversion, Nat.add_le_add_right h.past _⟩
  | some seconds =>
    rw [hpending] at hversion
    simp only [Option.toList_some, List.length_singleton] at hversion
    exact Or.inr ⟨by omega, h.positive (by simp [hpending])⟩

lemma watched_stable (hample : ∀ d, allowed d → Ample d) (pending : Option ℕ) :
    Stable Promptly (Watched allowed pending) := by
  rintro w w' ⟨hpasses, hprompt⟩ h
  cases hpasses with
  | @time later hexits hle =>
    refine ⟨h.version, h.value, h.past.trans hle, h.claim, h.positive, ?_,
      fun he => absurd he hexits⟩
    intro watch hwatch
    obtain ⟨hseen, hheeds⟩ := h.watch watch hwatch
    refine ⟨hseen, ?_⟩
    rcases hle.eq_or_lt with rfl | hlater
    · exact hheeds
    · obtain ⟨hversion, hunpolled⟩ := hprompt hlater watch hwatch
      exact hheeds.later hlater (fun he => hexits ⟨watch, hwatch, he⟩) hversion hunpolled
  | drop hexits =>
    exact ⟨h.version, h.value, h.past, h.claim, h.positive, h.watch, fun he => absurd he hexits⟩
  | @polls watch watch' hwatch hp =>
    have hheeds := h.polls hwatch hp
    refine ⟨h.version, h.value, h.past, h.claim, h.positive, ?_, ?_⟩
    · rintro _ ⟨⟩
      exact ⟨hp.seen_le (h.watch watch hwatch).1, hheeds⟩
    · rintro ⟨_, ⟨⟩, hexits⟩
      obtain ⟨hversion, hdue⟩ := hheeds.exits hp.since_eq.le hexits
      have hsent := h.version
      have hclaim := h.claim
      have hlease := hample _ h.value
      rw [Ample] at hlease
      cases pending with
      | some seconds =>
        simp only [Option.toList_some, List.length_singleton] at hsent
        omega
      | none =>
        simp only [Option.getD_none] at hclaim
        simp only [Leased.due] at hdue
        dsimp only
        omega

lemma Watched.renew (h : Watched allowed none w) (hexits : ¬ w.Exits) (hprompt : w.now < w.due)
    (seconds : ℕ) : Watched allowed (some seconds) (w.renew seconds) := by
  have hversion : w.channel.version = w.renewals := h.version
  refine ⟨congrArg (· + 1) hversion, h.value, le_rfl, le_rfl, fun _ => ?_, ?_,
    fun he => absurd he hexits⟩
  · have hpast := h.past
    simp only [Leased.due] at hprompt
    change 0 < w.channel.value.nanos
    omega
  · intro watch hwatch
    obtain ⟨hseen, hheeds⟩ := h.watch watch hwatch
    exact ⟨hseen, hheeds.renew hprompt hversion⟩

lemma Watched.send {lease : Duration} (h : Watched allowed (some (durationSecondsCeil lease)) w)
    (hexits : ¬ w.Exits) (hlease : allowed lease) : Watched allowed none (w.send lease) := by
  have hversion : w.channel.version + 1 = w.renewals := h.version
  refine ⟨hversion, hlease, h.past, h.claim, fun hne => absurd rfl hne, ?_,
    fun he => absurd he hexits⟩
  intro watch hwatch
  obtain ⟨hseen, hheeds⟩ := h.watch watch hwatch
  exact ⟨hseen.trans (Nat.le_succ _), hheeds.send (by omega) hseen⟩

lemma Watched.after {call : Call} (h : Watched allowed pending w) (r : Answer call)
    (hexits : ¬ w.Exits) (hready : Ready allowed pending call)
    (hprompt : w.renewals < (w.after call r).renewals → w.now < w.due) :
    Watched allowed (renewed call r) (w.after call r) := by
  cases hr : renewed call r with
  | some seconds =>
    obtain rfl : pending = none := by
      cases call with
      | sendLease => simp [renewed] at hr
      | _ => exact hready
    simp only [Leased.after, hr] at hprompt ⊢
    exact h.renew hexits (hprompt (Nat.lt_succ_self _)) seconds
  | none =>
    cases call with
    | sendLease lease =>
      obtain ⟨hlease, rfl⟩ := hready
      exact h.send hexits hlease
    | _ =>
      obtain rfl : pending = none := hready
      simp only [Leased.after, hr]
      exact h

end Watched

def Guarded (allowed : Duration → Prop) (w : Leased) : Prop :=
  w.watch = none ∨ ∃ pending, Watched allowed pending w

section Executions

variable {allowed : Duration → Prop} {α : Type} {w : Leased}

lemma Guarded.spared (h : Guarded allowed w) (hexits : w.Exits) : w.expiry ≤ w.now := by
  rcases h with hnone | ⟨pending, h⟩
  · obtain ⟨watch, hwatch, -⟩ := hexits
    rw [hnone] at hwatch
    cases hwatch
  · exact h.spared hexits

lemma unwatched_stable : Stable Promptly fun w => w.watch = none := by
  rintro w w' ⟨hpasses, -⟩ h
  cases hpasses with
  | time => exact h
  | drop => exact h
  | polls hwatch => rw [h] at hwatch; cases hwatch

lemma guarded_stable (hample : ∀ d, allowed d → Ample d) :
    Stable Promptly (Guarded allowed) := by
  rintro w w' hw (h | ⟨pending, h⟩)
  · exact Or.inl (unwatched_stable w w' hw h)
  · exact Or.inr ⟨pending, watched_stable hample pending w w' hw h⟩

lemma Renews.watched {p : Process α} {post : α → Prop} {pending : Option ℕ}
    (hample : ∀ d, allowed d → Ample d) (hp : Renews allowed post pending p)
    (h : Watched allowed pending w) :
    Always promptly Promptly (fun _ => Guarded allowed) (fun a t => post a ∧ Watched allowed none t)
      (Execute.context p) w := by
  induction p generalizing pending w with
  | done a =>
    obtain ⟨rfl, ha⟩ := hp
    exact .done (watched_stable hample none) h fun t ht => ⟨ha, ht⟩
  | call call next ih =>
    apply Always.call (watched_stable hample pending) h
    · exact fun t ht => Or.inr ⟨pending, ht⟩
    · rintro t r u ht ⟨⟨hexits, rfl⟩, hprompt⟩
      exact ih r (hp.2 r) (ht.after r hexits hp.1 hprompt)

def Settles : ExecutorCall → Prop
  | .getPool _ | .settle _ | .onError _ _ | .panic _ => True
  | _ => False

lemma settles_guarded {p : Execute α} (hample : ∀ d, allowed d → Ample d) (hp : p.Calls Settles)
    (h : Guarded allowed w) :
    Always promptly Promptly (fun _ => Guarded allowed) (fun _ => Guarded allowed) p w := by
  apply Always.of_calls hp (guarded_stable hample) h
  rintro t call r u hcall ht ⟨⟨-, hu⟩, -⟩
  cases call with
  | context | spawnWatchdog | abortWatchdog => exact hcall.elim
  | getPool | settle | onError =>
    obtain rfl : u = t := hu
    exact ht
  | panic => exact r.elim

lemma settle_settles (settlement : Settlement) : (settle settlement).Calls Settles := by
  refine ⟨trivial, ?_⟩
  rintro (err | _)
  · trivial
  · exact ⟨trivial, fun _ => trivial⟩

lemma failRunPayload_settles (queueName : String) (runId : Uuid) (payload : Json) :
    (failRunPayload queueName runId payload).Calls Settles := by
  rw [failRunPayload_eq]
  exact (settle_settles _).bind fun _ => trivial

lemma reportExecutionError_settles (onError : Bool) (err : Error) :
    (reportExecutionError onError err).Calls Settles := by
  cases onError with
  | false => trivial
  | true =>
    refine ⟨trivial, ?_⟩
    rintro (text | _)
    · exact ⟨trivial, fun r => r.elim⟩
    · trivial

variable (workerQueue : String) (task : ClaimedTask) (config : TaskExecutionConfig)

lemma settleOutcome_settles (o : Outcome) :
    (settleOutcome workerQueue task config o).Calls Settles := by
  rcases o with _ | err | err | value
  · simp only [settleOutcome, handleUnknownTask]
    split
    · exact settle_settles _
    · exact failRunPayload_settles _ _ _
  · exact failRunPayload_settles _ _ _
  · rw [settleOutcome]
    split
    · trivial
    · apply (failRunPayload_settles _ _ _).bind
      exact fun _ => (reportExecutionError_settles _ _).bind fun _ => trivial
  · rw [settleOutcome, completeRun_eq]
    exact (settle_settles _).bind fun _ => trivial

lemma afterJoin_settles (ending : Except JoinError (Result Unit)) :
    (afterJoin workerQueue task config ending).Calls Settles := by
  rcases ending with (message | _) | result
  · apply (failRunPayload_settles _ _ _).bind
    exact fun _ => (reportExecutionError_settles _ _).bind fun _ => trivial
  · trivial
  · trivial

lemma afterOutcome_settles (ending : Except JoinError Outcome) :
    (afterOutcome workerQueue task config ending).Calls Settles := by
  rcases ending with err | o
  · exact afterJoin_settles workerQueue task config (.error err)
  · apply ((settleOutcome_settles workerQueue task config o).caught joinError).bind
    exact fun ending => afterJoin_settles workerQueue task config ending

end Executions

inductive Executed (claimTimeout : Duration) (durations : Duration → Prop) :
    Execute (Result Unit) → Prop
  | mk {workerQueue : String} {registry : Option Registry} {task : ClaimedTask}
      {config : TaskExecutionConfig} {handler : MethodHandler (Result Json)} {chrono : Serde DateTime}
      {turns : ℕ} :
      config.claimTimeout = claimTimeout →
      (∀ tasks registration c, registry = some tasks → tasks task.taskName = some registration →
        runHandler registration.handler task.params c config.hooks =
          MethodHandler.process chrono turns handler c) →
      handler.Calls (HeartbeatsWithin fun d => d = claimTimeout ∨ durations d) →
      Executed claimTimeout durations (executeClaimedCatching workerQueue registry task config)

section Claims

variable {claimTimeout : Duration} {durations : Duration → Prop} {w : Leased}

lemma unwatched_claim_stable (claimTimeout : Duration) : Stable Promptly fun w =>
    w.watch = none ∧ w.expiry ≤ w.now + nanosPerSecond * durationSecondsCeil claimTimeout := by
  rintro w w' hw ⟨hnone, hclaim⟩
  refine ⟨unwatched_stable w w' hw hnone, ?_⟩
  obtain ⟨hpasses, -⟩ := hw
  cases hpasses with
  | time hexits hle =>
    dsimp only
    omega
  | drop => exact hclaim
  | polls hwatch => rw [hnone] at hwatch; cases hwatch

lemma Leased.spawn_watched {allowed : Duration → Prop} (hallowed : allowed claimTimeout)
    (h : w.expiry ≤ w.now + nanosPerSecond * durationSecondsCeil claimTimeout)
    (fatalOnLeaseTimeout : Bool) (turns : ℕ) :
    Watched allowed none (w.spawn claimTimeout fatalOnLeaseTimeout turns) := by
  refine ⟨rfl, hallowed, le_rfl, h, fun hne => absurd rfl hne, ?_, ?_⟩
  · rintro _ ⟨⟩
    exact ⟨le_rfl, .unread (leaseWatchdog_patient _ _)⟩
  · rintro ⟨_, ⟨⟩, code, next, hexit⟩
    cases turns with
    | zero => cases hexit
    | succ turns => cases hexit

lemma outcome_guarded {allowed : Duration → Prop} {workerQueue : String} {registry : Registry}
    {task : ClaimedTask} {config : TaskExecutionConfig}
    (hample : ∀ d, allowed d → Ample d) (hallowed : allowed config.claimTimeout)
    (hrun : ∀ registration c, registry task.taskName = some registration →
      Held config.claimTimeout c → Renews allowed (fun _ => True) none
        (runHandler registration.handler task.params c config.hooks))
    (hnone : w.watch = none)
    (hclaim : w.expiry ≤ w.now + nanosPerSecond * durationSecondsCeil config.claimTimeout) :
    Always promptly Promptly (fun _ => Guarded allowed) (fun _ => Guarded allowed)
      (outcome workerQueue registry task config) w := by
  have hstable := guarded_stable hample
  have hstart := unwatched_claim_stable config.claimTimeout
  cases hr : registry task.taskName with
  | none =>
    simp only [outcome, hr]
    exact .done hstable (Or.inl hnone) fun _ ht => ht
  | some registration =>
    simp only [outcome, hr]
    split
    · exact .done hstable (Or.inl hnone) fun _ ht => ht
    apply Always.call hstart ⟨hnone, hclaim⟩
    · exact fun t ht => Or.inl ht.1
    rintro t r u ⟨-, ht⟩ ⟨⟨-, turns, rfl⟩, -⟩
    change Always promptly Promptly _ _ ((Execute.context _).bind _) _
    apply Always.bind
    · exact Renews.watched hample (taskContext_renews _ _) (Leased.spawn_watched hallowed ht _ turns)
    have habort : ∀ result t, Watched allowed none t → Always promptly Promptly
        (fun _ => Guarded allowed) (fun _ => Guarded allowed)
        (abortWatchdog.bind fun _ => .done (Outcome.executed result)) t := by
      intro result t ht
      apply Always.call (watched_stable hample none) ht
      · exact fun v hv => Or.inr ⟨none, hv⟩
      · rintro v r x hv ⟨⟨-, rfl⟩, -⟩
        exact .done hstable (Or.inl rfl) fun _ hx => hx
    rintro (err | c) v ⟨hc, hv⟩
    · exact habort (.error err) v hv
    · apply Always.bind (Renews.watched hample (hrun registration c hr (hc c rfl)) hv)
      exact fun result x hx => habort result x hx.2

lemma executed_guarded {p : Execute (Result Unit)} (hp : Executed claimTimeout durations p)
    (hample : ∀ d, d = claimTimeout ∨ durations d → Ample d) (hnone : w.watch = none)
    (hclaim : w.expiry ≤ w.now + nanosPerSecond * durationSecondsCeil claimTimeout) :
    Always promptly Promptly (fun _ => Guarded fun d => d = claimTimeout ∨ durations d)
      (fun _ => Guarded fun d => d = claimTimeout ∨ durations d) p w := by
  obtain @⟨workerQueue, registry, task, config, handler, chrono, turns, rfl, hrun, hwithin⟩ := hp
  have hstable := guarded_stable hample
  cases registry with
  | none => exact .done hstable (Or.inl hnone) fun _ ht => ht
  | some tasks =>
    rw [executeClaimedCatching_eq]
    have hinner : Always promptly Promptly
        (fun _ => Guarded fun d => d = config.claimTimeout ∨ durations d)
        (fun _ => Guarded fun d => d = config.claimTimeout ∨ durations d)
        ((outcome workerQueue tasks task config).caught joinError) w := by
      apply Always.caught
      · apply outcome_guarded hample (Or.inl rfl) _ hnone hclaim
        intro registration c hregistration hc
        rw [hrun tasks registration c rfl hregistration]
        exact process_renews (Or.inl rfl) hc chrono turns hwithin
      · exact fun _ _ _ _ h => h
    apply hinner.bind
    intro ending t ht
    exact settles_guarded hample (afterOutcome_settles workerQueue task config ending) ht

end Claims

section Sample

def silentHandler (d : Duration) : MethodHandler (Result Json) :=
  .call (.heartbeatFor d) fun _ => .call (.supply (Result Json)) fun
    | .ok result => .done result
    | .error err => .done (.error err)

def silentRegistry (chrono : Serde DateTime) (d : Duration) : Registry := fun _ =>
  some ⟨"default", fun _ => MethodHandler.process chrono 0 (silentHandler d)⟩

def silentConfig (claimTimeout : Duration) : TaskExecutionConfig :=
  ⟨⟨none⟩, claimTimeout, .defer, true, false, Error.toString⟩

def silentExecution (chrono : Serde DateTime) (claimTimeout d : Duration) : Execute (Result Unit) :=
  executeClaimedCatching "default" (some (silentRegistry chrono d)) sampleTask
    (silentConfig claimTimeout)

def dateless : Serde DateTime := ⟨fun _ => .error "", fun _ => .error ""⟩

lemma silent_executed (chrono : Serde DateTime) {claimTimeout d : Duration}
    {durations : Duration → Prop} (hd : d = claimTimeout ∨ durations d) :
    Executed claimTimeout durations (silentExecution chrono claimTimeout d) := by
  refine @Executed.mk _ _ "default" (some (silentRegistry chrono d)) sampleTask
    (silentConfig claimTimeout) (silentHandler d) chrono 0 rfl ?_ ?_
  · rintro _ _ c ⟨⟩ ⟨⟩
    rfl
  · refine ⟨hd, fun _ => ⟨trivial, ?_⟩⟩
    rintro (err | result)
    · trivial
    · trivial

lemma not_exits {now expiry renewals renewedAt since seen heard : ℕ} {channel : Channel}
    {program : WatchdogM Unit} (h : ∀ code next, program ≠ .call (.exit code) next) :
    ¬ Leased.Exits
      ⟨now, expiry, renewals, renewedAt, channel, some ⟨program, since, seen, heard⟩⟩ := by
  rintro ⟨_, ⟨⟩, code, next, hexit⟩
  exact h code next hexit

lemma Passes.instant {w w' : Leased} (h : Passes w w') (hnow : w.now = w'.now) : Promptly w w' :=
  ⟨h, fun hlt => absurd hnow hlt.ne⟩

def silent (d : Duration) (now seen heard : ℕ) (program : WatchdogM Unit) (since : ℕ) : Leased :=
  ⟨now, 0 + nanosPerSecond * durationSecondsCeil d, 1, 0, ⟨d, 1, false⟩,
    some ⟨program, since, seen, heard⟩⟩

/-- The watchdog exits when the lease of `d` is over twice. -/
def silentEnd (d : Duration) : Leased :=
  silent d (d.nanos + d.nanos) 1 1 (.call (.exit 1) Empty.elim) (d.nanos + d.nanos)

lemma silent_drifts (d : Duration) :
    ReflTransGen Promptly (silent d 0 0 0 (leaseWatchdog true 2) 0) (silentEnd d) := by
  have hread : Promptly (silent d 0 0 0 (leaseWatchdog true 2) 0)
      (silent d 0 0 1 (listening true 1 d) 0) := by
    rw [leaseWatchdog_succ]
    exact (Passes.polls rfl .borrow).instant rfl
  have hwoken : Promptly (silent d 0 0 1 (listening true 1 d) 0)
      (silent d 0 1 1 (leaseWatchdog true 1) 0) :=
    (Passes.polls rfl (@Polls.changed 0 ⟨d, 1, false⟩ d _ 0 0 1 Nat.zero_ne_one)).instant rfl
  have hagain : Promptly (silent d 0 1 1 (leaseWatchdog true 1) 0)
      (silent d 0 1 1 (listening true 0 d) 0) := by
    rw [leaseWatchdog_succ]
    exact (Passes.polls rfl .borrow).instant rfl
  have hlater : Promptly (silent d 0 1 1 (listening true 0 d) 0)
      (silent d d.nanos 1 1 (listening true 0 d) 0) := by
    refine ⟨.time (not_exits nofun) (Nat.zero_le _), ?_⟩
    rintro - _ ⟨⟩
    refine ⟨rfl, ?_⟩
    intro t watch' _ hlt hpolls
    rcases hpolls.of_listening with ⟨hne, -⟩ | ⟨-, hclosed, -⟩ | ⟨hslept, -⟩
    · exact hne rfl
    · cases hclosed
    · simp only [silent] at hlt
      omega
  have hlate : Promptly (silent d d.nanos 1 1 (listening true 0 d) 0)
      (silent d d.nanos 1 1 (overdue true 0 d) d.nanos) :=
    (Passes.polls rfl (@Polls.slept d.nanos ⟨d, 1, false⟩ d _ 0 1 1 (Nat.zero_add _).le)).instant rfl
  have hlatest : Promptly (silent d d.nanos 1 1 (overdue true 0 d) d.nanos)
      (silent d (d.nanos + d.nanos) 1 1 (overdue true 0 d) d.nanos) := by
    refine ⟨.time (not_exits nofun) (Nat.le_add_left _ _), ?_⟩
    rintro - _ ⟨⟩
    refine ⟨rfl, ?_⟩
    intro t watch' _ hlt hpolls
    rcases hpolls.of_overdue with ⟨hne, -⟩ | ⟨-, hclosed, -⟩ | ⟨hslept, -⟩
    · exact hne rfl
    · cases hclosed
    · simp only [silent] at hlt
      omega
  have hexit : Promptly (silent d (d.nanos + d.nanos) 1 1 (overdue true 0 d) d.nanos)
      (silentEnd d) :=
    (Passes.polls rfl (@Polls.slept _ ⟨d, 1, false⟩ d _ d.nanos 1 1 le_rfl)).instant rfl
  exact .head hread (.head hwoken (.head hagain (.head hlater (.head hlate
    (.head hlatest (.single hexit))))))

lemma silent_exited (d : Duration) : (silentEnd d).Exits := ⟨_, rfl, 1, Empty.elim, rfl⟩

lemma pos_of_accepted {d : Duration} (h : d.isZero = false) : 0 < d.nanos := by
  simp only [Duration.isZero, beq_eq_false_iff_ne] at h
  omega

lemma silent_exits (chrono : Serde DateTime) {claimTimeout : Duration}
    (haccepted : claimTimeout.isZero = false) (d : Duration) : ∃ q,
    Interleaves promptly Promptly (silentExecution chrono claimTimeout d)
      (.claimed claimTimeout 0 0 ⟨claimTimeout, 0, false⟩) q (silentEnd d) := by
  have hpositive := pos_of_accepted haccepted
  have hspawned : ∀ expiry renewals channel, ¬ Leased.Exits
      ⟨0, expiry, renewals, 0, channel, some ⟨leaseWatchdog true 2, 0, 0, 0⟩⟩ := by
    intro expiry renewals channel
    exact not_exits (leaseWatchdog_succ true 1 ▸ nofun)
  refine ⟨?q, ?_⟩
  rotate_left
  · apply Interleaves.step (A := ExecutorAnswer) (e := .spawnWatchdog _ _ _) (r := ())
    · refine ⟨⟨?_, 2, rfl⟩, fun hlt => absurd hlt (Nat.not_lt_zero _)⟩
      rintro ⟨_, ⟨⟩, -⟩
    apply Interleaves.step (A := ExecutorAnswer) (e := .context .poolGet) (r := .ok ())
    · exact ⟨⟨hspawned _ _ _, rfl⟩, fun hlt => absurd rfl hlt.ne⟩
    apply Interleaves.step (A := ExecutorAnswer) (e := .context (.query _)) (r := .ok [])
    · exact ⟨⟨hspawned _ _ _, rfl⟩, fun hlt => absurd rfl hlt.ne⟩
    apply Interleaves.step (A := ExecutorAnswer) (e := .context .poolGet) (r := .ok ())
    · exact ⟨⟨hspawned _ _ _, rfl⟩, fun hlt => absurd rfl hlt.ne⟩
    apply Interleaves.step (A := ExecutorAnswer) (e := .context (.query _)) (r := .ok ())
    · refine ⟨⟨hspawned _ _ _, rfl⟩, fun _ => ?_⟩
      change 0 < 0 + 2 * claimTimeout.nanos
      omega
    apply Interleaves.step (A := ExecutorAnswer) (e := .context (.sendLease _)) (r := ())
    · exact ⟨⟨hspawned _ _ _, rfl⟩, fun hlt => absurd rfl hlt.ne⟩
    exact .of_drifts _ (silent_drifts d)

/-- When replies and notifications come promptly, the process is never ended while the run's claim
is valid exactly when the claim timeout and the durations of all heartbeats are half a second at
least, or zero. -/
theorem watchdog_spares_claims_iff {claimTimeout : Duration}
    (haccepted : claimTimeout.isZero = false) (durations : Duration → Prop) :
    (∀ p claimedAt now channel q w, Executed claimTimeout durations p → claimedAt ≤ now →
      Interleaves promptly Promptly p (.claimed claimTimeout claimedAt now channel) q w →
      w.Exits → w.expiry ≤ w.now) ↔
    ∀ d, d = claimTimeout ∨ durations d → d.nanos = 0 ∨ 500000000 ≤ d.nanos := by
  constructor
  · intro h d hd
    rw [← ample_iff, Ample]
    obtain ⟨q, hq⟩ := silent_exits dateless haccepted d
    have hle := h _ 0 0 _ q _ (silent_executed dateless hd) le_rfl hq (silent_exited d)
    simp only [silentEnd, silent] at hle
    omega
  · intro h p claimedAt now channel q w hp hclaimed hq hexits
    have hguarded := (executed_guarded (w := .claimed claimTimeout claimedAt now channel) hp
      (fun d hd => (ample_iff d).mpr (h d hd)) rfl
      (Nat.add_le_add_right hclaimed _)).interleaves hq
    cases q with
    | done a => exact (hguarded w .refl).spared hexits
    | call call next => exact (hguarded w .refl).1.spared hexits

theorem watchdog_spares_claims_sample :
    Executed (Duration.fromSecs 120) (fun d => d = Duration.fromSecs 30)
      (silentExecution dateless (Duration.fromSecs 120) (Duration.fromSecs 30)) ∧
    (∃ q, Interleaves promptly Promptly
      (silentExecution dateless (Duration.fromSecs 120) (Duration.fromSecs 30))
      (.claimed (Duration.fromSecs 120) 0 0 ⟨Duration.fromSecs 120, 0, false⟩) q
      (silentEnd (Duration.fromSecs 30))) ∧
    (silentEnd (Duration.fromSecs 30)).Exits ∧
    (silentEnd (Duration.fromSecs 30)).expiry ≤ (silentEnd (Duration.fromSecs 30)).now := by
  have haccepted : (Duration.fromSecs 120).isZero = false := by decide +kernel
  have hample : ∀ d, d = Duration.fromSecs 120 ∨ d = Duration.fromSecs 30 →
      d.nanos = 0 ∨ 500000000 ≤ d.nanos := by
    rintro d (rfl | rfl)
    · exact Or.inr (by decide +kernel)
    · exact Or.inr (by decide +kernel)
  obtain ⟨q, hq⟩ := silent_exits dateless haccepted (Duration.fromSecs 30)
  have hp : Executed (Duration.fromSecs 120) (fun d => d = Duration.fromSecs 30)
      (silentExecution dateless (Duration.fromSecs 120) (Duration.fromSecs 30)) :=
    silent_executed dateless (Or.inr rfl)
  exact ⟨hp, ⟨q, hq⟩, silent_exited _,
    (watchdog_spares_claims_iff haccepted _).mpr hample _ 0 0 _ q _ hp le_rfl hq (silent_exited _)⟩

theorem watchdog_ends_claimed_process :
    Executed (Duration.fromMillis 100) (fun _ => False)
      (silentExecution dateless (Duration.fromMillis 100) (Duration.fromMillis 100)) ∧
    (∃ q, Interleaves promptly Promptly
      (silentExecution dateless (Duration.fromMillis 100) (Duration.fromMillis 100))
      (.claimed (Duration.fromMillis 100) 0 0 ⟨Duration.fromMillis 100, 0, false⟩) q
      (silentEnd (Duration.fromMillis 100))) ∧
    (silentEnd (Duration.fromMillis 100)).Exits ∧
    (silentEnd (Duration.fromMillis 100)).now = 200000000 ∧
    (silentEnd (Duration.fromMillis 100)).expiry = 1000000000 := by
  have haccepted : (Duration.fromMillis 100).isZero = false := by decide +kernel
  exact ⟨silent_executed dateless (Or.inl rfl), silent_exits dateless haccepted _, silent_exited _,
    by decide +kernel, by decide +kernel⟩

def unsent (d : Duration) (now renewals : ℕ) (program : WatchdogM Unit) (since : ℕ) : Leased where
  now := now
  expiry := if renewals = 0 then 0 + nanosPerSecond * durationSecondsCeil d else
    2 * d.nanos - 1 + nanosPerSecond * durationSecondsCeil d
  renewals := renewals
  renewedAt := if renewals = 0 then 0 else 2 * d.nanos - 1
  channel := ⟨d, 0, false⟩
  watch := some ⟨program, since, 0, 0⟩

lemma unsent_running {d : Duration} {now renewals since : ℕ} {program : WatchdogM Unit}
    (h : ∀ code next, program ≠ .call (.exit code) next) :
    ¬ (unsent d now renewals program since).Exits := not_exits h

lemma unsent_early (d : Duration) (hpositive : 0 < d.nanos) :
    ReflTransGen Passes (unsent d 0 0 (leaseWatchdog true 1) 0)
      (unsent d (2 * d.nanos - 1) 0 (overdue true 0 d) d.nanos) := by
  have hread : Passes (unsent d 0 0 (leaseWatchdog true 1) 0)
      (unsent d 0 0 (listening true 0 d) 0) := by
    rw [leaseWatchdog_succ]
    exact .polls rfl .borrow
  have hslept : Passes (unsent d d.nanos 0 (listening true 0 d) 0)
      (unsent d d.nanos 0 (overdue true 0 d) d.nanos) :=
    .polls rfl (@Polls.slept d.nanos _ d _ 0 0 0 (Nat.zero_add _).le)
  refine .head hread (.head (.time (unsent_running nofun) (Nat.zero_le _)) (.head hslept
    (.single (.time (unsent_running nofun) ?_))))
  change d.nanos ≤ 2 * d.nanos - 1
  omega

lemma unsent_late (d : Duration) :
    ReflTransGen Passes (unsent d (2 * d.nanos - 1) 1 (overdue true 0 d) d.nanos)
      (unsent d (2 * d.nanos) 1 (.call (.exit 1) Empty.elim) (2 * d.nanos)) := by
  refine .head (.time (unsent_running nofun) (Nat.sub_le _ 1)) (.single (.polls rfl ?_))
  exact @Polls.slept _ _ d _ d.nanos 0 0 (by dsimp only; omega)

lemma unsent_exits (chrono : Serde DateTime) (d : Duration) (hpositive : 0 < d.nanos) : ∃ q,
    Interleaves leased Passes (silentExecution chrono d d) (.claimed d 0 0 ⟨d, 0, false⟩) q
      (unsent d (2 * d.nanos) 1 (.call (.exit 1) Empty.elim) (2 * d.nanos)) := by
  have hstart : ¬ (unsent d 0 0 (leaseWatchdog true 1) 0).Exits :=
    unsent_running (leaseWatchdog_succ true 0 ▸ nofun)
  refine ⟨?q, ?_⟩
  rotate_left
  · apply Interleaves.step (A := ExecutorAnswer) (e := .spawnWatchdog _ _ _) (r := ())
    · refine ⟨?_, 1, rfl⟩
      rintro ⟨_, ⟨⟩, -⟩
    apply Interleaves.step (A := ExecutorAnswer) (e := .context .poolGet) (r := .ok ())
    · exact ⟨hstart, rfl⟩
    apply Interleaves.step (A := ExecutorAnswer) (e := .context (.query _)) (r := .ok [])
    · exact ⟨hstart, rfl⟩
    apply Interleaves.step (A := ExecutorAnswer) (e := .context .poolGet) (r := .ok ())
    · exact ⟨hstart, rfl⟩
    refine .drifts (unsent_early d hpositive) ?_
    apply Interleaves.step (A := ExecutorAnswer) (e := .context (.query _)) (r := .ok ())
    · exact ⟨unsent_running nofun, rfl⟩
    exact .of_drifts _ (unsent_late d)

/-- Whatever the claim timeout, a renewal whose notification is under way does not stop the
watchdog. -/
theorem watchdog_overtakes_notification {claimTimeout : Duration}
    (haccepted : claimTimeout.isZero = false) : ∃ p q w,
    Executed claimTimeout (fun _ => False) p ∧
    Interleaves leased Passes p (.claimed claimTimeout 0 0 ⟨claimTimeout, 0, false⟩) q w ∧
    w.Exits ∧ w.now < w.expiry := by
  have hpositive := pos_of_accepted haccepted
  obtain ⟨q, hq⟩ := unsent_exits dateless claimTimeout hpositive
  refine ⟨_, q, _, silent_executed dateless (Or.inl rfl), hq, ⟨_, rfl, 1, Empty.elim, rfl⟩, ?_⟩
  change 2 * claimTimeout.nanos <
    2 * claimTimeout.nanos - 1 + nanosPerSecond * durationSecondsCeil claimTimeout
  rw [durationSecondsCeil_eq]
  have hbounded := claimTimeout.bounded
  simp only [nanosPerSecond] at hbounded ⊢
  omega

end Sample

end AbsurdSdk.Execution
