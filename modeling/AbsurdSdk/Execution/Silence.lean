import AbsurdSdk.Execution.Watchdog
import AbsurdSdk.Interaction.Inevitable

namespace AbsurdSdk.Execution

open Interaction Model Relation

structure Renewal where
  time : ℕ
  lease : Duration

def Renewal.due (r : Renewal) : ℕ := r.time + 2 * r.lease.nanos

structure Timed where
  now : ℕ
  channel : Channel
  watch : Watch
  renewals : List Renewal
  dropped : Option ℕ

namespace Timed

/-- The fuel of the watchdog's loop is one turn, and is renewed at the head of the loop. -/
def start (fatalOnLeaseTimeout : Bool) (initial : Renewal) : Timed where
  now := initial.time
  channel := ⟨initial.lease, 0, false⟩
  watch := ⟨leaseWatchdog fatalOnLeaseTimeout 0, initial.time, 0, 0⟩
  renewals := [initial]
  dropped := none

def renew (w : Timed) (lease : Duration) : Timed :=
  { w with
    channel := { w.channel with value := lease, version := w.channel.version + 1 }
    renewals := ⟨w.now, lease⟩ :: w.renewals }

def drop (w : Timed) : Timed :=
  { w with channel := { w.channel with closed := true }, dropped := some w.now }

def Ended (w : Timed) : Prop := w.watch.program = .done ()

def Prompt (w : Timed) : Prop := w.renewals.IsChain fun later earlier => later.time < earlier.due

def InTime (w : Timed) : Prop :=
  w.Prompt ∧ ∀ r ∈ w.renewals.head?, w.now < r.due ∨ ∃ t ∈ w.dropped, t < r.due

end Timed

/-- The watchdog is polled, or time passes while it cannot be. -/
inductive Quiet (fatalOnLeaseTimeout : Bool) : Timed → Timed → Prop
  | turn {w : Timed} : w.watch.program = leaseWatchdog fatalOnLeaseTimeout 0 →
      Quiet fatalOnLeaseTimeout w
        { w with watch := { w.watch with program := leaseWatchdog fatalOnLeaseTimeout 1 } }
  | poll {w : Timed} {watch : Watch} : Polls w.now w.channel w.watch watch →
      Quiet fatalOnLeaseTimeout w { w with watch := watch }
  | time {w : Timed} {later : ℕ} : w.now < later → ¬ w.watch.Exits →
      w.watch.program ≠ leaseWatchdog fatalOnLeaseTimeout 0 →
      (∀ t watch, w.now ≤ t → t < later → ¬ Polls t w.channel w.watch watch) →
      Quiet fatalOnLeaseTimeout w { w with now := later }

/-- Beside that, a renewal is sent, or the last sender is dropped. -/
inductive Advances (fatalOnLeaseTimeout : Bool) : Timed → Timed → Prop
  | quiet {w w' : Timed} : Quiet fatalOnLeaseTimeout w w' → Advances fatalOnLeaseTimeout w w'
  | renew {w : Timed} (lease : Duration) : w.dropped = none → ¬ w.watch.Exits →
      Advances fatalOnLeaseTimeout w (w.renew lease)
  | drop {w : Timed} : w.dropped = none → ¬ w.watch.Exits →
      Advances fatalOnLeaseTimeout w w.drop

section Polled

variable {now since seen heard : ℕ} {channel : Channel} {lease : Duration}

lemma waits_of_unpolled {program : WatchdogM Unit} {next : Woken → WatchdogM Unit} {later : ℕ}
    (hprogram : program = .call (.select lease) next)
    (h : ∀ t watch, now ≤ t → t < later → ¬ Polls t channel ⟨program, since, seen, heard⟩ watch)
    (hlater : now < later) (hnow : now ≤ since + lease.nanos) :
    seen = channel.version ∧ channel.closed = false ∧ later ≤ since + lease.nanos := by
  subst hprogram
  have hseen : seen = channel.version := by
    by_contra hne
    exact h now _ le_rfl hlater (.changed hne)
  refine ⟨hseen, ?_, ?_⟩
  · by_contra hclosed
    exact h now _ le_rfl hlater (.closed hseen (by simpa using hclosed))
  · by_contra hlate
    exact h (since + lease.nanos) _ hnow (by omega) (.slept le_rfl)

end Polled

section Phases

variable {fatalOnLeaseTimeout : Bool} {w w' : Timed}

structure Sent (w : Timed) : Prop where
  version : w.renewals.length = w.channel.version + 1
  value : ∀ r ∈ w.renewals.head?, r.lease = w.channel.value
  past : ∀ r ∈ w.renewals.head?, r.time ≤ w.now
  closed : w.channel.closed = w.dropped.isSome

structure Alert (w : Timed) : Prop where
  seen : w.watch.seen ≤ w.channel.version
  unseen : ∀ r ∈ w.renewals.take (w.channel.version - w.watch.seen), r.time = w.now
  drop : ∀ t ∈ w.dropped, t = w.now

structure Read (w : Timed) (r : Renewal) : Prop where
  seen : w.watch.seen ≤ w.watch.heard
  heard : w.watch.heard ≤ w.channel.version
  renewal : w.renewals[w.channel.version - w.watch.heard]? = some r

inductive Phase (fatalOnLeaseTimeout : Bool) (w : Timed) : Prop
  | head {turns : ℕ} : Alert w → w.watch.program = leaseWatchdog fatalOnLeaseTimeout turns →
      turns ≤ 1 → (fatalOnLeaseTimeout = true → ∀ r ∈ w.renewals.head?, r.time = w.now) →
      Phase fatalOnLeaseTimeout w
  | listening {r : Renewal} : Alert w → Read w r →
      w.watch.program = listening fatalOnLeaseTimeout 0 r.lease →
      (fatalOnLeaseTimeout = true → w.watch.since = r.time) →
      w.now ≤ w.watch.since + r.lease.nanos → Phase fatalOnLeaseTimeout w
  | overdue {r : Renewal} : Alert w → Read w r → fatalOnLeaseTimeout = true →
      w.watch.program = overdue true 0 r.lease → w.watch.since = r.time + r.lease.nanos →
      w.now ≤ w.watch.since + r.lease.nanos → Phase fatalOnLeaseTimeout w
  | exit {r : Renewal} : Alert w → Read w r → fatalOnLeaseTimeout = true →
      w.watch.program = .call (.exit 1) Empty.elim → w.now = r.due → Phase fatalOnLeaseTimeout w
  | ended {t : ℕ} : w.watch.program = .done () → w.dropped = some t → t ≤ w.now →
      Phase fatalOnLeaseTimeout w

lemma start_phase (fatalOnLeaseTimeout : Bool) (initial : Renewal) :
    Sent (.start fatalOnLeaseTimeout initial) ∧
      Phase fatalOnLeaseTimeout (.start fatalOnLeaseTimeout initial) := by
  refine ⟨⟨rfl, by simp [Timed.start], by simp [Timed.start], rfl⟩, ?_⟩
  exact .head ⟨le_rfl, by simp [Timed.start], by simp [Timed.start]⟩ rfl (Nat.zero_le 1)
    (by simp [Timed.start])

lemma leaseWatchdog_zero_ne_succ {turns : ℕ} :
    leaseWatchdog fatalOnLeaseTimeout (turns + 1) ≠ leaseWatchdog fatalOnLeaseTimeout 0 := by
  rw [leaseWatchdog_succ]
  exact nofun

lemma phase_turn (h : Phase fatalOnLeaseTimeout w)
    (hprogram : w.watch.program = leaseWatchdog fatalOnLeaseTimeout 0) :
    Phase fatalOnLeaseTimeout
      { w with watch := { w.watch with program := leaseWatchdog fatalOnLeaseTimeout 1 } } := by
  cases h with
  | head halert _ _ hnow => exact .head ⟨halert.seen, halert.unseen, halert.drop⟩ rfl le_rfl hnow
  | listening _ _ hp | overdue _ _ _ hp | exit _ _ _ hp | ended hp =>
    rw [hprogram] at hp
    cases hp

lemma Alert.news (h : Alert w) (hseen : w.watch.seen ≠ w.channel.version) :
    ∀ r ∈ w.renewals.head?, r.time = w.now := by
  intro r hr
  apply h.unseen
  have hle := h.seen
  obtain ⟨rest, hrest⟩ := List.head?_eq_some_iff.mp hr
  obtain ⟨k, hk⟩ : ∃ k, w.channel.version - w.watch.seen = k + 1 :=
    ⟨w.channel.version - w.watch.seen - 1, by omega⟩
  rw [hk, hrest, List.take_succ_cons]
  exact List.mem_cons_self ..

lemma Alert.noticed (h : Alert w) (hseen : w.watch.seen ≠ w.channel.version) (heard : ℕ) :
    Phase fatalOnLeaseTimeout
      { w with watch := ⟨leaseWatchdog fatalOnLeaseTimeout 0, w.now, w.channel.version, heard⟩ } :=
  .head ⟨le_rfl, by simp, h.drop⟩ rfl (Nat.zero_le 1) fun _ => h.news hseen

lemma Alert.closed (h : Alert w) (hsent : Sent w) (hclosed : w.channel.closed = true)
    (seen heard : ℕ) :
    Phase fatalOnLeaseTimeout { w with watch := ⟨.done (), w.now, seen, heard⟩ } := by
  rw [hsent.closed, Option.isSome_iff_exists] at hclosed
  obtain ⟨t, ht⟩ := hclosed
  exact .ended rfl ht (h.drop t ht).le

lemma phase_poll {watch : Watch} (h : Phase fatalOnLeaseTimeout w) (hsent : Sent w)
    (hpoll : Polls w.now w.channel w.watch watch) :
    Phase fatalOnLeaseTimeout { w with watch := watch } := by
  obtain ⟨now, channel, ⟨program, since, seen, heard⟩, renewals, dropped⟩ := w
  cases h with
  | @head turns halert hp hturns hnow =>
    obtain rfl : program = leaseWatchdog fatalOnLeaseTimeout turns := hp
    obtain rfl | rfl : turns = 0 ∨ turns = 1 := by omega
    · cases hpoll
    · obtain rfl := hpoll.of_head
      obtain ⟨r, rest, rfl⟩ : ∃ r rest, renewals = r :: rest :=
        List.exists_cons_of_length_eq_add_one hsent.version
      rw [← hsent.value r rfl]
      have hread : Read ⟨now, channel, ⟨listening fatalOnLeaseTimeout 0 r.lease, now, seen,
          channel.version⟩, r :: rest, dropped⟩ r := by
        refine ⟨halert.seen, le_rfl, ?_⟩
        simp
      exact .listening ⟨halert.seen, halert.unseen, halert.drop⟩ hread rfl
        (fun hfatal => (hnow hfatal r rfl).symm) (Nat.le_add_right _ _)
  | @listening r halert hread hp hsince hle =>
    obtain rfl : program = listening fatalOnLeaseTimeout 0 r.lease := hp
    rcases hpoll.of_listening with ⟨hne, rfl⟩ | ⟨-, hclosed, rfl⟩ | ⟨hslept, rfl⟩
    · exact halert.noticed hne heard
    · exact halert.closed hsent hclosed seen heard
    · have halert' : Alert ⟨now, channel, ⟨overdue fatalOnLeaseTimeout 0 r.lease, now, seen, heard⟩,
          renewals, dropped⟩ := ⟨halert.seen, halert.unseen, halert.drop⟩
      cases fatalOnLeaseTimeout with
      | false => exact .head halert' rfl (Nat.zero_le 1) nofun
      | true =>
        refine .overdue halert' ⟨hread.seen, hread.heard, hread.renewal⟩ rfl rfl ?_
          (Nat.le_add_right _ _)
        have hstart := hsince rfl
        dsimp only at hstart hle hslept ⊢
        omega
  | @overdue r halert hread hfatal hp hsince hle =>
    subst hfatal
    obtain rfl : program = overdue true 0 r.lease := hp
    rcases hpoll.of_overdue with ⟨hne, rfl⟩ | ⟨-, hclosed, rfl⟩ | ⟨hslept, rfl⟩
    · exact halert.noticed hne heard
    · exact halert.closed hsent hclosed seen heard
    · refine .exit ⟨halert.seen, halert.unseen, halert.drop⟩
        ⟨hread.seen, hread.heard, hread.renewal⟩ rfl rfl ?_
      dsimp only [Renewal.due] at hsince hle hslept ⊢
      omega
  | exit _ _ _ hp =>
    obtain rfl : program = .call (.exit 1) Empty.elim := hp
    cases hpoll
  | ended hp =>
    obtain rfl : program = .done () := hp
    cases hpoll

lemma phase_time {later : ℕ} (h : Phase fatalOnLeaseTimeout w) (hlater : w.now < later)
    (hexits : ¬ w.watch.Exits) (hhead : w.watch.program ≠ leaseWatchdog fatalOnLeaseTimeout 0)
    (hunpolled : ∀ t watch, w.now ≤ t → t < later → ¬ Polls t w.channel w.watch watch)
    (hsent : Sent w) : Phase fatalOnLeaseTimeout { w with now := later } := by
  obtain ⟨now, channel, ⟨program, since, seen, heard⟩, renewals, dropped⟩ := w
  -- a sleep over an open channel that is known goes on
  have hwaits : ∀ {lease : Duration} {next : Woken → WatchdogM Unit},
      program = .call (.select lease) next → now ≤ since + lease.nanos →
      Alert ⟨later, channel, ⟨program, since, seen, heard⟩, renewals, dropped⟩ ∧
        later ≤ since + lease.nanos := by
    intro lease next hprogram hle
    obtain ⟨hseen, hopen, hlate⟩ := waits_of_unpolled hprogram hunpolled hlater hle
    have hclosed : channel.closed = dropped.isSome := hsent.closed
    have hnone : dropped = none := by simpa [hclosed] using hopen
    exact ⟨⟨hseen.le, by simp [hseen], by simp [hnone]⟩, hlate⟩
  cases h with
  | @head turns halert hp hturns hnow =>
    obtain rfl : program = leaseWatchdog fatalOnLeaseTimeout turns := hp
    obtain rfl | rfl : turns = 0 ∨ turns = 1 := by omega
    · exact absurd rfl hhead
    · rw [leaseWatchdog_succ] at hunpolled
      exact absurd Polls.borrow (hunpolled now _ le_rfl hlater)
  | @listening r halert hread hp hsince hle =>
    obtain ⟨halert', hlate⟩ := hwaits hp hle
    exact .listening halert' ⟨hread.seen, hread.heard, hread.renewal⟩ hp hsince hlate
  | @overdue r halert hread hfatal hp hsince hle =>
    obtain ⟨halert', hlate⟩ := hwaits hp hle
    exact .overdue halert' ⟨hread.seen, hread.heard, hread.renewal⟩ hfatal hp hsince hlate
  | exit _ _ _ hp => exact absurd ⟨1, Empty.elim, hp⟩ hexits
  | ended hp hdrop hle => exact .ended hp hdrop (hle.trans hlater.le)

lemma quiet_sent (h : Quiet fatalOnLeaseTimeout w w') (hsent : Sent w) : Sent w' := by
  cases h with
  | turn | poll => exact ⟨hsent.version, hsent.value, hsent.past, hsent.closed⟩
  | time hlater =>
    exact ⟨hsent.version, hsent.value, fun r hr => (hsent.past r hr).trans hlater.le, hsent.closed⟩

lemma quiet_phase (h : Quiet fatalOnLeaseTimeout w w') (hsent : Sent w)
    (hphase : Phase fatalOnLeaseTimeout w) : Phase fatalOnLeaseTimeout w' := by
  cases h with
  | turn hprogram => exact phase_turn hphase hprogram
  | poll hpoll => exact phase_poll hphase hsent hpoll
  | time hlater hexits hhead hunpolled =>
    exact phase_time hphase hlater hexits hhead hunpolled hsent

lemma Sent.renew (h : Sent w) (lease : Duration) : Sent (w.renew lease) := by
  refine ⟨?_, by simp [Timed.renew], by simp [Timed.renew], h.closed⟩
  simp [Timed.renew, h.version]

lemma Alert.renew (h : Alert w) (lease : Duration) : Alert (w.renew lease) := by
  have hle := h.seen
  refine ⟨hle.trans (Nat.le_succ _), ?_, h.drop⟩
  change ∀ r ∈ (_ :: w.renewals).take (w.channel.version + 1 - w.watch.seen), r.time = w.now
  rw [Nat.succ_sub hle, List.take_succ_cons]
  simpa using h.unseen

lemma Read.renew {r : Renewal} (h : Read w r) (lease : Duration) : Read (w.renew lease) r := by
  refine ⟨h.seen, h.heard.trans (Nat.le_succ _), ?_⟩
  change (_ :: w.renewals)[w.channel.version + 1 - w.watch.heard]? = some r
  rw [Nat.succ_sub h.heard, List.getElem?_cons_succ]
  exact h.renewal

lemma renew_phase (h : Phase fatalOnLeaseTimeout w) (lease : Duration) (hopen : w.dropped = none)
    (hexits : ¬ w.watch.Exits) : Phase fatalOnLeaseTimeout (w.renew lease) := by
  cases h with
  | head halert hp hturns =>
    exact .head (halert.renew lease) hp hturns fun _ => by simp [Timed.renew]
  | listening halert hread hp hsince hle =>
    exact .listening (halert.renew lease) (hread.renew lease) hp hsince hle
  | overdue halert hread hfatal hp hsince hle =>
    exact .overdue (halert.renew lease) (hread.renew lease) hfatal hp hsince hle
  | exit _ _ _ hp => exact absurd ⟨1, Empty.elim, hp⟩ hexits
  | ended _ hdrop =>
    rw [hopen] at hdrop
    cases hdrop

lemma Alert.dropped (h : Alert w) : Alert w.drop :=
  ⟨h.seen, h.unseen, by simp [Timed.drop]⟩

lemma drop_phase (h : Phase fatalOnLeaseTimeout w) (hopen : w.dropped = none) :
    Phase fatalOnLeaseTimeout w.drop := by
  cases h with
  | head halert hp hturns hnow => exact .head halert.dropped hp hturns hnow
  | listening halert hread hp hsince hle =>
    exact .listening halert.dropped ⟨hread.seen, hread.heard, hread.renewal⟩ hp hsince hle
  | overdue halert hread hfatal hp hsince hle =>
    exact .overdue halert.dropped ⟨hread.seen, hread.heard, hread.renewal⟩ hfatal hp hsince hle
  | exit halert hread hfatal hp hdue =>
    exact .exit halert.dropped ⟨hread.seen, hread.heard, hread.renewal⟩ hfatal hp hdue
  | ended _ hdrop =>
    rw [hopen] at hdrop
    cases hdrop

lemma advances_phase (h : Advances fatalOnLeaseTimeout w w')
    (hw : Sent w ∧ Phase fatalOnLeaseTimeout w) : Sent w' ∧ Phase fatalOnLeaseTimeout w' := by
  obtain ⟨hsent, hphase⟩ := hw
  cases h with
  | quiet hquiet => exact ⟨quiet_sent hquiet hsent, quiet_phase hquiet hsent hphase⟩
  | renew lease hopen hexits => exact ⟨hsent.renew lease, renew_phase hphase lease hopen hexits⟩
  | drop hopen =>
    exact ⟨⟨hsent.version, hsent.value, hsent.past, rfl⟩, drop_phase hphase hopen⟩

lemma advances_reached {initial : Renewal}
    (h : ReflTransGen (Advances fatalOnLeaseTimeout) (.start fatalOnLeaseTimeout initial) w) :
    Sent w ∧ Phase fatalOnLeaseTimeout w := by
  induction h with
  | refl => exact start_phase fatalOnLeaseTimeout initial
  | tail _ hstep ih => exact advances_phase hstep ih

end Phases

section Exit

variable {fatalOnLeaseTimeout : Bool} {w : Timed} {r : Renewal}

lemma Read.newest (hread : Read w r) (halert : Alert w) (hprompt : w.Prompt) (hdue : r.due ≤ w.now) :
    w.renewals.head? = some r := by
  have hrenewal := hread.renewal
  obtain hk | ⟨k, hk⟩ : w.channel.version - w.watch.heard = 0 ∨
      ∃ k, w.channel.version - w.watch.heard = k + 1 := by
    cases w.channel.version - w.watch.heard with
    | zero => exact Or.inl rfl
    | succ k => exact Or.inr ⟨k, rfl⟩
  · rw [hk] at hrenewal
    rw [List.head?_eq_getElem?]
    exact hrenewal
  · rw [hk] at hrenewal
    obtain ⟨hlength, rfl⟩ := List.getElem?_eq_some_iff.mp hrenewal
    have hlater := List.isChain_iff_getElem.mp hprompt k hlength
    have hseen := hread.seen
    have hnow := halert.unseen w.renewals[k] (List.mem_take_iff_getElem.mpr ⟨k, by omega, rfl⟩)
    omega

lemma Phase.exits (h : Phase fatalOnLeaseTimeout w) (hexits : w.watch.Exits) :
    fatalOnLeaseTimeout = true ∧ Alert w ∧ ∃ r, Read w r ∧ w.now = r.due := by
  obtain ⟨code, next, hprogram⟩ := hexits
  cases h with
  | @head turns _ hp hturns =>
    rw [hp] at hprogram
    cases turns with
    | zero => cases hprogram
    | succ turns => rw [leaseWatchdog_succ] at hprogram; cases hprogram
  | listening _ _ hp | ended hp => rw [hp] at hprogram; cases hprogram
  | overdue _ _ _ hp => rw [hp] at hprogram; cases hprogram
  | exit halert hread hfatal _ hdue => exact ⟨hfatal, halert, _, hread, hdue⟩

lemma Read.newest_or_now {r' : Renewal} (hread : Read w r') (halert : Alert w)
    (hr : w.renewals.head? = some r) : r' = r ∨ r.time = w.now := by
  by_cases hseen : w.watch.seen = w.channel.version
  · left
    have hrenewal := hread.renewal
    have hheard := hread.heard
    have hle := hread.seen
    rw [show w.channel.version - w.watch.heard = 0 by omega, ← List.head?_eq_getElem?, hr] at hrenewal
    exact (Option.some.inj hrenewal).symm
  · exact Or.inr (halert.news hseen r hr)

lemma Phase.exits_due (h : Phase fatalOnLeaseTimeout w) (hexits : w.watch.Exits)
    (hr : w.renewals.head? = some r) : w.now = r.due ∨ ¬ w.Prompt ∧ w.now = r.time := by
  obtain ⟨-, halert, r', hread, hdue⟩ := h.exits hexits
  by_cases hprompt : w.Prompt
  · rw [hread.newest halert hprompt hdue.ge] at hr
    obtain rfl := Option.some.inj hr
    exact Or.inl hdue
  · rcases hread.newest_or_now halert hr with rfl | hnow
    · exact Or.inl hdue
    · exact Or.inr ⟨hprompt, hnow.symm⟩

lemma Phase.spared (h : Phase fatalOnLeaseTimeout w) (hsent : Sent w) (hin : w.InTime) :
    ¬ w.watch.Exits := by
  intro hexits
  obtain ⟨hprompt, hlast⟩ := hin
  obtain ⟨r, rest, hr⟩ := List.exists_cons_of_length_eq_add_one hsent.version
  have hnewest : w.renewals.head? = some r := by rw [hr]; rfl
  have hdue := (h.exits_due hexits hnewest).resolve_right fun h => h.1 hprompt
  obtain ⟨-, halert, -⟩ := h.exits hexits
  rcases hlast r hnewest with hlt | ⟨t, ht, hlt⟩
  · omega
  · rw [halert.drop t ht] at hlt
    omega

end Exit

section Progress

variable {fatalOnLeaseTimeout : Bool} {w : Timed}

lemma select_progress {lease : Duration} {next : Woken → WatchdogM Unit}
    (hprogram : w.watch.program = .call (.select lease) next) :
    ∃ v, Quiet fatalOnLeaseTimeout w v := by
  obtain ⟨now, channel, ⟨program, since, seen, heard⟩, renewals, dropped⟩ := w
  obtain rfl : program = .call (.select lease) next := hprogram
  by_cases hseen : seen = channel.version
  · by_cases hclosed : channel.closed = true
    · exact ⟨_, .poll (.closed hseen hclosed)⟩
    · by_cases hslept : since + lease.nanos ≤ now
      · exact ⟨_, .poll (.slept hslept)⟩
      · refine ⟨_, .time (Nat.lt_of_not_le hslept) ?_ nofun ?_⟩
        · rintro ⟨code, next, ⟨⟩⟩
        · intro t watch _ ht hpoll
          cases hpoll with
          | changed hne => exact hne hseen
          | closed _ hclosed' => exact hclosed hclosed'
          | slept hslept' => omega
  · exact ⟨_, .poll (.changed hseen)⟩

lemma Phase.progress (h : Phase fatalOnLeaseTimeout w) (hexits : ¬ w.watch.Exits)
    (hended : ¬ w.Ended) : ∃ v, Quiet fatalOnLeaseTimeout w v := by
  cases h with
  | @head turns _ hp hturns =>
    obtain rfl | rfl : turns = 0 ∨ turns = 1 := by omega
    · exact ⟨_, .turn hp⟩
    · obtain ⟨now, channel, ⟨program, since, seen, heard⟩, renewals, dropped⟩ := w
      obtain rfl : program = leaseWatchdog fatalOnLeaseTimeout 1 := hp
      rw [leaseWatchdog_succ]
      exact ⟨_, .poll .borrow⟩
  | listening _ _ hp => exact select_progress hp
  | overdue _ _ _ hp => exact select_progress hp
  | exit _ _ _ hp => exact absurd ⟨1, Empty.elim, hp⟩ hexits
  | ended hp => exact absurd hp hended

lemma Phase.closed_now (h : Phase fatalOnLeaseTimeout w) (hended : ¬ w.Ended) :
    ∀ t ∈ w.dropped, t = w.now := by
  cases h with
  | head halert | listening halert | overdue halert | exit halert => exact halert.drop
  | ended hp => exact absurd hp hended

end Progress

section Countdown

variable {fatalOnLeaseTimeout : Bool} {w v : Timed} {k n : ℕ}

inductive Countdown : WatchdogM Unit → ℕ → Prop
  | entry : Countdown (leaseWatchdog true 0) 4
  | head : Countdown (leaseWatchdog true 1) 3
  | listening (lease : Duration) : Countdown (listening true 0 lease) 2
  | overdue (lease : Duration) : Countdown (overdue true 0 lease) 1

def news (w : Timed) : ℕ := if w.watch.seen = w.channel.version then 0 else 5

lemma Phase.countdown (h : Phase true w) (hexits : ¬ w.watch.Exits) (hended : ¬ w.Ended) :
    ∃ k, Countdown w.watch.program k := by
  cases h with
  | @head turns _ hp hturns =>
    rw [hp]
    obtain rfl | rfl : turns = 0 ∨ turns = 1 := by omega
    · exact ⟨4, .entry⟩
    · exact ⟨3, .head⟩
  | listening _ _ hp => exact ⟨2, hp ▸ .listening _⟩
  | overdue _ _ _ hp => exact ⟨1, hp ▸ .overdue _⟩
  | exit _ _ _ hp => exact absurd ⟨1, Empty.elim, hp⟩ hexits
  | ended hp => exact absurd hp hended

lemma Countdown.poll {watch : Watch} (h : Countdown w.watch.program k)
    (hpoll : Polls w.now w.channel w.watch watch) :
    watch.Exits ∨ watch.program = .done () ∨
      ∃ k', Countdown watch.program k' ∧ k' + news { w with watch := watch } < k + news w := by
  obtain ⟨now, channel, ⟨program, since, seen, heard⟩, renewals, dropped⟩ := w
  have hnews : ∀ {program since heard}, news ⟨now, channel, ⟨program, since, channel.version, heard⟩,
      renewals, dropped⟩ = 0 := fun {_ _ _} => if_pos rfl
  have hnoticed : seen ≠ channel.version → ∀ {program since heard}, news ⟨now, channel,
      ⟨program, since, seen, heard⟩, renewals, dropped⟩ = 5 := fun hne {_ _ _} => if_neg hne
  cases h with
  | entry => cases hpoll
  | head =>
    obtain rfl := hpoll.of_head
    exact Or.inr (Or.inr ⟨2, .listening _, Nat.add_lt_add_right (by decide) _⟩)
  | listening lease =>
    rcases hpoll.of_listening with ⟨hne, rfl⟩ | ⟨-, -, rfl⟩ | ⟨-, rfl⟩
    · refine Or.inr (Or.inr ⟨4, .entry, ?_⟩)
      rw [hnews, hnoticed hne]
      decide
    · exact Or.inr (Or.inl rfl)
    · exact Or.inr (Or.inr ⟨1, .overdue _, Nat.add_lt_add_right (by decide) _⟩)
  | overdue lease =>
    rcases hpoll.of_overdue with ⟨hne, rfl⟩ | ⟨-, -, rfl⟩ | ⟨-, rfl⟩
    · refine Or.inr (Or.inr ⟨4, .entry, ?_⟩)
      rw [hnews, hnoticed hne]
      decide
    · exact Or.inr (Or.inl rfl)
    · exact Or.inl ⟨1, Empty.elim, rfl⟩

lemma Quiet.renewals (h : Quiet fatalOnLeaseTimeout w v) : v.renewals = w.renewals := by
  cases h <;> rfl

lemma Quiet.dropped (h : Quiet fatalOnLeaseTimeout w v) : v.dropped = w.dropped := by
  cases h <;> rfl

lemma Quiet.prompt (h : Quiet fatalOnLeaseTimeout w v) : v.Prompt ↔ w.Prompt := by
  rw [Timed.Prompt, h.renewals]
  rfl

lemma Phase.before_due {r : Renewal} (h : Phase true w) (hopen : w.dropped = none)
    (hr : w.renewals.head? = some r) : w.now ≤ r.due := by
  rw [Renewal.due]
  cases h with
  | head _ _ _ hnow =>
    have htime := hnow rfl r hr
    omega
  | listening halert hread _ hsince hle =>
    have hstart := hsince rfl
    rcases hread.newest_or_now halert hr with rfl | htime
    · omega
    · omega
  | overdue halert hread _ _ hsince hle =>
    rcases hread.newest_or_now halert hr with rfl | htime
    · omega
    · omega
  | exit halert hread _ _ hdue =>
    rw [Renewal.due] at hdue
    rcases hread.newest_or_now halert hr with rfl | htime
    · omega
    · omega
  | ended _ hdrop =>
    rw [hopen] at hdrop
    cases hdrop

lemma Countdown.turn (h : Countdown (leaseWatchdog true 0) k) : k = 4 := by
  generalize hp : leaseWatchdog true 0 = program at h
  cases h with
  | entry => rfl
  | head => exact absurd hp.symm leaseWatchdog_zero_ne_succ
  | listening | overdue => cases hp

lemma Countdown.step (h : Countdown w.watch.program k) (hstep : Quiet true w v) :
    v.watch.Exits ∨ v.Ended ∨ ∃ k', Countdown v.watch.program k' ∧
      (v.now = w.now ∧ k' + news v < k + news w ∨ w.now < v.now ∧ k' + news v = k + news w) := by
  cases hstep with
  | turn hp =>
    rw [hp] at h
    obtain rfl := h.turn
    exact Or.inr (Or.inr ⟨3, .head, Or.inl ⟨rfl, Nat.add_lt_add_right (by decide) _⟩⟩)
  | poll hpoll =>
    rcases h.poll hpoll with hexits | hended | ⟨k', hk', hlt⟩
    · exact Or.inl hexits
    · exact Or.inr (Or.inl hended)
    · exact Or.inr (Or.inr ⟨k', hk', Or.inl ⟨rfl, hlt⟩⟩)
  | time hlater => exact Or.inr (Or.inr ⟨k, h, Or.inr ⟨hlater, rfl⟩⟩)

structure Silent (r : Renewal) (w : Timed) : Prop where
  sent : Sent w
  phase : Phase true w
  alive : w.dropped = none
  newest : w.renewals.head? = some r

lemma Silent.not_ended {r : Renewal} (h : Silent r w) : ¬ w.Ended := by
  intro hended
  rw [Timed.Ended] at hended
  have halive := h.alive
  cases h.phase with
  | @head turns _ hp =>
    rw [hp] at hended
    cases turns with
    | zero => cases hended
    | succ turns => rw [leaseWatchdog_succ] at hended; cases hended
  | listening _ _ hp | overdue _ _ _ hp | exit _ _ _ hp => rw [hp] at hended; cases hended
  | ended _ hdrop =>
    rw [halive] at hdrop
    cases hdrop

lemma Silent.step {r : Renewal} (h : Silent r w) (hstep : Quiet true w v) : Silent r v :=
  ⟨quiet_sent hstep h.sent, quiet_phase hstep h.sent h.phase, hstep.dropped.trans h.alive,
    hstep.renewals ▸ h.newest⟩

lemma Silent.before_due {r : Renewal} (h : Silent r w) : w.now ≤ r.due :=
  h.phase.before_due h.alive h.newest

lemma Countdown.pos {program : WatchdogM Unit} (h : Countdown program k) : 0 < k := by
  cases h <;> decide

lemma Countdown.not_ended (h : Countdown w.watch.program k) : ¬ w.Ended := by
  intro hended
  rw [Timed.Ended] at hended
  generalize w.watch.program = program at h hended
  cases h with
  | head => rw [leaseWatchdog_succ] at hended; cases hended
  | entry | listening | overdue => cases hended

def Silent.Left (r : Renewal) (prompt : Prop) (n : ℕ) (w : Timed) : Prop :=
  Silent r w ∧ (w.Prompt ↔ prompt) ∧ (w.watch.Exits ∨ ∃ k, Countdown w.watch.program k ∧
    n = r.due - w.now + (k + news w))

lemma Silent.left {r : Renewal} (h : Silent r w) : ∃ n, Silent.Left r w.Prompt n w := by
  by_cases hexits : w.watch.Exits
  · exact ⟨0, h, Iff.rfl, Or.inl hexits⟩
  · obtain ⟨k, hk⟩ := h.phase.countdown hexits h.not_ended
    exact ⟨_, h, Iff.rfl, Or.inr ⟨k, hk, rfl⟩⟩

lemma Silent.exits_inevitably {r : Renewal} (h : Silent r w) : Inevitable (Quiet true)
    (fun v => v.watch.Exits ∧ (v.now = r.due ∨ ¬ w.Prompt ∧ v.now = r.time)) w := by
  obtain ⟨n, hn⟩ := h.left
  generalize w.Prompt = prompt at hn ⊢
  apply Inevitable.of_rank _ hn
  rintro n w ⟨h, hprompt, hn⟩
  by_cases hexits : w.watch.Exits
  · rw [← hprompt]
    exact Or.inl ⟨hexits, h.phase.exits_due hexits h.newest⟩
  · right
    obtain ⟨k, hk, rfl⟩ := hn.resolve_left hexits
    refine ⟨h.phase.progress hexits h.not_ended, ?_⟩
    intro v hstep
    have hv := h.step hstep
    have hprompt' := hstep.prompt.trans hprompt
    have hdue := hv.before_due
    have hpos := hk.pos
    rcases hk.step hstep with hexits' | hended | ⟨k', hk', ⟨hnow, hlt⟩ | ⟨hnow, heq⟩⟩
    · exact ⟨0, by omega, hv, hprompt', Or.inl hexits'⟩
    · exact absurd hended hv.not_ended
    · exact ⟨_, by omega, hv, hprompt', Or.inr ⟨k', hk', rfl⟩⟩
    · exact ⟨_, by omega, hv, hprompt', Or.inr ⟨k', hk', rfl⟩⟩

end Countdown

section Closed

variable {fatalOnLeaseTimeout : Bool} {w v : Timed} {k n t : ℕ}

structure Closed (fatalOnLeaseTimeout : Bool) (t : ℕ) (w : Timed) : Prop where
  sent : Sent w
  phase : Phase fatalOnLeaseTimeout w
  dropped : w.dropped = some t

lemma Closed.quiet (h : Closed fatalOnLeaseTimeout t w) (hstep : Advances fatalOnLeaseTimeout w v) :
    Quiet fatalOnLeaseTimeout w v := by
  have hdropped := h.dropped
  cases hstep with
  | quiet hquiet => exact hquiet
  | renew _ hopen | drop hopen =>
    rw [hdropped] at hopen
    cases hopen

lemma Closed.step (h : Closed fatalOnLeaseTimeout t w) (hstep : Quiet fatalOnLeaseTimeout w v) :
    Closed fatalOnLeaseTimeout t v :=
  ⟨quiet_sent hstep h.sent, quiet_phase hstep h.sent h.phase, hstep.dropped.trans h.dropped⟩

lemma Closed.now_eq (h : Closed fatalOnLeaseTimeout t w) (hended : ¬ w.Ended) : w.now = t :=
  (h.phase.closed_now hended t h.dropped).symm

def Over (w : Timed) : Prop := w.Ended ∨ w.watch.Exits

def Closed.Left (t n : ℕ) (w : Timed) : Prop :=
  Closed true t w ∧ (Over w ∨ ∃ k, Countdown w.watch.program k ∧ n = k + news w)

lemma Closed.over_inevitably (h : Closed true t w) : Inevitable (Advances true) Over w := by
  obtain ⟨n, hn⟩ : ∃ n, Closed.Left t n w := by
    by_cases hover : Over w
    · exact ⟨0, h, Or.inl hover⟩
    · obtain ⟨hended, hexits⟩ := not_or.mp hover
      obtain ⟨k, hk⟩ := h.phase.countdown hexits hended
      exact ⟨_, h, Or.inr ⟨k, hk, rfl⟩⟩
  apply Inevitable.of_rank _ hn
  rintro n w ⟨h, hn⟩
  by_cases hover : Over w
  · exact Or.inl hover
  · right
    obtain ⟨hended, hexits⟩ := not_or.mp hover
    obtain ⟨k, hk, rfl⟩ := hn.resolve_left hover
    obtain ⟨u, hu⟩ := h.phase.progress hexits hended
    refine ⟨⟨u, .quiet hu⟩, ?_⟩
    intro v hstep
    have hquiet := h.quiet hstep
    have hv := h.step hquiet
    have hpos := hk.pos
    rcases hk.step hquiet with hexits' | hended' | ⟨k', hk', ⟨hnow, hlt⟩ | ⟨hnow, heq⟩⟩
    · exact ⟨0, by omega, hv, Or.inl (Or.inr hexits')⟩
    · exact ⟨0, by omega, hv, Or.inl (Or.inl hended')⟩
    · exact ⟨_, hlt, hv, Or.inr ⟨k', hk', rfl⟩⟩
    · have hbefore := h.now_eq hended
      have hafter := hv.now_eq hk'.not_ended
      omega

inductive Ebb (w : Timed) : ℕ → Prop
  | entry : w.watch.program = leaseWatchdog false 0 → Ebb w 3
  | head : w.watch.program = leaseWatchdog false 1 → Ebb w 2
  | fresh {lease : Duration} : w.watch.program = listening false 0 lease →
      w.now < w.watch.since + lease.nanos → Ebb w 1
  | slept {lease : Duration} : w.watch.program = listening false 0 lease →
      w.watch.since + lease.nanos ≤ w.now → Ebb w 4

def missed (w : Timed) : ℕ := if w.watch.seen = w.channel.version then 0 else 3

lemma Phase.ebb (h : Phase false w) (hended : ¬ w.Ended) : ∃ k, Ebb w k := by
  cases h with
  | @head turns _ hp hturns =>
    obtain rfl | rfl : turns = 0 ∨ turns = 1 := by omega
    · exact ⟨3, .entry hp⟩
    · exact ⟨2, .head hp⟩
  | @listening r _ _ hp =>
    by_cases hslept : w.watch.since + r.lease.nanos ≤ w.now
    · exact ⟨4, .slept hp hslept⟩
    · exact ⟨1, .fresh hp (Nat.lt_of_not_le hslept)⟩
  | overdue _ _ hfatal | exit _ _ hfatal => cases hfatal
  | ended hp => exact absurd hp hended

lemma Ebb.poll {watch : Watch} (h : Ebb w k) (hsent : Sent w)
    (hpositive : ∀ r ∈ w.renewals.head?, 0 < r.lease.nanos)
    (hpoll : Polls w.now w.channel w.watch watch) :
    watch.program = .done () ∨
      ∃ k', Ebb { w with watch := watch } k' ∧ k' + missed { w with watch := watch } < k + missed w := by
  obtain ⟨now, channel, ⟨program, since, seen, heard⟩, renewals, dropped⟩ := w
  have hmissed : ∀ {program since heard}, missed ⟨now, channel,
      ⟨program, since, channel.version, heard⟩, renewals, dropped⟩ = 0 := fun {_ _ _} => if_pos rfl
  have hunseen : seen ≠ channel.version → ∀ {program since heard}, missed ⟨now, channel,
      ⟨program, since, seen, heard⟩, renewals, dropped⟩ = 3 := fun hne {_ _ _} => if_neg hne
  cases h with
  | entry hp =>
    obtain rfl : program = leaseWatchdog false 0 := hp
    cases hpoll
  | head hp =>
    obtain rfl : program = leaseWatchdog false 1 := hp
    obtain rfl := hpoll.of_head
    obtain ⟨r, rest, rfl⟩ : ∃ r rest, renewals = r :: rest :=
      List.exists_cons_of_length_eq_add_one hsent.version
    have hlease : 0 < r.lease.nanos := hpositive r rfl
    rw [show r.lease = channel.value from hsent.value r rfl] at hlease
    refine Or.inr ⟨1, .fresh rfl ?_, Nat.add_lt_add_right (by decide) _⟩
    dsimp only
    omega
  | @fresh lease hp hlt =>
    obtain rfl : program = listening false 0 lease := hp
    rcases hpoll.of_listening with ⟨hne, rfl⟩ | ⟨-, -, rfl⟩ | ⟨hslept, rfl⟩
    · refine Or.inr ⟨3, .entry rfl, ?_⟩
      rw [hmissed, hunseen hne]
      decide
    · exact Or.inl rfl
    · dsimp only at hlt hslept
      omega
  | @slept lease hp hle =>
    obtain rfl : program = listening false 0 lease := hp
    rcases hpoll.of_listening with ⟨hne, rfl⟩ | ⟨-, -, rfl⟩ | ⟨hslept, rfl⟩
    · refine Or.inr ⟨3, .entry rfl, ?_⟩
      rw [hmissed, hunseen hne]
      decide
    · exact Or.inl rfl
    · exact Or.inr ⟨3, .entry rfl, Nat.add_lt_add_right (by decide) _⟩

lemma Phase.spared_of_not_fatal (h : Phase false w) : ¬ w.watch.Exits := by
  intro hexits
  cases (h.exits hexits).1

def Closed.Ebbs (t n : ℕ) (w : Timed) : Prop :=
  Closed false t w ∧ (∀ r ∈ w.renewals.head?, 0 < r.lease.nanos) ∧
    (w.Ended ∨ ∃ k, Ebb w k ∧ n = k + missed w)

lemma Closed.ended_inevitably (h : Closed false t w)
    (hpositive : ∀ r ∈ w.renewals.head?, 0 < r.lease.nanos) :
    Inevitable (Advances false) Timed.Ended w := by
  obtain ⟨n, hn⟩ : ∃ n, Closed.Ebbs t n w := by
    by_cases hended : w.Ended
    · exact ⟨0, h, hpositive, Or.inl hended⟩
    · obtain ⟨k, hk⟩ := h.phase.ebb hended
      exact ⟨_, h, hpositive, Or.inr ⟨k, hk, rfl⟩⟩
  apply Inevitable.of_rank _ hn
  rintro n w ⟨h, hpositive, hn⟩
  by_cases hended : w.Ended
  · exact Or.inl hended
  · right
    obtain ⟨k, hk, rfl⟩ := hn.resolve_left hended
    obtain ⟨u, hu⟩ := h.phase.progress h.phase.spared_of_not_fatal hended
    refine ⟨⟨u, .quiet hu⟩, ?_⟩
    intro v hstep
    have hquiet := h.quiet hstep
    have hv := h.step hquiet
    have hpositive' : ∀ r ∈ v.renewals.head?, 0 < r.lease.nanos := hquiet.renewals ▸ hpositive
    have hpos : 0 < k := by cases hk <;> decide
    cases hquiet with
    | turn hp =>
      have hthree : k = 3 := by
        cases hk with
        | entry => rfl
        | head hp' => rw [hp'] at hp; exact absurd hp leaseWatchdog_zero_ne_succ
        | fresh hp' | slept hp' => rw [hp'] at hp; cases hp
      subst hthree
      exact ⟨_, Nat.add_lt_add_right (by decide : 2 < 3) _, hv, hpositive', Or.inr ⟨2, .head rfl, rfl⟩⟩
    | poll hpoll =>
      rcases hk.poll h.sent hpositive hpoll with hdone | ⟨k', hk', hlt⟩
      · exact ⟨0, by omega, hv, hpositive', Or.inl hdone⟩
      · exact ⟨_, hlt, hv, hpositive', Or.inr ⟨k', hk', rfl⟩⟩
    | time hlater =>
      have hbefore := h.now_eq hended
      have hafter := hv.now_eq hended
      dsimp only at hafter
      omega

def MayEnd (fatalOnLeaseTimeout : Bool) (w : Timed) : Prop :=
  ∃ v, ReflTransGen (Quiet fatalOnLeaseTimeout) w v ∧ v.Ended ∧ v.now = w.now

lemma MayEnd.head (hstep : Quiet fatalOnLeaseTimeout w v) (hnow : v.now = w.now)
    (h : MayEnd fatalOnLeaseTimeout v) : MayEnd fatalOnLeaseTimeout w := by
  obtain ⟨u, hu, hended, hsame⟩ := h
  exact ⟨u, .head hstep hu, hended, hsame.trans hnow⟩

lemma head_mayEnd (hprogram : w.watch.program = leaseWatchdog fatalOnLeaseTimeout 1)
    (hnext : ∀ lease, MayEnd fatalOnLeaseTimeout { w with watch :=
      ⟨listening fatalOnLeaseTimeout 0 lease, w.now, w.watch.seen, w.channel.version⟩ }) :
    MayEnd fatalOnLeaseTimeout w := by
  obtain ⟨now, channel, ⟨program, since, seen, heard⟩, renewals, dropped⟩ := w
  obtain rfl : program = leaseWatchdog fatalOnLeaseTimeout 1 := hprogram
  have hpoll : Polls now channel ⟨leaseWatchdog fatalOnLeaseTimeout 1, since, seen, heard⟩
      ⟨listening fatalOnLeaseTimeout 0 channel.value, now, seen, channel.version⟩ := by
    rw [leaseWatchdog_succ]
    exact .borrow
  exact .head (.poll hpoll) rfl (hnext channel.value)

lemma entry_mayEnd (hprogram : w.watch.program = leaseWatchdog fatalOnLeaseTimeout 0)
    (hnext : ∀ lease, MayEnd fatalOnLeaseTimeout { w with watch :=
      ⟨listening fatalOnLeaseTimeout 0 lease, w.now, w.watch.seen, w.channel.version⟩ }) :
    MayEnd fatalOnLeaseTimeout w :=
  .head (.turn hprogram) rfl (head_mayEnd rfl hnext)

lemma select_mayEnd {lease : Duration} {slept : WatchdogM Unit} (hclosed : w.channel.closed = true)
    (hprogram : w.watch.program = .call (.select lease) fun
      | .changed isErr => woken fatalOnLeaseTimeout 0 isErr
      | .slept => slept) : MayEnd fatalOnLeaseTimeout w := by
  obtain ⟨now, channel, ⟨program, since, seen, heard⟩, renewals, dropped⟩ := w
  obtain rfl := hprogram
  have hknown : ∀ {lease slept since heard}, MayEnd fatalOnLeaseTimeout ⟨now, channel,
      ⟨.call (.select lease) fun
        | .changed isErr => woken fatalOnLeaseTimeout 0 isErr
        | .slept => slept, since, channel.version, heard⟩, renewals, dropped⟩ :=
    fun {_ _ _ _} => ⟨_, .single (.poll (.closed rfl hclosed)), rfl, rfl⟩
  by_cases hseen : seen = channel.version
  · subst hseen
    exact hknown
  · exact .head (.poll (.changed hseen)) rfl (entry_mayEnd rfl fun _ => hknown)

lemma Closed.may_end (h : Closed fatalOnLeaseTimeout t w) (hexits : ¬ w.watch.Exits) :
    MayEnd fatalOnLeaseTimeout w := by
  have hclosed : w.channel.closed = true := by
    rw [h.sent.closed, h.dropped]
    rfl
  cases h.phase with
  | @head turns _ hp hturns =>
    obtain rfl | rfl : turns = 0 ∨ turns = 1 := by omega
    · exact entry_mayEnd hp fun _ => select_mayEnd hclosed rfl
    · exact head_mayEnd hp fun _ => select_mayEnd hclosed rfl
  | listening _ _ hp => exact select_mayEnd hclosed hp
  | overdue _ _ hfatal hp =>
    subst hfatal
    exact select_mayEnd hclosed hp
  | exit _ _ _ hp => exact absurd ⟨1, Empty.elim, hp⟩ hexits
  | ended hp => exact ⟨w, .refl, hp, rfl⟩

end Closed

section Exact

variable {fatalOnLeaseTimeout : Bool} {initial : Renewal} {w : Timed}

/-- The watchdog never exits while every renewal is followed in time. Fatal, it exits when the
newest lease is over twice in silence, and before only if that was renewed just as an older one was
due; not fatal, it never does. Once the sender is dropped it ends before any time passes: whatever
its selects choose, unless they go on choosing sleeps of no length, and even then each time they
could choose to end. -/
theorem watchdog_exits_exactly_in_silence
    (h : ReflTransGen (Advances fatalOnLeaseTimeout) (.start fatalOnLeaseTimeout initial) w) :
    (w.InTime → ¬ w.watch.Exits) ∧
    (fatalOnLeaseTimeout = false → ¬ w.watch.Exits) ∧
    (fatalOnLeaseTimeout = true → w.dropped = none → ∃ r, w.renewals.head? = some r ∧
      w.now ≤ r.due ∧
      (w.watch.Exits → w.now = r.due ∨ ¬ w.Prompt ∧ w.now = r.time) ∧
      Inevitable (Quiet fatalOnLeaseTimeout)
        (fun v => v.watch.Exits ∧ (v.now = r.due ∨ ¬ w.Prompt ∧ v.now = r.time)) w) ∧
    ∀ t, w.dropped = some t →
      (t < w.now → w.Ended) ∧
      (fatalOnLeaseTimeout = true ∨ (∀ r ∈ w.renewals.head?, 0 < r.lease.nanos) →
        Inevitable (Advances fatalOnLeaseTimeout) (fun v => v.Ended ∨ v.watch.Exits) w) ∧
      (¬ w.watch.Exits → ∃ v, ReflTransGen (Quiet fatalOnLeaseTimeout) w v ∧ v.Ended ∧
        v.now = w.now) := by
  obtain ⟨hsent, hphase⟩ := advances_reached h
  refine ⟨hphase.spared hsent, ?_, ?_, ?_⟩
  · rintro rfl
    exact hphase.spared_of_not_fatal
  · rintro rfl halive
    obtain ⟨r, rest, hr⟩ := List.exists_cons_of_length_eq_add_one hsent.version
    have hnewest : w.renewals.head? = some r := by rw [hr]; rfl
    have hsilent : Silent r w := ⟨hsent, hphase, halive, hnewest⟩
    exact ⟨r, hnewest, hsilent.before_due, fun hexits => hphase.exits_due hexits hnewest,
      hsilent.exits_inevitably⟩
  · intro t hdropped
    have hclosed : Closed fatalOnLeaseTimeout t w := ⟨hsent, hphase, hdropped⟩
    refine ⟨?_, ?_, hclosed.may_end⟩
    · intro hlater
      by_contra hended
      have hnow := hclosed.now_eq hended
      omega
    · intro hlease
      cases fatalOnLeaseTimeout with
      | true => exact hclosed.over_inevitably
      | false => exact (hclosed.ended_inevitably (hlease.resolve_left nofun)).mono fun _ => Or.inl

theorem silent_second_exits : Inevitable (Quiet true)
    (fun v => v.watch.Exits ∧ v.now = 2000000000) (.start true ⟨0, Duration.fromSecs 1⟩) := by
  obtain ⟨r, hr, -, -, hexits⟩ := (watchdog_exits_exactly_in_silence
    (.refl : ReflTransGen (Advances true) (.start true ⟨0, Duration.fromSecs 1⟩) _)).2.2.1 rfl rfl
  obtain rfl : (⟨0, Duration.fromSecs 1⟩ : Renewal) = r := Option.some.inj hr
  have hprompt : (Timed.start true ⟨0, Duration.fromSecs 1⟩).Prompt := List.isChain_singleton _
  have hdue : Renewal.due ⟨0, Duration.fromSecs 1⟩ = 2000000000 := by decide
  apply hexits.mono
  rintro v ⟨hv, hnow | ⟨hlate, -⟩⟩
  · exact ⟨hv, hnow.trans hdue⟩
  · exact absurd hprompt hlate

end Exact

end AbsurdSdk.Execution
