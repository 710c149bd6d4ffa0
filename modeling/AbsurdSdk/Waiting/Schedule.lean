import AbsurdSdk.Waiting.ResultWait

/-! When a wait that takes no time but its sleeps polls and renews its claim, in nanoseconds from
its start. -/

namespace AbsurdSdk.Waiting

open Model

section Polls

lemma backoff_late {k : ℕ} (h : 5 ≤ k) : (backoff k).nanos = 1000000000 := by
  have hpow : 2 ^ 5 ≤ 2 ^ k := Nat.pow_le_pow_right (by decide) h
  rw [backoff_nanos]
  omega

lemma backoff_le (k : ℕ) : (backoff k).nanos ≤ 1000000000 := by
  rw [backoff_nanos]
  omega

lemma backoffSum_early : backoffSum 0 = 0 ∧ backoffSum 1 = 50000000 ∧ backoffSum 2 = 150000000 ∧
    backoffSum 3 = 350000000 ∧ backoffSum 4 = 750000000 ∧ backoffSum 5 = 1550000000 := by
  simp [backoffSum, backoff_nanos, List.range_succ]

lemma backoffSum_late (j : ℕ) : backoffSum (5 + j) = 1550000000 + j * 1000000000 := by
  induction j with
  | zero => exact backoffSum_early.2.2.2.2.2
  | succ j ih =>
    have hlate := backoff_late (Nat.le_add_right 5 j)
    rw [← Nat.add_assoc, backoffSum_succ, ih, hlate]
    ring

lemma backoffSum_lt_iff {j k : ℕ} : backoffSum j < backoffSum k ↔ j < k := by
  constructor
  · intro h
    by_contra hle
    have hmono := backoffSum_mono (Nat.le_of_not_lt hle)
    omega
  · intro h
    have hpos := backoff_pos j
    have hsucc := backoffSum_succ j
    have hmono := backoffSum_mono (show j + 1 ≤ k from h)
    omega

def firstPollFrom (interval : ℕ) : ℕ :=
  if interval ≤ 750000000 then
    750000000
  else
    1550000000 + (interval - 1550000000 + 999999999) / 1000000000 * 1000000000

lemma exists_firstPollFrom {interval : ℕ} (h : 500000000 ≤ interval) : ∃ k, 4 ≤ k ∧
    backoffSum k = firstPollFrom interval ∧ interval ≤ backoffSum k ∧
    ∀ j < k, backoffSum j < interval := by
  obtain ⟨h0, h1, h2, h3, h4, h5⟩ := backoffSum_early
  by_cases hearly : interval ≤ 750000000
  · refine ⟨4, le_rfl, ?_, by omega, ?_⟩
    · rw [firstPollFrom, if_pos hearly, h4]
    · intro j hj
      have hmono := backoffSum_mono (Nat.le_of_lt_succ hj)
      omega
  · obtain ⟨j, hj⟩ : ∃ j, j = (interval - 1550000000 + 999999999) / 1000000000 := ⟨_, rfl⟩
    have hlate := backoffSum_late j
    refine ⟨5 + j, by omega, ?_, by omega, ?_⟩
    · rw [firstPollFrom, if_neg hearly, hlate, hj]
    · intro i hi
      by_cases hi5 : i < 5
      · have hmono := backoffSum_mono (Nat.le_of_lt_succ hi5)
        omega
      · obtain ⟨l, rfl⟩ := Nat.exists_eq_add_of_le (Nat.le_of_not_lt hi5)
        have hlast := backoffSum_late l
        omega

end Polls

section Beats

def lastBeat (interval : ℕ) : ℕ → ℕ
  | 0 => 0
  | k + 1 =>
    if lastBeat interval k + interval ≤ backoffSum k then backoffSum k else lastBeat interval k

variable {interval : ℕ}

lemma lastBeat_succ_or (interval k : ℕ) : lastBeat interval (k + 1) = backoffSum k ∨
    lastBeat interval (k + 1) = lastBeat interval k ∧
      backoffSum k < lastBeat interval (k + 1) + interval := by
  by_cases h : lastBeat interval k + interval ≤ backoffSum k
  · rw [lastBeat, if_pos h]
    exact Or.inl rfl
  · rw [lastBeat, if_neg h]
    exact Or.inr ⟨rfl, by omega⟩

lemma lastBeat_le (interval k : ℕ) : lastBeat interval k ≤ backoffSum k := by
  induction k with
  | zero => exact Nat.zero_le _
  | succ k ih =>
    have hmono := backoffSum_mono (Nat.le_succ k)
    rw [lastBeat]
    split
    · exact hmono
    · exact ih.trans hmono

lemma lastBeat_mono {j k : ℕ} (h : j ≤ k) : lastBeat interval j ≤ lastBeat interval k := by
  induction h with
  | refl => exact le_rfl
  | @step k _ ih =>
    apply ih.trans
    have hle := lastBeat_le interval k
    rw [lastBeat]
    split
    · exact hle
    · exact le_rfl

lemma lastBeat_before {k : ℕ} (h : ∀ j < k, backoffSum j < interval) : lastBeat interval k = 0 := by
  induction k with
  | zero => rfl
  | succ k ih =>
    have hk := ih fun j hj => h j (Nat.lt_succ_of_lt hj)
    have hlast := h k (Nat.lt_succ_self k)
    rw [lastBeat, hk, if_neg (by omega)]

lemma lastBeat_each (hlower : 500000000 ≤ interval) (hupper : interval ≤ 1000000000) (k : ℕ) :
    lastBeat interval (k + 1) = 0 ∧ backoffSum k < interval ∨
      lastBeat interval (k + 1) = backoffSum k ∧ interval ≤ backoffSum k := by
  obtain ⟨h0, h1, h2, h3, h4, h5⟩ := backoffSum_early
  induction k with
  | zero =>
    left
    rw [lastBeat, lastBeat, if_neg (by omega)]
    omega
  | succ k ih =>
    rcases ih with ⟨hbeat, hlt⟩ | ⟨hbeat, hle⟩
    · rw [lastBeat, hbeat]
      split
      · right
        omega
      · left
        omega
    · right
      have hk : 4 ≤ k := by
        by_contra hk
        have hmono := backoffSum_mono (show k ≤ 3 by omega)
        omega
      have hsucc := backoffSum_succ k
      have hdelay : interval ≤ (backoff k).nanos := by
        by_cases hk4 : k = 4
        · subst hk4
          rw [h5] at hsucc
          omega
        · rw [backoff_late (by omega)]
          exact hupper
      rw [lastBeat, hbeat, if_pos (by omega)]
      omega

end Beats

section Ages

def capped (timeout : Option Duration) (x : ℕ) : ℕ :=
  match timeout with
  | none => x
  | some limit => min x limit.nanos

def Open (timeout : Option Duration) (k : ℕ) : Prop :=
  ∀ limit, timeout = some limit → backoffSum k < limit.nanos

lemma Open.capped {timeout : Option Duration} {k : ℕ} (h : Open timeout k) :
    capped timeout (backoffSum k) = backoffSum k := by
  cases timeout with
  | none => rfl
  | some limit => exact Nat.min_eq_left (h limit rfl).le

lemma Open.earlier {timeout : Option Duration} {j k : ℕ} (h : Open timeout k) (hjk : j ≤ k) :
    Open timeout j :=
  fun limit ho => (backoffSum_mono hjk).trans_lt (h limit ho)

def ageAfter (interval age : ℕ) (timeout : Option Duration) (k : ℕ) : ℕ :=
  capped timeout (backoffSum (k + 1)) - lastBeat interval (k + 1) +
    if lastBeat interval (k + 1) = 0 then age else 0

variable {timeout : Option Duration}

lemma capped_le (timeout : Option Duration) (x : ℕ) : capped timeout x ≤ x := by
  cases timeout with
  | none => exact le_rfl
  | some limit => exact Nat.min_le_left _ _

lemma capped_mono (timeout : Option Duration) {x y : ℕ} (h : x ≤ y) :
    capped timeout x ≤ capped timeout y := by
  cases timeout with
  | none => exact h
  | some limit =>
    simp only [capped]
    omega

lemma le_capped {x y z : ℕ} (hy : x ≤ y) (hz : x ≤ capped timeout z) : x ≤ capped timeout y := by
  cases timeout with
  | none => exact hy
  | some limit =>
    simp only [capped] at hz ⊢
    omega

lemma lt_capped_iff {timeout : Option Duration} {x y : ℕ} :
    x < capped timeout y ↔ x < y ∧ ∀ limit, timeout = some limit → x < limit.nanos := by
  cases timeout with
  | none => simp [capped]
  | some limit => simp [capped]

lemma lt_capped_backoffSum {k n : ℕ} : backoffSum k < capped timeout (backoffSum n) ↔
    k < n ∧ Open timeout k := by
  rw [lt_capped_iff, backoffSum_lt_iff]
  rfl

lemma exists_sleep {n x : ℕ} (hx : 0 < x) (hle : x ≤ capped timeout (backoffSum n)) : ∃ k < n,
    Open timeout k ∧ backoffSum k < x ∧ x ≤ capped timeout (backoffSum (k + 1)) := by
  obtain ⟨k, hk, hmin⟩ : ∃ k, x ≤ backoffSum k ∧ ∀ j < k, backoffSum j < x := by
    have hexists : ∃ k, x ≤ backoffSum k := ⟨n, hle.trans (capped_le _ _)⟩
    refine ⟨Nat.find hexists, Nat.find_spec hexists, ?_⟩
    intro j hj
    have hnot := Nat.find_min hexists hj
    omega
  cases k with
  | zero =>
    have hzero := backoffSum_early.1
    omega
  | succ k =>
    have hlt := hmin k (Nat.lt_succ_self k)
    obtain ⟨hkn, hopen⟩ := lt_capped_backoffSum.mp (Nat.lt_of_lt_of_le hlt hle)
    exact ⟨k, hkn, hopen, hlt, le_capped hk hle⟩

end Ages

section Alive

variable {timeout : Option Duration} {claimTimeout age n : ℕ}

def heartbeatInterval (claimTimeout : ℕ) : ℕ := max (claimTimeout / 2) 500000000

lemma le_heartbeatInterval (claimTimeout : ℕ) : 500000000 ≤ heartbeatInterval claimTimeout :=
  le_max_right _ _

def Alive (claimTimeout age : ℕ) (timeout : Option Duration) (n : ℕ) : Prop :=
  age < claimTimeout ∧ ∀ k < n, Open timeout k →
    ageAfter (heartbeatInterval claimTimeout) age timeout k < claimTimeout

def lastTimely (claimTimeout : ℕ) : ℕ :=
  if claimTimeout ≤ 800000000 then 750000000 else 1550000000

lemma ageAfter_lt {k : ℕ} (hfirst : age + min (capped timeout (backoffSum n))
      (firstPollFrom (heartbeatInterval claimTimeout)) < claimTimeout)
    (hlater : 1000000000 < claimTimeout ∨
      capped timeout (backoffSum n) < lastTimely claimTimeout + claimTimeout)
    (hk : k < n) (hopen : Open timeout k) :
    ageAfter (heartbeatInterval claimTimeout) age timeout k < claimTimeout := by
  obtain ⟨first, hfour, hpoll, hle, hbefore⟩ :=
    exists_firstPollFrom (le_heartbeatInterval claimTimeout)
  have hend := capped_mono timeout (backoffSum_mono (show k + 1 ≤ n from hk))
  have hcap := capped_le timeout (backoffSum (k + 1))
  have hnext := backoffSum_succ k
  have hdelay := backoff_le k
  by_cases hearly : k < first
  · have hzero : lastBeat (heartbeatInterval claimTimeout) (k + 1) = 0 :=
      lastBeat_before fun j hj => hbefore j (by omega)
    have hmono := backoffSum_mono (show k + 1 ≤ first from hearly)
    rw [ageAfter, hzero, if_pos rfl]
    omega
  · have hfirst : lastBeat (heartbeatInterval claimTimeout) (first + 1) = backoffSum first := by
      rw [lastBeat, lastBeat_before hbefore, if_pos (by omega)]
    have hbeat : lastBeat (heartbeatInterval claimTimeout) (first + 1) ≤
        lastBeat (heartbeatInterval claimTimeout) (k + 1) := lastBeat_mono (by omega)
    have hlate := backoffSum_mono (Nat.le_of_not_lt hearly)
    have hpos := le_heartbeatInterval claimTimeout
    have hinterval : heartbeatInterval claimTimeout = max (claimTimeout / 2) 500000000 := rfl
    rw [ageAfter, if_neg (by omega), Nat.add_zero]
    by_cases hlong : 2000000000 < claimTimeout
    · rcases lastBeat_succ_or (heartbeatInterval claimTimeout) k with hbeat | ⟨-, hbeat⟩
      · omega
      · omega
    · rcases lastBeat_each hpos (by omega) k with ⟨-, hlt⟩ | ⟨hbeat, -⟩
      · omega
      · obtain ⟨h0, h1, h2, h3, h4, h5⟩ := backoffSum_early
        have h6 := backoffSum_late 1
        have hsleep := lt_capped_backoffSum.mpr ⟨hk, hopen⟩
        rw [hbeat]
        by_cases hshort : claimTimeout ≤ 800000000
        · rw [lastTimely, if_pos hshort] at hlater
          have hk5 := backoffSum_lt_iff.mp (show backoffSum k < backoffSum 5 by omega)
          obtain rfl : k = 4 := by omega
          omega
        · rw [lastTimely, if_neg hshort] at hlater
          by_cases hsecond : 1000000000 < claimTimeout
          · omega
          · have hk6 := backoffSum_lt_iff.mp (show backoffSum k < backoffSum (5 + 1) by omega)
            have hk45 : k = 4 ∨ k = 5 := by omega
            rcases hk45 with rfl | rfl
            · have hfive : backoffSum (4 + 1) = 1550000000 := h5
              omega
            · omega

lemma alive_lt {claimTimeout age n : ℕ} (h : Alive claimTimeout age timeout n) :
    age + min (capped timeout (backoffSum n)) (firstPollFrom (heartbeatInterval claimTimeout)) <
      claimTimeout := by
  obtain ⟨first, hfour, hpoll, hle, hbefore⟩ :=
    exists_firstPollFrom (le_heartbeatInterval claimTimeout)
  by_cases hzero : min (capped timeout (backoffSum n)) (backoffSum first) = 0
  · rw [← hpoll, hzero]
    exact h.1
  · obtain ⟨k, hk, hopen, hlt, hreach⟩ :=
      exists_sleep (Nat.pos_of_ne_zero hzero) (Nat.min_le_left (capped timeout (backoffSum n)) _)
    have hage := h.2 k hk hopen
    have hkfirst := backoffSum_lt_iff.mp (Nat.lt_of_lt_of_le hlt (Nat.min_le_right _ _))
    rw [ageAfter, lastBeat_before fun j hj => hbefore j (by omega), if_pos rfl] at hage
    omega

lemma alive_later {claimTimeout age n : ℕ} (h : Alive claimTimeout age timeout n) :
    1000000000 < claimTimeout ∨
      capped timeout (backoffSum n) < lastTimely claimTimeout + claimTimeout := by
  by_contra hnot
  obtain ⟨hshort, hlong⟩ : claimTimeout ≤ 1000000000 ∧
      lastTimely claimTimeout + claimTimeout ≤ capped timeout (backoffSum n) := by omega
  obtain ⟨h0, h1, h2, h3, h4, h5⟩ := backoffSum_early
  have h5' : backoffSum (4 + 1) = 1550000000 := h5
  have h6 : backoffSum (5 + 1) = 2550000000 := backoffSum_late 1
  have hpositive := h.1
  have hinterval : heartbeatInterval claimTimeout = 500000000 := by
    rw [heartbeatInterval]
    omega
  -- the sleep before which the last timely heartbeat comes is too long
  have hlate : ∀ k, 4 ≤ k → backoffSum k = lastTimely claimTimeout →
      lastTimely claimTimeout + claimTimeout ≤ backoffSum (k + 1) → False := by
    intro k hk hbeat hnext
    obtain ⟨hkn, hopen⟩ := lt_capped_backoffSum.mp
      (show backoffSum k < capped timeout (backoffSum n) by omega)
    have hage := h.2 k hkn hopen
    have hreach := le_capped hnext hlong
    have hfour := backoffSum_mono hk
    rcases lastBeat_each (le_heartbeatInterval claimTimeout) (by omega) k with ⟨-, hlt⟩ | ⟨heq, -⟩
    · omega
    · rw [ageAfter, heq] at hage
      omega
  by_cases hfirst : claimTimeout ≤ 800000000
  · have htimely : lastTimely claimTimeout = 750000000 := if_pos hfirst
    exact hlate 4 le_rfl (by omega) (by omega)
  · have htimely : lastTimely claimTimeout = 1550000000 := if_neg hfirst
    exact hlate 5 (by omega) (by omega) (by omega)

theorem alive_iff {claimTimeout age n : ℕ} : Alive claimTimeout age timeout n ↔
    age + min (capped timeout (backoffSum n)) (firstPollFrom (heartbeatInterval claimTimeout)) <
      claimTimeout ∧
    (1000000000 < claimTimeout ∨
      capped timeout (backoffSum n) < lastTimely claimTimeout + claimTimeout) := by
  constructor
  · exact fun h => ⟨alive_lt h, alive_later h⟩
  · rintro ⟨hfirst, hlater⟩
    exact ⟨by omega, fun k hk hopen => ageAfter_lt hfirst hlater hk hopen⟩

end Alive

end AbsurdSdk.Waiting
