import AbsurdSdk.Durability.Resumption
import Mathlib.Data.List.Chain
import Mathlib.Data.List.Perm.Subperm

namespace AbsurdSdk.Durability

open Interaction Model

/-- Suspended by the sleep or the wait itself. -/
structure OpVisit.Parked (v : OpVisit) : Prop where
  pauses : v.op.IsSleep ∨ v.op.IsWait
  suspended : v.result = some (.error .suspended)

/-- What `v` was suspended for has come when `v'` is made. -/
structure Due (chrono : Serde DateTime) (v v' : OpVisit) : Prop where
  woken : v.op.IsSleep → ∀ j wake, v.after.store v.slot = some j → chrono.fromValue j = .ok wake →
    ∀ now ∈ readings v'.events, wake ≤ now
  emitted : v.op.IsWait → v'.before.store v.slot ≠ none

def Parks (visits : List OpVisit) : Prop := ∃ v, visits.getLast? = some v ∧ v.Parked

def Followed (chrono : Serde DateTime) (visits visits' : List OpVisit) : Prop :=
  ∀ v v', visits.getLast? = some v → visits'.getLast? = some v' → Due chrono v v'

/-- The clock of the database does not run backwards from one sleep to a later one. -/
def Clocked (visits : List OpVisit) : Prop :=
  visits.Pairwise fun v v' => v.op.IsSleep → v'.op.IsSleep →
    ∀ now ∈ readings v.events, ∀ now' ∈ readings v'.events, now ≤ now'

section Visit

variable {v x : OpVisit} {chrono : Serde DateTime} {r : Result Unit}

lemma Visited.decided (hv : Visited durable chrono v.slot v) (hop : v.op.IsSleep)
    (hl : chrono.Lossless) (hres : v.result = some r) (hr : Resolved r) :
    ∃ now j wake, readings v.events = [now] ∧ v.after.store v.slot = some j ∧
      chrono.fromValue j = .ok wake ∧ (r = .ok () ↔ wake ≤ now) := by
  obtain ⟨turns, hrun⟩ := hv.run
  have hcached := hv.cached
  obtain ⟨op, c, w, t, q⟩ := v
  cases q with
  | call call next => cases hres
  | done y =>
    obtain ⟨now, ⟨events, hlog, hread⟩, hdecided⟩ :=
      (sleepOp_decides hop turns hl hcached).finish hrun r (Option.some.inj hres) hr
    obtain ⟨j, wake, hj, hdecode, hiff⟩ := hdecided hr
    rw [← OpVisit.events_eq (v := ⟨op, c, w, t, .done y⟩) hlog] at hread
    exact ⟨now, j, wake, hread, hj, hdecode, hiff⟩

lemma Visited.mono {env env' : Env Call Answer World} {s : String} (hv : Visited env chrono s v)
    (h : ∀ w call r t, env w call r t → env' w call r t) : Visited env' chrono s v := by
  obtain ⟨turns, hrun⟩ := hv.run
  exact ⟨⟨turns, hrun.mono h⟩, hv.cached⟩

structure Follows (x v : OpVisit) : Prop where
  op : x.op = v.op
  slot : x.slot = v.slot
  found : ∀ j, x.after.store x.slot = some j → v.before.store v.slot = some j
  left : ∀ j, x.after.store x.slot = some j → v.after.store v.slot = some j
  clock : x.op.IsSleep → v.op.IsSleep →
    ∀ now ∈ readings x.events, ∀ now' ∈ readings v.events, now ≤ now'

def Passed (chrono : Serde DateTime) (x v : OpVisit) : Prop :=
  x.result = some (.ok ()) ∨ x.Parked ∧ Due chrono x v

lemma Follows.sleep_resumes (h : Follows x v) (hv : Visited durable chrono v.slot v)
    (hx : Visited durable chrono x.slot x) (hl : chrono.Lossless) (hop : v.op.IsSleep)
    (hpassed : Passed chrono x v) : v.result ≠ some (.error .suspended) := by
  intro hsuspended
  obtain ⟨now', j', wake', hread', hj', hdecode', hiff'⟩ :=
    hv.decided hop hl hsuspended (Or.inr rfl)
  have hearly : ¬ wake' ≤ now' := by simpa using hiff'
  have hsame : ∀ j wake, x.after.store x.slot = some j → chrono.fromValue j = .ok wake →
      wake = wake' := by
    intro j wake hj hdecode
    obtain rfl := Option.some.inj ((h.left j hj).symm.trans hj')
    exact Except.ok.inj (hdecode.symm.trans hdecode')
  rcases hpassed with hreturned | ⟨hparked, hdue⟩
  · obtain ⟨now, j, wake, hread, hj, hdecode, hiff⟩ :=
      hx.decided (h.op ▸ hop) hl hreturned (Or.inl rfl)
    obtain rfl := hsame j wake hj hdecode
    have hle : now ≤ now' := h.clock (h.op ▸ hop) hop now (by simp [hread]) now' (by simp [hread'])
    exact hearly (DateTime.le_trans (hiff.mp rfl) hle)
  · obtain ⟨now, j, wake, -, hj, hdecode, -⟩ :=
      hx.decided (h.op ▸ hop) hl hparked.suspended (Or.inr rfl)
    obtain rfl := hsame j wake hj hdecode
    exact hearly (hdue.woken (h.op ▸ hop) j wake hj hdecode now' (by simp [hread']))

lemma Follows.wait_resumes (h : Follows x v) (hv : Visited timely chrono v.slot v)
    (hx : Visited timely chrono x.slot x) (huv : Untimed v.context.task)
    (hux : Untimed x.context.task) (hop : v.op.IsWait) (hpassed : Passed chrono x v) :
    v.result ≠ some (.error .suspended) := by
  intro hsuspended
  have hnone : v.before.store v.slot = none := by
    obtain ⟨-, -, hend⟩ := hv.waits huv hop rfl
    rcases hend _ hsuspended with ⟨j, -, hhands⟩ | ⟨-, hnone⟩ | ⟨err, herr, hinfra, -⟩
    · exact absurd hsuspended hhands.not_suspended
    · exact hnone
    · cases herr
      exact absurd rfl hinfra.ne_suspended
  rcases hpassed with hreturned | ⟨-, hdue⟩
  · obtain ⟨-, -, hend⟩ := hx.waits hux (h.op ▸ hop) rfl
    rcases hend _ hreturned with ⟨j, hj, -⟩ | ⟨herr, -⟩ | ⟨err, herr, -⟩
    · rw [h.found j hj] at hnone
      cases hnone
    · cases herr
    · cases herr
  · exact hdue.emitted (h.op ▸ hop) (h.slot ▸ hnone)

end Visit

lemma Ordered.between {s : String} {w u : World} {visits visits' : List OpVisit} {x v : OpVisit}
    (h : Ordered s w (visits ++ visits') u) (hx : x ∈ visits) (hv : v ∈ visits') :
    Kept s x.after v.before := by
  obtain ⟨earlier, later, rfl⟩ := List.append_of_mem hx
  rw [List.append_assoc, List.cons_append] at h
  exact h.later.before (List.mem_append_right _ hv)

section History

variable {R : Type} {p : Program TaskOp TaskOp.Ans R} {c : TaskContext} {w u : World}
  {visits visits' : List OpVisit} {v x : OpVisit} {chrono : Serde DateTime} {queueName : String}
  {executions earlier later : List (List OpVisit)}

structure Stands (queueName : String) (chrono : Serde DateTime) (p : Program TaskOp TaskOp.Ans R)
    (count : String → ℕ) (visits : List OpVisit) (v : OpVisit) : Prop where
  stands : ∃ next n, (commitments queueName chrono).Follow p count (answers visits)
    (.call v.op next) n ∧ ((commitments queueName chrono).name n v.op).1 = v.slot

lemma Performs.stands {env : Env Call Answer World} {err : Error}
    (h : Performs env chrono (propagate p) c w visits u) (hlast : visits.getLast? = some v)
    (hres : v.result = some (.error err)) :
    Stands c.queueName chrono p c.stepNameCounter visits v := by
  generalize hp : propagate p = handler at h
  induction h generalizing p with
  | stop => cases hlast
  | @cut op k c w t turns q hr =>
    obtain ⟨next, rfl, -, -⟩ := propagate_call hp
    cases hlast
    cases q with
    | call => cases hres
    | done y =>
      obtain ⟨err' | a, d⟩ := y
      · exact ⟨next, _, .refl _ _, rfl⟩
      · cases hres
  | @next op k c d w t u turns r visits hr hrest ih =>
    obtain ⟨next, rfl, hok, herror⟩ := propagate_call hp
    cases r with
    | error err' =>
      rw [herror] at hrest
      obtain ⟨rfl, -⟩ := performs_nothing hrest
      cases hlast
      exact ⟨next, _, .refl _ _, rfl⟩
    | ok a =>
      cases visits with
      | nil =>
        cases hlast
        cases hres
      | cons y visits =>
        rw [List.getLast?_cons_cons] at hlast
        obtain ⟨hqueue, hcount⟩ := (taskOp_moves op turns c w).finish hr a rfl
        obtain ⟨next', n, hfollow, hslot⟩ := (ih hlast (hok a).symm).stands
        rw [hqueue] at hfollow hslot
        rw [hcount] at hfollow
        exact ⟨next', n, .step hfollow, hslot⟩

lemma History.stands {err : Error}
    (h : History timely chrono queueName Untimed (fun q => q = propagate p) executions w)
    (hmem : visits ∈ executions) (hlast : visits.getLast? = some v)
    (hres : v.result = some (.error err)) : Stands queueName chrono p (fun _ => 0) visits v := by
  induction h with
  | start => cases hmem
  | unready _ _ _ ih =>
    rcases List.mem_append.mp hmem with hmem | hmem
    · exact ih hmem
    · obtain rfl := List.mem_singleton.mp hmem
      cases hlast
  | next _ _ hr hhandler hp ih =>
    rcases List.mem_append.mp hmem with hmem | hmem
    · exact ih hmem
    · obtain rfl := List.mem_singleton.mp hmem
      subst hhandler
      obtain ⟨-, hqueue, hcount, -⟩ := (taskContext_safe _ _ _ _ _).finish (hr.mono timely_durable) _
        rfl
      have hstands := hp.stands hlast hres
      rw [hqueue, hcount] at hstands
      exact hstands
  | emitted _ _ _ _ _ ih => exact ih hmem

lemma mem_answers {y : Σ op : TaskOp, String × op.Ans} (h : y ∈ answers visits) :
    ∃ x ∈ visits, x.op = y.1 ∧ x.slot = y.2.1 ∧ x.result = some (.ok ()) := by
  obtain ⟨x, hx, hy⟩ := List.mem_filterMap.mp h
  refine ⟨x, hx, ?_⟩
  obtain ⟨op, c, w, t, q⟩ := x
  cases q with
  | call => cases hy
  | done z =>
    obtain ⟨err | a, d⟩ := z
    · cases hy
    · cases hy
      exact ⟨rfl, rfl, rfl⟩

lemma History.resumes (hchrono : chrono.Lossless)
    (h : History timely chrono queueName Untimed (fun q => q = propagate p) (earlier ++ later) w)
    (hclock : Clocked (earlier ++ later).flatten) (hx : x ∈ earlier.flatten)
    (hv : v ∈ later.flatten) (hop : x.op = v.op) (hslot : x.slot = v.slot)
    (hpassed : Passed chrono x v) : ¬ v.Parked := by
  rintro ⟨hpauses, hsuspended⟩
  have hu := h.untimed fun _ hu => hu
  have hfixes : ∀ v' ∈ (earlier ++ later).flatten, ∀ turns,
      Fixes timely v.slot (v'.op.run chrono turns) v'.context :=
    fun v' hmem turns => taskOp_fixes_timely turns (hu v' hmem)
  obtain ⟨hordered, hvisited⟩ := h.ordered timely_durable hfixes
  rw [List.flatten_append] at hclock hu hordered hvisited
  have hmemx : x ∈ earlier.flatten ++ later.flatten := List.mem_append_left _ hx
  have hmemv : v ∈ earlier.flatten ++ later.flatten := List.mem_append_right _ hv
  have hfound : Kept v.slot x.after v.before := hordered.between hx hv
  have hfollows : Follows x v := by
    refine ⟨hop, hslot, ?_, ?_, (List.pairwise_append.mp hclock).2.2 x hx v hv⟩
    · intro j hj
      exact hfound j (hslot ▸ hj)
    · intro j hj
      exact hordered.during hmemv j (hfound j (hslot ▸ hj))
  have hvisitx : Visited timely chrono x.slot x := hslot ▸ hvisited x hmemx
  rcases hpauses with hsleep | hwait
  · exact hfollows.sleep_resumes ((hvisited v hmemv).mono timely_durable)
      (hvisitx.mono timely_durable) hchrono hsleep hpassed hsuspended
  · exact hfollows.wait_resumes (hvisited v hmemv) hvisitx (hu v hmemv) (hu x hmemx) hwait hpassed
      hsuspended

lemma History.advances (hchrono : chrono.Lossless) (hl : p.Calls TaskOp.Lossless)
    (h : History timely chrono queueName Untimed (fun q => q = propagate p) (earlier ++ later) w)
    (hclock : Clocked (earlier ++ later).flatten) (hmem : visits ∈ earlier)
    (hmem' : visits' ∈ later) (hparks : Parks visits) (hparks' : Parks visits')
    (hfollowed : Followed chrono visits visits') :
    (answers visits).length < (answers visits').length := by
  obtain ⟨v, hlast, hparked⟩ := hparks
  obtain ⟨v', hlast', hparked'⟩ := hparks'
  have hresumes : ∀ x ∈ visits, x.op = v'.op → x.slot = v'.slot → ¬ Passed chrono x v' := by
    intro x hx hop hslot hpassed
    have hv' : v' ∈ later.flatten :=
      List.mem_flatten_of_mem hmem' (List.mem_of_getLast? hlast')
    exact h.resumes hchrono hclock (List.mem_flatten_of_mem hmem hx) hv' hop hslot hpassed hparked'
  by_contra hlong
  obtain ⟨cs, _, _, _, -, -, hall⟩ := (h.course hchrono hl).path
  have hpre : answers visits <+: cs :=
    (hall _ (List.mem_map_of_mem (List.mem_append_left _ hmem))).1
  have hpre' : answers visits' <+: cs :=
    (hall _ (List.mem_map_of_mem (List.mem_append_right _ hmem'))).1
  have hprefix : answers visits' <+: answers visits :=
    List.prefix_of_prefix_length_le hpre' hpre (not_lt.mp hlong)
  obtain ⟨next, n, hfollow, hslot⟩ :=
    (h.stands (List.mem_append_left _ hmem) hlast hparked.suspended).stands
  obtain ⟨next', n', hfollow', hslot'⟩ :=
    (h.stands (List.mem_append_right _ hmem') hlast' hparked'.suspended).stands
  rcases hfollow'.meets hfollow hprefix with ⟨-, hcall, rfl⟩ | ⟨a, ha⟩
  · have hop : v.op = v'.op := (Program.call.inj hcall).1
    refine hresumes v (List.mem_of_getLast? hlast) hop ?_ (Or.inr ⟨hparked, ?_⟩)
    · rw [← hslot, ← hslot', hop]
    · exact hfollowed v v' hlast hlast'
  · obtain ⟨x, hx, hop, hxslot, hreturned⟩ := mem_answers ha
    exact hresumes x hx hop (hxslot.trans hslot') (Or.inl hreturned)

lemma History.advances_chain (hchrono : chrono.Lossless) (hl : p.Calls TaskOp.Lossless)
    (h : History timely chrono queueName Untimed (fun q => q = propagate p) executions w)
    (hclock : Clocked executions.flatten) {parked : List (List OpVisit)}
    (hsub : parked.Sublist executions) (hparks : ∀ visits ∈ parked, Parks visits)
    (hfollowed : parked.IsChain (Followed chrono)) :
    (parked.map fun visits => (answers visits).length).Pairwise (· < ·) := by
  rw [← List.isChain_iff_pairwise, List.isChain_map]
  induction parked with
  | nil => exact .nil
  | cons visits parked ih =>
    cases parked with
    | nil => exact .singleton _
    | cons visits' parked =>
      obtain ⟨hfirst, hrest⟩ := List.isChain_cons_cons.mp hfollowed
      rw [List.isChain_cons_cons]
      constructor
      · obtain ⟨earlier, later, rfl, hmem, hsub'⟩ := List.cons_sublist_iff.mp hsub
        have hmem' : visits' ∈ later := hsub'.subset List.mem_cons_self
        exact h.advances hchrono hl hclock hmem hmem' (hparks _ List.mem_cons_self)
          (hparks _ (List.mem_cons_of_mem _ List.mem_cons_self)) hfirst
      · exact ih (List.sublist_of_cons_sublist hsub)
          (fun x hx => hparks x (List.mem_cons_of_mem _ hx)) hrest

lemma Stands.length_lt {n : ℕ} {count : String → ℕ} (h : Stands queueName chrono p count visits v)
    (hp : p.EndsWithin n) : (answers visits).length < n := by
  obtain ⟨next, n', hfollow, -⟩ := h.stands
  obtain ⟨j, hj, hlength⟩ := hfollow.endsWithin hp
  cases j with
  | zero => exact hj.elim
  | succ j => omega

/-- In any history, whatever is cut or fails in it, suspended executions that each came due before
the next got ever more answers; so a handler that ends within `n` operations is suspended so at most
`n` times. -/
theorem suspensions_advance (hchrono : chrono.Lossless) (hl : p.Calls TaskOp.Lossless)
    (h : History timely chrono queueName Untimed (fun q => q = propagate p) executions w)
    (hclock : Clocked executions.flatten) {parked : List (List OpVisit)}
    (hsub : parked.Sublist executions) (hparks : ∀ visits ∈ parked, Parks visits)
    (hfollowed : parked.IsChain (Followed chrono)) :
    parked.Pairwise (fun visits visits' => (answers visits).length < (answers visits').length) ∧
      ∀ n, p.EndsWithin n → parked.length ≤ n := by
  have hincreasing := h.advances_chain hchrono hl hclock hsub hparks hfollowed
  refine ⟨List.pairwise_map.mp hincreasing, ?_⟩
  intro n hp
  have hbounded : (parked.map fun visits => (answers visits).length) ⊆ List.range n := by
    intro k hk
    obtain ⟨visits, hmem, rfl⟩ := List.mem_map.mp hk
    obtain ⟨v, hlast, hparked⟩ := hparks visits hmem
    have hstands := h.stands (hsub.subset hmem) hlast hparked.suspended
    exact List.mem_range.mpr (hstands.length_lt hp)
  have hnodup : (parked.map fun visits => (answers visits).length).Nodup :=
    hincreasing.imp Nat.ne_of_lt
  have hle := (List.subperm_of_subset hnodup hbounded).length_le
  rwa [List.length_map, List.length_range] at hle

end History

section Sample

variable {c : TaskContext} {w : World}

def sampleOrder : Program TaskOp TaskOp.Ans Json :=
  .call (sampleWait "paid") fun _ => .call (sampleWait "shipped") .done

lemma paid_resumes {payload : Json} (hc : c.checkpointCache "$awaitEvent:paid" = some payload)
    (hslot : nextSlot c "$awaitEvent:paid" = "$awaitEvent:paid") :
    Reaches timely (fun r t => r = (.ok payload, advance c "$awaitEvent:paid") ∧ t = w)
      (((sampleWait "paid").run sampleChrono 0).run c) w := by
  have hblank : ¬ isBlank "paid" = true := by decide
  have hname : toString "$awaitEvent:" ++ toString "paid" = "$awaitEvent:paid" := by decide
  simp only [sampleWait, TaskOp.run, TaskContext.awaitEventWithOptions, if_neg hblank,
    reaches_context_bind, reaches_nextCheckpointName, Option.getD_none, hname, hslot,
    TaskContext.lookupCheckpoint, reaches_context]
  have hc' : (advance c "$awaitEvent:paid").checkpointCache "$awaitEvent:paid" = some payload := hc
  simp only [hc', reaches_context_pure]
  exact ⟨rfl, rfl⟩

lemma wait_suspends {event s : String} (hb : isBlank event = false)
    (hslot : nextSlot c s!"$awaitEvent:{event}" = s) (hc : c.checkpointCache s = none)
    (hn : w.store s = none) (hwoken : c.task.wakeEvent = none) :
    Reaches timely (fun r _ => r.1 = .error .suspended)
      (((sampleWait event).run sampleChrono 0).run c) w := by
  change Reaches timely (fun (r : Result Json × TaskContext) _ => r.1 = .error .suspended)
    ((TaskContext.awaitEventWithOptions Serde.json event _).run c) w
  rw [awaitEvent_run _ _ (Bool.eq_false_iff.mp hb)]
  simp only [awaitEventName, awaitEventIn, reaches_context_bind, reaches_nextCheckpointName,
    Option.getD_none, hslot]
  apply (timely_lookup (c := advance c s!"$awaitEvent:{event}") hc hn).mono
  rintro ⟨r, d⟩ t ⟨hr, ht⟩
  cases hr
  have hask : ¬ ((advance c s!"$awaitEvent:{event}").task.wakeEvent = some event ∧
      (advance c s!"$awaitEvent:{event}").task.eventPayload.isNone = true) := by
    rintro ⟨he, -⟩
    rw [show (advance c s!"$awaitEvent:{event}").task.wakeEvent = none from hwoken] at he
    cases he
  simp only [askEvent, reaches_context_bind, reaches_context, if_neg hask, reaches_lift]
  apply timely_query (x := (true, none)) (σ := w.store)
  · exact ht.symm
  · exact id
  · exact fun _ _ => rfl

lemma sample_order : ∃ (v v₂ v₃ : OpVisit) (w : World),
    History timely sampleChrono "default" Untimed (fun q => q = propagate sampleOrder)
        [[v], [v₂, v₃]] w ∧
      v.op = sampleWait "paid" ∧ v.result = some (.error .suspended) ∧
      v₂.op = sampleWait "paid" ∧ v₃.op = sampleWait "shipped" ∧
      v₃.result = some (.error .suspended) ∧ v₃.before.store v.slot ≠ none := by
  have huntimed : Untimed sampleTask := by
    intro event he
    cases he
  obtain ⟨v, w, hemitted, hop, hslot, hsuspended, hrows⟩ :=
    sample_emitted (R := Json) fun _ => .call (sampleWait "shipped") .done
  have hpaid : w.store "$awaitEvent:paid" = some (.bool true) :=
    (hrows _ _).mp (List.mem_singleton_self _)
  have hunshipped : w.store "$awaitEvent:shipped" = none := by
    by_contra hsome
    obtain ⟨x, hx⟩ := Option.ne_none_iff_exists'.mp hsome
    simpa using (hrows _ _).mpr hx
  obtain ⟨r, t, hnew, ht, rfl⟩ := (timely_context sampleTask rfl hrows).exists_run
  obtain ⟨r, u, hresumes, rfl, rfl⟩ := (paid_resumes (w := t)
    (c := freshContext "default" sampleTask (Duration.fromSecs 120) true w.store) hpaid
    rfl).exists_run
  have hslot' : numbered (toString "$awaitEvent:" ++ toString "shipped") (Function.update
      (fun _ => (0 : ℕ)) "$awaitEvent:paid" (0 + 1) (toString "$awaitEvent:" ++ toString "shipped") +
        1) = "$awaitEvent:shipped" := by decide
  obtain ⟨⟨r, d⟩, x, hsuspends, rfl⟩ := (wait_suspends (w := u)
    (c := advance (freshContext "default" sampleTask (Duration.fromSecs 120) true w.store)
      "$awaitEvent:paid") (by decide) hslot' hunshipped (ht ▸ hunshipped) rfl).exists_run
  have hshipped := wait_performs (R := Json) .done hsuspends (fun _ _ => ⟨rfl, rfl⟩) (by rintro a ⟨⟩)
  have hsecond := History.next hemitted huntimed hnew rfl
    (wait_performs _ hresumes (by rintro err ⟨⟩) fun _ _ => hshipped)
  refine ⟨v, _, _, _, hsecond, hop, hsuspended, rfl, rfl, rfl, ?_⟩
  rw [hslot, ht, hpaid]
  simp

theorem suspensions_advance_sample : ∃ (v v₂ v₃ : OpVisit) (w : World),
    History timely sampleChrono "default" Untimed (fun q => q = propagate sampleOrder)
        [[v], [v₂, v₃]] w ∧
      (answers [v]).length < (answers [v₂, v₃]).length ∧ [[v], [v₂, v₃]].length ≤ 2 := by
  obtain ⟨v, v₂, v₃, w, h, hop, hsuspended, hop₂, hop₃, hsuspended₃, hpaid⟩ := sample_order
  have hwait : ∀ event, isBlank event = false → (sampleWait event).IsWait := fun _ h => h
  have hawake : ¬ v.op.IsSleep := by
    rw [hop]
    exact id
  have hawake₂ : ¬ v₂.op.IsSleep := by
    rw [hop₂]
    exact id
  have hclock : Clocked [[v], [v₂, v₃]].flatten := by
    simp [Clocked, hawake, hawake₂]
  have hparked : v.Parked := ⟨Or.inr (hop ▸ hwait "paid" (by decide)), hsuspended⟩
  have hparked₃ : v₃.Parked := ⟨Or.inr (hop₃ ▸ hwait "shipped" (by decide)), hsuspended₃⟩
  have hparks : ∀ visits ∈ [[v], [v₂, v₃]], Parks visits := by
    intro visits hmem
    rcases List.mem_pair.mp hmem with rfl | rfl
    · exact ⟨v, rfl, hparked⟩
    · exact ⟨v₃, rfl, hparked₃⟩
  have hfollowed : [[v], [v₂, v₃]].IsChain (Followed sampleChrono) := by
    refine .cons_cons ?_ (.singleton _)
    rintro x x' ⟨⟩ ⟨⟩
    exact ⟨fun hsleep => absurd hsleep hawake, fun _ => hpaid⟩
  have hl : sampleOrder.Calls TaskOp.Lossless := ⟨trivial, fun _ => ⟨trivial, fun _ => trivial⟩⟩
  obtain ⟨hgrow, hbound⟩ := suspensions_advance sampleChrono_lossless hl h hclock (List.Sublist.refl _)
    hparks hfollowed
  exact ⟨v, v₂, v₃, w, h, by simpa using hgrow, hbound 2 fun _ _ => trivial⟩

end Sample

end AbsurdSdk.Durability
