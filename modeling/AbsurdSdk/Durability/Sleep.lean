import AbsurdSdk.Durability.Faultless
import AbsurdSdk.Durability.Slots

namespace AbsurdSdk.Durability

open Interaction Model

def reading : Event → Option DateTime
  | ⟨.query .currentTime, .ok now⟩ => some now
  | _ => none

def schedule : Event → Option DateTime
  | ⟨.query (.scheduleRun _ _ wakeAt), _⟩ => some wakeAt
  | _ => none

def readings (events : List Event) : List DateTime := events.filterMap reading

def schedules (events : List Event) : List DateTime := events.filterMap schedule

def TaskOp.wakeTime (now : DateTime) : TaskOp → Option DateTime
  | .sleepFor _ duration => (chronoFromStd duration).bind now.checkedAdd
  | .sleepUntil _ wakeAt => some wakeAt
  | _ => none

def TaskOp.TooLong : TaskOp → Prop
  | .sleepFor _ duration => chronoFromStd duration = none
  | _ => False

def OpVisit.InRange (v : OpVisit) : Prop :=
  ¬ v.op.TooLong ∧ ∀ now ∈ readings v.events, (v.op.wakeTime now).isSome

def OpVisit.result (v : OpVisit) : Option (Result Unit) :=
  match v.rest with
  | .done (r, _) => some (r.map fun _ => ())
  | .call _ _ => none

/-- The program has ended, or stands at a call that can be answered: it neither panics nor hangs. -/
def Answerable {α : Type} (q : Process α) : Prop :=
  ∀ call next, q = .call call next → Nonempty (Answer call)

lemma answerable_of_calls {α : Type} {q : Process α}
    (h : q.Calls fun call => Nonempty (Answer call)) : Answerable q := by
  rintro call next rfl
  exact h.1

section Doze

variable {s : String} {c : TaskContext} {w t u : World} {rs ss : List DateTime}
  {now wake : DateTime} {chrono : Serde DateTime} {name : String} {j : Json}

structure Dozed (s : String) (w t : World) (rs ss : List DateTime) : Prop where
  store : t.store s = w.store s
  log : ∃ events, t.log = events ++ w.log ∧ (∀ e ∈ events, Leaves s e.1) ∧
    readings events = rs ∧ schedules events = ss

lemma lookup_quiet {n : String} {e : Event} (h : IsLookup n e.1) :
    Leaves s e.1 ∧ reading e = none ∧ schedule e = none := by
  obtain ⟨call, r⟩ := e
  cases call with
  | poolGet => exact ⟨trivial, rfl, rfl⟩
  | query statement =>
    cases statement with
    | getTaskCheckpointState => exact ⟨trivial, rfl, rfl⟩
    | _ => exact h.elim
  | _ => exact h.elim

namespace Dozed

lemma refl (s : String) (w : World) : Dozed s w w [] [] := ⟨rfl, [], rfl, by simp, rfl, rfl⟩

lemma step {call : Call} {r : Answer call} (h : Dozed s w t rs ss) (hu : durable t call r u)
    (hc : Leaves s call) :
    Dozed s w u ((reading ⟨call, r⟩).toList ++ rs) ((schedule ⟨call, r⟩).toList ++ ss) := by
  obtain ⟨hs, events, hl, he, rfl, rfl⟩ := h
  refine ⟨(stores_leaves hc hu.1).trans hs, ⟨call, r⟩ :: events, by simp [hu.2, hl], ?_, ?_, ?_⟩
  · simpa using ⟨hc, he⟩
  · cases hr : reading ⟨call, r⟩ <;> simp [readings, hr]
  · cases hr : schedule ⟨call, r⟩ <;> simp [schedules, hr]

lemma grew (h : Dozed s w t rs ss) : Grew (Leaves s) w t := by
  obtain ⟨events, hl, he, -⟩ := h.log
  exact ⟨events, hl, he⟩

lemma lookup {n : String} (h : Dozed s w t rs ss) (hs : u.store = t.store)
    (hg : Grew (IsLookup n) t u) : Dozed s w u rs ss := by
  obtain ⟨events, hl, he, rfl, rfl⟩ := h.log
  obtain ⟨events', hl', he'⟩ := hg
  have hquiet : ∀ e ∈ events', Leaves s e.1 ∧ reading e = none ∧ schedule e = none :=
    fun e hmem => lookup_quiet (he' e hmem)
  refine ⟨(congrFun hs s).trans h.store, events' ++ events, by simp [hl, hl'], ?_, ?_, ?_⟩
  · intro e hmem
    rcases List.mem_append.mp hmem with hmem | hmem
    · exact (hquiet e hmem).1
    · exact he e hmem
  · rw [readings, List.filterMap_append, List.filterMap_eq_nil_iff.mpr fun e hmem =>
      (hquiet e hmem).2.1]
    rfl
  · rw [schedules, List.filterMap_append, List.filterMap_eq_nil_iff.mpr fun e hmem =>
      (hquiet e hmem).2.2]
    rfl

end Dozed

inductive Asleep (s : String) (wake : DateTime) (w t : World) : Prop
  | unread : Dozed s w t [] [] → Asleep s wake w t
  | read {now : DateTime} : Dozed s w t [now] [] → Asleep s wake w t
  | scheduled {now : DateTime} : now < wake → Dozed s w t [now] [wake] → Asleep s wake w t

inductive Awake (s : String) (wake : DateTime) (w t : World) : Result Unit → Prop
  | woke {now : DateTime} : wake ≤ now → Dozed s w t [now] [] → Awake s wake w t (.ok ())
  | suspended {now : DateTime} : now < wake → Dozed s w t [now] [wake] →
      Awake s wake w t (.error .suspended)
  | failed {err : Error} : err ≠ .suspended → Failed w t → Asleep s wake w t →
      Awake s wake w t (.error err)

lemma IsInfra.ne_suspended {err : Error} (h : IsInfra err) : err ≠ .suspended := by
  rcases h with ⟨text, rfl⟩ | ⟨pg, rfl⟩
  · simp
  · rw [mapDatabaseError]
    split <;> simp

lemma scheduleRun_dozes (c : TaskContext) (hp : Dozed s w t [now] []) (hlt : now < wake) :
    Safe durable (Asleep s wake w) (fun r u => r.2 = c ∧ u.store s = w.store s ∧
      (r.1 = .ok () ∧ Dozed s w u [now] [wake] ∨
        ∃ err, r.1 = .error err ∧ err ≠ .suspended ∧ Failed w u))
      ((TaskContext.scheduleRun wake).run c) t := by
  simp only [TaskContext.scheduleRun, safe_context_bind, safe_context, safe_lift]
  refine ⟨.read hp, safe_query (.read hp) ?_ ?_⟩
  · intro r u hu
    have hpu : Dozed s w u [now] [] := hp.step hu trivial
    refine ⟨.read hpu, ?_⟩
    rintro err rfl
    have hf : Failed w u := .of_step hp.grew hu (by simp [Succeeds])
    exact ⟨.read hpu, trivial, hpu.store, Or.inr ⟨_, rfl, by simp, hf⟩⟩
  · intro u hu r v hv
    have hpu : Dozed s w u [now] [] := hp.step hu trivial
    have hpv : Dozed s w v [now] [wake] := hpu.step hv trivial
    refine ⟨.scheduled hlt hpv, .scheduled hlt hpv, trivial, hpv.store, ?_⟩
    cases r with
    | ok => exact Or.inl ⟨rfl, hpv⟩
    | error err =>
      have hf : Failed w v := .of_step hpu.grew hv (by simp [Succeeds])
      exact Or.inr ⟨_, rfl, IsInfra.ne_suspended (Or.inr ⟨err, rfl⟩), hf⟩

lemma sleep_dozes (wakeAt : DateTime) (hp : Dozed s w t [now] []) (hslot : nextSlot c name = s)
    (hc : CachedAt c t.store s) (hj : t.store s = some j)
    (hd : ∀ x, chrono.fromValue j = .ok x → x = wake) :
    Safe durable (Asleep s wake w)
      (fun r u => CachedAt r.2 u.store s ∧ ∀ x, chrono.fromValue j = .ok x → Awake s wake w u r.1)
      ((TaskContext.sleepUntilAtCurrentTime chrono name wakeAt now).run c) t := by
  have hc' : CachedAt (advance c name) t.store s := hc
  simp only [TaskContext.sleepUntilAtCurrentTime, safe_context_bind, safe_nextCheckpointName, hslot]
  refine ⟨.read hp, (lookupCheckpoint_safe s hc').mono ?_ ?_⟩
  · rintro u ⟨hu, hg⟩
    exact .read (hp.lookup hu hg)
  rintro ⟨r, d⟩ u ⟨hu, hg⟩ ⟨hre, hr, hf⟩
  have hpu : Dozed s w u [now] [] := hp.lookup hu hg
  have hdu : CachedAt d u.store s := hu ▸ hre.cachedAt hc'
  cases r with
  | error err =>
    obtain ⟨hfail, hinfra⟩ := hf err rfl
    have hend : Awake s wake w u (.error err) :=
      .failed hinfra.ne_suspended (.of_later hp.grew hfail) (.read hpu)
    exact ⟨.read hpu, hdu, fun _ _ => hend⟩
  | ok found =>
    rw [hr found rfl, hj]
    simp only [safe_context_bind, safe_lift, Async.decode, safe_ofResult]
    refine ⟨.read hpu, .read hpu, ?_⟩
    cases hdec : chrono.fromValue j with
    | error text => exact ⟨.read hpu, hdu, by simp⟩
    | ok x =>
      obtain rfl := hd x hdec
      simp only [Except.mapError]
      split
      · rename_i hlt
        simp only [safe_context_bind]
        apply (scheduleRun_dozes d hpu hlt).mono (fun _ h => h)
        rintro ⟨r, e⟩ v hv ⟨rfl, hs, hres⟩
        have hev : CachedAt e v.store s := fun y hy => (hs.trans hpu.store.symm).trans (hdu y hy)
        rcases hres with ⟨rfl, hpv⟩ | ⟨err, rfl, hne, hfail⟩
        · exact ⟨.scheduled hlt hpv, hev, fun _ _ => .suspended hlt hpv⟩
        · exact ⟨hv, hev, fun _ _ => .failed hne hfail hv⟩
      · rename_i hlt
        exact ⟨.read hpu, hdu, fun _ _ => .woke (DateTime.not_lt.mp hlt) hpu⟩

def Commits (chrono : Serde DateTime) (s : String) (wake : DateTime) (u : World) : Prop :=
  u.store s = none ∨ ∃ j, chrono.toValue wake = .ok j ∧ u.store s = some j

lemma sleep_commits (chrono : Serde DateTime) (wakeAt now : DateTime) (hslot : nextSlot c name = s)
    (hc : CachedAt c t.store s) (hn : t.store s = none) :
    Safe durable (Commits chrono s (postgresTimestampPrecision wakeAt))
      (fun r u => CachedAt r.2 u.store s)
      ((TaskContext.sleepUntilAtCurrentTime chrono name wakeAt now).run c) t := by
  have hc' : CachedAt (advance c name) t.store s := hc
  simp only [TaskContext.sleepUntilAtCurrentTime, safe_context_bind, safe_nextCheckpointName, hslot]
  refine ⟨Or.inl hn, (lookupCheckpoint_safe s hc').mono ?_ ?_⟩
  · rintro u ⟨hu, -⟩
    exact Or.inl (hu ▸ hn)
  rintro ⟨r, d⟩ u ⟨hu, -⟩ ⟨hre, hr, -⟩
  have hnu : u.store s = none := hu ▸ hn
  have hdu : CachedAt d u.store s := hu ▸ hre.cachedAt hc'
  cases r with
  | error err => exact ⟨Or.inl hnu, hdu⟩
  | ok found =>
    rw [hr found rfl, hn]
    simp only [safe_context_bind, safe_lift, Async.encode, safe_ofResult]
    refine ⟨Or.inl hnu, Or.inl hnu, ?_⟩
    cases hv : chrono.toValue (postgresTimestampPrecision wakeAt) with
    | error text => exact ⟨Or.inl hnu, hdu⟩
    | ok value =>
      have hcommit : ∀ v : World, v.store = Function.update u.store s (some value) →
          v.store s = some value := fun v hs => by rw [hs, Function.update_self]
      simp only [Except.mapError]
      apply (persistCheckpoint_safe s value).mono
      · rintro v ⟨hs | hs, -⟩
        · exact Or.inl (hs ▸ hnu)
        · exact Or.inr ⟨value, hv, hcommit v hs⟩
      rintro ⟨r, e⟩ v ⟨hs, -⟩ (⟨rfl, hs', rfl⟩ | ⟨err, hre, -, -⟩)
      · have hev : CachedAt (withCache d (Function.update d.checkpointCache s (some value)))
            v.store s := by
          intro x hx
          have hvx : value = x := by simpa [withCache] using hx
          rw [hcommit v hs', hvx]
        refine ⟨Or.inr ⟨value, hv, hcommit v hs'⟩, ?_⟩
        apply ((sparing s).wake trivial now _ v).mono
        · intro x hx
          exact Or.inr ⟨value, hv, hx.1.trans (hcommit v hs')⟩
        · exact fun _ _ hx hf => hf.cachedAt hx hev
      · cases hre
        have hdv : CachedAt d v.store s := by
          intro x hx
          have hxu := hdu x hx
          rw [hnu] at hxu
          cases hxu
        refine ⟨?_, hdv⟩
        rcases hs with hs | hs
        · exact Or.inl (hs ▸ hnu)
        · exact Or.inr ⟨value, hv, hcommit v hs⟩

lemma currentTime_dozes (s : String) (c : TaskContext) (w : World) :
    Safe durable (fun u => u.store = w.store ∧ (Dozed s w u [] [] ∨ ∃ now, Dozed s w u [now] []))
      (fun r u => r.2 = c ∧ ((∃ now, r.1 = .ok now ∧ Dozed s w u [now] []) ∨
        ∃ err, r.1 = .error err ∧ err ≠ .suspended ∧ Failed w u ∧ Dozed s w u [] []))
      (TaskContext.currentTime.run c) w := by
  have hw := Dozed.refl s w
  rw [TaskContext.currentTime, safe_lift]
  apply safe_query ⟨rfl, Or.inl hw⟩
  · intro r u hu
    have hpu : Dozed s w u [] [] := hw.step hu trivial
    refine ⟨⟨hu.1, Or.inl hpu⟩, ?_⟩
    rintro err rfl
    have hf : Failed w u := .of_step hw.grew hu (by simp [Succeeds])
    exact ⟨⟨hu.1, Or.inl hpu⟩, rfl, Or.inr ⟨_, rfl, by simp, hf, hpu⟩⟩
  · intro u hu r v hv
    have hpu : Dozed s w u [] [] := hw.step hu trivial
    have hs : v.store = w.store := (hv.1 : v.store = u.store).trans hu.1
    cases r with
    | ok now =>
      have hpv : Dozed s w v [now] [] := hpu.step hv trivial
      exact ⟨⟨hs, Or.inr ⟨now, hpv⟩⟩, ⟨hs, Or.inr ⟨now, hpv⟩⟩, rfl, Or.inl ⟨now, rfl, hpv⟩⟩
    | error err =>
      have hpv : Dozed s w v [] [] := hpu.step hv trivial
      have hf : Failed w v := .of_step hpu.grew hv (by simp [Succeeds])
      exact ⟨⟨hs, Or.inl hpv⟩, ⟨hs, Or.inl hpv⟩, rfl,
        Or.inr ⟨_, rfl, IsInfra.ne_suspended (Or.inr ⟨err, rfl⟩), hf, hpv⟩⟩

end Doze

section Operation

variable {s : String} {op : TaskOp} {c : TaskContext} {w t : World} {wake : DateTime}
  {chrono : Serde DateTime} {j : Json}

lemma sleepOp_safe {inv : World → Prop} {Q : Result Unit → TaskContext → World → Prop}
    (hop : op.IsSleep) (turns : ℕ)
    (hread : ∀ t, t.store = w.store → (Dozed s w t [] [] ∨ ∃ now, Dozed s w t [now] []) → inv t)
    (hlong : ∀ text, op.TooLong → Q (.error (.config text)) c w)
    (hfail : ∀ t err, t.store = w.store → err ≠ .suspended → Failed w t → Dozed s w t [] [] →
      Q (.error err) c t)
    (hsleep : ∀ now wakeAt t, t.store = w.store → Dozed s w t [now] [] →
      op.wakeTime now = some wakeAt → Safe durable inv (fun r u => Q r.1 r.2 u)
        ((TaskContext.sleepUntilAtCurrentTime chrono op.name wakeAt now).run c) t) :
    Safe durable inv (fun r t => Q (r.1.map fun _ => ()) r.2 t) ((op.run chrono turns).run c) w := by
  have hmap : ∀ r : Result Unit, r.map (fun _ => ()) = r := by
    rintro (err | ⟨⟩)
    · rfl
    · rfl
  have hclock : Safe durable inv (fun r t => t.store = w.store ∧ r.2 = c ∧
      ((∃ now, r.1 = .ok now ∧ Dozed s w t [now] []) ∨
        ∃ err, r.1 = .error err ∧ err ≠ .suspended ∧ Failed w t ∧ Dozed s w t [] []))
      (TaskContext.currentTime.run c) w :=
    (currentTime_dozes s c w).mono (fun t h => hread t h.1 h.2) fun _ _ h h' => ⟨h.1, h'⟩
  cases op with
  | sleepFor name duration =>
    simp only [TaskOp.run, TaskContext.sleepFor, hmap]
    cases hdur : chronoFromStd duration with
    | none => exact ⟨hread w rfl (Or.inl (.refl s w)), hlong _ hdur⟩
    | some delta =>
      simp only [safe_context_bind]
      apply hclock.mono (fun _ h => h)
      rintro ⟨r, d⟩ t hi ⟨hs, rfl, ⟨now, rfl, hp⟩ | ⟨err, rfl, hne, hf, hp⟩⟩
      · dsimp only
        cases hsum : now.checkedAdd delta with
        | none => exact safe_lift.mpr (safe_panic.mpr hi)
        | some wakeAt => exact hsleep now wakeAt t hs hp (by simp [TaskOp.wakeTime, hdur, hsum])
      · exact ⟨hi, hfail t err hs hne hf hp⟩
  | sleepUntil name wakeAt =>
    simp only [TaskOp.run, TaskContext.sleepUntil, hmap, safe_context_bind]
    apply hclock.mono (fun _ h => h)
    rintro ⟨r, d⟩ t hi ⟨hs, rfl, ⟨now, rfl, hp⟩ | ⟨err, rfl, hne, hf, hp⟩⟩
    · exact hsleep now wakeAt t hs hp rfl
    · exact ⟨hi, hfail t err hs hne hf hp⟩
  | _ => exact hop.elim

lemma sleepOp_dozes (hop : op.IsSleep) (turns : ℕ) (hslot : nextSlot c op.name = s)
    (hc : CachedAt c w.store s) (hj : w.store s = some j)
    (hd : ∀ x, chrono.fromValue j = .ok x → x = wake) :
    Safe durable (Asleep s wake w)
      (fun r t => CachedAt r.2 t.store s ∧ (∀ x, chrono.fromValue j = .ok x →
        Awake s wake w t (r.1.map fun _ => ()) ∨ op.TooLong))
      ((op.run chrono turns).run c) w := by
  apply sleepOp_safe (s := s) (Q := fun r d t => CachedAt d t.store s ∧
    ∀ x, chrono.fromValue j = .ok x → Awake s wake w t r ∨ op.TooLong) hop
  · rintro t - (hp | ⟨now, hp⟩)
    · exact .unread hp
    · exact .read hp
  · intro text hlong
    exact ⟨hc, fun _ _ => Or.inr hlong⟩
  · intro t err hs hne hf hp
    exact ⟨hs ▸ hc, fun _ _ => Or.inl (.failed hne hf (.unread hp))⟩
  · intro now wakeAt t hs hp _
    have hsleep := sleep_dozes (c := c) wakeAt hp hslot (hs ▸ hc) (hs ▸ hj) hd
    exact hsleep.mono (fun _ h => h) fun _ _ _ h => ⟨h.1, fun x hx => Or.inl (h.2 x hx)⟩

def Plain (call : Call) : Prop := Nonempty (Answer call) ∧ ∀ r, reading ⟨call, r⟩ = none

lemma plain_query {α : Type} (statement : Statement α) (x : α)
    (h : ∀ r, reading ⟨.query statement, r⟩ = none) : Plain (.query statement) :=
  ⟨⟨(.ok x : Except PgError α)⟩, h⟩

lemma plain_poolGet : Plain .poolGet := ⟨⟨(.ok () : Except String Unit)⟩, fun _ => rfl⟩

lemma lookupCheckpoint_plain (name : String) (c : TaskContext) :
    ((TaskContext.lookupCheckpoint name).run c).Calls Plain :=
  calls_lookupCheckpoint plain_poolGet fun _ _ => plain_query _ none fun _ => rfl

lemma persistCheckpoint_plain (name : String) (value : Json) (c : TaskContext) :
    ((TaskContext.persistCheckpoint name value).run c).Calls Plain := by
  apply calls_persistCheckpoint plain_poolGet
  · exact fun _ _ _ _ => plain_query _ () fun _ => rfl
  · exact fun _ => ⟨⟨()⟩, fun _ => rfl⟩

lemma sleep_plain (chrono : Serde DateTime) (name : String) (wakeAt now : DateTime)
    (c : TaskContext) :
    ((TaskContext.sleepUntilAtCurrentTime chrono name wakeAt now).run c).Calls Plain := by
  have hwake : ∀ (actual : DateTime) e, ((if now < actual then do
      TaskContext.scheduleRun actual
      ContextM.throw .suspended
    else
      pure () : ContextM Unit).run e).Calls Plain := by
    intro actual e
    split
    · apply calls_context_bind
      · apply calls_context_bind
        · trivial
        · exact fun _ _ => calls_lift (calls_query plain_poolGet (plain_query _ () fun _ => rfl))
      · exact fun _ _ => trivial
    · trivial
  rw [TaskContext.sleepUntilAtCurrentTime]
  apply calls_context_bind
  · rw [nextCheckpointName_run]
    trivial
  intro checkpointName d
  apply calls_context_bind (lookupCheckpoint_plain _ _)
  rintro (_ | cached) e
  · apply calls_context_bind
    · exact calls_lift (x := Async.ofResult _) trivial
    intro value e
    apply calls_context_bind (persistCheckpoint_plain _ _ _)
    exact fun _ e => hwake _ e
  · apply calls_context_bind
    · exact calls_lift (x := Async.ofResult _) trivial
    · exact fun actual e => hwake actual e

lemma sleepOp_commits (hop : op.IsSleep) (turns : ℕ) (hslot : nextSlot c op.name = s)
    (hc : CachedAt c w.store s) (hn : w.store s = none) :
    Safe durable
      (fun t => t.store s = none ∨ ∃ now wakeAt, op.wakeTime now = some wakeAt ∧
        (∃ events, t.log = events ++ w.log ∧ readings events = [now]) ∧
        ∃ j, chrono.toValue (postgresTimestampPrecision wakeAt) = .ok j ∧ t.store s = some j)
      (fun r t => CachedAt r.2 t.store s) ((op.run chrono turns).run c) w := by
  apply sleepOp_safe (s := s) (Q := fun _ d t => CachedAt d t.store s) hop
  · intro t hs _
    exact Or.inl (hs ▸ hn)
  · exact fun _ _ => hc
  · exact fun t err hs _ _ _ => hs ▸ hc
  · intro now wakeAt t hs hp hwake
    have hcommits := sleep_commits chrono wakeAt now (c := c) (t := t) hslot (hs ▸ hc) (hs ▸ hn)
    have hclock : Safe durable (fun u => ∃ events, u.log = events ++ w.log ∧ readings events = [now])
        (fun _ _ => True)
        ((TaskContext.sleepUntilAtCurrentTime chrono op.name wakeAt now).run c) t := by
      obtain ⟨events, hl, -, hr, -⟩ := hp.log
      apply Safe.of_calls (sleep_plain chrono op.name wakeAt now c) ⟨events, hl, hr⟩
      rintro u call r x hcall ⟨events', hl', hr'⟩ hx
      refine ⟨⟨call, r⟩ :: events', by simp [hx.2, hl'], ?_⟩
      simpa [readings, hcall.2 r] using hr'
    apply (hcommits.and hclock).mono
    · rintro u ⟨hu | hu, hlog⟩
      · exact Or.inl hu
      · exact Or.inr ⟨now, wakeAt, hwake, hlog, hu⟩
    · exact fun _ _ _ h => h.1

lemma Run.grew {α : Type} {p q : Process α} (h : Run durable p w q t) : Grew (fun _ => True) w t :=
  h.invariant (fun _ _ _ _ hu hg => Grew.step hg hu trivial) (.refl _ w)

lemma clock_stands {F : DateTime → ContextM Unit} {call : Call}
    {next : Answer call → Process (Result Unit × TaskContext)}
    (hr : Run durable ((TaskContext.currentTime >>= F).run c) w (.call call next) t)
    (hF : ∀ now events, t.log = events ++ w.log → now ∈ readings events → ∀ d u,
      Run durable ((F now).run d) u (.call call next) t → Nonempty (Answer call)) :
    Nonempty (Answer call) := by
  have hclock : (TaskContext.currentTime.run c).Calls fun call => Nonempty (Answer call) :=
    calls_lift (calls_query ⟨(.ok () : Except String Unit)⟩
      ⟨(.ok (.ofMicros 0) : Except PgError DateTime)⟩)
  rcases Run.bind_at (p := TaskContext.currentTime.run c) hr hclock with
    hn | ⟨⟨err | now, d⟩, u, hfirst, hrest⟩
  · exact hn
  · cases hrest
  · obtain ⟨-, ⟨now', hok, hp⟩ | ⟨err, hok, -⟩⟩ := (currentTime_dozes "" c w).finish hfirst
    · cases hok
      obtain ⟨events, hl, -, hread, -⟩ := hp.log
      obtain ⟨events', hl', -⟩ := Run.grew hrest
      apply hF now (events' ++ events) (by simp [hl, hl']) _ d u hrest
      rw [readings, List.filterMap_append]
      apply List.mem_append_right
      rw [← readings, hread]
      exact List.mem_singleton_self now
    · cases hok

lemma sleep_answerable {q : Process (Result op.Ans × TaskContext)} {turns : ℕ} (hop : op.IsSleep)
    (hr : Run durable ((op.run chrono turns).run c) w q t) (hlong : ¬ op.TooLong)
    (hsum : ∀ events, t.log = events ++ w.log → ∀ now ∈ readings events,
      (op.wakeTime now).isSome) : Answerable q := by
  rintro call next rfl
  have hrest : ∀ name now wakeAt d u, ∀ next : Answer call → Process (Result Unit × TaskContext),
      Run durable ((TaskContext.sleepUntilAtCurrentTime chrono name wakeAt now).run d) u
        (.call call next) t → Nonempty (Answer call) := by
    intro name now wakeAt d u next hr
    exact (hr.calls (sleep_plain chrono name wakeAt now d)).1.1
  cases op with
  | sleepFor name duration =>
    cases hdur : chronoFromStd duration with
    | none => exact absurd hdur hlong
    | some delta =>
      simp only [TaskOp.run, TaskContext.sleepFor, hdur] at hr
      apply clock_stands hr
      intro now events hl hnow d u hrun
      have hsome := hsum events hl now hnow
      cases hadd : now.checkedAdd delta with
      | none => simp [TaskOp.wakeTime, hdur, hadd] at hsome
      | some wakeAt =>
        simp only [hadd] at hrun
        exact hrest _ _ _ _ _ _ hrun
  | sleepUntil name wakeAt =>
    exact clock_stands hr fun now _ _ _ d u hrun => hrest _ _ _ _ _ _ hrun
  | _ => exact hop.elim

end Operation

structure SleepsTill (wake : DateTime) (v : OpVisit) : Prop where
  scheduled : ∀ wakeAt ∈ schedules v.events, wakeAt = wake
  answerable : Answerable v.rest
  ended : ∀ r, v.result = some r → (∀ e ∈ v.events, Succeeds e.1 e.2) →
    ∃ now, readings v.events = [now] ∧
      (wake ≤ now ∧ r = .ok () ∧ schedules v.events = [] ∨
        now < wake ∧ r = .error .suspended ∧ schedules v.events = [wake])
  resumed : ∀ m, readings v.events = [.ofMicros m] → wake.toMicros ≤ m →
    schedules v.events = [] ∧ v.result ≠ some (.error .suspended)

section History

variable {s : String} {v : OpVisit} {chrono : Serde DateTime} {wake : DateTime} {j : Json}
  {R : Type} {queueName : String} {claims : ClaimedTask → Prop} {handlers : TaskHandler R → Prop}
  {executions : List (List OpVisit)} {w : World}

lemma Dozed.events {rs ss : List DateTime} (h : Dozed s v.before v.after rs ss) :
    readings v.events = rs ∧ schedules v.events = ss := by
  obtain ⟨events, hl, -, hr, hs⟩ := h.log
  rw [OpVisit.events_eq hl]
  exact ⟨hr, hs⟩

lemma Failed.event (h : Failed v.before v.after) : ∃ e ∈ v.events, ¬ Succeeds e.1 e.2 := by
  obtain ⟨events, hl, hf⟩ := h
  rwa [OpVisit.events_eq hl]

lemma lt_ofMicros {m : ℤ} (ht : wake.nanos % 1000 = 0) (hm : wake.toMicros ≤ m) :
    ¬ .ofMicros m < wake :=
  DateTime.not_lt.mpr (le_ofMicros ht hm)

lemma Visited.sleepsTill (hv : Visited durable chrono s v) (hop : v.op.IsSleep) (hs : v.slot = s)
    (hr : v.InRange) (hj : v.before.store s = some j) (hd : chrono.fromValue j = .ok wake)
    (ht : wake.nanos % 1000 = 0) : SleepsTill wake v := by
  obtain ⟨turns, hrun⟩ := hv.run
  have hdecode : ∀ x, chrono.fromValue j = .ok x → x = wake :=
    fun x hx => Except.ok.inj (hx.symm.trans hd)
  have hsafe := sleepOp_dozes hop turns hs hv.cached hj hdecode
  have hcut : Asleep s wake v.before v.after := hsafe.cut hrun
  have hend : ∀ r, v.result = some r → Awake s wake v.before v.after r := by
    obtain ⟨op, c, b, a, q⟩ := v
    intro r hres
    cases q with
    | call call next => cases hres
    | done x =>
      cases hres
      exact ((hsafe.finish hrun).2 wake hd).resolve_right hr.1
  refine ⟨?_, ?_, ?_, ?_⟩
  · rcases hcut with hp | hp | ⟨-, hp⟩
    · simp [hp.events.2]
    · simp [hp.events.2]
    · simp [hp.events.2]
  · apply sleep_answerable hop hrun hr.1
    intro events hl now hnow
    exact hr.2 now (OpVisit.events_eq hl ▸ hnow)
  · intro r hres hok
    cases hend r hres with
    | @woke now hle hp => exact ⟨now, hp.events.1, Or.inl ⟨hle, rfl, hp.events.2⟩⟩
    | @suspended now hlt hp => exact ⟨now, hp.events.1, Or.inr ⟨hlt, rfl, hp.events.2⟩⟩
    | failed _ hf _ =>
      obtain ⟨e, he, hne⟩ := hf.event
      exact absurd (hok e he) hne
  · intro m hm hle
    constructor
    · rcases hcut with hp | hp | ⟨hlt, hp⟩
      · exact hp.events.2
      · exact hp.events.2
      · rw [hp.events.1] at hm
        cases hm
        exact absurd hlt (lt_ofMicros ht hle)
    · intro hres
      cases hend _ hres with
      | suspended hlt hp =>
        rw [hp.events.1] at hm
        cases hm
        exact lt_ofMicros ht hle hlt
      | failed hne => exact hne rfl

lemma Grew.events {P : Call → Prop} (h : Grew P v.before v.after) : ∀ e ∈ v.events, P e.1 := by
  obtain ⟨events, hl, he⟩ := h
  rwa [OpVisit.events_eq hl]

lemma Visited.untouched (hv : Visited durable chrono s v) (hs : v.slot ≠ s) :
    Untouched s v.before v.after := by
  obtain ⟨turns, hrun⟩ := hv.run
  exact (taskOp_spares chrono turns v.op hs v.before).cut hrun

lemma Asleep.grew {w t : World} (h : Asleep s wake w t) : Grew (Leaves s) w t := by
  rcases h with hp | hp | ⟨-, hp⟩
  · exact hp.grew
  · exact hp.grew
  · exact hp.grew

lemma Visited.leaves (hv : Visited durable chrono s v) (hop : v.slot = s → v.op.IsSleep)
    (hj : v.before.store s = some j) (hd : chrono.fromValue j = .ok wake) :
    ∀ e ∈ v.events, Leaves s e.1 := by
  by_cases hs : v.slot = s
  · obtain ⟨turns, hrun⟩ := hv.run
    have hdecode : ∀ x, chrono.fromValue j = .ok x → x = wake :=
      fun x hx => Except.ok.inj (hx.symm.trans hd)
    have hsafe := sleepOp_dozes (hop hs) turns hs hv.cached hj hdecode
    exact (hsafe.cut hrun).grew.events
  · exact (hv.untouched hs).2.events

theorem sleep_keeps_wake_time (hchrono : chrono.Lossless)
    (h : History durable chrono queueName claims handlers executions w)
    (hsleep : ∀ v ∈ executions.flatten, v.slot = s → v.op.IsSleep ∧ v.InRange)
    {earlier later : List OpVisit} (hv : executions.flatten = earlier ++ v :: later)
    (hbefore : v.before.store s = none) (hafter : v.after.store s ≠ none) :
    ∃ now wakeAt, readings v.events = [now] ∧ v.op.wakeTime now = some wakeAt ∧
      w.store s = v.after.store s ∧
      ∀ v' ∈ later, v'.after.store s = v.after.store s ∧ (∀ e ∈ v'.events, Leaves s e.1) ∧
        (v'.slot = s → SleepsTill (postgresTimestampPrecision wakeAt) v') := by
  have hwrites : ∀ v ∈ executions.flatten, ∀ turns,
      Fixes durable s (v.op.run chrono turns) v.context := by
    intro v hmem turns
    apply taskOp_fixes (fun _ _ _ _ he => he) turns
    exact fun hwait hs => (hsleep v hmem hs).1.not_isWait hwait
  obtain ⟨ho, hvisited⟩ := h.ordered (fun _ _ _ _ he => he) hwrites
  rw [hv] at hsleep ho hvisited
  have hmem : v ∈ earlier ++ v :: later := List.mem_append_right _ List.mem_cons_self
  have hs : v.slot = s := by
    by_contra hs
    exact hafter (((hvisited v hmem).untouched hs).1.trans hbefore)
  obtain ⟨turns, hrun⟩ := (hvisited v hmem).run
  have hcommit := (sleepOp_commits (hsleep v hmem hs).1 turns hs (hvisited v hmem).cached
    hbefore).cut hrun
  obtain ⟨now, wakeAt, hwake, ⟨events, hl, hread⟩, j, hj, hstore⟩ := hcommit.resolve_left hafter
  have hdecode := hchrono _ _ hj
  have htrunc : (postgresTimestampPrecision wakeAt).nanos % 1000 = 0 := by
    rw [postgresTimestampPrecision_nanos]
    omega
  refine ⟨now, wakeAt, OpVisit.events_eq hl ▸ hread, hwake, ?_, ?_⟩
  · rw [ho.later.kept j hstore, hstore]
  intro v' hlater
  have hmem' : v' ∈ earlier ++ v :: later :=
    List.mem_append_right _ (List.mem_cons_of_mem _ hlater)
  have hj' : v'.before.store s = some j := ho.later.before hlater j hstore
  refine ⟨?_, (hvisited v' hmem').leaves (fun hs' => (hsleep v' hmem' hs').1) hj' hdecode, ?_⟩
  · rw [ho.later.during hlater j hj', hstore]
  · intro hs'
    obtain ⟨hop, hrange⟩ := hsleep v' hmem' hs'
    exact (hvisited v' hmem').sleepsTill hop hs' hrange hj' hdecode htrunc

end History

section Sample

def sampleWake : DateTime := ⟨10, 1000, by decide⟩

def sampleWakeText : String := "1970-01-01T00:00:10.000001Z"

def sampleChrono : Serde DateTime where
  toValue t := if t = sampleWake then .ok (.string sampleWakeText) else .error "not the sample"
  fromValue
    | .string text => if text = sampleWakeText then .ok sampleWake else .error "not the sample"
    | _ => .error "not a string"

lemma sampleChrono_lossless : sampleChrono.Lossless := by
  intro t j h
  simp only [sampleChrono] at h
  split at h
  · rename_i ht
    cases h
    simp [sampleChrono, ht]
  · cases h

def sampleSleep : TaskOp := .sleepUntil "nap" ⟨10, 1234, by decide⟩

def sampleSleeper : TaskHandler (Result Unit) := .call sampleSleep .done

lemma sample_suspends {c : TaskContext} {w : World} (hc : Cached c w.store)
    (hslot : nextSlot c "nap" = "nap") (hn : w.store "nap" = none) :
    Reaches faultless (fun r t => r.1 = .error .suspended ∧
        t.store = Function.update w.store "nap" (some (.string sampleWakeText)))
      ((sampleSleep.run sampleChrono 0).run c) w := by
  simp only [sampleSleep, TaskOp.run, TaskContext.sleepUntil, TaskContext.currentTime,
    reaches_context_bind, reaches_lift]
  apply faultless_query (x := .ofMicros 3000000) (σ := w.store)
  · exact rfl
  intro t ht
  have hc' : Cached (advance c "nap") t.store := ht ▸ hc
  simp only [TaskContext.sleepUntilAtCurrentTime, reaches_context_bind, reaches_nextCheckpointName,
    hslot]
  apply (lookupCheckpoint_reaches "nap" hc').mono
  rintro ⟨r, d⟩ u ⟨hr, hu, -⟩
  rw [ht, hn] at hr
  cases hr
  have hvalue : sampleChrono.toValue (postgresTimestampPrecision ⟨10, 1234, by decide⟩) =
      .ok (.string sampleWakeText) := rfl
  have hlt : DateTime.ofMicros 3000000 < postgresTimestampPrecision ⟨10, 1234, by decide⟩ := by
    decide
  simp only [reaches_context_bind, reaches_lift, Async.encode, reaches_ofResult, hvalue,
    Except.mapError]
  apply (persistCheckpoint_reaches "nap" _).mono
  rintro ⟨r, e⟩ v ⟨hr, hv⟩
  cases hr
  simp only [reaches_context_pure, hlt, if_true, TaskContext.scheduleRun, reaches_context_bind,
    reaches_context, reaches_lift]
  apply faultless_query (x := ()) (σ := v.store)
  · exact rfl
  intro x hx
  exact ⟨rfl, by rw [hx, hv, hu, ht]⟩

lemma sample_wakes {c : TaskContext} {w : World} (hc : Cached c w.store)
    (hslot : nextSlot c "nap" = "nap") (hj : w.store "nap" = some (.string sampleWakeText)) :
    Reaches faultless (fun r _ => r.1 = .ok ()) ((sampleSleep.run sampleChrono 0).run c) w := by
  simp only [sampleSleep, TaskOp.run, TaskContext.sleepUntil, TaskContext.currentTime,
    reaches_context_bind, reaches_lift]
  apply faultless_query (x := .ofMicros 10000001) (σ := w.store)
  · exact rfl
  intro t ht
  have hc' : Cached (advance c "nap") t.store := ht ▸ hc
  simp only [TaskContext.sleepUntilAtCurrentTime, reaches_context_bind, reaches_nextCheckpointName,
    hslot]
  apply (lookupCheckpoint_reaches "nap" hc').mono
  rintro ⟨r, d⟩ u ⟨hr, hu, -⟩
  rw [ht, hj] at hr
  cases hr
  have hvalue : sampleChrono.fromValue (.string sampleWakeText) = .ok sampleWake := rfl
  have hle : ¬ DateTime.ofMicros 10000001 < sampleWake := by decide
  simp only [reaches_context_bind, reaches_lift, Async.decode, reaches_ofResult, hvalue,
    Except.mapError, hle, if_false, reaches_context_pure]

lemma sample_sleeps : ∃ (v v' : OpVisit) (w : World),
    History durable sampleChrono "default" (fun _ => True)
        (fun _ : TaskHandler (Result Unit) => True) [[v], [v']] w ∧
      v.op = sampleSleep ∧ v'.op = sampleSleep ∧ v.before.store "nap" = none ∧
      v.after.store "nap" = some (.string sampleWakeText) ∧ v'.slot = "nap" ∧
      v'.result = some (.ok ()) := by
  obtain ⟨r, t, hnew, rfl, ht⟩ := (taskContext_reaches "default" sampleTask_headers
    (Duration.fromSecs 120) true no_rows).exists_run
  have hc : Cached (freshContext "default" sampleTask (Duration.fromSecs 120) true
      World.empty.store) t.store := fun _ _ hx => ht ▸ hx
  obtain ⟨⟨r, d⟩, u, hfirst, rfl, hu⟩ := (sample_suspends hc rfl (by rw [ht]; rfl)).exists_run
  have hnap : u.store "nap" = some (.string sampleWakeText) := by rw [hu, Function.update_self]
  have hrows : ∀ name v, (name, v) ∈ [("nap", Json.string sampleWakeText)] ↔
      u.store name = some v := by
    intro name v
    rw [hu, ht]
    by_cases h : name = "nap"
    · simp [h, eq_comm]
    · simp [h, World.empty]
  obtain ⟨r, x, hnew₂, rfl, hx⟩ := (taskContext_reaches "default" sampleTask_headers
    (Duration.fromSecs 120) true hrows).exists_run
  have hd : Cached (freshContext "default" sampleTask (Duration.fromSecs 120) true u.store)
      x.store := fun _ _ hy => hx ▸ hy
  obtain ⟨⟨r, e⟩, y, hsecond, rfl⟩ := (sample_wakes hd rfl (by rw [hx]; exact hnap)).exists_run
  have hperforms : Performs durable sampleChrono sampleSleeper _ t _ u :=
    .next (hfirst.mono faultless_durable) (.stop _ _ _)
  have hperforms₂ : Performs durable sampleChrono sampleSleeper _ x _ y :=
    .next (hsecond.mono faultless_durable) (.stop _ _ _)
  refine ⟨_, _, _, .next (.next .start trivial (hnew.mono faultless_durable) trivial hperforms)
    trivial (hnew₂.mono faultless_durable) trivial hperforms₂, rfl, rfl, ?_, hnap, rfl, rfl⟩
  rw [ht]
  rfl

theorem sleep_keeps_wake_time_sample : ∃ (v v' : OpVisit) (w : World),
    History durable sampleChrono "default" (fun _ => True)
        (fun _ : TaskHandler (Result Unit) => True) [[v], [v']] w ∧
      v'.result = some (.ok ()) ∧ SleepsTill sampleWake v' := by
  obtain ⟨v, v', w, h, hop, hop', hbefore, hafter, hslot, hres⟩ := sample_sleeps
  have hsleep : ∀ x ∈ [[v], [v']].flatten, x.slot = "nap" → x.op.IsSleep ∧ x.InRange := by
    intro x hx _
    have hxop : x.op = sampleSleep := by
      rcases List.mem_pair.mp hx with rfl | rfl
      · exact hop
      · exact hop'
    simp [OpVisit.InRange, hxop, sampleSleep, TaskOp.IsSleep, TaskOp.TooLong, TaskOp.wakeTime]
  have hsplit : [[v], [v']].flatten = [] ++ v :: [v'] := rfl
  obtain ⟨now, wakeAt, -, hwake, -, hlater⟩ := sleep_keeps_wake_time sampleChrono_lossless h hsleep
    hsplit hbefore (by simp [hafter])
  rw [hop] at hwake
  cases hwake
  exact ⟨v, v', w, h, hres, (hlater v' List.mem_cons_self).2.2 hslot⟩

end Sample

end AbsurdSdk.Durability
