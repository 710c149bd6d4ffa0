import AbsurdSdk.Durability.Session
import AbsurdSdk.Durability.Sleep

namespace AbsurdSdk.Durability

open Interaction Model Sequences

def writeOnce : Conduct where
  rel c d := ∀ slot j, c.checkpointCache slot = some j → d.checkpointCache slot = some j
  may c
    | .query (.setTaskCheckpointState _ _ slot value _ _) =>
      ∀ j, c.checkpointCache slot = some j → value = j
    | _ => True
  grants _ _ := True
  refl _ _ _ h := h
  trans h h' slot j hj := h' slot j (h slot j hj)
  back := by
    intro c d call hrel hmay
    cases call with
    | query statement =>
      cases statement with
      | setTaskCheckpointState queue taskId slot value runId seconds =>
        exact fun j hj => hmay j (hrel slot j hj)
      | _ => trivial
    | _ => trivial
  unpersisting := by
    intro c call h
    cases call with
    | query statement =>
      cases statement with
      | setTaskCheckpointState => exact h.elim
      | _ => trivial
    | _ => trivial
  fills := by
    intro c name value call r hnone _ _ slot j hj
    have hne : slot ≠ name := by
      rintro rfl
      rw [hnone] at hj
      cases hj
    exact (Function.update_of_ne hne _ _).trans hj
  persists := by
    intro c name value hnone queue taskId runId seconds j hj
    rw [hnone] at hj
    cases hj

lemma writeOnce_counts : writeOnce.Counts := fun _ _ _ _ h => h

lemma writeOnce_times : writeOnce.Times := fun _ _ _ _ _ h => h

section Handles

variable {T : Type} {serde : Serde T} {handle : StepHandle T} {c d : TaskContext}

def Sealed (serde : Serde T) (c : TaskContext) (handle : StepHandle T) : Prop :=
  handle.done = true → ∃ j a, c.checkpointCache handle.checkpointName = some j ∧
    serde.fromValue j = .ok a ∧ handle.state = some a

lemma Sealed.kept (h : Sealed serde c handle) (hrel : writeOnce.rel c d) :
    Sealed serde d handle := by
  intro hdone
  obtain ⟨j, a, hj, ha, hstate⟩ := h hdone
  exact ⟨j, a, hrel _ j hj, ha, hstate⟩

lemma beginStep_seals (serde : Serde T) (name : String) (c : TaskContext) :
    ((TaskContext.beginStep serde name).run c).Yields (fun _ _ => True) (fun _ => True) fun r =>
      ∀ handle, r.1 = .ok handle → Sealed serde r.2 handle := by
  change Program.Yields _ _ _ (((TaskContext.nextCheckpointName name).run c).bind _)
  rw [nextCheckpointName_run]
  have hsome : ∀ j d, d.checkpointCache (nextSlot c name) = some j →
      Program.Yields (fun _ _ => True) (fun _ => True)
        (fun r => ∀ handle, r.1 = .ok handle → Sealed serde r.2 handle)
        ((do
          let state ← Async.decode serde j
          return { name, checkpointName := nextSlot c name, done := true, state := some state } :
            ContextM (StepHandle T)).run d) := by
    intro j d hj
    cases ha : serde.fromValue j with
    | error text =>
      rw [Async.decode, ha]
      rintro handle ⟨⟩
    | ok a =>
      rw [Async.decode, ha]
      rintro handle ⟨⟩ -
      exact ⟨j, a, hj, ha, rfl⟩
  refine lookup_yields (c := advance c name) (fun _ _ => trivial) ?_ ?_ ?_ ?_
  · rintro err handle ⟨⟩
  · rintro - handle ⟨⟩ ⟨⟩
  · exact fun j hj => hsome j _ hj
  · exact fun j _ _ _ _ _ => hsome j _ (Function.update_self _ _ _)

end Handles

section Session

variable {chrono : Serde DateTime} {c d : TaskContext} {i b u : Invocation chrono}
  {is earlier later : List (Invocation chrono)} {T : Type} {serde : Serde T}
  {handle : StepHandle T} {value : T}

inductive Begins {T : Type} (serde : Serde T) (handle : StepHandle T) : Invocation chrono → Prop
  | mk (name : String) (turns : ℕ) (before d : TaskContext) (log : Transcript Call Answer)
      (ran : Run transcribed
        (((Method.beginStep serde name).run chrono turns).run before) [] (.done (.ok handle, d)) log) :
      Begins serde handle ⟨.beginStep serde name, turns, before, log, .done (.ok handle, d), ran⟩

inductive Completes {T : Type} (serde : Serde T) (handle : StepHandle T) (value : T) (r : Result T) :
    Invocation chrono → Prop
  | mk (turns : ℕ) (before d : TaskContext) (log : Transcript Call Answer)
      (ran : Run transcribed
        (((Method.completeStep serde handle value).run chrono turns).run before) [] (.done (r, d)) log) :
      Completes serde handle value r
        ⟨.completeStep serde handle value, turns, before, log, .done (r, d), ran⟩

/-- Handles are those returned by `begin_step`, each completed any number of times. -/
def OwnHandles (is : List (Invocation chrono)) : Prop :=
  ∀ earlier i later, is = earlier ++ i :: later → ∀ (T : Type) (serde : Serde T) handle value,
    i.method = .completeStep serde handle value → ∃ b ∈ earlier, Begins serde handle b

lemma ownHandles_of_begins
    (hb : ∀ (T : Type) (serde : Serde T) handle value, b.method ≠ .completeStep serde handle value)
    (h : ∀ u ∈ is, ∀ (T : Type) (serde : Serde T) handle value,
      u.method = .completeStep serde handle value → Begins serde handle b) : OwnHandles (b :: is) := by
  refine forall_cuts_cons (fun T serde handle value hm => absurd hm (hb T serde handle value)) ?_
  intro earlier i later his T serde handle value hm
  have hi : i ∈ is := his ▸ List.mem_append_right _ List.mem_cons_self
  exact ⟨b, List.mem_cons_self, h i hi T serde handle value hm⟩

structure Respects (slot : String) (j : Json) (i : Invocation chrono) : Prop where
  persists : ∀ queue taskId value runId seconds,
    i.Makes (.query (.setTaskCheckpointState queue taskId slot value runId seconds)) → value = j
  caches : ∀ d, i.Leaves d → d.checkpointCache slot = some j
  returns : ∀ (T : Type) (serde : Serde T) handle value r, Completes serde handle value r i →
    handle.checkpointName = slot →
      (∀ a, r = .ok a → serde.fromValue j = .ok a ∨ serde.toValue a = .ok j) ∧
      (handle.done = true → ∃ a, r = .ok a)

def WriteOnce (is : List (Invocation chrono)) : Prop :=
  ∀ earlier i later, is = earlier ++ i :: later → ∀ slot j, i.before.checkpointCache slot = some j →
    ∀ u ∈ i :: later, Respects slot j u

/-- A `complete_step` gets a done handle, or what it encodes is what the slot has, if anything. -/
def Invocation.Consistent (i : Invocation chrono) : Prop :=
  ∀ (T : Type) (serde : Serde T) handle value, i.method = .completeStep serde handle value →
    handle.done = true ∨ ∀ j j', i.before.checkpointCache handle.checkpointName = some j →
      serde.toValue value = .ok j' → j' = j

lemma Invocation.Consistent.obeys (h : i.Consistent) : i.Obeys writeOnce := by
  apply method_obeys chrono i.turns i.method writeOnce_counts (fun _ => writeOnce_times)
  cases hm : i.method with
  | completeStep serde handle value =>
    rcases h _ serde handle value hm with hdone | hsame
    · exact Or.inl hdone
    · refine Or.inr fun j hj => ⟨?_, fun _ _ _ _ j' hj' => hsame j' j hj' hj⟩
      intro slot j' hj'
      by_cases hslot : slot = handle.checkpointName
      · subst hslot
        rw [hsame j' j hj' hj]
        exact Function.update_self _ _ _
      · exact (Function.update_of_ne hslot _ _).trans hj'
  | _ => trivial

lemma Begins.seals (h : Begins serde handle i) (hd : i.Leaves d) : Sealed serde d handle := by
  cases h with
  | mk name turns before d' log ran =>
    obtain ⟨r, hr⟩ := hd
    cases hr
    exact (ran.yields (fun _ _ => trivial) (beginStep_seals serde name before)).1 handle rfl

lemma completeStep_yields (serde : Serde T) (handle : StepHandle T) (value : T) (c : TaskContext) :
    ((TaskContext.completeStep serde handle value).run c).Yields (fun _ _ => True) (fun _ => True) fun r =>
      (handle.done = true ∧ r.1 = handle.intoCachedState) ∨
        handle.done ≠ true ∧ ∀ a, r.1 = .ok a → a = value ∧ ∃ j, serde.toValue value = .ok j := by
  rw [TaskContext.completeStep]
  split
  · exact Or.inl ⟨‹_›, rfl⟩
  rename_i hdone
  cases hv : serde.toValue value with
  | error text =>
    rw [Async.encode, hv]
    refine Or.inr ⟨hdone, ?_⟩
    rintro a ⟨⟩
  | ok j =>
    rw [Async.encode, hv]
    change Program.Yields _ _ _
      ((TaskContext.persistCheckpoint handle.checkpointName j >>= fun _ => pure value).run c)
    apply Program.Yields.bind (Program.Yields.any _)
    rintro ⟨err | _, d⟩ -
    · refine Or.inr ⟨hdone, ?_⟩
      rintro a ⟨⟩
    · refine Or.inr ⟨hdone, ?_⟩
      rintro a ⟨⟩
      exact ⟨rfl, j, rfl⟩

lemma OwnHandles.sealed (ho : OwnHandles is) (hs : Session c is) (hobeys : ∀ i ∈ is, i.Obeys writeOnce)
    (his : is = earlier ++ i :: later) (hm : i.method = .completeStep serde handle value) :
    Sealed serde i.before handle := by
  obtain ⟨b, hb, hbegins⟩ := ho earlier i later his T serde handle value hm
  subst his
  obtain ⟨-, hleft⟩ := hs.carried (fun b hb => hobeys b (List.mem_append_left _ hb))
    fun _ _ _ _ => trivial
  obtain ⟨d, hd, hrel⟩ := hleft b hb
  exact (hbegins.seals hd).kept hrel

lemma respects {slot : String} {j : Json} (hobeys : u.Obeys writeOnce) (hu : u.Consistent)
    (hj : u.before.checkpointCache slot = some j)
    (hsealed : ∀ (T : Type) (serde : Serde T) handle value,
      u.method = .completeStep serde handle value → Sealed serde u.before handle) :
    Respects slot j u where
  persists _ _ _ _ _ hmakes := hobeys.makes (fun _ _ => trivial) hmakes j hj
  caches _ hd := hobeys.leaves (fun _ _ => trivial) hd slot j hj
  returns := by
    rintro T serde handle value r ⟨turns, before, d, log, ran⟩ rfl
    have hyields := ran.yields (fun _ _ => trivial) (completeStep_yields serde handle value before)
    rcases hyields.1 with ⟨hdone, hr⟩ | hr
    · obtain ⟨j', a, hj', ha, hstate⟩ := hsealed T serde handle value rfl hdone
      cases hj.symm.trans hj'
      rw [StepHandle.intoCachedState, hstate] at hr
      cases hr
      refine ⟨?_, fun _ => ⟨a, rfl⟩⟩
      rintro a ⟨⟩
      exact Or.inl ha
    · obtain ⟨hfresh, hr⟩ := hr
      refine ⟨?_, fun hdone => absurd hdone hfresh⟩
      intro a ha
      obtain ⟨rfl, j', hj'⟩ := hr a ha
      have hsame := (hu T serde handle a rfl).resolve_left hfresh j j' hj hj'
      exact Or.inr (hsame ▸ hj')

lemma write_once_of_consistent (hs : Session c is) (ho : OwnHandles is)
    (hc : ∀ i ∈ is, i.Consistent) : WriteOnce is := by
  have hobeys : ∀ i ∈ is, i.Obeys writeOnce := fun i hi => (hc i hi).obeys
  intro earlier i later his slot j hj u hu
  obtain ⟨mid, after, hsplit⟩ := List.append_of_mem hu
  have hat : is = (earlier ++ mid) ++ u :: after := by rw [his, hsplit, List.append_assoc]
  have hmem : u ∈ is := hat ▸ List.mem_append_right _ List.mem_cons_self
  have hkept : u.before.checkpointCache slot = some j := by
    have hsuffix := (his ▸ hs).suffix
    rw [hsplit] at hsuffix
    have hmid : ∀ b ∈ mid, b.Obeys writeOnce := by
      intro b hb
      apply hobeys
      rw [hat]
      simp [hb]
    exact (hsuffix.carried hmid fun _ _ _ _ => trivial).1 slot j hj
  apply respects (hobeys u hmem) (hc u hmem) hkept
  exact fun T serde handle value hm => ho.sealed hs hobeys hat hm

lemma OwnHandles.replace (ho : OwnHandles (earlier ++ i :: later)) (hm : u.method = i.method) :
    OwnHandles (earlier ++ [u]) := by
  intro before x after hsplit T serde handle value hx
  rcases List.append_eq_append_iff.mp hsplit with ⟨mid, hbefore, hmid⟩ | ⟨mid, hearlier, hmid⟩
  · cases mid with
    | nil =>
      cases hmid
      rw [hbefore, List.append_nil]
      exact ho earlier i later rfl T serde handle value (hm ▸ hx)
    | cons y mid => simp at hmid
  · cases mid with
    | nil =>
      cases hmid
      have hsame : before = earlier := by simpa using hearlier.symm
      rw [hsame]
      exact ho earlier i later rfl T serde handle value (hm ▸ hx)
    | cons y mid =>
      obtain ⟨rfl, -⟩ := List.cons.inj hmid
      refine ho before x (mid ++ i :: later) ?_ T serde handle value hx
      rw [hearlier, List.append_assoc]
      rfl

lemma completeStep_fills (serde : Serde T) (handle : StepHandle T) {value : T} {j : Json}
    (hfresh : handle.done ≠ true) (hj : serde.toValue value = .ok j) (c : TaskContext) :
    Reaches transcribed (fun r _ => r.2.checkpointCache handle.checkpointName = some j)
      ((TaskContext.completeStep serde handle value).run c) [] := by
  rw [TaskContext.completeStep, if_neg hfresh, Async.encode, hj]
  change Reaches _ _
    ((TaskContext.persistCheckpoint handle.checkpointName j >>= fun _ => pure value).run c) _
  rw [reaches_context_bind]
  refine ⟨.ok (), _, rfl, .ok (), _, rfl, ?_⟩
  have hcached : (cached c handle.checkpointName j).checkpointCache handle.checkpointName = some j :=
    Function.update_self _ _ _
  change Reaches _ _ ((if c.leaseTx = true then _ else _ : ContextM Unit).run
    (cached c handle.checkpointName j)) _
  split
  · exact ⟨(), _, rfl, hcached⟩
  · exact hcached

lemma overwrites (hi : ¬ i.Consistent) : ∃ u : Invocation chrono, u.method = i.method ∧
    u.before = i.before ∧ ∃ slot j, i.before.checkpointCache slot = some j ∧ ¬ Respects slot j u := by
  rw [Invocation.Consistent] at hi
  push Not at hi
  obtain ⟨T, serde, handle, value, hm, hfresh, j, j', hj, hj', hne⟩ := hi
  obtain ⟨⟨r, d⟩, log, hrun, hd⟩ := (completeStep_fills serde handle hfresh hj' i.before).exists_run
  refine ⟨⟨.completeStep serde handle value, 0, i.before, log, .done (r, d), hrun⟩, hm.symm, rfl,
    handle.checkpointName, j, hj, ?_⟩
  intro h
  have hkept := h.caches d ⟨r, rfl⟩
  exact hne (Option.some.inj (hd.symm.trans hkept))

/-- A slot that has a value keeps it through every session in which a handle that was fresh when it
was returned is completed only while its slot is empty, or with what the slot has. Any other
`complete_step` can overwrite its slot. -/
theorem completed_steps_write_once (hs : Session c is) (ho : OwnHandles is) :
    ((∀ i ∈ is, i.Consistent) → WriteOnce is) ∧
      ∀ earlier i later, is = earlier ++ i :: later → ¬ i.Consistent →
        ∃ u : Invocation chrono, u.method = i.method ∧ u.before = i.before ∧
          Session c (earlier ++ [u]) ∧ OwnHandles (earlier ++ [u]) ∧ ¬ WriteOnce (earlier ++ [u]) := by
  refine ⟨write_once_of_consistent hs ho, ?_⟩
  rintro earlier i later rfl hi
  obtain ⟨u, hm, hbefore, slot, j, hj, hnot⟩ := overwrites hi
  refine ⟨u, hm, hbefore, hs.replace hbefore, ho.replace hm, ?_⟩
  intro honce
  exact hnot (honce earlier u [] rfl slot j (hbefore ▸ hj) u List.mem_cons_self)

end Session

section Sample

def sampleHandle : StepHandle Json := ⟨"charge", "charge", false, none⟩

def sampleBegin : Invocation sampleChrono where
  method := .beginStep Serde.json "charge"
  turns := 0
  before := sampleContext
  log := [⟨.query (.getTaskCheckpointState "default" Uuid.nil "charge"), .ok none⟩,
    ⟨.poolGet, .ok ()⟩]
  rest := .done (.ok sampleHandle, advance sampleContext "charge")
  ran := by
    refine .step (r := .ok ()) rfl ?_
    refine .step (r := .ok none) rfl ?_
    exact .refl _ _

def sampleComplete (cache : String → Option Json) (value : Json) : Invocation sampleChrono where
  method := .completeStep Serde.json sampleHandle value
  turns := 0
  before := withCache (advance sampleContext "charge") cache
  log := [⟨.sendLease (Duration.fromSecs 120), ()⟩,
    ⟨.query (.setTaskCheckpointState "default" Uuid.nil "charge" value Uuid.nil 120), .ok ()⟩,
    ⟨.poolGet, .ok ()⟩]
  rest := .done (.ok value,
    withCache (advance sampleContext "charge") (Function.update cache "charge" (some value)))
  ran := by
    refine .step (r := .ok ()) rfl ?_
    refine .step (r := .ok ()) rfl ?_
    exact .step rfl (.refl _ _)

def sampleSession (value : Json) : List (Invocation sampleChrono) :=
  [sampleBegin, sampleComplete (fun _ => none) (.bool true),
    sampleComplete (Function.update (fun _ => none) "charge" (some (.bool true))) value]

lemma sampleSession_runs (value : Json) : Session sampleContext (sampleSession value) :=
  @Session.next _ sampleBegin _ _ ⟨_, rfl⟩
    (@Session.next _ (sampleComplete (fun _ => none) (.bool true)) _ _ ⟨_, rfl⟩
      (.cut (sampleComplete (Function.update (fun _ => none) "charge" (some (.bool true))) value)))

lemma sampleSession_own (value : Json) : OwnHandles (sampleSession value) := by
  apply ownHandles_of_begins
  · rintro T serde handle v ⟨⟩
  · intro u hu T serde handle v hm
    have hbegins : Begins Serde.json sampleHandle sampleBegin :=
      .mk "charge" 0 sampleContext _ _ sampleBegin.ran
    rcases List.mem_pair.mp hu with rfl | rfl
    · cases hm
      exact hbegins
    · cases hm
      exact hbegins

theorem cloned_handle_overwrites :
    Session sampleContext (sampleSession (.bool false)) ∧ OwnHandles (sampleSession (.bool false)) ∧
      ¬ WriteOnce (sampleSession (.bool false)) := by
  refine ⟨sampleSession_runs _, sampleSession_own _, ?_⟩
  intro h
  have hrespects := h [sampleBegin, sampleComplete (fun _ => none) (.bool true)]
    (sampleComplete (Function.update (fun _ => none) "charge" (some (.bool true))) (.bool false)) []
    rfl "charge" (.bool true) rfl _ List.mem_cons_self
  have hkept := hrespects.caches _ ⟨_, rfl⟩
  cases hkept

theorem completed_steps_write_once_sample : WriteOnce (sampleSession (.bool true)) := by
  apply (completed_steps_write_once (sampleSession_runs _) (sampleSession_own _)).1
  intro u hu T serde handle v hm
  rcases List.mem_cons.mp hu with rfl | hu
  · cases hm
  · rcases List.mem_pair.mp hu with rfl | rfl
    · cases hm
      refine Or.inr ?_
      rintro j j' ⟨⟩
    · cases hm
      refine Or.inr ?_
      rintro j j' ⟨⟩ ⟨⟩
      rfl

end Sample

end AbsurdSdk.Durability
