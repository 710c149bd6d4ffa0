import AbsurdSdk.Durability.Session
import AbsurdSdk.Durability.Sleep

namespace AbsurdSdk.Durability

open Interaction Model Sequences

def awaitReply? : (Σ call : Call, Answer call) → Option (String × Except PgError (Bool × Option Json))
  | ⟨.query (.awaitEvent _ _ _ _ event _), reply⟩ => some (event, reply)
  | _ => none

def awaitReplies (log : Transcript Call Answer) : List (String × Except PgError (Bool × Option Json)) :=
  log.filterMap awaitReply?

def Stored (c : TaskContext) (slot : String) (log : Transcript Call Answer) (j : Json) : Prop :=
  c.checkpointCache slot = some j ∨
    ∃ queue taskId, ⟨.query (.getTaskCheckpointState queue taskId slot), .ok (some j)⟩ ∈ log

def decoded {T : Type} (serde : Serde T) (j : Json) : Result T :=
  (serde.fromValue j).mapError .serialization

structure Becomes (d : TaskContext) (task : ClaimedTask) (reported : String → Bool) : Prop where
  task : d.task = task
  reported : d.reportedTimeouts = reported

inductive Verdict {T : Type} (serde : Serde T) (c : TaskContext) (slot event : String)
    (log : Transcript Call Answer) (d : TaskContext) : Result T → Prop
  | blank : isBlank event = true → awaitReplies log = [] → Becomes d c.task c.reportedTimeouts →
      Verdict serde c slot event log d (.error (.config "event name must be provided"))
  | unread {err : Error} : IsInfra err → awaitReplies log = [] →
      Becomes d c.task c.reportedTimeouts → Verdict serde c slot event log d (.error err)
  | stored {j : Json} : Stored c slot log j → awaitReplies log = [] →
      Becomes d c.task c.reportedTimeouts → Verdict serde c slot event log d (decoded serde j)
  | woken : c.task.wakeEvent = some event → c.task.eventPayload = none → awaitReplies log = [] →
      Becomes d { c.task with wakeEvent := none, eventPayload := none }
        (Function.update c.reportedTimeouts event true) →
      Verdict serde c slot event log d (.error (.eventTimeout event))
  | unanswered (err : PgError) : awaitReplies log = [(event, .error err)] →
      Becomes d c.task c.reportedTimeouts →
      Verdict serde c slot event log d (.error (mapDatabaseError err))
  | suspended (payload : Option Json) : awaitReplies log = [(event, .ok (true, payload))] →
      Becomes d c.task c.reportedTimeouts → Verdict serde c slot event log d (.error .suspended)
  | received (payload : Json) : awaitReplies log = [(event, .ok (false, some payload))] →
      Becomes d c.task (Function.update c.reportedTimeouts event false) →
      Verdict serde c slot event log d (decoded serde payload)
  | synthesized : awaitReplies log = [(event, .ok (false, none))] →
      c.reportedTimeouts event = true →
      Becomes d c.task (Function.update c.reportedTimeouts event false) →
      Verdict serde c slot event log d (decoded serde .null)
  | expired : awaitReplies log = [(event, .ok (false, none))] → c.reportedTimeouts event = false →
      Becomes d c.task c.reportedTimeouts →
      Verdict serde c slot event log d (.error (.eventTimeout event))

section Verdict

variable {T β : Type} {serde : Serde T} {c : TaskContext} {log : Transcript Call Answer}
  {slot event : String}

lemma awaitReplies_cons {call : Call} {r : Answer call} (h : awaitReply? ⟨call, r⟩ = none) :
    awaitReplies (⟨call, r⟩ :: log) = awaitReplies log := by
  rw [awaitReplies, List.filterMap_cons, h]
  rfl

lemma lookup_transcribed {f : Option Json → ContextM β} {post : Result β × TaskContext →
      Transcript Call Answer → Prop} (hlog : awaitReplies log = [])
    (herror : ∀ err log', IsInfra err → awaitReplies log' = [] → post (.error err, c) log')
    (hnone : ∀ log', awaitReplies log' = [] →
      Safe transcribed (fun _ => True) post ((f none).run c) log')
    (hsome : ∀ j d log', Stored c slot log' j → awaitReplies log' = [] →
      Becomes d c.task c.reportedTimeouts →
      Safe transcribed (fun _ => True) post ((f (some j)).run d) log') :
    Safe transcribed (fun _ => True) post ((TaskContext.lookupCheckpoint slot >>= f).run c) log := by
  rw [TaskContext.lookupCheckpoint, context_bind_assoc]
  change Safe _ _ _ ((_ >>= f).run c) _
  cases hslot : c.checkpointCache slot with
  | some j => exact hsome j c log (Or.inl hslot) hlog ⟨rfl, rfl⟩
  | none =>
    refine ⟨trivial, ?_⟩
    rintro r log₁ rfl
    have hlog₁ : awaitReplies (⟨.poolGet, r⟩ :: log) = [] := (awaitReplies_cons rfl).trans hlog
    cases r with
    | error text => exact ⟨trivial, herror _ _ (Or.inl ⟨text, rfl⟩) hlog₁⟩
    | ok =>
      refine ⟨trivial, ?_⟩
      rintro r log₂ rfl
      have hlog₂ : awaitReplies (⟨.query (.getTaskCheckpointState c.queueName c.task.taskId slot), r⟩ ::
          ⟨.poolGet, .ok ()⟩ :: log) = [] := (awaitReplies_cons rfl).trans hlog₁
      rcases r with err | _ | j
      · exact ⟨trivial, herror _ _ (Or.inr ⟨err, rfl⟩) hlog₂⟩
      · exact hnone _ hlog₂
      · exact hsome j _ _ (Or.inr ⟨_, _, List.mem_cons_self⟩) hlog₂ ⟨rfl, rfl⟩

lemma askEvent_verdict (serde : Serde T) (event : String) (options : AwaitEventOptions)
    (c : TaskContext) (name : String) (hlog : awaitReplies log = []) :
    Safe transcribed (fun _ => True) (fun x log => Verdict serde c slot event log x.2 x.1)
      ((askEvent serde event options slot).run (advance c name)) log := by
  rw [askEvent, safe_context_bind]
  refine ⟨trivial, ?_⟩
  dsimp only
  split
  · rename_i hwake
    exact ⟨trivial, .woken hwake.1 (Option.isNone_iff_eq_none.mp hwake.2) hlog ⟨rfl, rfl⟩⟩
  rw [safe_context_bind, safe_lift]
  refine ⟨trivial, ?_⟩
  rintro r log₁ rfl
  have hlog₁ : awaitReplies (⟨.poolGet, r⟩ :: log) = [] := (awaitReplies_cons rfl).trans hlog
  cases r with
  | error text =>
    exact ⟨trivial, trivial, trivial, .unread (Or.inl ⟨text, rfl⟩) hlog₁ ⟨rfl, rfl⟩⟩
  | ok =>
    refine ⟨trivial, ?_⟩
    intro r log₂ he
    have hreply : awaitReplies log₂ = [(event, r)] := by
      rw [he]
      exact congrArg ((event, r) :: ·) hlog₁
    clear he
    rcases r with err | ⟨_ | _, _ | payload⟩
    · exact ⟨trivial, trivial, trivial, .unanswered err hreply ⟨rfl, rfl⟩⟩
    · refine ⟨trivial, trivial, ?_⟩
      change Safe _ _ _ ((if false = true then _ else _ : ContextM T).run _) _
      rw [if_neg Bool.false_ne_true]
      dsimp only [advance]
      cases hreported : c.reportedTimeouts event with
      | false => exact ⟨trivial, .expired hreply hreported ⟨rfl, rfl⟩⟩
      | true => exact ⟨trivial, .synthesized hreply hreported ⟨rfl, rfl⟩⟩
    · exact ⟨trivial, trivial, trivial, .received payload hreply ⟨rfl, rfl⟩⟩
    · exact ⟨trivial, trivial, trivial, .suspended none hreply ⟨rfl, rfl⟩⟩
    · exact ⟨trivial, trivial, trivial, .suspended (some payload) hreply ⟨rfl, rfl⟩⟩

lemma awaitEvent_verdict (serde : Serde T) (event : String) (options : AwaitEventOptions)
    (c : TaskContext) :
    Safe transcribed (fun _ => True)
      (fun x log => Verdict serde c (nextSlot c (awaitEventName event options)) event log x.2 x.1)
      ((TaskContext.awaitEventWithOptions serde event options).run c) [] := by
  by_cases hblank : isBlank event = true
  · rw [TaskContext.awaitEventWithOptions, if_pos hblank]
    exact ⟨trivial, .blank hblank rfl ⟨rfl, rfl⟩⟩
  rw [awaitEvent_run serde options hblank]
  change Safe _ _ _ (((TaskContext.nextCheckpointName (awaitEventName event options)).run c).bind _) _
  rw [nextCheckpointName_run]
  apply lookup_transcribed (c := advance c (awaitEventName event options)) rfl
  · exact fun err log' herr hlog => .unread herr hlog ⟨rfl, rfl⟩
  · exact fun log hlog => askEvent_verdict serde event options c _ hlog
  · intro j d log hstored hlog hd
    exact ⟨trivial, .stored hstored hlog hd⟩

end Verdict

section Shift

variable {chrono : Serde DateTime} {i : Invocation chrono} {d : TaskContext} {event : String}
  {reply : Except PgError (Bool × Option Json)}

namespace Invocation

def result (i : Invocation chrono) : Option (Result Unit) :=
  match i.rest with
  | .done (r, _) => some (r.map fun _ => ())
  | .call _ _ => none

def Waits (i : Invocation chrono) (event : String) : Prop :=
  ∃ (T : Type) (serde : Serde T) (options : _), i.method = .awaitEvent serde event options

/-- The wait reported a timeout without asking the database. -/
def Woken (i : Invocation chrono) (event : String) : Prop :=
  i.Waits event ∧ i.result = some (.error (.eventTimeout event)) ∧ awaitReplies i.log = []

/-- The wait was answered without a payload and reported no timeout. -/
def Synthesizes (i : Invocation chrono) (event : String) : Prop :=
  i.Waits event ∧ (∃ r, i.result = some r ∧ r ≠ .error (.eventTimeout event)) ∧
    (event, .ok (false, none)) ∈ awaitReplies i.log

def Receives (i : Invocation chrono) (event : String) : Prop :=
  i.Waits event ∧ ∃ payload, (event, .ok (false, some payload)) ∈ awaitReplies i.log

end Invocation

inductive Shift (i : Invocation chrono) (d : TaskContext) : Prop
  | quiet : (∀ e, ¬ i.Woken e) → (∀ e, ¬ i.Synthesizes e) → (∀ e, ¬ i.Receives e) →
      Becomes d i.before.task i.before.reportedTimeouts → Shift i d
  | woken (event : String) : i.Woken event → i.before.task.wakeEvent = some event →
      i.before.task.eventPayload = none → (∀ e, ¬ i.Synthesizes e) → (∀ e, ¬ i.Receives e) →
      Becomes d { i.before.task with wakeEvent := none, eventPayload := none }
        (Function.update i.before.reportedTimeouts event true) → Shift i d
  | received (event : String) : (∀ e, ¬ i.Woken e) → (∀ e, ¬ i.Synthesizes e) →
      (∀ e, i.Receives e → e = event) → Becomes d i.before.task
        (Function.update i.before.reportedTimeouts event false) → Shift i d
  | synthesized (event : String) : (∀ e, ¬ i.Woken e) → (∀ e, i.Synthesizes e → e = event) →
      (∀ e, ¬ i.Receives e) → i.before.reportedTimeouts event = true → Becomes d i.before.task
        (Function.update i.before.reportedTimeouts event false) → Shift i d

lemma unasked (h : awaitReplies i.log = []) : (∀ e, ¬ i.Synthesizes e) ∧ ∀ e, ¬ i.Receives e := by
  refine ⟨?_, ?_⟩
  · rintro e ⟨-, -, hmem⟩
    rw [h] at hmem
    cases hmem
  · rintro e ⟨-, payload, hmem⟩
    rw [h] at hmem
    cases hmem

lemma asked (h : awaitReplies i.log = [(event, reply)]) : (∀ e, ¬ i.Woken e) ∧
    (∀ e, i.Synthesizes e → e = event ∧ reply = .ok (false, none)) ∧
    ∀ e, i.Receives e → e = event ∧ ∃ payload, reply = .ok (false, some payload) := by
  refine ⟨?_, ?_, ?_⟩
  · rintro e ⟨-, -, hnil⟩
    rw [h] at hnil
    cases hnil
  · rintro e ⟨-, -, hmem⟩
    rw [h] at hmem
    cases List.mem_singleton.mp hmem
    exact ⟨rfl, rfl⟩
  · rintro e ⟨-, payload, hmem⟩
    rw [h] at hmem
    cases List.mem_singleton.mp hmem
    exact ⟨rfl, payload, rfl⟩

lemma unwoken {r : Result Unit} (hr : i.result = some r) (h : ∀ e, r ≠ .error (.eventTimeout e)) :
    ∀ e, ¬ i.Woken e := by
  rintro e ⟨-, he, -⟩
  rw [hr] at he
  exact h e (Option.some.inj he)

lemma decoded_ne_eventTimeout {T : Type} (serde : Serde T) (j : Json) (e : String) :
    (decoded serde j).map (fun _ => ()) ≠ .error (.eventTimeout e) := by
  rw [decoded]
  cases serde.fromValue j with
  | error text => rintro ⟨⟩
  | ok a => rintro ⟨⟩

lemma IsInfra.ne_eventTimeout {err : Error} (h : IsInfra err) (e : String) : err ≠ .eventTimeout e := by
  rcases h with ⟨text, rfl⟩ | ⟨pg, rfl⟩
  · rintro ⟨⟩
  · rw [mapDatabaseError]
    split <;> rintro ⟨⟩

lemma error_ne_eventTimeout {err : Error} (h : ∀ e, err ≠ .eventTimeout e) (e : String) :
    (Except.error err : Result Unit) ≠ .error (.eventTimeout e) :=
  fun he => h e (Except.error.inj he)

lemma quiet_unasked {r : Result Unit} (hr : i.result = some r)
    (h : ∀ e, r ≠ .error (.eventTimeout e)) (hlog : awaitReplies i.log = [])
    (hd : Becomes d i.before.task i.before.reportedTimeouts) : Shift i d :=
  .quiet (unwoken hr h) (unasked hlog).1 (unasked hlog).2 hd

lemma quiet_asked (h : awaitReplies i.log = [(event, reply)]) (hpayload : ∀ p, reply ≠ .ok (false, p))
    (hd : Becomes d i.before.task i.before.reportedTimeouts) : Shift i d := by
  obtain ⟨hwoken, hsynth, hreceives⟩ := asked h
  refine .quiet hwoken ?_ ?_ hd
  · intro e he
    exact hpayload none (hsynth e he).2
  · intro e he
    obtain ⟨-, payload, hp⟩ := hreceives e he
    exact hpayload (some payload) hp

lemma Verdict.shift {T : Type} {serde : Serde T} {slot : String} {r : Result T}
    (hv : Verdict serde i.before slot event i.log d r) (hwaits : i.Waits event)
    (hr : i.result = some (r.map fun _ => ())) : Shift i d := by
  cases hv with
  | blank _ hlog hd => exact quiet_unasked hr (error_ne_eventTimeout (by simp)) hlog hd
  | unread herr hlog hd => exact quiet_unasked hr (error_ne_eventTimeout herr.ne_eventTimeout) hlog hd
  | stored _ hlog hd => exact quiet_unasked hr (decoded_ne_eventTimeout serde _) hlog hd
  | woken hwake hpayload hlog hd =>
    exact .woken event ⟨hwaits, hr, hlog⟩ hwake hpayload (unasked hlog).1 (unasked hlog).2 hd
  | unanswered err hlog hd => exact quiet_asked hlog (by simp) hd
  | suspended payload hlog hd => exact quiet_asked hlog (by simp) hd
  | received payload hlog hd =>
    obtain ⟨hwoken, hsynth, hreceives⟩ := asked hlog
    refine .received event hwoken ?_ (fun e he => (hreceives e he).1) hd
    intro e he
    cases (hsynth e he).2
  | synthesized hlog hreported hd =>
    obtain ⟨hwoken, hsynth, hreceives⟩ := asked hlog
    refine .synthesized event hwoken (fun e he => (hsynth e he).1) ?_ hreported hd
    intro e he
    obtain ⟨-, payload, hp⟩ := hreceives e he
    cases hp
  | expired hlog hreported hd =>
    obtain ⟨hwoken, hsynth, hreceives⟩ := asked hlog
    refine .quiet hwoken ?_ ?_ hd
    · intro e he
      obtain ⟨rfl, -⟩ := hsynth e he
      obtain ⟨-, ⟨r, hr', hne⟩, -⟩ := he
      exact hne (Option.some.inj (hr'.symm.trans hr))
    · intro e he
      obtain ⟨-, payload, hp⟩ := hreceives e he
      cases hp

def timeless : Conduct where
  rel c d := Becomes d c.task c.reportedTimeouts
  may _ _ := True
  grants _ _ := True
  refl _ := ⟨rfl, rfl⟩
  trans h h' := ⟨h'.task.trans h.task, h'.reported.trans h.reported⟩
  back _ _ := trivial
  unpersisting _ _ _ := trivial
  fills _ _ _ := ⟨rfl, rfl⟩
  persists _ _ _ _ _ _ := trivial

lemma unwaiting_shift (h : ∀ e, ¬ i.Waits e) (hd : i.Leaves d) : Shift i d := by
  have hobeys : i.Obeys timeless := by
    apply method_obeys (D := timeless) chrono i.turns i.method (fun _ _ => ⟨rfl, rfl⟩)
    · intro hwait
      cases hm : i.method with
      | awaitEvent serde event options => exact absurd ⟨_, serde, options, hm⟩ (h event)
      | _ =>
        rw [hm] at hwait
        exact hwait.elim
    · cases i.method with
      | completeStep => exact Or.inr fun _ _ => ⟨⟨rfl, rfl⟩, fun _ _ _ _ => trivial⟩
      | _ => trivial
  refine .quiet ?_ ?_ ?_ (hobeys.leaves (fun _ _ => trivial) hd)
  · exact fun e he => h e he.1
  · exact fun e he => h e he.1
  · exact fun e he => h e he.1

lemma Invocation.Leaves.shift (hd : i.Leaves d) : Shift i d := by
  by_cases h : ∃ e, i.Waits e
  · obtain ⟨event, T, serde, options, hm⟩ := h
    obtain ⟨m, turns, c, log, q, ran⟩ := i
    dsimp only at hm
    subst hm
    change ∃ r, q = .done (r, d) at hd
    obtain ⟨r, rfl⟩ := hd
    have hv := (awaitEvent_verdict serde event options c).finish ran
    exact hv.shift ⟨T, serde, options, rfl⟩ rfl
  · exact unwaiting_shift (fun e he => h ⟨e, he⟩) hd

end Shift

section Session

variable {chrono : Serde DateTime} {c : TaskContext} {i : Invocation chrono}
  {is : List (Invocation chrono)}

def Quiet (is : List (Invocation chrono)) : Prop := ∀ i ∈ is, ∀ e, ¬ i.Woken e ∧ ¬ i.Synthesizes e

lemma unfinished (h : ∀ d, ¬ i.Leaves d) (e : String) : ¬ i.Woken e ∧ ¬ i.Synthesizes e := by
  have hnone : i.result = none := by
    cases hq : i.rest with
    | call => rw [Invocation.result, hq]
    | done x => exact absurd ⟨x.1, hq⟩ (h x.2)
  refine ⟨?_, ?_⟩
  · rintro ⟨-, hr, -⟩
    rw [hnone] at hr
    cases hr
  · rintro ⟨-, ⟨r, hr, -⟩, -⟩
    rw [hnone] at hr
    cases hr

lemma Session.uncons (h : Session c (i :: is)) :
    (is = [] ∧ ∀ d, ¬ i.Leaves d) ∨ ∃ d, i.Leaves d ∧ Session d is := by
  cases h with
  | next hd h => exact Or.inr ⟨_, hd, h⟩
  | cut =>
    by_cases hd : ∃ d, i.Leaves d
    · obtain ⟨d, hd⟩ := hd
      exact Or.inr ⟨d, hd, .stop d⟩
    · exact Or.inl ⟨rfl, fun d hd' => hd ⟨d, hd'⟩⟩

lemma forgotten {reported : String → Bool} {event : String}
    (h : ∀ e, reported e = true → e = event) (e : String) :
    Function.update reported event false e = false := by
  rw [Function.update_apply]
  by_cases he : e = event
  · rw [if_pos he]
  · rw [if_neg he]
    exact Bool.eq_false_iff.mpr fun hr => he (h e hr)

lemma Session.quiet (h : Session c is) (hwake : c.task.wakeEvent = none)
    (hreported : ∀ e, c.reportedTimeouts e = false) : Quiet is := by
  induction is generalizing c with
  | nil => simp [Quiet]
  | cons i is ih =>
    cases h.starts
    rcases h.uncons with ⟨rfl, hcut⟩ | ⟨d, hd, h⟩
    · simpa [Quiet] using unfinished hcut
    · have hstill : Quiet is → (∀ e, ¬ i.Woken e) → (∀ e, ¬ i.Synthesizes e) → Quiet (i :: is) := by
        intro his hwoken hsynth
        exact List.forall_mem_cons.mpr ⟨fun e => ⟨hwoken e, hsynth e⟩, his⟩
      cases hd.shift with
      | quiet hwoken hsynth _ hb =>
        refine hstill (ih h ?_ ?_) hwoken hsynth
        · rw [hb.task, hwake]
        · rw [hb.reported]
          exact hreported
      | woken e _ he =>
        rw [hwake] at he
        cases he
      | received e hwoken hsynth _ hb =>
        refine hstill (ih h ?_ ?_) hwoken hsynth
        · rw [hb.task, hwake]
        · rw [hb.reported]
          apply forgotten
          intro e' he'
          rw [hreported] at he'
          cases he'
      | synthesized e _ _ _ he =>
        rw [hreported e] at he
        cases he

structure Reported (event : String) (is : List (Invocation chrono)) : Prop where
  unwoken : ∀ i ∈ is, ∀ e, ¬ i.Woken e
  synthesized : ∀ earlier i later, is = earlier ++ i :: later → ∀ e, i.Synthesizes e →
    e = event ∧ (∀ u ∈ earlier, ¬ u.Receives event) ∧ Quiet later

lemma Quiet.reported {event : String} (h : Quiet is) : Reported event is where
  unwoken i hi e := (h i hi e).1
  synthesized := by
    rintro earlier i later rfl e he
    exact absurd he (h i (List.mem_append_right _ List.mem_cons_self) e).2

lemma Reported.cons {event : String} (h : Reported event is) (hwoken : ∀ e, ¬ i.Woken e)
    (hsynth : ∀ e, ¬ i.Synthesizes e) (hreceives : ¬ i.Receives event) : Reported event (i :: is) where
  unwoken := List.forall_mem_cons.mpr ⟨hwoken, h.unwoken⟩
  synthesized := by
    refine forall_cuts_cons (fun e he => absurd he (hsynth e)) ?_
    intro earlier u later his e he
    obtain ⟨hevent, hquiet, hlater⟩ := h.synthesized earlier u later his e he
    exact ⟨hevent, List.forall_mem_cons.mpr ⟨hreceives, hquiet⟩, hlater⟩

lemma Session.reported {event : String} (h : Session c is) (hwake : c.task.wakeEvent = none)
    (hreported : ∀ e, c.reportedTimeouts e = true → e = event) : Reported event is := by
  induction is generalizing c with
  | nil => exact ⟨by simp, by simp⟩
  | cons i is ih =>
    cases h.starts
    rcases h.uncons with ⟨rfl, hcut⟩ | ⟨d, hd, h⟩
    · exact Quiet.reported (by simpa [Quiet] using unfinished hcut)
    · cases hd.shift with
      | quiet hwoken hsynth hreceives hb =>
        refine (ih h ?_ ?_).cons hwoken hsynth (hreceives event)
        · rw [hb.task, hwake]
        · rw [hb.reported]
          exact hreported
      | woken e _ he =>
        rw [hwake] at he
        cases he
      | received e hwoken hsynth hreceives hb =>
        have hwake' : d.task.wakeEvent = none := by rw [hb.task, hwake]
        by_cases hevent : e = event
        · subst hevent
          have hquiet : Quiet is := by
            apply h.quiet hwake'
            rw [hb.reported]
            exact forgotten hreported
          exact Quiet.reported (List.forall_mem_cons.mpr ⟨fun e' => ⟨hwoken e', hsynth e'⟩, hquiet⟩)
        · refine (ih h hwake' ?_).cons hwoken hsynth fun hr => hevent (hreceives event hr).symm
          intro e' he'
          rw [hb.reported, Function.update_apply] at he'
          split at he'
          · cases he'
          · exact hreported e' he'
      | synthesized e hwoken hsynth hreceives he hb =>
        obtain rfl := hreported e he
        have hquiet : Quiet is := by
          apply h.quiet
          · rw [hb.task, hwake]
          · rw [hb.reported]
            exact forgotten hreported
        refine ⟨List.forall_mem_cons.mpr ⟨hwoken, fun u hu e' => (hquiet u hu e').1⟩, ?_⟩
        refine forall_cuts_cons (fun e' he' => ⟨hsynth e' he', by simp, hquiet⟩) ?_
        intro earlier u later his e' he'
        have hu : u ∈ is := his ▸ List.mem_append_right _ List.mem_cons_self
        exact absurd he' (hquiet u hu e').2

structure TimedOnce (c : TaskContext) (is : List (Invocation chrono)) : Prop where
  woken : ∀ earlier i later, is = earlier ++ i :: later → ∀ e, i.Woken e →
    c.task.wakeEvent = some e ∧ c.task.eventPayload = none ∧ ∀ u ∈ later, ∀ e', ¬ u.Woken e'
  synthesized : ∀ earlier i later, is = earlier ++ i :: later → ∀ e, i.Synthesizes e →
    (∃ before w between, earlier = before ++ w :: between ∧ w.Woken e ∧
      ∀ u ∈ between, ¬ u.Receives e) ∧ ∀ u ∈ later, ∀ e', ¬ u.Synthesizes e'

lemma TimedOnce.cons {d : TaskContext} (h : TimedOnce d is) (htask : d.task = c.task)
    (hwoken : ∀ e, ¬ i.Woken e) (hsynth : ∀ e, ¬ i.Synthesizes e) : TimedOnce c (i :: is) where
  woken := by
    refine forall_cuts_cons (fun e he => absurd he (hwoken e)) ?_
    intro earlier u later his e he
    rw [← htask]
    exact h.woken earlier u later his e he
  synthesized := by
    refine forall_cuts_cons (fun e he => absurd he (hsynth e)) ?_
    intro earlier u later his e he
    obtain ⟨⟨before, w, between, hbefore, hw⟩, hlater⟩ := h.synthesized earlier u later his e he
    exact ⟨⟨i :: before, w, between, congrArg (i :: ·) hbefore, hw⟩, hlater⟩

lemma Reported.timedOnce {event : String} (h : Reported event is) (hw : i.Woken event)
    (hwake : c.task.wakeEvent = some event) (hpayload : c.task.eventPayload = none)
    (hsynth : ∀ e, ¬ i.Synthesizes e) (hunique : ∀ e, i.Woken e → e = event) :
    TimedOnce c (i :: is) where
  woken := by
    refine forall_cuts_cons ?_ ?_
    · intro e he
      obtain rfl := hunique e he
      exact ⟨hwake, hpayload, h.unwoken⟩
    · intro earlier u later his e he
      have hu : u ∈ is := his ▸ List.mem_append_right _ List.mem_cons_self
      exact absurd he (h.unwoken u hu e)
  synthesized := by
    refine forall_cuts_cons (fun e he => absurd he (hsynth e)) ?_
    intro earlier u later his e he
    obtain ⟨rfl, hbetween, hlater⟩ := h.synthesized earlier u later his e he
    exact ⟨⟨[], i, earlier, rfl, hw, hbetween⟩, fun u hu e' => (hlater u hu e').2⟩

lemma Session.timedOnce (h : Session c is) (hreported : ∀ e, c.reportedTimeouts e = false) :
    TimedOnce c is := by
  induction is generalizing c with
  | nil => exact ⟨by simp, by simp⟩
  | cons i is ih =>
    cases h.starts
    rcases h.uncons with ⟨rfl, hcut⟩ | ⟨d, hd, h⟩
    · have hnil : TimedOnce i.before ([] : List (Invocation chrono)) := ⟨by simp, by simp⟩
      exact hnil.cons rfl (fun e => (unfinished hcut e).1) fun e => (unfinished hcut e).2
    · cases hd.shift with
      | quiet hwoken hsynth _ hb =>
        refine (ih h ?_).cons hb.task hwoken hsynth
        rw [hb.reported]
        exact hreported
      | woken e hw hwake hpayload hsynth _ hb =>
        have hrest : Reported e is := by
          apply h.reported
          · rw [hb.task]
          · intro e' he'
            rw [hb.reported, Function.update_apply] at he'
            by_contra hne
            rw [if_neg hne, hreported] at he'
            cases he'
        refine hrest.timedOnce hw hwake hpayload hsynth ?_
        intro e' he'
        have hsame := he'.2.1.symm.trans hw.2.1
        simpa using hsame
      | received e hwoken hsynth _ hb =>
        refine (ih h ?_).cons hb.task hwoken hsynth
        rw [hb.reported]
        apply forgotten
        intro e' he'
        rw [hreported] at he'
        cases he'
      | synthesized e _ _ _ he =>
        rw [hreported e] at he
        cases he

end Session

section Account

variable {chrono : Serde DateTime} {i : Invocation chrono} {is : List (Invocation chrono)}
  {T : Type} {serde : Serde T} {event : String} {options : AwaitEventOptions} {r : Result T}

inductive WaitReturns {T : Type} (serde : Serde T) (event : String) (options : AwaitEventOptions)
    (r : Result T) : Invocation chrono → Prop
  | mk (turns : ℕ) (before d : TaskContext) (log : Transcript Call Answer)
      (ran : Run transcribed
        (((Method.awaitEvent serde event options).run chrono turns).run before) [] (.done (r, d)) log) :
      WaitReturns serde event options r
        ⟨.awaitEvent serde event options, turns, before, log, .done (r, d), ran⟩

inductive Ordinary {T : Type} (serde : Serde T) (event slot : String) (i : Invocation chrono) :
    Result T → Prop
  | stored {j : Json} : Stored i.before slot i.log j → Ordinary serde event slot i (decoded serde j)
  | received {payload : Json} : (event, .ok (false, some payload)) ∈ awaitReplies i.log →
      Ordinary serde event slot i (decoded serde payload)
  | suspended {payload : Option Json} : (event, .ok (true, payload)) ∈ awaitReplies i.log →
      Ordinary serde event slot i (.error .suspended)
  | blank : isBlank event = true →
      Ordinary serde event slot i (.error (.config "event name must be provided"))
  | failed {err : Error} : IsInfra err → Ordinary serde event slot i (.error err)
  | expired : (event, .ok (false, none)) ∈ awaitReplies i.log →
      Ordinary serde event slot i (.error (.eventTimeout event))

lemma WaitReturns.verdict (h : WaitReturns serde event options r i) : ∃ d, i.Waits event ∧
    i.result = some (r.map fun _ => ()) ∧
    Verdict serde i.before (nextSlot i.before (awaitEventName event options)) event i.log d r := by
  cases h with
  | mk turns before d log ran =>
    refine ⟨d, ⟨T, serde, options, rfl⟩, rfl, ?_⟩
    exact (awaitEvent_verdict serde event options before).finish ran

lemma decoded_ne_suspended (serde : Serde T) (j : Json) : decoded serde j ≠ .error .suspended := by
  rw [decoded]
  cases serde.fromValue j with
  | error text => rintro ⟨⟩
  | ok a => rintro ⟨⟩

lemma WaitReturns.cases (h : WaitReturns serde event options r i) :
    i.Woken event ∨ (i.Synthesizes event ∧ r = decoded serde .null) ∨
      Ordinary serde event (nextSlot i.before (awaitEventName event options)) i r := by
  obtain ⟨d, hwaits, hr, hv⟩ := h.verdict
  cases hv with
  | blank hblank _ _ => exact Or.inr (Or.inr (.blank hblank))
  | unread herr _ _ => exact Or.inr (Or.inr (.failed herr))
  | stored hstored _ _ => exact Or.inr (Or.inr (.stored hstored))
  | woken _ _ hlog _ => exact Or.inl ⟨hwaits, hr, hlog⟩
  | unanswered err _ _ => exact Or.inr (Or.inr (.failed (Or.inr ⟨err, rfl⟩)))
  | suspended payload hlog _ =>
    exact Or.inr (Or.inr (.suspended (hlog ▸ List.mem_singleton_self _)))
  | received payload hlog _ =>
    exact Or.inr (Or.inr (.received (hlog ▸ List.mem_singleton_self _)))
  | synthesized hlog _ _ =>
    refine Or.inr (Or.inl ⟨⟨hwaits, ⟨_, hr, ?_⟩, hlog ▸ List.mem_singleton_self _⟩, rfl⟩)
    exact decoded_ne_eventTimeout serde .null event
  | expired hlog _ _ => exact Or.inr (Or.inr (.expired (hlog ▸ List.mem_singleton_self _)))

lemma WaitReturns.suspended_iff (h : WaitReturns serde event options r i) :
    r = .error .suspended ↔ ∃ payload, (event, .ok (true, payload)) ∈ awaitReplies i.log := by
  obtain ⟨d, -, -, hv⟩ := h.verdict
  have hone : ∀ reply, awaitReplies i.log = [(event, reply)] →
      ((∃ payload, (event, .ok (true, payload)) ∈ awaitReplies i.log) ↔
        ∃ payload, reply = .ok (true, payload)) := by
    intro reply hlog
    simp [hlog, eq_comm]
  have hnone : awaitReplies i.log = [] →
      ¬ ∃ payload, (event, .ok (true, payload)) ∈ awaitReplies i.log := by
    rintro hlog ⟨payload, hmem⟩
    rw [hlog] at hmem
    cases hmem
  cases hv with
  | blank _ hlog _ => exact iff_of_false (by simp) (hnone hlog)
  | unread herr hlog _ =>
    exact iff_of_false (fun h => herr.ne_suspended (Except.error.inj h)) (hnone hlog)
  | stored _ hlog _ => exact iff_of_false (decoded_ne_suspended serde _) (hnone hlog)
  | woken _ _ hlog _ => exact iff_of_false (by simp) (hnone hlog)
  | unanswered err hlog _ =>
    have hne : mapDatabaseError err ≠ .suspended := IsInfra.ne_suspended (Or.inr ⟨err, rfl⟩)
    rw [hone _ hlog]
    exact iff_of_false (fun h => hne (Except.error.inj h)) (by simp)
  | suspended payload hlog _ =>
    rw [hone _ hlog]
    exact iff_of_true rfl ⟨payload, rfl⟩
  | received payload hlog _ =>
    rw [hone _ hlog]
    exact iff_of_false (decoded_ne_suspended serde _) (by simp)
  | synthesized hlog _ _ =>
    rw [hone _ hlog]
    exact iff_of_false (decoded_ne_suspended serde _) (by simp)
  | expired hlog _ _ =>
    rw [hone _ hlog]
    exact iff_of_false (by simp) (by simp)

lemma taskContext_unreported (queueName : String) (task : ClaimedTask) (claimTimeout : Duration)
    (leaseTx : Bool) : (TaskContext.new queueName task claimTimeout leaseTx).run.Yields
      (fun _ _ => True) (fun _ => True) fun r => ∀ c, r = .ok c →
        c.task = { task with headers := none } ∧ ∀ e, c.reportedTimeouts e = false := by
  refine ⟨trivial, fun r _ => ?_⟩
  cases r with
  | error text => rintro c ⟨⟩
  | ok =>
    refine ⟨trivial, fun r _ => ?_⟩
    cases r with
    | error err => rintro c ⟨⟩
    | ok rows =>
      cases hheaders : task.headers with
      | none =>
        rintro c ⟨⟩
        exact ⟨rfl, fun _ => rfl⟩
      | some headers =>
        cases headers with
        | null | object fields =>
          rintro c ⟨⟩
          exact ⟨rfl, fun _ => rfl⟩
        | _ => rintro c ⟨⟩

structure TimeoutsAccounted (task : ClaimedTask) (is : List (Invocation chrono)) : Prop where
  woken : ∀ earlier i later, is = earlier ++ i :: later → ∀ e, i.Woken e →
    task.wakeEvent = some e ∧ task.eventPayload = none ∧ ∀ u ∈ later, ∀ e', ¬ u.Woken e'
  synthesized : ∀ earlier i later, is = earlier ++ i :: later → ∀ e, i.Synthesizes e →
    (∃ before w between, earlier = before ++ w :: between ∧ w.Woken e ∧
      ∀ u ∈ between, ¬ u.Receives e) ∧ ∀ u ∈ later, ∀ e', ¬ u.Synthesizes e'
  returns : ∀ i ∈ is, ∀ (T : Type) (serde : Serde T) event options r,
    WaitReturns serde event options r i →
      (i.Woken event ∨ (i.Synthesizes event ∧ r = decoded serde .null) ∨
        Ordinary serde event (nextSlot i.before (awaitEventName event options)) i r) ∧
      (r = .error .suspended ↔ ∃ payload, (event, .ok (true, payload)) ∈ awaitReplies i.log)

end Account

section Sample

def wokenTask : ClaimedTask := { sampleTask with wakeEvent := some "paid" }

def wokenContext : TaskContext := { sampleContext with task := wokenTask }

def plainOptions : AwaitEventOptions := ⟨none, none⟩

lemma wokenContext_opens : Run transcribed
    (TaskContext.new "default" wokenTask (Duration.fromSecs 120) true).run [] (.done (.ok wokenContext))
    [⟨.query (.getTaskCheckpointStates "default" Uuid.nil Uuid.nil), .ok []⟩, ⟨.poolGet, .ok ()⟩] := by
  refine .step (r := .ok ()) rfl ?_
  refine .step (r := .ok []) rfl ?_
  exact .refl _ _

def reportedContext : TaskContext :=
  { advance wokenContext (awaitEventName "paid" plainOptions) with
    task := { wokenTask with wakeEvent := none, eventPayload := none }
    reportedTimeouts := Function.update (fun _ => false) "paid" true }

def sampleReport : Invocation sampleChrono where
  method := .awaitEvent Serde.json "paid" plainOptions
  turns := 0
  before := wokenContext
  log := [⟨.query (.getTaskCheckpointState "default" Uuid.nil (awaitEventName "paid" plainOptions)),
    .ok none⟩, ⟨.poolGet, .ok ()⟩]
  rest := .done (.error (.eventTimeout "paid"), reportedContext)
  ran := by
    refine .step (r := .ok ()) rfl ?_
    refine .step (r := .ok none) rfl ?_
    exact .refl _ _

def sampleSynthesis : Invocation sampleChrono where
  method := .awaitEvent Serde.json "paid" plainOptions
  turns := 0
  before := reportedContext
  log := [⟨.query (.awaitEvent "default" Uuid.nil Uuid.nil
      (nextSlot reportedContext (awaitEventName "paid" plainOptions)) "paid" none), .ok (false, none)⟩,
    ⟨.poolGet, .ok ()⟩,
    ⟨.query (.getTaskCheckpointState "default" Uuid.nil
      (nextSlot reportedContext (awaitEventName "paid" plainOptions))), .ok none⟩, ⟨.poolGet, .ok ()⟩]
  rest := .done (.ok .null,
    cached { advance reportedContext (awaitEventName "paid" plainOptions) with
      reportedTimeouts := Function.update reportedContext.reportedTimeouts "paid" false }
      (nextSlot reportedContext (awaitEventName "paid" plainOptions)) .null)
  ran := by
    refine .step (r := .ok ()) rfl ?_
    refine .step (r := .ok none) rfl ?_
    refine .step (r := .ok ()) rfl ?_
    refine .step (r := .ok (false, none)) rfl ?_
    exact .refl _ _

end Sample

end AbsurdSdk.Durability
