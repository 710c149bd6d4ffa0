import AbsurdSdk.Durability.Names
import AbsurdSdk.Model.Rules

/-! The checkpoint store of one task, and what the accesses of a context do to it. Every call is
logged with its reply, the newest first. A write is committed, or refused with an error; it may
also be committed with an error as its reply. -/

namespace AbsurdSdk.Durability

open Interaction Model

abbrev Store := String → Option Json

abbrev Event := Σ call : Call, Answer call

structure World where
  store : Store
  log : List Event

def World.empty : World := ⟨fun _ => none, []⟩

def stores (σ : Store) : (call : Call) → Answer call → Store → Prop
  | .query (.getTaskCheckpointStates _ _ _), r, σ' =>
    σ' = σ ∧ ∀ rows, r = .ok rows → ∀ name v, (name, v) ∈ rows ↔ σ name = some v
  | .query (.getTaskCheckpointState _ _ name), r, σ' => σ' = σ ∧ ∀ row, r = .ok row → row = σ name
  | .query (.setTaskCheckpointState _ _ name state _ _), r, σ' =>
    σ' = Function.update σ name (some state) ∨ σ' = σ ∧ r ≠ .ok ()
  | .query (.awaitEvent _ _ _ name _ _), .ok (false, some payload), σ' =>
    σ' = Function.update σ name (some payload)
  | .query (.awaitEvent _ _ _ name _ _), .error _, σ' =>
    σ' = σ ∨ ∃ payload, σ' = Function.update σ name (some payload)
  | _, _, σ' => σ' = σ

def durable : Env Call Answer World := fun w call r t =>
  stores w.store call r t.store ∧ t.log = ⟨call, r⟩ :: w.log

def withCache (c : TaskContext) (cache : Store) : TaskContext := { c with checkpointCache := cache }

def CachedAt (c : TaskContext) (σ : Store) (name : String) : Prop :=
  ∀ v, c.checkpointCache name = some v → σ name = some v

def Cached (c : TaskContext) (σ : Store) : Prop := ∀ name, CachedAt c σ name

lemma Cached.insert {c : TaskContext} {σ : Store} {name : String} {v : Json} (h : Cached c σ)
    (hσ : σ name = some v) :
    Cached (withCache c (Function.update c.checkpointCache name (some v))) σ := by
  intro n x hx
  simp only [withCache] at hx
  by_cases hn : n = name
  · subst hn
    simp only [Function.update_self, Option.some.injEq] at hx
    rw [hσ, hx]
  · simp only [Function.update_of_ne hn] at hx
    exact h n x hx

lemma Cached.commit {c : TaskContext} {σ : Store} {name : String} {v : Json} (h : Cached c σ)
    (hσ : σ name = none) : Cached c (Function.update σ name (some v)) := by
  intro n x hx
  have hn : n ≠ name := by
    rintro rfl
    simp [h n x hx] at hσ
  rw [Function.update_of_ne hn]
  exact h n x hx

def Grew (P : Call → Prop) (w t : World) : Prop :=
  ∃ events : List Event, t.log = events ++ w.log ∧ ∀ e ∈ events, P e.1

namespace Grew

variable {P Q : Call → Prop} {w t u : World}

lemma refl (P : Call → Prop) (w : World) : Grew P w w := ⟨[], rfl, by simp⟩

lemma step {call : Call} {r : Answer call} (h : Grew P w t) (hu : durable t call r u)
    (hc : P call) : Grew P w u := by
  obtain ⟨events, hl, hp⟩ := h
  refine ⟨⟨call, r⟩ :: events, by simp [hu.2, hl], ?_⟩
  simpa using ⟨hc, hp⟩

lemma trans (h : Grew P w t) (h' : Grew P t u) : Grew P w u := by
  obtain ⟨events, hl, hp⟩ := h
  obtain ⟨events', hl', hp'⟩ := h'
  refine ⟨events' ++ events, by simp [hl, hl'], ?_⟩
  intro e he
  rcases List.mem_append.mp he with he | he
  · exact hp' e he
  · exact hp e he

lemma mono (h : Grew P w t) (hpq : ∀ call, P call → Q call) : Grew Q w t := by
  obtain ⟨events, hl, hp⟩ := h
  exact ⟨events, hl, fun e he => hpq _ (hp e he)⟩

end Grew

def Succeeds : (call : Call) → Answer call → Prop
  | .poolGet, r => r = (.ok () : Except String Unit)
  | .query (α := α) _, r => ∃ x, r = (.ok x : Except PgError α)
  | .closure T, r => ∃ x : T, r = (.ok (.ok x) : Except String (Result T))
  | .supply T, r => ∃ x : T, r = (.ok x : Except String T)
  | _, _ => True

def Failed (w t : World) : Prop :=
  ∃ events : List Event, t.log = events ++ w.log ∧ ∃ e ∈ events, ¬ Succeeds e.1 e.2

namespace Failed

variable {w t u : World} {call : Call} {r : Answer call}

lemma of_step {P : Call → Prop} (h : Grew P w t) (hu : durable t call r u)
    (hf : ¬ Succeeds call r) : Failed w u := by
  obtain ⟨events, hl, -⟩ := h
  exact ⟨⟨call, r⟩ :: events, by simp [hu.2, hl], ⟨call, r⟩, List.mem_cons_self, hf⟩

lemma of_later {P : Call → Prop} (h : Grew P w t) (hu : Failed t u) : Failed w u := by
  obtain ⟨events, hl, -⟩ := h
  obtain ⟨events', hl', e, he, hf⟩ := hu
  exact ⟨events' ++ events, by simp [hl, hl'], e, List.mem_append_left _ he, hf⟩

end Failed

def IsInfra (err : Error) : Prop :=
  (∃ text, err = .pool text) ∨ ∃ pg, err = mapDatabaseError pg

def IsLookup (name : String) : Call → Prop
  | .poolGet => True
  | .query (.getTaskCheckpointState _ _ n) => n = name
  | _ => False

def IsPersist (name : String) (value : Json) : Call → Prop
  | .poolGet | .sendLease _ => True
  | .query (.setTaskCheckpointState _ _ n v _ _) => n = name ∧ v = value
  | _ => False

lemma insertRows_cases (rows : List (String × Json)) (name : String) :
    (TaskContext.insertRows rows name = none ∧ ∀ v, (name, v) ∉ rows) ∨
      ∃ v, (name, v) ∈ rows ∧ TaskContext.insertRows rows name = some v := by
  induction rows using List.reverseRecOn with
  | nil => exact Or.inl ⟨rfl, by simp⟩
  | append_singleton rows row ih =>
    have hu : TaskContext.insertRows (rows ++ [row]) =
        Function.update (TaskContext.insertRows rows) row.1 (some row.2) := by
      simp [TaskContext.insertRows]
    by_cases hn : name = row.1
    · subst hn
      exact Or.inr ⟨row.2, by simp, by simp [hu]⟩
    · rcases ih with ⟨h, hr⟩ | ⟨v, hv, h⟩
      · refine Or.inl ⟨by rw [hu, Function.update_of_ne hn, h], ?_⟩
        intro v hv
        rcases List.mem_append.mp hv with hv | hv
        · exact hr v hv
        · exact hn (congrArg Prod.fst (List.mem_singleton.mp hv))
      · exact Or.inr ⟨v, List.mem_append_left _ hv, by rw [hu, Function.update_of_ne hn, h]⟩

lemma insertRows_eq {rows : List (String × Json)} {σ : Store}
    (h : ∀ name v, (name, v) ∈ rows ↔ σ name = some v) : TaskContext.insertRows rows = σ := by
  funext name
  rcases insertRows_cases rows name with ⟨hr, hn⟩ | ⟨v, hv, hr⟩
  · cases hσ : σ name with
    | none => exact hr
    | some v => exact absurd ((h name v).mpr hσ) (hn v)
  · rw [hr, (h name v).mp hv]

section Accesses

variable {c : TaskContext} {w : World}

def Recached (c d : TaskContext) (name : String) (σ : Store) : Prop :=
  d = c ∨ ∃ v, σ name = some v ∧
    d = withCache c (Function.update c.checkpointCache name (some v))

lemma Recached.cached {d : TaskContext} {name : String} {σ : Store} (h : Recached c d name σ)
    (hc : Cached c σ) : Cached d σ := by
  rcases h with rfl | ⟨v, hv, rfl⟩
  · exact hc
  · exact hc.insert hv

lemma Recached.withCache {d : TaskContext} {name : String} {σ : Store} (h : Recached c d name σ) :
    ∃ cache, d = withCache c cache := by
  rcases h with rfl | ⟨v, hv, rfl⟩
  · exact ⟨d.checkpointCache, rfl⟩
  · exact ⟨_, rfl⟩

lemma lookupCheckpoint_safe (name : String) (h : CachedAt c w.store name) :
    Safe durable (fun t => t.store = w.store ∧ Grew (IsLookup name) w t)
      (fun r t => Recached c r.2 name w.store ∧ (∀ x, r.1 = .ok x → x = w.store name) ∧
        ∀ err, r.1 = .error err → Failed w t ∧ IsInfra err)
      ((TaskContext.lookupCheckpoint name).run c) w := by
  have hw := Grew.refl (IsLookup name) w
  simp only [TaskContext.lookupCheckpoint, safe_context_bind, safe_context, true_and]
  refine ⟨hw, ?_⟩
  cases hc : c.checkpointCache name with
  | some value =>
    simp only [safe_context_pure, true_and]
    refine ⟨hw, Or.inl rfl, ?_, by simp⟩
    rintro x ⟨⟩
    exact (h value hc).symm
  | none =>
    simp only [safe_context_bind, safe_lift]
    refine safe_query ⟨rfl, hw⟩ ?_ ?_
    · intro r t ht
      have htg : Grew (IsLookup name) w t := hw.step ht trivial
      have hs : t.store = w.store := ht.1
      refine ⟨⟨hs, htg⟩, ?_⟩
      rintro err rfl
      have hf : Failed w t := .of_step hw ht (by simp [Succeeds])
      refine ⟨⟨hs, htg⟩, ⟨hs, htg⟩, Or.inl rfl, by simp, ?_⟩
      rintro e ⟨⟩
      exact ⟨hf, Or.inl ⟨err, rfl⟩⟩
    · intro t hp r u hd
      have htg : Grew (IsLookup name) w t := hw.step hp trivial
      have hug : Grew (IsLookup name) w u := htg.step hd rfl
      have ht : t.store = w.store := hp.1
      obtain ⟨hu, hr⟩ := hd.1
      have hs : u.store = w.store := hu.trans ht
      refine ⟨⟨hs, hug⟩, ⟨hs, hug⟩, ?_⟩
      cases r with
      | error err =>
        have hf : Failed w u := .of_step htg hd (by simp [Succeeds])
        refine ⟨⟨hs, hug⟩, Or.inl rfl, by simp, ?_⟩
        rintro e ⟨⟩
        exact ⟨hf, Or.inr ⟨err, rfl⟩⟩
      | ok row =>
        have hrow : row = w.store name := by rw [hr row rfl, ht]
        cases row with
        | none =>
          refine ⟨⟨hs, hug⟩, Or.inl rfl, ?_, by simp⟩
          rintro x ⟨⟩
          exact hrow
        | some value =>
          refine ⟨⟨hs, hug⟩, Or.inr ⟨value, hrow.symm, rfl⟩, ?_, by simp⟩
          rintro x ⟨⟩
          exact hrow

lemma persistCheckpoint_safe (name : String) (value : Json) :
    Safe durable
      (fun t => (t.store = w.store ∨ t.store = Function.update w.store name (some value)) ∧
        Grew (IsPersist name value) w t)
      (fun r t => (r.1 = .ok () ∧ t.store = Function.update w.store name (some value) ∧
        r.2 = withCache c (Function.update c.checkpointCache name (some value))) ∨
        ∃ err, r = (.error err, c) ∧ Failed w t ∧ IsInfra err)
      ((TaskContext.persistCheckpoint name value).run c) w := by
  have hw := Grew.refl (IsPersist name value) w
  simp only [TaskContext.persistCheckpoint, safe_context_bind, safe_context, true_or, true_and,
    safe_lift]
  refine ⟨hw, safe_query ⟨Or.inl rfl, hw⟩ ?_ ?_⟩
  · intro r t ht
    have htg : Grew (IsPersist name value) w t := hw.step ht trivial
    have hs : t.store = w.store := ht.1
    refine ⟨⟨Or.inl hs, htg⟩, ?_⟩
    rintro err rfl
    have hf : Failed w t := .of_step hw ht (by simp [Succeeds])
    exact ⟨⟨Or.inl hs, htg⟩, ⟨Or.inl hs, htg⟩, Or.inr ⟨_, rfl, hf, Or.inl ⟨err, rfl⟩⟩⟩
  · intro t ht r u hd
    have htg : Grew (IsPersist name value) w t := hw.step ht trivial
    have hug : Grew (IsPersist name value) w u := htg.step hd ⟨rfl, rfl⟩
    have hs : u.store = Function.update w.store name (some value) ∨
        u.store = w.store ∧ r ≠ .ok () := by
      rw [← (ht.1 : t.store = w.store)]
      exact hd.1
    have hi : u.store = w.store ∨ u.store = Function.update w.store name (some value) :=
      hs.symm.imp And.left id
    refine ⟨⟨hi, hug⟩, ⟨hi, hug⟩, ?_⟩
    cases r with
    | error err =>
      have hf : Failed w u := .of_step htg hd (by simp [Succeeds])
      exact ⟨⟨hi, hug⟩, Or.inr ⟨_, rfl, hf, Or.inr ⟨err, rfl⟩⟩⟩
    | ok =>
      have hc : u.store = Function.update w.store name (some value) :=
        hs.resolve_right fun hn => hn.2 rfl
      simp only [TaskContext.cacheCheckpoint, TaskContext.notifyLeaseExtended, safe_context_bind,
        safe_modify, safe_context]
      refine ⟨⟨hi, hug⟩, ⟨hi, hug⟩, ?_⟩
      split
      · simp only [safe_lift, safe_sendLease]
        refine ⟨⟨hi, hug⟩, ?_⟩
        intro r v hv
        have hvg : Grew (IsPersist name value) w v := hug.step hv trivial
        have hvs : v.store = u.store := hv.1
        exact ⟨⟨hvs ▸ hi, hvg⟩, ⟨hvs ▸ hi, hvg⟩, Or.inl ⟨trivial, hvs.trans hc, rfl⟩⟩
      · exact ⟨⟨hi, hug⟩, Or.inl ⟨rfl, hc, rfl⟩⟩

end Accesses

end AbsurdSdk.Durability
