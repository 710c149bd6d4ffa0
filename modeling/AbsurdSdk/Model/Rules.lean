import AbsurdSdk.Model.Context

/-! How `Safe` and `Reaches` pass through the binds and the primitive steps of `Async` and
`ContextM`, in any environment. -/

namespace AbsurdSdk.Model

open Interaction

variable {S : Type*} {env : Env Call Answer S} {α β : Type} {s : S} {c : TaskContext}

lemma context_bind_assoc {γ : Type} (m : ContextM α) (f : α → ContextM β) (g : β → ContextM γ) :
    m >>= f >>= g = m >>= fun a => f a >>= g := by
  ext d
  change ((m.run d).bind _).bind _ = (m.run d).bind _
  rw [Program.bind_assoc]
  apply Program.bind_congr
  rintro ⟨err | a, e⟩
  · rfl
  · rfl

lemma async_bind_assoc {γ : Type} (x : Async α) (f : α → Async β) (g : β → Async γ) :
    x >>= f >>= g = x >>= fun a => f a >>= g := by
  ext
  change (x.run.bind _).bind _ = x.run.bind _
  rw [Program.bind_assoc]
  apply Program.bind_congr
  rintro (err | a)
  · rfl
  · rfl

lemma async_bind_congr {x : Async α} {f g : α → Async β} (h : ∀ a, f a = g a) :
    x >>= f = x >>= g :=
  congrArg (x >>= ·) (funext h)

lemma async_bind_run {x : Async α} {f : α → Async β} {a : α} {q : Process (Result β)} {t u : S}
    (hx : Run env x.run s (.done (.ok a)) u) (hf : Run env (f a).run u q t) :
    Run env (x >>= f).run s q t :=
  (hx.bind _).trans hf

lemma async_bind_done {x : Async α} {f : α → Async β} {r : Result β} {t : S}
    (h : Run env (x >>= f).run s (.done r) t) : ∃ r' u, Run env x.run s (.done r') u ∧ match r' with
      | .ok a => Run env (f a).run u (.done r) t
      | .error err => r = .error err ∧ t = u := by
  rcases h.bind_cases with ⟨p, hp, hd⟩ | ⟨r', u, hx, hf⟩
  · cases p with
    | call e next => cases hd
    | done r' =>
      refine ⟨r', t, hp, ?_⟩
      rcases r' with err | a
      · cases hd
        exact ⟨rfl, rfl⟩
      · rw [hd]
        exact .refl _ _
  · refine ⟨r', u, hx, ?_⟩
    rcases r' with err | a
    · cases hf
      exact ⟨rfl, rfl⟩
    · exact hf

section Safe

variable {inv : S → Prop}

@[simp] lemma safe_async_pure {a : α} {post : Result α → S → Prop} :
    Safe env inv post (pure a : Async α).run s ↔ inv s ∧ post (.ok a) s := Iff.rfl

@[simp] lemma safe_async_bind {x : Async α} {f : α → Async β} {post : Result β → S → Prop} :
    Safe env inv post (x >>= f).run s ↔ Safe env inv (fun r t => match r with
      | .ok a => Safe env inv post (f a).run t
      | .error err => inv t ∧ post (.error err) t) x.run s := by
  change Safe env inv post (x.run.bind _) s ↔ _
  rw [Safe.bind_iff]
  refine iff_of_eq (congrArg (fun p => Safe env inv p x.run s) ?_)
  funext r t
  cases r <;> rfl

@[simp] lemma safe_ofResult {r : Result α} {post : Result α → S → Prop} :
    Safe env inv post (Async.ofResult r).run s ↔ inv s ∧ post r s := Iff.rfl

@[simp] lemma safe_execute {statement : Statement α} {post : Result α → S → Prop} :
    Safe env inv post (Async.execute statement).run s ↔ inv s ∧
      ∀ r t, env s (.query statement) r t → inv t ∧ post (Except.mapError mapDatabaseError r) t :=
  Iff.rfl

@[simp] lemma safe_pool {post : Result Unit → S → Prop} :
    Safe env inv post Async.pool.run s ↔ inv s ∧
      ∀ r t, env s .poolGet r t → inv t ∧ post (Except.mapError .pool r) t := Iff.rfl

@[simp] lemma safe_now {post : Result Instant → S → Prop} :
    Safe env inv post Async.now.run s ↔
      inv s ∧ ∀ r t, env s .now r t → inv t ∧ post (.ok r) t := Iff.rfl

@[simp] lemma safe_sleep {d : Duration} {post : Result Unit → S → Prop} :
    Safe env inv post (Async.sleep d).run s ↔
      inv s ∧ ∀ r t, env s (.sleep d) r t → inv t ∧ post (.ok ()) t := Iff.rfl

@[simp] lemma safe_sendLease {d : Duration} {post : Result Unit → S → Prop} :
    Safe env inv post (Async.sendLease d).run s ↔
      inv s ∧ ∀ r t, env s (.sendLease d) r t → inv t ∧ post (.ok ()) t := Iff.rfl

@[simp] lemma safe_panic {text : String} {post : Result α → S → Prop} :
    Safe env inv post (Async.panic text : Async α).run s ↔ inv s :=
  ⟨fun h => h.1, fun h => ⟨h, fun r => r.elim⟩⟩

@[simp] lemma safe_hang {post : Result α → S → Prop} :
    Safe env inv post (Async.hang : Async α).run s ↔ inv s :=
  ⟨fun h => h.1, fun h => ⟨h, fun r => r.elim⟩⟩

lemma safe_query {statement : Statement α} {post : Result α → S → Prop} (hs : inv s)
    (hpool : ∀ r t, env s .poolGet r t → inv t ∧ ∀ err, r = .error err → post (.error (.pool err)) t)
    (hrun : ∀ t, env s .poolGet (.ok ()) t → ∀ r u, env t (.query statement) r u →
      inv u ∧ post (Except.mapError mapDatabaseError r) u) :
    Safe env inv post (Async.query statement).run s := by
  rw [Async.query, safe_async_bind, safe_pool]
  refine ⟨hs, fun r t he => ?_⟩
  obtain ⟨hi, hp⟩ := hpool r t he
  refine ⟨hi, ?_⟩
  cases r with
  | ok => exact ⟨hi, hrun t he⟩
  | error err => exact ⟨hi, hp err rfl⟩

lemma safe_closure {T : Type} {post : Result T → S → Prop} (hs : inv s)
    (h : ∀ r t, env s (.closure T) r t → inv t ∧ ∀ x, r = .ok x → post x t) :
    Safe env inv post (Async.closure T).run s := by
  refine ⟨hs, fun r t he => ?_⟩
  obtain ⟨hi, hp⟩ := h r t he
  cases r with
  | ok x => exact ⟨hi, hp x rfl⟩
  | error text => exact safe_panic.mpr hi

lemma safe_supply {T : Type} {post : Result T → S → Prop} (hs : inv s)
    (h : ∀ r t, env s (.supply T) r t → inv t ∧ ∀ v, r = .ok v → post (.ok v) t) :
    Safe env inv post (Async.supply T).run s := by
  refine ⟨hs, fun r t he => ?_⟩
  obtain ⟨hi, hp⟩ := h r t he
  cases r with
  | ok x => exact ⟨hi, hp x rfl⟩
  | error text => exact safe_panic.mpr hi

@[simp] lemma safe_context_pure {a : α} {post : Result α × TaskContext → S → Prop} :
    Safe env inv post ((pure a : ContextM α).run c) s ↔ inv s ∧ post (.ok a, c) s := Iff.rfl

@[simp] lemma safe_context_bind {m : ContextM α} {f : α → ContextM β}
    {post : Result β × TaskContext → S → Prop} :
    Safe env inv post ((m >>= f).run c) s ↔ Safe env inv (fun r t => match r with
      | (.ok a, c) => Safe env inv post ((f a).run c) t
      | (.error err, c) => inv t ∧ post (.error err, c) t) (m.run c) s := by
  change Safe env inv post ((m.run c).bind _) s ↔ _
  rw [Safe.bind_iff]
  refine iff_of_eq (congrArg (fun p => Safe env inv p (m.run c) s) ?_)
  funext r t
  rcases r with ⟨_ | _, c⟩ <;> rfl

@[simp] lemma safe_lift {x : Async α} {post : Result α × TaskContext → S → Prop} :
    Safe env inv post ((liftM x : ContextM α).run c) s ↔
      Safe env inv (fun r t => inv t ∧ post (r, c) t) x.run s := by
  change Safe env inv post (x.run.bind _) s ↔ _
  rw [Safe.bind_iff]
  rfl

@[simp] lemma safe_context {post : Result TaskContext × TaskContext → S → Prop} :
    Safe env inv post (ContextM.context.run c) s ↔ inv s ∧ post (.ok c, c) s := Iff.rfl

@[simp] lemma safe_modify {f : TaskContext → TaskContext}
    {post : Result Unit × TaskContext → S → Prop} :
    Safe env inv post ((ContextM.modify f).run c) s ↔ inv s ∧ post (.ok (), f c) s := Iff.rfl

@[simp] lemma safe_throw {err : Error} {post : Result α × TaskContext → S → Prop} :
    Safe env inv post ((ContextM.throw err : ContextM α).run c) s ↔
      inv s ∧ post (.error err, c) s := Iff.rfl

end Safe

section Reaches

@[simp] lemma reaches_async_pure {a : α} {post : Result α → S → Prop} :
    Reaches env post (pure a : Async α).run s ↔ post (.ok a) s := Iff.rfl

@[simp] lemma reaches_async_bind {x : Async α} {f : α → Async β} {post : Result β → S → Prop} :
    Reaches env post (x >>= f).run s ↔ Reaches env (fun r t => match r with
      | .ok a => Reaches env post (f a).run t
      | .error err => post (.error err) t) x.run s := by
  change Reaches env post (x.run.bind _) s ↔ _
  rw [Reaches.bind_iff]
  refine iff_of_eq (congrArg (fun p => Reaches env p x.run s) ?_)
  funext r t
  cases r <;> rfl

@[simp] lemma reaches_ofResult {r : Result α} {post : Result α → S → Prop} :
    Reaches env post (Async.ofResult r).run s ↔ post r s := Iff.rfl

@[simp] lemma reaches_execute {statement : Statement α} {post : Result α → S → Prop} :
    Reaches env post (Async.execute statement).run s ↔
      ∃ r t, env s (.query statement) r t ∧ post (Except.mapError mapDatabaseError r) t := Iff.rfl

@[simp] lemma reaches_pool {post : Result Unit → S → Prop} :
    Reaches env post Async.pool.run s ↔
      ∃ r t, env s .poolGet r t ∧ post (Except.mapError .pool r) t := Iff.rfl

@[simp] lemma reaches_now {post : Result Instant → S → Prop} :
    Reaches env post Async.now.run s ↔ ∃ r t, env s .now r t ∧ post (.ok r) t := Iff.rfl

@[simp] lemma reaches_sendLease {d : Duration} {post : Result Unit → S → Prop} :
    Reaches env post (Async.sendLease d).run s ↔
      ∃ r t, env s (.sendLease d) r t ∧ post (.ok ()) t := Iff.rfl

@[simp] lemma reaches_context_pure {a : α} {post : Result α × TaskContext → S → Prop} :
    Reaches env post ((pure a : ContextM α).run c) s ↔ post (.ok a, c) s := Iff.rfl

@[simp] lemma reaches_context_bind {m : ContextM α} {f : α → ContextM β}
    {post : Result β × TaskContext → S → Prop} :
    Reaches env post ((m >>= f).run c) s ↔ Reaches env (fun r t => match r with
      | (.ok a, c) => Reaches env post ((f a).run c) t
      | (.error err, c) => post (.error err, c) t) (m.run c) s := by
  change Reaches env post ((m.run c).bind _) s ↔ _
  rw [Reaches.bind_iff]
  refine iff_of_eq (congrArg (fun p => Reaches env p (m.run c) s) ?_)
  funext r t
  rcases r with ⟨_ | _, c⟩ <;> rfl

@[simp] lemma reaches_lift {x : Async α} {post : Result α × TaskContext → S → Prop} :
    Reaches env post ((liftM x : ContextM α).run c) s ↔
      Reaches env (fun r t => post (r, c) t) x.run s := by
  change Reaches env post (x.run.bind _) s ↔ _
  rw [Reaches.bind_iff]
  rfl

@[simp] lemma reaches_context {post : Result TaskContext × TaskContext → S → Prop} :
    Reaches env post (ContextM.context.run c) s ↔ post (.ok c, c) s := Iff.rfl

@[simp] lemma reaches_modify {f : TaskContext → TaskContext}
    {post : Result Unit × TaskContext → S → Prop} :
    Reaches env post ((ContextM.modify f).run c) s ↔ post (.ok (), f c) s := Iff.rfl

@[simp] lemma reaches_throw {err : Error} {post : Result α × TaskContext → S → Prop} :
    Reaches env post ((ContextM.throw err : ContextM α).run c) s ↔ post (.error err, c) s :=
  Iff.rfl

end Reaches

section Calls

variable {P : Call → Prop}

lemma calls_async_bind {x : Async α} {f : α → Async β} (hx : x.run.Calls P)
    (hf : ∀ a, (f a).run.Calls P) : (x >>= f).run.Calls P := by
  apply Program.Calls.bind hx
  rintro (err | a)
  · trivial
  · exact hf a

lemma calls_query {statement : Statement α} (hp : P .poolGet) (hq : P (.query statement)) :
    (Async.query statement).run.Calls P :=
  calls_async_bind ⟨hp, fun _ => trivial⟩ fun _ => ⟨hq, fun _ => trivial⟩

lemma calls_context_bind {m : ContextM α} {f : α → ContextM β} (hm : (m.run c).Calls P)
    (hf : ∀ a d, ((f a).run d).Calls P) : ((m >>= f).run c).Calls P := by
  apply Program.Calls.bind hm
  rintro ⟨err | a, d⟩
  · trivial
  · exact hf a d

lemma calls_lift {x : Async α} (hx : x.run.Calls P) : ((liftM x : ContextM α).run c).Calls P :=
  Program.Calls.bind hx fun _ => trivial

lemma calls_lookupCheckpoint {name : String} (hp : P .poolGet)
    (hq : ∀ queue taskId, P (.query (.getTaskCheckpointState queue taskId name))) :
    ((TaskContext.lookupCheckpoint name).run c).Calls P := by
  rw [TaskContext.lookupCheckpoint]
  apply calls_context_bind
  · trivial
  intro c d
  split
  · trivial
  · apply calls_context_bind
    · exact calls_lift (calls_query hp (hq _ _))
    · rintro (_ | value) e
      · trivial
      · apply calls_context_bind
        · trivial
        · exact fun _ _ => trivial

lemma calls_persistCheckpoint {name : String} {value : Json} (hp : P .poolGet)
    (hq : ∀ queue taskId runId seconds,
      P (.query (.setTaskCheckpointState queue taskId name value runId seconds)))
    (hlease : ∀ duration, P (.sendLease duration)) :
    ((TaskContext.persistCheckpoint name value).run c).Calls P := by
  rw [TaskContext.persistCheckpoint]
  apply calls_context_bind
  · trivial
  intro c d
  apply calls_context_bind
  · exact calls_lift (calls_query hp (hq _ _ _ _))
  intro _ d
  apply calls_context_bind
  · trivial
  intro _ d
  apply calls_context_bind
  · trivial
  intro c d
  split
  · exact calls_lift ⟨hlease _, fun _ => trivial⟩
  · trivial

end Calls

end AbsurdSdk.Model
