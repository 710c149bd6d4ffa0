import AbsurdSdk.Durability.Handler

namespace AbsurdSdk.Durability

open Interaction Model

variable {s : String} {R : Type} {env : Env Call Answer World} {chrono : Serde DateTime}
  {w t u : World} {visits visits' : List OpVisit}

def Kept (s : String) (w t : World) : Prop := ∀ j, w.store s = some j → t.store s = some j

lemma Kept.refl (s : String) (w : World) : Kept s w w := fun _ h => h

lemma Kept.trans (h : Kept s w t) (h' : Kept s t u) : Kept s w u := fun j hj => h' j (h j hj)

lemma Kept.of_eq (h : t.store s = w.store s) : Kept s w t := fun j hj => by rw [h, hj]

inductive Ordered (s : String) : World → List OpVisit → World → Prop
  | nil {w u : World} : Kept s w u → Ordered s w [] u
  | cons {w u : World} {v : OpVisit} {visits : List OpVisit} : Kept s w v.before →
      Kept s v.before v.after → Ordered s v.after visits u → Ordered s w (v :: visits) u

namespace Ordered

lemma kept (h : Ordered s w visits u) : Kept s w u := by
  induction h with
  | nil h => exact h
  | cons hb hd _ ih => exact (hb.trans hd).trans ih

lemma prepend (h : Ordered s t visits u) (hw : Kept s w t) : Ordered s w visits u := by
  cases h with
  | nil h => exact .nil (hw.trans h)
  | cons hb hd hv => exact .cons (hw.trans hb) hd hv

lemma append (h : Ordered s w visits t) (h' : Ordered s t visits' u) :
    Ordered s w (visits ++ visits') u := by
  induction h with
  | nil h => exact h'.prepend h
  | cons hb hd _ ih => exact .cons hb hd (ih h')

lemma before {v : OpVisit} (h : Ordered s w visits u) (hv : v ∈ visits) : Kept s w v.before := by
  induction h with
  | nil h => cases hv
  | cons hb hd _ ih =>
    rcases List.mem_cons.mp hv with rfl | hv
    · exact hb
    · exact (hb.trans hd).trans (ih hv)

lemma during {v : OpVisit} (h : Ordered s w visits u) (hv : v ∈ visits) :
    Kept s v.before v.after := by
  induction h with
  | nil h => cases hv
  | cons hb hd _ ih =>
    rcases List.mem_cons.mp hv with rfl | hv
    · exact hd
    · exact ih hv

lemma later {v : OpVisit} (h : Ordered s w (visits ++ v :: visits') u) :
    Ordered s v.after visits' u := by
  induction visits generalizing w with
  | nil =>
    cases h with
    | cons _ _ h => exact h
  | cons x visits ih =>
    cases h with
    | cons _ _ h => exact ih h

end Ordered

section Fixes

variable {α β : Type} {c : TaskContext}

def Fixes (env : Env Call Answer World) (s : String) (m : ContextM α) (c : TaskContext) : Prop :=
  ∀ w, CachedAt c w.store s →
    Safe env (Kept s w) (fun r t => CachedAt r.2 t.store s) (m.run c) w

def Fills (env : Env Call Answer World) (s : String) (m : ContextM α) (c : TaskContext) : Prop :=
  ∀ w, w.store s = none → CachedAt c w.store s →
    Safe env (fun _ => True) (fun r t => CachedAt r.2 t.store s) (m.run c) w

lemma Recached.cachedAt {d : TaskContext} {σ : Store} (h : Recached c d s σ)
    (hc : CachedAt c σ s) : CachedAt d σ s := by
  rcases h with rfl | ⟨v, hv, rfl⟩
  · exact hc
  · intro x hx
    have hvx : v = x := by simpa [Durability.withCache] using hx
    rw [hv, hvx]

lemma Spared.cachedAt {d : TaskContext} (h : Spared s c d) (ht : Untouched s w t)
    (hc : CachedAt c w.store s) : CachedAt d t.store s :=
  fun v hv => ht.1.trans (hc v (h.cache ▸ hv))

namespace Fixes

lemma bind {m : ContextM α} {f : α → ContextM β} (hm : Fixes env s m c)
    (hf : ∀ a d, Fixes env s (f a) d) : Fixes env s (m >>= f) c := by
  intro w hc
  rw [safe_context_bind]
  apply (hm w hc).mono (fun _ h => h)
  rintro ⟨err | a, d⟩ t ht hd
  · exact ⟨ht, hd⟩
  · exact (hf a d t hd).mono (fun _ h => ht.trans h) fun _ _ _ h => h

lemma context_bind {f : TaskContext → ContextM β} (hf : Fixes env s (f c) c) :
    Fixes env s (ContextM.context >>= f) c := by
  intro w hc
  rw [safe_context_bind, safe_context]
  exact ⟨.refl s w, hf w hc⟩

lemma nextName_bind {name : String} {f : String → ContextM β}
    (hf : Fixes env s (f (nextSlot c name)) (advance c name)) :
    Fixes env s (TaskContext.nextCheckpointName name >>= f) c := by
  intro w hc
  rw [safe_context_bind, safe_nextCheckpointName]
  exact ⟨.refl s w, hf w hc⟩

variable (henv : ∀ w call r t, env w call r t → durable w call r t)

include henv

lemma of_spares {m : ContextM α} (h : Spares s m c) : Fixes env s m c := by
  intro w hc
  apply ((h w).restrict henv).mono
  · exact fun t ht => .of_eq ht.1
  · exact fun r t ht hr => hr.cachedAt ht hc

lemma lift_bind {x : Async α} {f : α → ContextM β} (hx : Keeps s x)
    (hf : ∀ a, Fixes env s (f a) c) : Fixes env s (liftM x >>= f) c := by
  intro w hc
  rw [safe_context_bind, safe_lift]
  apply ((hx w).restrict henv).mono (fun _ ht => .of_eq ht.1)
  rintro (err | a) t ht -
  · exact ⟨.of_eq ht.1, .of_eq ht.1, fun v hv => ht.1.trans (hc v hv)⟩
  · have hct : CachedAt c t.store s := fun v hv => ht.1.trans (hc v hv)
    have hk : Kept s w t := .of_eq ht.1
    exact ⟨hk, (hf a t hct).mono (fun _ h => hk.trans h) fun _ _ _ h => h⟩

lemma lookup_bind {f : Option Json → ContextM β} (hsome : ∀ v d, Fixes env s (f (some v)) d)
    (hnone : ∀ d, Fills env s (f none) d) :
    Fixes env s (TaskContext.lookupCheckpoint s >>= f) c := by
  intro w hc
  rw [safe_context_bind]
  apply ((lookupCheckpoint_safe s hc).restrict henv).mono
  · exact fun t ht => .of_eq (congrFun ht.1 s)
  rintro ⟨r, d⟩ t ⟨ht, -⟩ ⟨hre, hr, -⟩
  have hd : CachedAt d t.store s := ht ▸ hre.cachedAt hc
  cases r with
  | error err => exact ⟨.of_eq (congrFun ht s), hd⟩
  | ok found =>
    have hfound := hr found rfl
    cases found with
    | some v =>
      apply (hsome v d t hd).mono
      · exact fun u hu => (Kept.of_eq (congrFun ht s)).trans hu
      · exact fun _ _ _ h => h
    | none =>
      apply (hnone d t (ht ▸ hfound.symm) hd).mono
      · intro u _ j hj
        rw [hj] at hfound
        cases hfound
      · exact fun _ _ _ h => h

end Fixes

namespace Fills

variable (henv : ∀ w call r t, env w call r t → durable w call r t)

include henv

lemma bind {m : ContextM α} {f : α → ContextM β} (hm : Spares s m c)
    (hf : ∀ a d, Fills env s (f a) d) : Fills env s (m >>= f) c := by
  intro w hn hc
  rw [safe_context_bind]
  apply ((hm w).restrict henv).mono (fun _ _ => trivial)
  rintro ⟨err | a, d⟩ t ht hd
  · exact ⟨trivial, hd.cachedAt ht hc⟩
  · exact hf a d t (ht.1.trans hn) (hd.cachedAt ht hc)

lemma persist_bind {v : Json} {f : Unit → ContextM β} (hf : ∀ a d, Fixes env s (f a) d) :
    Fills env s (TaskContext.persistCheckpoint s v >>= f) c := by
  intro w hn hc
  have hnone : ∀ x, c.checkpointCache s ≠ some x := by
    intro x hx
    have hw := hc x hx
    rw [hn] at hw
    cases hw
  rw [safe_context_bind]
  apply ((persistCheckpoint_safe s v).restrict henv).mono (fun _ _ => trivial)
  rintro ⟨r, d⟩ t - (⟨rfl, ht, rfl⟩ | ⟨err, hr, -⟩)
  · apply (hf () _ t _).mono (fun _ _ => trivial) fun _ _ _ h => h
    intro x hx
    have hvx : v = x := by simpa [withCache] using hx
    rw [ht, Function.update_self, hvx]
  · cases hr
    exact ⟨trivial, fun x hx => absurd hx (hnone x)⟩

end Fills

variable {T : Type} {name : String} (henv : ∀ w call r t, env w call r t → durable w call r t)

include henv

lemma beginStep_fixes (serde : Serde T) (hslot : nextSlot c name = s)
    {f : StepHandle T → ContextM β} (hdone : ∀ a d, Fixes env s (f ⟨name, s, true, some a⟩) d)
    (hfresh : ∀ d, Fills env s (f ⟨name, s, false, none⟩) d) :
    Fixes env s (TaskContext.beginStep serde name >>= f) c := by
  rw [TaskContext.beginStep, context_bind_assoc]
  apply Fixes.nextName_bind
  rw [hslot, context_bind_assoc]
  apply Fixes.lookup_bind henv
  · intro v d
    dsimp only
    rw [context_bind_assoc]
    exact .bind (.of_spares henv (.lift (.ofResult _))) hdone
  · exact hfresh

end Fixes

section Operation

variable {T : Type} {name : String} {c : TaskContext}
  (henv : ∀ w call r t, env w call r t → durable w call r t)

include henv

lemma saved_fills (serde : Serde T) (value : T) (c : TaskContext) :
    Fills env s (saved serde s value) c := by
  rw [saved]
  apply Fills.bind henv (.lift (.ofResult _))
  exact fun v d => .persist_bind henv fun _ _ => .of_spares henv (.pure _)

lemma step_fixes (serde : Serde T) (hslot : nextSlot c name = s) :
    Fixes env s (TaskContext.step serde name) c := by
  rw [TaskContext.step]
  apply beginStep_fixes henv serde hslot
  · intro a d
    rw [if_pos rfl]
    exact .of_spares henv (.lift (.ofResult _))
  · intro d
    rw [if_neg (by simp)]
    apply Fills.bind henv (.lift (.closure _))
    intro value e
    rw [completeStep_fresh]
    exact saved_fills henv serde value e

lemma pair_fixes (serde : Serde T) (turns : ℕ) (hslot : nextSlot c name = s) :
    Fixes env s ((ReplayOp.pair serde name).run turns) c := by
  apply beginStep_fixes henv serde hslot
  · intro a d
    apply Fixes.bind (.of_spares henv (.lift (.supply _)))
    intro value e
    rw [completeStep_done]
    exact .of_spares henv (.pure a)
  · intro d
    apply Fills.bind henv (.lift (.supply _))
    intro value e
    rw [completeStep_fresh]
    exact saved_fills henv serde value e

lemma sleepUntilAtCurrentTime_fixes (wakeAt now : DateTime) (hslot : nextSlot c name = s) :
    Fixes env s (TaskContext.sleepUntilAtCurrentTime chrono name wakeAt now) c := by
  rw [TaskContext.sleepUntilAtCurrentTime]
  apply Fixes.nextName_bind
  rw [hslot]
  apply Fixes.lookup_bind henv
  · intro v d
    apply Fixes.bind (.of_spares henv (.lift (.ofResult _)))
    exact fun actual _ => .of_spares henv ((sparing s).wake trivial now actual)
  · intro d
    apply Fills.bind henv (.lift (.ofResult _))
    intro v e
    apply Fills.persist_bind henv
    exact fun _ _ => .of_spares henv ((sparing s).wake trivial now _)

lemma awaitTaskResult_fixes (turns : ℕ) (taskId : Uuid) (options : AwaitTaskResultOptions)
    (hslot : nextSlot c (ReplayOp.awaitTaskResult taskId options).name = s) :
    Fixes env s (TaskContext.awaitTaskResult turns taskId options) c := by
  have hname : nextSlot c (options.stepName.getD s!"$awaitTaskResult:{taskId.toString}") = s :=
    hslot
  rw [TaskContext.awaitTaskResult]
  apply Fixes.context_bind
  apply Fixes.lift_bind henv (.ofResult _)
  intro _
  split
  · exact .of_spares henv (.throw _)
  · apply Fixes.nextName_bind
    rw [hname]
    apply Fixes.lookup_bind henv
    · exact fun v d => .of_spares henv (.lift (.ofResult _))
    · intro d
      apply Fills.bind henv (.lift .now)
      intro now e
      apply Fills.bind henv
      · apply Spares.lift
        apply (sparing s).futures.awaitTaskResultWithBackoff
        · exact (sparing s).passive (.getTaskResult _ taskId) trivial
        · exact (sparing s).futures.heartbeatBeforeSleep ((sparing s).beat trivial)
      · intro snapshot e
        apply Fills.bind henv (.lift (.ofResult _))
        intro v e
        exact .persist_bind henv fun _ _ => .of_spares henv (.pure _)

lemma replayOp_fixes {op : ReplayOp} (turns : ℕ) (h : nextSlot c op.name = s) :
    Fixes env s (op.run turns) c := by
  cases op with
  | step serde name => exact step_fixes henv serde h
  | pair serde name => exact pair_fixes henv serde turns h
  | awaitTaskResult taskId options => exact awaitTaskResult_fixes henv turns taskId options h

lemma taskOp_fixes {op : TaskOp} (turns : ℕ) (hwait : op.IsWait → nextSlot c op.name ≠ s) :
    Fixes env s (op.run chrono turns) c := by
  by_cases h : nextSlot c op.name = s
  · cases op with
    | replays op => exact replayOp_fixes henv turns h
    | sleepFor name duration =>
      rw [TaskOp.run, TaskContext.sleepFor]
      cases chronoFromStd duration with
      | none => exact .of_spares henv (.throw _)
      | some delta =>
        apply Fixes.lift_bind henv
        · exact .query trivial
        intro now
        cases now.checkedAdd delta with
        | none => exact .of_spares henv (.lift (.panic _))
        | some wakeAt => exact sleepUntilAtCurrentTime_fixes henv wakeAt now h
    | sleepUntil name wakeAt =>
      apply Fixes.lift_bind henv
      · exact .query trivial
      exact fun now => sleepUntilAtCurrentTime_fixes henv wakeAt now h
    | awaitEvent serde eventName options =>
      have hblank : isBlank eventName = true := by
        by_contra hb
        exact hwait (by simpa [TaskOp.IsWait] using hb) h
      rw [TaskOp.run, TaskContext.awaitEventWithOptions, if_pos hblank]
      exact .of_spares henv (.throw _)
  · exact .of_spares henv (taskOp_spares chrono turns op h)

end Operation

structure Visited (env : Env Call Answer World) (chrono : Serde DateTime) (s : String)
    (v : OpVisit) : Prop where
  run : ∃ turns, Run env ((v.op.run chrono turns).run v.context) v.before v.rest v.after
  cached : CachedAt v.context v.before.store s

lemma Performs.ordered {p : TaskHandler R} {c : TaskContext}
    (h : Performs env chrono p c w visits u) (hc : CachedAt c w.store s)
    (hop : ∀ v ∈ visits, ∀ turns, Fixes env s (v.op.run chrono turns) v.context) :
    Ordered s w visits u ∧ ∀ v ∈ visits, Visited env chrono s v := by
  induction h with
  | stop p c w => exact ⟨.nil (.refl s w), by simp⟩
  | @cut op next c w t turns q hr =>
    have hw := hop _ List.mem_cons_self turns w hc
    refine ⟨.cons (.refl s w) (hw.cut hr) (.nil (.refl s t)), ?_⟩
    simpa using ⟨⟨turns, hr⟩, hc⟩
  | @next op next c d w t u turns r visits hr _ ih =>
    have hw := hop _ List.mem_cons_self turns w hc
    obtain ⟨ho, hv⟩ := ih (hw.finish hr) fun v hv => hop v (List.mem_cons_of_mem _ hv)
    refine ⟨.cons (.refl s w) (hw.cut hr) ho, ?_⟩
    intro v hmem
    rcases List.mem_cons.mp hmem with rfl | hmem
    · exact ⟨⟨turns, hr⟩, hc⟩
    · exact hv v hmem

theorem History.ordered {queueName : String} {claims : ClaimedTask → Prop}
    {handlers : TaskHandler R → Prop} {executions : List (List OpVisit)}
    (h : History env chrono queueName claims handlers executions w)
    (henv : ∀ w call r t, env w call r t → durable w call r t)
    (hop : ∀ v ∈ executions.flatten, ∀ turns, Fixes env s (v.op.run chrono turns) v.context) :
    Ordered s World.empty executions.flatten w ∧
      ∀ v ∈ executions.flatten, Visited env chrono s v := by
  induction h with
  | start => exact ⟨.nil (.refl s _), by simp⟩
  | unready _ _ hr ih =>
    simp only [List.flatten_append, List.flatten_singleton, List.append_nil] at hop ⊢
    obtain ⟨ho, hv⟩ := ih hop
    have hstore := (taskContext_safe _ _ _ _ _).cut (hr.mono henv)
    have hnil := ho.append (.nil (.of_eq (congrFun hstore s)))
    exact ⟨by simpa using hnil, hv⟩
  | @next executions w t u task _ _ c visits handler _ _ hr _ hp ih =>
    simp only [List.flatten_append, List.flatten_singleton] at hop ⊢
    obtain ⟨ho, hv⟩ := ih fun v hmem => hop v (List.mem_append_left _ hmem)
    have hnew := hr.mono henv
    have hstore := (taskContext_safe _ _ _ _ _).cut hnew
    have hc := ((taskContext_safe _ _ _ _ _).finish hnew c rfl).1 s
    obtain ⟨ho', hv'⟩ := hp.ordered hc fun v hmem => hop v (List.mem_append_right _ hmem)
    refine ⟨ho.append (ho'.prepend (.of_eq (congrFun hstore s))), ?_⟩
    intro v hmem
    rcases List.mem_append.mp hmem with hmem | hmem
    · exact hv v hmem
    · exact hv' v hmem
  | @emitted executions w v payload _ _ _ hn ih =>
    obtain ⟨ho, hv⟩ := ih hop
    have hk : Kept s w { w with store := Function.update w.store v.slot (some payload) } := by
      intro j hj
      have hs : s ≠ v.slot := by
        rintro rfl
        simp [hn] at hj
      exact (Function.update_of_ne hs _ _).trans hj
    have hnil := ho.append (.nil hk)
    exact ⟨by simpa using hnil, hv⟩

end AbsurdSdk.Durability
