import Mathlib.Tactic
import Mathlib.Data.List.TakeWhile

/-! The keyword/value syntax of connection strings: pairs of a keyword and a value with an equals sign
between them, separated by white space; a value may stand in single quotes, and a backslash makes the
next character stand for itself. -/

namespace AbsurdSdk.Syntax

/-- A text without `stop` but behind a backslash, and the value it stands for. -/
inductive Escaped (stop : Char → Bool) : List Char → List Char → Prop
  | nil : Escaped stop [] []
  | escape {s v : List Char} (c : Char) :
      Escaped stop s v → Escaped stop ('\\' :: c :: s) (c :: v)
  | plain {s v : List Char} {c : Char} :
      c ≠ '\\' → stop c = false → Escaped stop s v → Escaped stop (c :: s) (c :: v)

def scan (stop : Char → Bool) : List Char → List Char × List Char
  | [] => ([], [])
  | '\\' :: [] => ([], [])
  | '\\' :: c :: s => (c :: (scan stop s).1, (scan stop s).2)
  | c :: s => if stop c then ([], c :: s) else (c :: (scan stop s).1, (scan stop s).2)

section Scan

variable {stop : Char → Bool} {s v rest : List Char} {c : Char}

lemma scan_cons (hc : c ≠ '\\') : scan stop (c :: s) =
    if stop c then ([], c :: s) else (c :: (scan stop s).1, (scan stop s).2) := by
  rw [scan.eq_def]
  split
  · contradiction
  · rename_i h
    exact absurd (List.cons.inj h).1 hc
  · rename_i h
    exact absurd (List.cons.inj h).1 hc
  · rename_i h
    obtain ⟨rfl, rfl⟩ := List.cons.inj h
    rfl

lemma scan_escaped (h : Escaped stop s v)
    (hrest : ∀ c ∈ rest.head?, c ≠ '\\' ∧ stop c = true) : scan stop (s ++ rest) = (v, rest) := by
  induction h with
  | nil =>
    cases rest with
    | nil => rfl
    | cons c rest =>
      obtain ⟨hc, hstop⟩ := hrest c rfl
      rw [List.nil_append, scan_cons hc, if_pos hstop]
  | escape c _ ih =>
    rw [List.cons_append, List.cons_append, scan, ih]
  | plain hc hstop _ ih =>
    rw [List.cons_append, scan_cons hc, hstop, ih]
    rfl

lemma scan_cut (h : Escaped stop s v) : scan stop (s ++ ['\\']) = (v, []) := by
  induction h with
  | nil => rfl
  | escape c _ ih =>
    rw [List.cons_append, List.cons_append, scan, ih]
  | plain hc hstop _ ih =>
    rw [List.cons_append, scan_cons hc, hstop, ih]
    rfl

lemma unescaped (hnil : c = '\\' → s = [] → False)
    (hcons : ∀ d t, c = '\\' → s = d :: t → False) : c ≠ '\\' := by
  rintro rfl
  cases s with
  | nil => exact hnil rfl rfl
  | cons d s => exact hcons d s rfl rfl

lemma scan_cases (stop : Char → Bool) (s : List Char) : ∃ t, Escaped stop t (scan stop s).1 ∧
    ((s = t ++ (scan stop s).2 ∧ ∀ c ∈ (scan stop s).2.head?, stop c = true) ∨
      s = t ++ ['\\'] ∧ (scan stop s).2 = []) := by
  induction s using scan.induct stop with
  | case1 => exact ⟨[], .nil, Or.inl ⟨rfl, nofun⟩⟩
  | case2 => exact ⟨[], .nil, Or.inr ⟨rfl, rfl⟩⟩
  | case3 c s ih =>
    obtain ⟨t, ht, hs⟩ := ih
    refine ⟨'\\' :: c :: t, .escape c ht, ?_⟩
    rw [scan]
    rcases hs with ⟨hs, hrest⟩ | ⟨hs, hrest⟩
    · refine Or.inl ⟨?_, hrest⟩
      rw [List.cons_append, List.cons_append, ← hs]
    · refine Or.inr ⟨?_, hrest⟩
      rw [hs]
      rfl
  | case4 c s hnil hcons hstop =>
    have hc := unescaped hnil hcons
    rw [scan_cons hc, if_pos hstop]
    refine ⟨[], .nil, Or.inl ⟨rfl, ?_⟩⟩
    rintro d ⟨⟩
    exact hstop
  | case5 c s hnil hcons hstop ih =>
    have hc := unescaped hnil hcons
    obtain ⟨t, ht, hs⟩ := ih
    rw [scan_cons hc, if_neg hstop]
    refine ⟨c :: t, .plain hc (by simpa using hstop) ht, ?_⟩
    rcases hs with ⟨hs, hrest⟩ | ⟨hs, hrest⟩
    · refine Or.inl ⟨?_, hrest⟩
      rw [List.cons_append, ← hs]
    · refine Or.inr ⟨?_, hrest⟩
      rw [hs]
      rfl

end Scan

/-- The characters with a meaning of their own are no white space. -/
structure Separates (space : Char → Bool) : Prop where
  backslash : space '\\' = false
  quote : space '\'' = false
  equals : space '=' = false

/-- The text begins with the value `v`, behind which `rest` is left: in quotes, or up to white space or
the end, where a last backslash is dropped. -/
inductive ReadsValue (space : Char → Bool) : List Char → List Char → List Char → Prop
  | quoted {s v rest : List Char} : Escaped (· == '\'') s v →
      ReadsValue space ('\'' :: (s ++ '\'' :: rest)) v rest
  | plain {s v rest : List Char} : Escaped space s v → v ≠ [] → s.head? ≠ some '\'' →
      (∀ c ∈ rest.head?, space c = true) → ReadsValue space (s ++ rest) v rest
  | cut {s v : List Char} : Escaped space s v → v ≠ [] → s.head? ≠ some '\'' →
      ReadsValue space (s ++ ['\\']) v []

def readValue (space : Char → Bool) : List Char → Option (List Char × List Char)
  | '\'' :: s =>
    match scan (· == '\'') s with
    | (v, _ :: rest) => some (v, rest)
    | (_, []) => none
  | s =>
    match scan space s with
    | ([], _) => none
    | (v, rest) => some (v, rest)

section Value

variable {space : Char → Bool} {s v rest : List Char}

lemma readValue_plain (h : s.head? ≠ some '\'') : readValue space s =
    match scan space s with
    | ([], _) => none
    | (v, rest) => some (v, rest) := by
  rw [readValue.eq_def]
  split
  · exact absurd rfl h
  · rfl

lemma readValue_some (hs : s.head? ≠ some '\'') (h : scan space s = (v, rest)) (hv : v ≠ []) :
    readValue space s = some (v, rest) := by
  rw [readValue_plain hs, h]
  cases v with
  | nil => exact absurd rfl hv
  | cons c v => rfl

lemma Escaped.ne_nil {stop : Char → Bool} (h : Escaped stop s v) (hv : v ≠ []) : s ≠ [] := by
  rintro rfl
  cases h
  exact hv rfl

lemma readValue_sound (h : readValue space s = some (v, rest)) : ReadsValue space s v rest := by
  by_cases hhead : s.head? = some '\''
  · obtain ⟨s, rfl⟩ := List.head?_eq_some_iff.mp hhead
    obtain ⟨t, ht, hcase⟩ := scan_cases (· == '\'') s
    rw [readValue] at h
    split at h
    · rename_i v' c rest' hscan
      rw [hscan] at ht hcase
      cases h
      rcases hcase with ⟨rfl, hstop⟩ | ⟨-, hnil⟩
      · obtain rfl : c = '\'' := by simpa using hstop c rfl
        exact .quoted ht
      · cases hnil
    · cases h
  · obtain ⟨t, ht, hcase⟩ := scan_cases space s
    rw [readValue_plain hhead] at h
    split at h
    · cases h
    · rename_i v' rest' hv hscan
      rw [hscan] at ht hcase
      cases h
      have hv' : v ≠ [] := fun hnil => hv hnil
      rcases hcase with ⟨rfl, hstop⟩ | ⟨rfl, hnil⟩
      · rw [List.head?_append_of_ne_nil _ (ht.ne_nil hv')] at hhead
        exact .plain ht hv' hhead hstop
      · cases hnil
        rw [List.head?_append_of_ne_nil _ (ht.ne_nil hv')] at hhead
        exact .cut ht hv' hhead

lemma readValue_complete (hspace : Separates space) (h : ReadsValue space s v rest) :
    readValue space s = some (v, rest) := by
  cases h with
  | quoted ht =>
    rw [readValue, scan_escaped ht]
    rintro c ⟨⟩
    exact ⟨by decide, rfl⟩
  | plain ht hv hhead hstop =>
    apply readValue_some
    · rwa [List.head?_append_of_ne_nil _ (ht.ne_nil hv)]
    · apply scan_escaped ht
      intro c hc
      refine ⟨?_, hstop c hc⟩
      rintro rfl
      have hslash := hstop _ hc
      rw [hspace.backslash] at hslash
      cases hslash
    · exact hv
  | cut ht hv hhead =>
    apply readValue_some
    · rwa [List.head?_append_of_ne_nil _ (ht.ne_nil hv)]
    · exact scan_cut ht
    · exact hv

lemma ReadsValue.head (hspace : Separates space) (h : ReadsValue space s v rest) :
    ∀ c ∈ s.head?, space c = false := by
  have hescaped : ∀ {t}, Escaped space t v → v ≠ [] → ∀ c ∈ t.head?, space c = false := by
    intro t ht hv
    cases ht with
    | nil => exact absurd rfl hv
    | escape c _ =>
      rintro c ⟨⟩
      exact hspace.backslash
    | plain _ hc _ =>
      rintro c ⟨⟩
      exact hc
  cases h with
  | quoted _ =>
    rintro c ⟨⟩
    exact hspace.quote
  | plain ht hv _ _ | cut ht hv _ =>
    rw [List.head?_append_of_ne_nil _ (ht.ne_nil hv)]
    exact hescaped ht hv

lemma ReadsValue.shorter (h : ReadsValue space s v rest) : rest.length < s.length := by
  cases h with
  | quoted _ =>
    simp only [List.length_cons, List.length_append]
    omega
  | plain ht hv _ _ =>
    have hpos := List.length_pos_iff.mpr (ht.ne_nil hv)
    rw [List.length_append]
    omega
  | cut _ _ _ => simp

end Value

def IsKeyword (space : Char → Bool) (keyword : List Char) : Prop :=
  keyword ≠ [] ∧ ∀ c ∈ keyword, (!space c && c != '=') = true

inductive Reads (space : Char → Bool) : List Char → List (List Char × List Char) → Prop
  | blank {s : List Char} : (∀ c ∈ s, space c = true) → Reads space s []
  | pair {before keyword after between text v rest : List Char}
      {ps : List (List Char × List Char)} : (∀ c ∈ before, space c = true) →
      IsKeyword space keyword → (∀ c ∈ after, space c = true) →
      (∀ c ∈ between, space c = true) → ReadsValue space text v rest → Reads space rest ps →
      Reads space (before ++ (keyword ++ (after ++ '=' :: (between ++ text)))) ((keyword, v) :: ps)

def readPair (space : Char → Bool) (s : List Char) :
    Option ((List Char × List Char) × List Char) :=
  let keyword := s.takeWhile fun c => !space c && c != '='
  match (s.dropWhile fun c => !space c && c != '=').dropWhile space with
  | '=' :: text =>
    if keyword = [] then none
    else (readValue space (text.dropWhile space)).map fun r => ((keyword, r.1), r.2)
  | _ => none

section Span

variable {α : Type} {p : α → Bool} {s t : List α}

lemma dropWhile_span (hs : ∀ c ∈ s, p c = true) (ht : ∀ c ∈ t.head?, p c = false) :
    (s ++ t).dropWhile p = t := by
  rw [List.dropWhile_append_of_pos hs]
  cases t with
  | nil => rfl
  | cons c t => rw [List.dropWhile_cons_of_neg (by simp [ht c rfl])]

lemma takeWhile_span (hs : ∀ c ∈ s, p c = true) (ht : ∀ c ∈ t.head?, p c = false) :
    (s ++ t).takeWhile p = s := by
  rw [List.takeWhile_append_of_pos hs]
  cases t with
  | nil => simp
  | cons c t => rw [List.takeWhile_cons_of_neg (by simp [ht c rfl]), List.append_nil]

end Span

section Pair

variable {space : Char → Bool} {s keyword v rest : List Char}

lemma readPair_sound (h : readPair space s = some ((keyword, v), rest)) : ∃ after between text,
    s = keyword ++ (after ++ '=' :: (between ++ text)) ∧ IsKeyword space keyword ∧
      (∀ c ∈ after, space c = true) ∧ (∀ c ∈ between, space c = true) ∧
      ReadsValue space text v rest := by
  rw [readPair] at h
  split at h
  · rename_i text htext
    split at h
    · cases h
    · rename_i hne
      obtain ⟨r, hv, hpair⟩ := Option.map_eq_some_iff.mp h
      cases hpair
      have hblank : ∀ (t : List Char), ∀ c ∈ t.takeWhile space, space c = true :=
        fun t c hc => List.mem_takeWhile_imp hc
      refine ⟨(s.dropWhile fun c => !space c && c != '=').takeWhile space, text.takeWhile space,
        text.dropWhile space, ?_, ⟨hne, fun c hc => ?_⟩, hblank _, hblank _, readValue_sound hv⟩
      · rw [List.takeWhile_append_dropWhile, ← htext, List.takeWhile_append_dropWhile,
          List.takeWhile_append_dropWhile]
      · exact List.mem_takeWhile_imp (p := fun c => !space c && c != '=') hc
  · cases h

lemma readPair_complete {after between text : List Char} (hspace : Separates space)
    (hk : IsKeyword space keyword) (hafter : ∀ c ∈ after, space c = true)
    (hbetween : ∀ c ∈ between, space c = true) (hv : ReadsValue space text v rest) :
    readPair space (keyword ++ (after ++ '=' :: (between ++ text))) =
      some ((keyword, v), rest) := by
  obtain ⟨hne, hkeyword⟩ := hk
  have hstop : ∀ c ∈ (after ++ '=' :: (between ++ text)).head?,
      (!space c && c != '=') = false := by
    intro c hc
    cases after with
    | nil =>
      cases hc
      simp
    | cons d after =>
      obtain rfl := Option.some.inj hc
      simp [hafter d List.mem_cons_self]
  have hequals : ∀ c ∈ ('=' :: (between ++ text)).head?, space c = false := by
    rintro c ⟨⟩
    exact hspace.equals
  rw [readPair, takeWhile_span hkeyword hstop, dropWhile_span hkeyword hstop,
    dropWhile_span hafter hequals]
  change (if keyword = [] then none else Option.map _ _) = _
  rw [if_neg hne, dropWhile_span hbetween (hv.head hspace), readValue_complete hspace hv]
  rfl

lemma readPair_shorter (h : readPair space s = some ((keyword, v), rest)) :
    rest.length < s.length := by
  obtain ⟨after, between, text, rfl, -, -, -, hv⟩ := readPair_sound h
  have hlt := hv.shorter
  simp only [List.length_append, List.length_cons]
  omega

end Pair

def readPairs (space : Char → Bool) (s : List Char) : Option (List (List Char × List Char)) :=
  if s.all space then some []
  else
    match _h : readPair space (s.dropWhile space) with
    | none => none
    | some (p, rest) => (readPairs space rest).map (p :: ·)
termination_by s.length
decreasing_by
  have hshorter := readPair_shorter _h
  have hdrop := List.length_dropWhile_le space s
  omega

section Pairs

variable {space : Char → Bool} {s : List Char} {ps qs : List (List Char × List Char)}

lemma IsKeyword.head {keyword : List Char} (h : IsKeyword space keyword) (t : List Char) :
    ∀ c ∈ (keyword ++ t).head?, space c = false := by
  intro c hc
  rw [List.head?_append_of_ne_nil _ h.1] at hc
  have hkey := h.2 c (List.mem_of_mem_head? hc)
  simp only [Bool.and_eq_true, Bool.not_eq_true'] at hkey
  exact hkey.1

lemma readPairs_sound (h : readPairs space s = some ps) : Reads space s ps := by
  induction s using readPairs.induct space generalizing ps with
  | case1 s hblank =>
    rw [readPairs, if_pos hblank] at h
    cases h
    exact .blank (List.all_eq_true.mp hblank)
  | case2 s hblank hnone =>
    rw [readPairs, if_neg hblank] at h
    split at h
    · cases h
    · rename_i hsome
      rw [hnone] at hsome
      cases hsome
  | case3 s hblank p rest hsome ih =>
    rw [readPairs, if_neg hblank] at h
    split at h
    · cases h
    · rename_i p' rest' hsome'
      obtain ⟨rfl, rfl⟩ := Prod.mk.inj (Option.some.inj (hsome.symm.trans hsome'))
      obtain ⟨qs, hqs, rfl⟩ := Option.map_eq_some_iff.mp h
      obtain ⟨after, between, text, hsplit, hk, hafter, hbetween, hv⟩ := readPair_sound hsome
      rw [← List.takeWhile_append_dropWhile (p := space) (l := s), hsplit]
      exact .pair (fun c hc => List.mem_takeWhile_imp hc) hk hafter hbetween hv (ih hqs)

lemma readPairs_complete (hspace : Separates space) (h : Reads space s ps) :
    readPairs space s = some ps := by
  induction h with
  | blank hblank => rw [readPairs, if_pos (List.all_eq_true.mpr hblank)]
  | @pair before keyword after between text v rest ps hbefore hk hafter hbetween hv _ ih =>
    have hsome : readPair space ((before ++ (keyword ++ (after ++ '=' :: (between ++ text)))).dropWhile
        space) = some ((keyword, v), rest) := by
      rw [dropWhile_span hbefore (hk.head _)]
      exact readPair_complete hspace hk hafter hbetween hv
    have hblank : ¬ (before ++ (keyword ++ (after ++ '=' :: (between ++ text)))).all space := by
      intro hall
      have hequals := List.all_eq_true.mp hall '=' (by simp)
      rw [hspace.equals] at hequals
      cases hequals
    rw [readPairs, if_neg hblank]
    split
    · rename_i hnone
      rw [hsome] at hnone
      cases hnone
    · rename_i p rest' hsome'
      obtain ⟨rfl, rfl⟩ := Prod.mk.inj (Option.some.inj (hsome.symm.trans hsome'))
      rw [ih]
      rfl

theorem readPairs_iff (hspace : Separates space) : readPairs space s = some ps ↔ Reads space s ps :=
  ⟨readPairs_sound, readPairs_complete hspace⟩

lemma Reads.unique (hspace : Separates space) (hp : Reads space s ps) (hq : Reads space s qs) :
    ps = qs :=
  Option.some.inj (((readPairs_iff hspace).mpr hp).symm.trans ((readPairs_iff hspace).mpr hq))

end Pairs

/-- A text that is read as it stands, without quotes or escapes. -/
def Bare (space : Char → Bool) (text : List Char) : Prop :=
  text.head? ≠ some '\'' ∧ ∀ c ∈ text, c ≠ '\\' ∧ space c = false

section Bare

variable {stop space : Char → Bool} {s v rest keyword text : List Char}

lemma Escaped.length_le (h : Escaped stop s v) : v.length ≤ s.length := by
  induction h with
  | nil => exact le_rfl
  | escape c _ ih =>
    simp only [List.length_cons]
    omega
  | plain _ _ _ ih => exact Nat.succ_le_succ ih

lemma Escaped.unchanged (h : Escaped stop s v) (hlen : s.length ≤ v.length) :
    v = s ∧ ∀ c ∈ s, c ≠ '\\' ∧ stop c = false := by
  induction h with
  | nil => exact ⟨rfl, nofun⟩
  | escape c h _ =>
    have hle := h.length_le
    simp only [List.length_cons] at hlen
    omega
  | plain hc hstop _ ih =>
    obtain ⟨rfl, hall⟩ := ih (Nat.le_of_succ_le_succ hlen)
    exact ⟨rfl, List.forall_mem_cons.mpr ⟨⟨hc, hstop⟩, hall⟩⟩

lemma escaped_self (h : ∀ c ∈ s, c ≠ '\\' ∧ stop c = false) : Escaped stop s s := by
  induction s with
  | nil => exact .nil
  | cons c s ih =>
    obtain ⟨⟨hc, hstop⟩, hs⟩ := List.forall_mem_cons.mp h
    exact .plain hc hstop (ih hs)

lemma ReadsValue.bare (h : ReadsValue space s v rest) (hlen : s.length ≤ v.length) :
    v = s ∧ Bare space s := by
  cases h with
  | quoted ht =>
    have hle := ht.length_le
    simp only [List.length_cons, List.length_append] at hlen
    omega
  | @plain t _ _ ht _ hhead _ =>
    have hle := ht.length_le
    rw [List.length_append] at hlen
    obtain rfl : rest = [] := List.length_eq_zero_iff.mp (by omega)
    obtain ⟨rfl, hall⟩ := ht.unchanged (by omega)
    rw [List.append_nil]
    exact ⟨rfl, hhead, hall⟩
  | cut ht _ _ =>
    have hle := ht.length_le
    rw [List.length_append, List.length_singleton] at hlen
    omega

lemma Reads.assign (hk : IsKeyword space keyword) (hv : ReadsValue space text v []) :
    Reads space (keyword ++ '=' :: text) [(keyword, v)] := by
  have hpair : Reads space ([] ++ (keyword ++ ([] ++ '=' :: ([] ++ text)))) [(keyword, v)] :=
    .pair nofun hk nofun nofun hv (.blank nofun)
  simpa using hpair

theorem reads_assign_iff (hspace : Separates space) (hk : IsKeyword space keyword)
    (hne : text ≠ []) :
    Reads space (keyword ++ '=' :: text) [(keyword, text)] ↔ Bare space text := by
  constructor
  · intro h
    generalize hs : keyword ++ '=' :: text = s at h
    cases h with
    | @pair before _ after between value _ rest _ hbefore _ hafter _ hv _ =>
      obtain rfl : before = [] := by
        cases before with
        | nil => rfl
        | cons c before =>
          have hhead := hk.head ('=' :: text) c (by rw [hs]; rfl)
          rw [hbefore c List.mem_cons_self] at hhead
          cases hhead
      have hrest := List.append_cancel_left hs
      obtain rfl : after = [] := by
        cases after with
        | nil => rfl
        | cons c after =>
          obtain ⟨rfl, -⟩ := List.cons.inj hrest
          have hequals := hafter '=' List.mem_cons_self
          rw [hspace.equals] at hequals
          cases hequals
      obtain ⟨-, rfl⟩ := List.cons.inj hrest
      have hlen : value.length ≤ (between ++ value).length := by
        rw [List.length_append]
        omega
      obtain ⟨heq, hbare⟩ := hv.bare hlen
      rw [heq]
      exact hbare
  · rintro ⟨hhead, hall⟩
    have hvalue : ReadsValue space (text ++ []) text [] :=
      .plain (escaped_self hall) hne hhead nofun
    rw [List.append_nil] at hvalue
    exact .assign hk hvalue

end Bare

end AbsurdSdk.Syntax
