import AbsurdSdk.Model.Administration
import AbsurdSdk.Syntax.Records
import Mathlib.Data.List.DropRight
import Mathlib.Data.List.TakeWhile

namespace AbsurdSdk.Configuration

open Model Syntax

lemma optionalField_eq {α : Type} (name : String) (value : Option α) (f : α → Json) :
    optionalField name value f = written [(name, value.map f)] := by
  cases value with
  | none => rfl
  | some a => rfl

def policyFields (options : QueuePolicyOptions) : List (String × Option Json) :=
  [("cleanup_limit", options.cleanupLimit.map fun value => .number (.int value.toInt)),
    ("cleanup_ttl", options.cleanupTtl.map .string),
    ("detach_min_age", options.detachMinAge.map .string),
    ("detach_mode", options.detachMode.map fun value => .string value.asStr),
    ("partition_lookahead", options.partitionLookahead.map .string),
    ("partition_lookback", options.partitionLookback.map .string)]

def policyKeys : List String :=
  ["cleanup_limit", "cleanup_ttl", "detach_min_age", "detach_mode", "partition_lookahead",
    "partition_lookback"]

lemma fields_eq (options : QueuePolicyOptions) :
    options.fields = written (policyFields options) := by
  simp only [QueuePolicyOptions.fields, optionalField_eq, ← written_append]
  rfl

lemma nullableField_map {α : Type} {read : Json → Except String α} {f : α → Json}
    (h : ∀ a, read (f a) = .ok a) (hnull : ∀ a, f a ≠ .null) (value : Option α) :
    nullableField read (value.map f) = .ok value := by
  cases value with
  | none => rfl
  | some a =>
    rw [Option.map_some, nullableField, h]
    · rfl
    · exact hnull a

lemma asI32_toInt (n : Int32) : Json.asI32 (.number (.int n.toInt)) = .ok n := by
  rw [Json.asI32, if_pos ⟨n.minValue_le_toInt, n.toInt_le⟩, Int32.ofInt_toInt]

@[simp] lemma asString_string (s : String) : Json.asString (.string s) = .ok s := rfl

lemma structFields_object_bind {α : Type} (names : List String) (fields : List (String × Json))
    (next : List (String × Json) → Except String α) :
    ((Json.object fields).structFields names >>= next) = next fields := rfl

lemma storageMode_fromValue (mode : QueueStorageMode) :
    QueueStorageMode.fromValue (.string mode.asStr) = .ok mode := by
  cases mode with
  | unpartitioned => rfl
  | partitioned => rfl

lemma detachMode_fromValue (mode : QueueDetachMode) :
    QueueDetachMode.fromValue (.string mode.asStr) = .ok mode := by
  cases mode with
  | none => rfl
  | empty => rfl

lemma fromFields_written (options : QueuePolicyOptions) {others : List (String × Option Json)}
    {keys : List String} (hothers : others.map Prod.fst = keys)
    (hnodup : (policyKeys ++ keys).Nodup) :
    QueuePolicyOptions.fromFields (written (policyFields options ++ others)) = .ok options := by
  have hkeys : ((policyFields options ++ others).map Prod.fst).Nodup := by
    rw [List.map_append, hothers]
    exact hnodup
  have hfield {key : String} {value : Option Json} (h : (key, value) ∈ policyFields options) :
      (written (policyFields options ++ others)).lookup key = value :=
    lookup_written hkeys (List.mem_append_left _ h)
  have hstring {key : String} {value : Option String}
      (h : (key, value.map Json.string) ∈ policyFields options) :
      nullableField Json.asString ((written (policyFields options ++ others)).lookup key) =
        .ok value := by
    rw [hfield h]
    exact nullableField_map asString_string (by simp) value
  have hlimit : nullableField Json.asI32
      ((written (policyFields options ++ others)).lookup "cleanup_limit") =
        .ok options.cleanupLimit := by
    rw [hfield (.head _)]
    exact nullableField_map asI32_toInt (by simp) _
  have hmode : nullableField QueueDetachMode.fromValue
      ((written (policyFields options ++ others)).lookup "detach_mode") =
        .ok options.detachMode := by
    rw [hfield (.tail _ (.tail _ (.tail _ (.head _))))]
    exact nullableField_map detachMode_fromValue (by simp) _
  rw [QueuePolicyOptions.fromFields, hlimit, hmode,
    hstring (.tail _ (.tail _ (.tail _ (.tail _ (.head _))))),
    hstring (.tail _ (.tail _ (.tail _ (.tail _ (.tail _ (.head _)))))),
    hstring (.tail _ (.head _)), hstring (.tail _ (.tail _ (.head _)))]
  rfl

lemma policyOptions_lossless : QueuePolicyOptions.serde.Lossless := by
  intro options j h
  cases h
  have hread : QueuePolicyOptions.fromFields (written (policyFields options ++ [])) = .ok options :=
    fromFields_written options rfl (by decide)
  rw [List.append_nil, ← fields_eq] at hread
  exact hread

lemma createOptions_lossless : CreateQueueOptions.serde.Lossless := by
  intro options j h
  cases h
  obtain ⟨policy, mode⟩ := options
  have hnodup : (policyKeys ++ ["storage_mode"]).Nodup := by decide
  have hkeys (value : Option Json) :
      [("storage_mode", value)].map Prod.fst = ["storage_mode"] := rfl
  have hread (value : Option Json) : QueuePolicyOptions.fromFields
      (written (policyFields policy ++ [("storage_mode", value)])) = .ok policy :=
    fromFields_written policy (hkeys value) hnodup
  have hmode (value : Option Json) :
      (written (policyFields policy ++ [("storage_mode", value)])).lookup "storage_mode" =
        value := by
    apply lookup_written
    · rw [List.map_append, hkeys]
      exact hnodup
    · exact List.mem_append_right _ (.head _)
  dsimp only [CreateQueueOptions.serde]
  simp only [fields_eq, optionalField_eq, ← written_append, structFields_object_bind, hread,
    hmode]
  cases mode with
  | unpartitioned => rfl
  | partitioned => rfl

lemma queuePolicy_lossless : QueuePolicy.serde.Lossless := by
  intro policy j h
  cases h
  simp only [QueuePolicy.serde, QueuePolicy.toValue, structFields_object_bind,
    requiredField, bind_pure_comp, List.lookup_cons, String.reduceBEq, asString_string,
    storageMode_fromValue, asI32_toInt, detachMode_fromValue, Except.map_ok]
  rfl

section Names

def Blank (s : String) : Prop := ∀ c ∈ s.toList, isWhitespace c = true

lemma isWhitespace_toLower {c : Char} (h : isWhitespace c = true) : isWhitespace c.toLower = true := by
  have hcase : ¬(c.val ≥ 'A'.val ∧ c.val ≤ 'Z'.val) := by
    rintro ⟨hA, hZ⟩
    rw [ge_iff_le, UInt32.le_iff_toNat_le] at hA
    rw [UInt32.le_iff_toNat_le] at hZ
    have hnat : c.toNat = c.val.toNat := rfl
    simp only [isWhitespace, decide_eq_true_eq, hnat] at h
    change 65 ≤ _ at hA
    change _ ≤ 90 at hZ
    omega
  have hlower : c.toLower = c := dif_neg hcase
  rw [hlower]
  exact h

lemma dropWhile_padded {pre name : List Char} (rest : List Char)
    (hpre : ∀ c ∈ pre, isWhitespace c = true) (hname : ∀ c ∈ name, isWhitespace c = false)
    (hsome : name ≠ []) : (pre ++ (name ++ rest)).dropWhile isWhitespace = name ++ rest := by
  rw [List.dropWhile_append_of_pos hpre]
  cases name with
  | nil => exact absurd rfl hsome
  | cons c cs =>
    rw [List.cons_append, List.dropWhile_cons, hname c (.head _)]
    rfl

lemma trim_padded {pre name post : String} (hpre : Blank pre) (hpost : Blank post)
    (hname : ∀ c ∈ name.toList, isWhitespace c = false) (hsome : name ≠ "") :
    trim (pre ++ name ++ post) = name := by
  have hlist : name.toList ≠ [] := fun h => hsome (String.toList_eq_nil_iff.1 h)
  rw [trim, String.toList_append, String.toList_append, List.append_assoc,
    dropWhile_padded _ hpre hname hlist, List.reverse_append]
  have hback : (post.toList.reverse ++ (name.toList.reverse ++ [])).dropWhile isWhitespace =
      name.toList.reverse ++ [] :=
    dropWhile_padded [] (fun c hc => hpost c (List.mem_reverse.1 hc))
      (fun c hc => hname c (List.mem_reverse.1 hc)) (List.reverse_ne_nil_iff.2 hlist)
  rw [List.append_nil] at hback
  rw [hback, List.reverse_reverse, String.ofList_toList]

lemma trim_split (s : String) : ∃ pre post, s = pre ++ trim s ++ post ∧ Blank pre ∧ Blank post := by
  let rest := s.toList.dropWhile isWhitespace
  refine ⟨String.ofList (s.toList.takeWhile isWhitespace),
    String.ofList (rest.rtakeWhile isWhitespace), ?_, ?_, ?_⟩
  · have hrest : trim s = String.ofList (rest.rdropWhile isWhitespace) := rfl
    rw [hrest, String.append_assoc, ← String.ofList_append, List.rdropWhile_append_rtakeWhile,
      ← String.ofList_append, List.takeWhile_append_dropWhile, String.ofList_toList]
  · intro c hc
    rw [String.toList_ofList] at hc
    exact List.mem_takeWhile_imp hc
  · intro c hc
    rw [String.toList_ofList] at hc
    exact List.mem_rtakeWhile_imp hc

def Names (text name : String) : Prop := ∃ pre cased post, text = pre ++ cased ++ post ∧
  Blank pre ∧ Blank post ∧ toAsciiLowercase cased = name

def Solid (name : String) : Prop := name ≠ "" ∧ name.toList.any isWhitespace = false

lemma names_iff {text name : String} (h : Solid name) :
    toAsciiLowercase (trim text) = name ↔ Names text name := by
  constructor
  · intro he
    obtain ⟨pre, post, hsplit, hpre, hpost⟩ := trim_split text
    exact ⟨pre, trim text, post, hsplit, hpre, hpost, he⟩
  · rintro ⟨pre, cased, post, rfl, hpre, hpost, rfl⟩
    have hcased (c : Char) (hc : c ∈ cased.toList) : isWhitespace c = false := by
      by_contra hw
      have hmem : c.toLower ∈ (toAsciiLowercase cased).toList := by
        rw [toAsciiLowercase, String.toList_ofList]
        exact List.mem_map_of_mem hc
      exact List.any_eq_false.1 h.2 _ hmem (isWhitespace_toLower (Bool.eq_true_of_not_eq_false hw))
    have hsome : cased ≠ "" := by
      rintro rfl
      exact h.1 rfl
    rw [trim_padded hpre hpost hcased hsome]

lemma storageMode_fromStr_iff (text : String) (mode : QueueStorageMode) :
    QueueStorageMode.fromStr text = .ok mode ↔ Names text mode.asStr := by
  have hsolid : Solid mode.asStr := by
    cases mode with
    | unpartitioned => exact ⟨by decide, by decide⟩
    | partitioned => exact ⟨by decide, by decide⟩
  rw [← names_iff hsolid, QueueStorageMode.fromStr]
  constructor
  · intro h
    split at h
    · cases h
      assumption
    · cases h
      assumption
    · cases h
  · intro h
    rw [h]
    cases mode with
    | unpartitioned => rfl
    | partitioned => rfl

lemma detachMode_fromStr_iff (text : String) (mode : QueueDetachMode) :
    QueueDetachMode.fromStr text = .ok mode ↔ Names text mode.asStr := by
  have hsolid : Solid mode.asStr := by
    cases mode with
    | none => exact ⟨by decide, by decide⟩
    | empty => exact ⟨by decide, by decide⟩
  rw [← names_iff hsolid, QueueDetachMode.fromStr]
  constructor
  · intro h
    split at h
    · cases h
      assumption
    · cases h
      assumption
    · cases h
  · intro h
    rw [h]
    cases mode with
    | none => rfl
    | empty => rfl

end Names

def Prints (row : QueuePolicyRow) (policy : QueuePolicy) : Prop :=
  Names row.storageMode policy.storageMode.asStr ∧ Names row.detachMode policy.detachMode.asStr ∧
    policy = { row with storageMode := policy.storageMode, detachMode := policy.detachMode }

lemma row_policy_iff (row : QueuePolicyRow) (policy : QueuePolicy) :
    row.policy = .ok policy ↔ Prints row policy := by
  rw [Prints, ← storageMode_fromStr_iff, ← detachMode_fromStr_iff, QueuePolicyRow.policy]
  cases hstorage : QueueStorageMode.fromStr row.storageMode with
  | error err =>
    constructor
    · intro h
      cases h
    · rintro ⟨hs, -⟩
      cases hs
  | ok storageMode =>
    cases hdetach : QueueDetachMode.fromStr row.detachMode with
    | error err =>
      constructor
      · intro h
        cases h
      · rintro ⟨-, hd, -⟩
        cases hd
    | ok detachMode =>
      constructor
      · intro h
        cases h
        exact ⟨rfl, rfl, rfl⟩
      · rintro ⟨hs, hd, hpolicy⟩
        cases hs
        cases hd
        rw [hpolicy]
        rfl

lemma isEmpty_iff (options : QueuePolicyOptions) :
    options.isEmpty = true ↔ options.toSqlJson = .object [] := by
  rw [QueuePolicyOptions.toSqlJson, Json.object.injEq, fields_eq, written_eq_nil_iff]
  simp only [QueuePolicyOptions.isEmpty, policyFields, List.forall_mem_cons, Option.map_eq_none_iff,
    Bool.and_eq_true, Option.isNone_iff_eq_none]
  tauto

/-- The settings of a queue are read back as they were written; options whose object is empty, and
no others, are not sent; and a row is read as a policy exactly if it prints it. -/
theorem queue_settings_round_trip :
    QueuePolicyOptions.serde.Lossless ∧ CreateQueueOptions.serde.Lossless ∧
      QueuePolicy.serde.Lossless ∧
      (∀ options : QueuePolicyOptions, options.isEmpty = true ↔ options.toSqlJson = .object []) ∧
      ∀ row policy, QueuePolicyRow.policy row = .ok policy ↔ Prints row policy :=
  ⟨policyOptions_lossless, createOptions_lossless, queuePolicy_lossless, isEmpty_iff,
    row_policy_iff⟩

end AbsurdSdk.Configuration
