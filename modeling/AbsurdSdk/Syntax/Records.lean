import Mathlib.Data.List.Basic
import Mathlib.Data.List.Nodup
import Mathlib.Data.Option.Basic
import Mathlib.Tactic.Lemma

/-! Records written as association lists of the fields that have a value. A reader that looks each
field up by its key gets back what was written, absent fields included. -/

namespace AbsurdSdk.Syntax

universe u v

variable {K : Type u} {V : Type v}

def present (field : K × Option V) : Option (K × V) := field.2.map fun value => (field.1, value)

def written (fields : List (K × Option V)) : List (K × V) := fields.filterMap present

@[simp] lemma written_none (key : K) (fields : List (K × Option V)) :
    written ((key, none) :: fields) = written fields := rfl

@[simp] lemma written_some (key : K) (value : V) (fields : List (K × Option V)) :
    written ((key, some value) :: fields) = (key, value) :: written fields := rfl

lemma written_append (fields fields' : List (K × Option V)) :
    written (fields ++ fields') = written fields ++ written fields' := List.filterMap_append

lemma written_eq_nil_iff {fields : List (K × Option V)} :
    written fields = [] ↔ ∀ field ∈ fields, field.2 = none := by
  rw [written, List.filterMap_eq_nil_iff]
  exact forall₂_congr fun field _ => Option.map_eq_none_iff

lemma written_keys_sublist (fields : List (K × Option V)) :
    ((written fields).map Prod.fst).Sublist (fields.map Prod.fst) := by
  induction fields with
  | nil => exact .refl _
  | cons field fields ih =>
    obtain ⟨key, value⟩ := field
    cases value with
    | none => exact ih.cons _
    | some value => exact ih.cons_cons _

variable [BEq K] [LawfulBEq K]

lemma lookup_written_of_notMem {fields : List (K × Option V)} {key : K}
    (h : key ∉ fields.map Prod.fst) : (written fields).lookup key = none := by
  rw [List.lookup_eq_none_iff]
  intro field hfield
  have hmem : field.1 ∈ fields.map Prod.fst :=
    (written_keys_sublist fields).subset (List.mem_map_of_mem hfield)
  exact bne_iff_ne.2 fun he => h (he ▸ hmem)

lemma lookup_written {fields : List (K × Option V)} (hkeys : (fields.map Prod.fst).Nodup)
    {key : K} {value : Option V} (h : (key, value) ∈ fields) :
    (written fields).lookup key = value := by
  induction fields with
  | nil => cases h
  | cons field fields ih =>
    obtain ⟨hnew, hrest⟩ := List.nodup_cons.1 hkeys
    obtain ⟨key', value'⟩ := field
    rcases List.mem_cons.1 h with he | hmem
    · cases he
      cases value with
      | none =>
        rw [written_none]
        exact lookup_written_of_notMem hnew
      | some value => exact List.lookup_cons_self
    · have hne : key ≠ key' := by
        rintro rfl
        exact hnew (List.mem_map.2 ⟨_, hmem, rfl⟩)
      cases value' with
      | none => exact ih hrest hmem
      | some value' =>
        rw [written_some, List.lookup_cons, beq_false_of_ne hne]
        exact ih hrest hmem

end AbsurdSdk.Syntax
