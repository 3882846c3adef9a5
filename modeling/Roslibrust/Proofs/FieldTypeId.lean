import Roslibrust.Codegen.Hashing
import Roslibrust.Proofs.ParseType

/-!
# Proofs: the type tag of a parsed field

`get_field_type_id` builds `FIELD_TYPE_`, an optional `BOUNDED_`, a core name and an array suffix,
and looks the result up in `FIELD_TYPE_NAME_TO_ID`. Every combination the parser can produce is
in the table, so the lookup never fails on a parsed field, and the tag is one of the four
nested-type tags exactly when the core name is `NESTED_TYPE`: the default for a type name missing
from `FIELD_VALUE_TYPE_NAMES`. Missing from that table is not the same as naming a package: the
intrinsic `byte` is missing (the table says `octet`) and is tagged as a nested type.
-/

namespace Roslibrust.Ros2Hashing

open Str

/-- The tags of a nested type: `NESTED_TYPE` with each array suffix. -/
def nestedTypeIds : List UInt8 := [1, 49, 97, 145]

/-- The core name `get_field_type_string` picks for a type name. -/
def coreName (fieldType : String) : String :=
  (fieldValueTypeNames.lookup (if fieldType = "char" then "uint8" else fieldType)).getD "NESTED_TYPE"

/-- `FIELD_TYPE_NAME_TO_ID` without the prefix `FIELD_TYPE_` that every key starts with. -/
def fieldTypeTags : List (String × UInt8) :=
  fieldTypeNameToId.map fun e => (⟨e.1.data.drop 11⟩, e.2)

/-- A looked-up tag exists and is a nested-type tag exactly for the core name `NESTED_TYPE`. -/
def tagFits (core : String) : Option UInt8 → Bool
  | some id => decide (id ∈ nestedTypeIds ↔ core = "NESTED_TYPE")
  | none => false

section Lemmas

variable {β : Type}

theorem lookup_map_append (P x : String) (l : List (String × β)) :
    (l.map fun e => (P ++ e.1, e.2)).lookup (P ++ x) = l.lookup x := by
  induction l with
  | nil => rfl
  | cons e l ih =>
    obtain ⟨k, v⟩ := e
    have hP : P ++ x = P ++ k ↔ x = k :=
      ⟨fun h => String.ext (List.append_cancel_left
        (by simpa using congrArg String.data h : P.data ++ x.data = P.data ++ k.data)), congrArg _⟩
    simp only [List.map_cons, BTreeMap.lookup_cons_ite, ih, hP]

theorem lookup_mem_snd {l : List (String × String)} {a b : String} (h : l.lookup a = some b) :
    b ∈ l.map Prod.snd := by
  induction l with
  | nil => cases h
  | cons e l ih =>
    rw [BTreeMap.lookup_cons_ite] at h
    split_ifs at h
    · cases h
      exact List.mem_cons_self _ _
    · exact List.mem_cons_of_mem _ (ih h)

theorem fieldTypeNameToId_eq :
    fieldTypeNameToId = fieldTypeTags.map fun e => ("FIELD_TYPE_" ++ e.1, e.2) := by
  have h : (fieldTypeNameToId.all fun e => "FIELD_TYPE_".data.isPrefixOf e.1.data) = true := by
    decide
  rw [fieldTypeTags, List.map_map]
  refine (List.map_id _).symm.trans (List.map_congr_left fun e he => ?_)
  obtain ⟨r, hr⟩ := startsWith_iff.mp (List.all_eq_true.mp h e he)
  exact Prod.ext (String.ext (by simp [hr])) rfl

/-- The table holds every tag name a parsed field can produce. -/
theorem fieldTypeTags_complete :
    ∀ s ∈ ["", "_ARRAY", "_BOUNDED_SEQUENCE", "_UNBOUNDED_SEQUENCE"],
      (∀ c ∈ "NESTED_TYPE" :: fieldValueTypeNames.map Prod.snd,
        tagFits c (fieldTypeTags.lookup (c ++ s)) = true) ∧
      tagFits "STRING" (fieldTypeTags.lookup ("BOUNDED_STRING" ++ s)) = true := by
  decide

theorem tagFits_spec {c : String} {o : Option UInt8} (h : tagFits c o = true) :
    ∃ id, o = some id ∧ (id ∈ nestedTypeIds ↔ c = "NESTED_TYPE") := by
  cases o <;> simp_all [tagFits]

theorem coreName_mem (t : String) : coreName t ∈ "NESTED_TYPE" :: fieldValueTypeNames.map Prod.snd := by
  unfold coreName
  cases h : fieldValueTypeNames.lookup _ with
  | none => exact List.mem_cons_self _ _
  | some b => exact List.mem_cons_of_mem _ (lookup_mem_snd h)

theorem arraySuffix_mem (a : ArrayType) :
    arraySuffix a ∈ ["", "_ARRAY", "_BOUNDED_SEQUENCE", "_UNBOUNDED_SEQUENCE"] := by
  cases a <;> simp [arraySuffix]

end Lemmas

/-- A field type whose capacity, if any, is on a `string` gets a tag, nested exactly when its
core name is `NESTED_TYPE`. -/
theorem getFieldTypeId_tag {t : Roslibrust.FieldType} (h : t.stringCapacity = none ∨ t.fieldType = "string") :
    ∃ id, getFieldTypeId t = .ok id ∧ (id ∈ nestedTypeIds ↔ coreName t.fieldType = "NESTED_TYPE") := by
  obtain ⟨hcore, hbounded⟩ := fieldTypeTags_complete _ (arraySuffix_mem t.arrayInfo)
  cases hc : t.stringCapacity with
  | none =>
    obtain ⟨id, hid, hn⟩ := tagFits_spec (hcore _ (coreName_mem t.fieldType))
    have e : getFieldTypeString t = "FIELD_TYPE_" ++ (coreName t.fieldType ++ arraySuffix t.arrayInfo) := by
      simp only [getFieldTypeString, coreName, hc, String.append_assoc, String.empty_append]
    exact ⟨id, by unfold getFieldTypeId; rw [e, fieldTypeNameToId_eq, lookup_map_append, hid], hn⟩
  | some _ =>
    have hs : t.fieldType = "string" := h.resolve_left (by simp [hc])
    obtain ⟨id, hid, hn⟩ := tagFits_spec hbounded
    have e : getFieldTypeString t = "FIELD_TYPE_" ++ ("BOUNDED_STRING" ++ arraySuffix t.arrayInfo) := by
      rw [getFieldTypeString, hc, hs]
      simp only [String.append_assoc]
      rfl
    exact ⟨id, by unfold getFieldTypeId; rw [e, fieldTypeNameToId_eq, lookup_map_append, hid],
      by rw [hs]; exact hn⟩

/-- Every field type `parse_type` returns gets a tag, and the tag is a nested-type tag exactly
when the core name is `NESTED_TYPE`. -/
theorem getFieldTypeId_of_parseType {t : String} {p : Package} {ft : Roslibrust.FieldType}
    (h : parseType t p = .ok ft) :
    ∃ id, getFieldTypeId ft = .ok id ∧ (id ∈ nestedTypeIds ↔ coreName ft.fieldType = "NESTED_TYPE") :=
  getFieldTypeId_tag (parseType_capacity h)

theorem getFieldTypeId_of_parseType_uint8 :
    parseType "uint8[4]" ⟨"pkg", "/pkg", some .ROS2⟩ = .ok ⟨none, "pkg", "uint8", .FixedLength 4, none⟩ ∧
    ∃ id, getFieldTypeId ⟨none, "pkg", "uint8", .FixedLength 4, none⟩ = .ok id ∧
      (id ∈ nestedTypeIds ↔ coreName "uint8" = "NESTED_TYPE") := by
  refine ⟨?parse, getFieldTypeId_of_parseType ?parse⟩
  decide

/-- `byte` is intrinsic to the parser (no package) and a nested type to the hash (tag 1). -/
theorem parseType_byte_nestedTypeId :
    parseType "byte" ⟨"pkg", "/pkg", some .ROS2⟩ = .ok ⟨none, "pkg", "byte", .NotArray, none⟩ ∧
    getFieldTypeId ⟨none, "pkg", "byte", .NotArray, none⟩ = .ok 1 := by
  decide

end Roslibrust.Ros2Hashing
