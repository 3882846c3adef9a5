import Mathlib.Data.List.Forall2
import Roslibrust.Proofs.FieldTypeId

/-!
# Proofs: the field loop of `convert_to_type_description`

One step of the loop appends the field's record and, for a nested field, looks its type up and
merges the recursive call's result into the reference map; a run appends one record per field,
in order. The recursion is indexed by fuel, and more fuel never changes a result already reached.
The records carry the bounds as the `as u32` casts leave them: a bound of `2^32` or more wraps.
-/

namespace Roslibrust

/-- The bound an array kind declares: `n` for `[n]` and `[<=n]`, none (0) otherwise. -/
def ArrayType.bound : ArrayType → Nat
  | .Bounded n => n.toNat
  | .FixedLength n => n.toNat
  | .Unbounded => 0
  | .NotArray => 0

namespace Ros2Hashing

/-- The tag `get_field_type_id` gives a field type, 0 where it fails. -/
def fieldTypeIdOf (t : Roslibrust.FieldType) : UInt8 :=
  match getFieldTypeId t with
  | .ok id => id
  | _ => 0

theorem fieldTypeIdOf_eq {t : Roslibrust.FieldType} {id : UInt8} (h : getFieldTypeId t = .ok id) :
    fieldTypeIdOf t = id := by
  unfold fieldTypeIdOf
  rw [h]

/-- `as u32` keeps the low 32 bits. -/
theorem toUInt32_toNat (n : UInt64) : n.toUInt32.toNat = n.toNat % 2 ^ 32 := rfl

theorem capacityOf_toNat (a : ArrayType) : (capacityOf a).toNat = a.bound % 2 ^ 32 := by
  cases a with
  | NotArray | Unbounded => rfl
  | FixedLength n | Bounded n => exact toUInt32_toNat n

/-! ## One step -/

section Step

variable {graph : BTreeMap MessageFile} {parsed : ParsedMessageFile} {b : Bool}
  {recur recur' : ParsedMessageFile → Outcome HashError TypeDescriptionMsg}
  {st st' : ConvertState} {field : FieldInfo}

/-- What one iteration can do: tag the field and append its record, and for a nested field also
look its type up, recurse on it and merge the result. -/
theorem convertField_ok (h : convertField graph parsed b recur st field = .ok st') :
    ∃ id, getFieldTypeId field.fieldType = .ok id ∧
      ((field.fieldType.isPrimitive = true ∧
          st' = ⟨st.fields ++ [describeField field b id], st.referenced⟩) ∨
        (field.fieldType.isPrimitive = false ∧ ∃ mf sub,
          graph.get field.getFullTypeName = some mf ∧ recur mf.parsed = .ok sub ∧
          st' = ⟨st.fields ++ [describeField field b id], mergeReferenced st.referenced sub⟩)) := by
  obtain ⟨id, hid, h⟩ := Outcome.bind_eq_ok.mp h
  refine ⟨id, hid, ?_⟩
  split at h
  · cases h
    exact .inl ⟨‹_›, rfl⟩
  · obtain ⟨mf, hmf, h⟩ := Outcome.bind_eq_ok.mp h
    obtain ⟨sub, hsub, h⟩ := Outcome.bind_eq_ok.mp h
    cases h
    exact .inr ⟨Bool.eq_false_iff.mpr ‹_›, mf, sub, Outcome.okOr_eq_ok.mp hmf, hsub, rfl⟩

theorem convertField_fields (h : convertField graph parsed b recur st field = .ok st') :
    ∃ id, getFieldTypeId field.fieldType = .ok id ∧
      st'.fields = st.fields ++ [describeField field b id] := by
  obtain ⟨id, hid, ⟨-, rfl⟩ | ⟨-, -, -, -, -, rfl⟩⟩ := convertField_ok h <;> exact ⟨id, hid, rfl⟩

/-- A step that succeeds with one recursive call succeeds with any call that agrees with it
wherever it succeeds. -/
theorem convertField_mono (hr : ∀ m sub, recur m = .ok sub → recur' m = .ok sub)
    (h : convertField graph parsed b recur st field = .ok st') :
    convertField graph parsed b recur' st field = .ok st' := by
  obtain ⟨id, hid, ⟨hp, rfl⟩ | ⟨hp, mf, sub, hmf, hsub, rfl⟩⟩ := convertField_ok h
  · simp [convertField, hid, hp]
  · simp [convertField, hid, hp, hmf, hr _ _ hsub]

end Step

/-! ## Whole runs -/

section Run

variable {graph : BTreeMap MessageFile} {parsed : ParsedMessageFile} {b : Bool}
  {fuel : Nat} {d : TypeDescriptionMsg}

/-- A successful conversion ran the field loop with one unit of fuel less. -/
theorem convertToTypeDescription_ok (h : convertToTypeDescription graph fuel parsed b = .ok d) :
    ∃ n st, fuel = n + 1 ∧
      parsed.fields.foldlM
        (convertField graph parsed b fun m => convertToTypeDescription graph n m true)
        (initState parsed) = .ok st ∧
      d = ⟨⟨parsed.getRos2FullName, st.fields⟩, st.referenced.values⟩ := by
  cases fuel with
  | zero => cases h
  | succ n =>
    obtain ⟨st, hst, h⟩ := Outcome.bind_eq_ok.mp h
    cases h
    exact ⟨n, st, rfl, hst, rfl⟩

/-- More fuel does not change a result already reached. -/
theorem convertToTypeDescription_mono {m : Nat} (hm : fuel ≤ m)
    (h : convertToTypeDescription graph fuel parsed b = .ok d) :
    convertToTypeDescription graph m parsed b = .ok d := by
  induction fuel generalizing m parsed b d with
  | zero => cases h
  | succ n ih =>
    obtain ⟨_, st, hn, hst, rfl⟩ := convertToTypeDescription_ok h
    cases hn
    obtain ⟨m, rfl⟩ : ∃ m', m = m' + 1 := ⟨m - 1, by omega⟩
    have hst' := Outcome.foldlM_ok_mono
      (fun _ _ _ hs => convertField_mono (fun _ _ hsub => @ih _ _ _ m (by omega) hsub) hs) hst
    simp only [convertToTypeDescription, hst', Outcome.ok_bind, Outcome.pure_eq]

/-- A run of the loop appends one record per field, in order, each with the field's tag. -/
theorem foldlM_convertField_fields {recur : ParsedMessageFile → Outcome HashError TypeDescriptionMsg}
    {fs : List FieldInfo} {st₀ st : ConvertState}
    (h : fs.foldlM (convertField graph parsed b recur) st₀ = .ok st) :
    (∀ f ∈ fs, ∃ id, getFieldTypeId f.fieldType = .ok id) ∧
      st.fields = st₀.fields ++ fs.map fun f => describeField f b (fieldTypeIdOf f.fieldType) := by
  have := Outcome.foldlM_ok_induction
    (fun pre (s : ConvertState) => (∀ f ∈ pre, ∃ id, getFieldTypeId f.fieldType = .ok id) ∧
      s.fields = st₀.fields ++ pre.map fun f => describeField f b (fieldTypeIdOf f.fieldType))
    (fun pre x s s' ⟨hpre, hs⟩ hstep => by
      obtain ⟨id, hid, hs'⟩ := convertField_fields hstep
      refine ⟨fun f hf => ?_, by simp [hs', hs, fieldTypeIdOf_eq hid]⟩
      rcases List.mem_append.mp hf with hf | hf
      · exact hpre f hf
      · exact List.mem_singleton.mp hf ▸ ⟨id, hid⟩)
    [] ⟨fun _ hf => absurd hf (List.not_mem_nil _), by simp⟩ h
  simpa using this

/-- The description of a converted message: its ROS2 name, then one record per field (after the
placeholder member of an empty message). -/
theorem convertToTypeDescription_fields (h : convertToTypeDescription graph fuel parsed b = .ok d) :
    d.typeDescription.typeName = parsed.getRos2FullName ∧
      d.typeDescription.fields = (initState parsed).fields ++
        parsed.fields.map fun f => describeField f b (fieldTypeIdOf f.fieldType) := by
  obtain ⟨n, st, -, hst, rfl⟩ := convertToTypeDescription_ok h
  exact ⟨rfl, (foldlM_convertField_fields hst).2⟩

end Run

/-! ## Bounds -/

/-- Each field's record holds its name and its array bound and string capacity modulo `2^32`. -/
theorem convertToTypeDescription_capacities {graph : BTreeMap MessageFile} {fuel : Nat}
    {parsed : ParsedMessageFile} {b : Bool} {d : TypeDescriptionMsg}
    (h : convertToTypeDescription graph fuel parsed b = .ok d) :
    List.Forall₂ (fun (f : FieldInfo) (g : Field) => g.name = f.fieldName ∧
        g.fieldType.capacity.toNat = f.fieldType.arrayInfo.bound % 2 ^ 32 ∧
        g.fieldType.stringCapacity.toNat = (f.fieldType.stringCapacity.getD 0).toNat % 2 ^ 32)
      parsed.fields (d.typeDescription.fields.drop (initState parsed).fields.length) := by
  rw [(convertToTypeDescription_fields h).2, List.drop_left, List.forall₂_map_right_iff]
  exact List.forall₂_same.mpr fun f _ => ⟨rfl, capacityOf_toNat _, toUInt32_toNat _⟩

theorem convertToTypeDescription_capacities_int32 :
    convertToTypeDescription .empty 1
        ⟨"Msg", "pkg", [⟨⟨none, "pkg", "int32", .FixedLength 4, none⟩, "a", none⟩], [], some .ROS2,
          "Msg.msg"⟩ false =
      .ok ⟨⟨"pkg/msg/Msg", [⟨"a", ⟨54, 4, 0, ""⟩, ""⟩]⟩, []⟩ ∧
    List.Forall₂ (fun (f : FieldInfo) (g : Field) => g.name = f.fieldName ∧
        g.fieldType.capacity.toNat = f.fieldType.arrayInfo.bound % 2 ^ 32 ∧
        g.fieldType.stringCapacity.toNat = (f.fieldType.stringCapacity.getD 0).toNat % 2 ^ 32)
      [⟨⟨none, "pkg", "int32", .FixedLength 4, none⟩, "a", none⟩]
      ([⟨"a", ⟨54, 4, 0, ""⟩, ""⟩].drop 0) := by
  refine ⟨?run, convertToTypeDescription_capacities ?run⟩
  decide

/-- A bound of `2^32` describes a field exactly as a bound of 0 does, for arrays and strings. -/
theorem convertToTypeDescription_boundWraps :
    parseType "int32[4294967296]" ⟨"pkg", "/pkg", some .ROS2⟩ =
      .ok ⟨none, "pkg", "int32", .FixedLength 4294967296, none⟩ ∧
    parseType "string<=4294967296" ⟨"pkg", "/pkg", some .ROS2⟩ =
      .ok ⟨none, "pkg", "string", .NotArray, some 4294967296⟩ ∧
    convertToTypeDescription .empty 1
        ⟨"Msg", "pkg", [⟨⟨none, "pkg", "int32", .FixedLength 4294967296, none⟩, "a", none⟩,
          ⟨⟨none, "pkg", "string", .NotArray, some 4294967296⟩, "s", none⟩], [], some .ROS2,
          "Msg.msg"⟩ false =
      convertToTypeDescription .empty 1
        ⟨"Msg", "pkg", [⟨⟨none, "pkg", "int32", .FixedLength 0, none⟩, "a", none⟩,
          ⟨⟨none, "pkg", "string", .NotArray, some 0⟩, "s", none⟩], [], some .ROS2,
          "Msg.msg"⟩ false := by
  decide

/-! ## Nested type names -/

/-- Below the top level the suffix test runs on every nested field: an ordinary message
`other/Foo_Request`, referenced from `pkg/Outer`, is named `pkg/srv/Foo_Request` (the referrer's
package, the service namespace) while its description is `other/msg/Foo_Request`. -/
theorem convertToTypeDescription_suffixMisnamed :
    convertToTypeDescription
        ((BTreeMap.empty.insert "pkg/Outer"
          ⟨⟨"Outer", "pkg", [⟨⟨some "other", "pkg", "Foo_Request", .NotArray, none⟩, "x", none⟩],
            [], some .ROS2, "Outer.msg"⟩⟩).insert "other/Foo_Request"
          ⟨⟨"Foo_Request", "other", [⟨⟨none, "other", "int32", .NotArray, none⟩, "y", none⟩],
            [], some .ROS2, "Foo_Request.msg"⟩⟩) 3
        ⟨"Top", "pkg", [⟨⟨some "pkg", "pkg", "Outer", .NotArray, none⟩, "o", none⟩], [],
          some .ROS2, "Top.msg"⟩ false =
      .ok ⟨⟨"pkg/msg/Top", [⟨"o", ⟨1, 0, 0, "pkg/msg/Outer"⟩, ""⟩]⟩,
        [⟨"other/msg/Foo_Request", [⟨"y", ⟨6, 0, 0, ""⟩, ""⟩]⟩,
          ⟨"pkg/msg/Outer", [⟨"x", ⟨1, 0, 0, "pkg/srv/Foo_Request"⟩, ""⟩]⟩]⟩ := by
  decide

end Ros2Hashing

end Roslibrust
