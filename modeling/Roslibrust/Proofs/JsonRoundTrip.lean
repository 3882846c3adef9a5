import Roslibrust.Proofs.Json
import Roslibrust.Proofs.ParseType

/-!
# Proofs: the hashed JSON text reads back

A reader for the text `to_ros2_json` writes: literals, strings with serde_json's escapes
(`\"`, `\\`, the five short control escapes and `\u00XX`), decimal numbers, arrays and the four
objects, each member under its key in declaration order. Each reader consumes a prefix of the text
and returns the rest, and each has a lemma saying it reads back what the serializer writes,
whatever follows. So the whole text reads back as the description with its skipped
`_default_value`s emptied (`fromRos2Json_toRos2Json`), for every description, names with quotes,
backslashes or control chars included; two descriptions with the same text, and so with the same
RIHS01 hash input, differ at most in their default values (`toRos2Json_injective`).
-/

namespace Roslibrust.Ros2Hashing

/-- What the JSON text keeps of a field: serde skips `_default_value`. -/
def Field.withoutDefault (x : Field) : Field := { x with defaultValue := "" }

/-- What the JSON text keeps of a description. -/
def TypeDescription.withoutDefaults (d : TypeDescription) : TypeDescription :=
  { d with fields := d.fields.map Field.withoutDefault }

/-- What the JSON text keeps of a description message. -/
def TypeDescriptionMsg.withoutDefaults (m : TypeDescriptionMsg) : TypeDescriptionMsg :=
  ⟨m.typeDescription.withoutDefaults,
    m.referencedTypeDescriptions.map TypeDescription.withoutDefaults⟩

end Roslibrust.Ros2Hashing

namespace Roslibrust.Json

open Ros2Hashing Str

/-! ## Strings and numbers -/

/-- The text after the literal `p`, if the text starts with it. -/
def lit : List Char → List Char → Option (List Char)
  | [], cs => some cs
  | c :: p, d :: cs => if c = d then lit p cs else none
  | _ :: _, [] => none

/-- The value of a lowercase hex digit. -/
def hexValue (c : Char) : Option Nat :=
  if c.isDigit then some (c.toNat - 48)
  else if 97 ≤ c.toNat ∧ c.toNat ≤ 102 then some (c.toNat - 87) else none

/-- The char a one-letter escape stands for. -/
def unescapeChar (e : Char) : Option Char :=
  if e = '"' then some '"' else if e = '\\' then some '\\' else if e = 'b' then some '\x08'
  else if e = 'f' then some '\x0c' else if e = 'n' then some '\n' else if e = 'r' then some '\r'
  else if e = 't' then some '\t' else none

/-- Put `c` in front of what a reader read. -/
def consRead {α : Type} (c : α) :
    Option (List α × List Char) → Option (List α × List Char) :=
  Option.map fun p => (c :: p.1, p.2)

/-- The chars of a string after its opening quote, escapes read back, and the text after its
closing quote. -/
def readStr : List Char → Option (List Char × List Char)
  | [] => none
  | c :: r =>
    if c = '"' then some ([], r)
    else if c = '\\' then
      match r with
      | [] => none
      | e :: r' =>
        if e = 'u' then
          match r' with
          | z₁ :: z₂ :: h :: l :: r'' =>
            if z₁ = '0' ∧ z₂ = '0' then
              match hexValue h, hexValue l with
              | some a, some b => consRead (Char.ofNat (16 * a + b)) (readStr r'')
              | _, _ => none
            else none
          | _ => none
        else (unescapeChar e).bind fun d => consRead d (readStr r')
    else consRead c (readStr r)

theorem lit_append (p r : List Char) : lit p (p ++ r) = some r := by
  induction p <;> simp [lit, *]

theorem hexValue_hexDigit {n : Nat} (h : n < 16) : hexValue (hexDigit n) = some n := by
  match n, h with
  | 0, _ | 1, _ | 2, _ | 3, _ | 4, _ | 5, _ | 6, _ | 7, _ | 8, _ | 9, _ | 10, _ | 11, _ | 12, _
  | 13, _ | 14, _ | 15, _ => decide
  | _ + 16, h => omega

/-- A backslash and a one-letter escape read back as the char it stands for. -/
theorem readStr_backslash {e d : Char} (he : e ≠ 'u') (hd : unescapeChar e = some d)
    (r : List Char) : readStr ('\\' :: e :: r) = consRead d (readStr r) := by
  rw [readStr.eq_def]
  simp [he, hd]

/-- One char's escape reads back as the char. -/
theorem readStr_escapeChar (c : Char) (r : List Char) :
    readStr ((escapeChar c).data ++ r) = consRead c (readStr r) := by
  unfold escapeChar
  -- the seven chars with a one-letter escape
  by_cases h₁ : c = '"'
  · rw [if_pos h₁, h₁]; exact readStr_backslash (by decide) (by decide) r
  rw [if_neg h₁]; by_cases h₂ : c = '\\'
  · rw [if_pos h₂, h₂]; exact readStr_backslash (by decide) (by decide) r
  rw [if_neg h₂]; by_cases h₃ : c = '\x08'
  · rw [if_pos h₃, h₃]; exact readStr_backslash (by decide) (by decide) r
  rw [if_neg h₃]; by_cases h₄ : c = '\x0c'
  · rw [if_pos h₄, h₄]; exact readStr_backslash (by decide) (by decide) r
  rw [if_neg h₄]; by_cases h₅ : c = '\n'
  · rw [if_pos h₅, h₅]; exact readStr_backslash (by decide) (by decide) r
  rw [if_neg h₅]; by_cases h₆ : c = '\r'
  · rw [if_pos h₆, h₆]; exact readStr_backslash (by decide) (by decide) r
  rw [if_neg h₆]; by_cases h₇ : c = '\t'
  · rw [if_pos h₇, h₇]; exact readStr_backslash (by decide) (by decide) r
  rw [if_neg h₇]; by_cases h₈ : c.toNat < 0x20
  · -- a control char without a short escape: `\u00` and two hex digits
    rw [if_pos h₈]
    have hhex : ∀ n, n < 16 → hexValue (hexDigit n) = some n := fun _ => hexValue_hexDigit
    show readStr ('\\' :: 'u' :: '0' :: '0' :: hexDigit (c.toNat / 16) ::
      hexDigit (c.toNat % 16) :: r) = _
    rw [readStr.eq_def]
    simp [hhex _ (show c.toNat / 16 < 16 by omega), hhex _ (show c.toNat % 16 < 16 by omega),
      Nat.div_add_mod]
  · rw [if_neg h₈]
    show readStr (c :: r) = _
    rw [readStr.eq_def]
    simp [h₁, h₂]


theorem join_escapeChar_data (s : List Char) :
    (String.join (s.map escapeChar)).data = s.flatMap fun c => (escapeChar c).data := by
  rw [join_data, List.flatMap, List.map_map]
  rfl

/-- A string's escaped chars read back as the string, up to its closing quote. -/
theorem readStr_escaped (s r : List Char) :
    readStr ((String.join (s.map escapeChar)).data ++ '"' :: r) = some (s, r) := by
  rw [join_escapeChar_data]
  induction s with
  | nil => rw [readStr.eq_def]; simp
  | cons c s ih => rw [List.flatMap_cons, List.append_assoc, readStr_escapeChar, ih]; rfl

/-- A string in double quotes, escapes read back. -/
def readQuoted (cs : List Char) : Option (String × List Char) :=
  (lit ['"'] cs).bind fun r => (readStr r).map fun p => (⟨p.1⟩, p.2)

theorem readQuoted_formatEscapedStr (s : String) (r : List Char) :
    readQuoted ((formatEscapedStr s).data ++ r) = some (s, r) := by
  rw [formatEscapedStr, String.data_append, String.data_append, List.append_assoc,
    List.append_assoc]
  show readQuoted ('"' :: ((String.join (s.data.map escapeChar)).data ++ '"' :: r)) = _
  simp only [readQuoted, lit, if_pos]
  rw [Option.some_bind, readStr_escaped]
  rfl

/-- A decimal numeral, and the text after it. -/
def readNat (cs : List Char) : Option (Nat × List Char) :=
  if cs.takeWhile Char.isDigit = [] then none
  else match digitsValue 0 (cs.takeWhile Char.isDigit) with
    | .ok n => some (n, cs.dropWhile Char.isDigit)
    | .error _ => none

/-- A numeral reads back as its value when a non-digit follows it. -/
theorem readNat_decimal {n : Nat} (hn : n < UInt64.size) {d : Char} (hd : d.isDigit = false)
    (r : List Char) : readNat (decimal n ++ d :: r) = some (n, d :: r) := by
  have hall : ∀ c ∈ decimal n, c.isDigit = true := fun _ => isDigit_of_mem_decimal
  have ht : (decimal n ++ d :: r).takeWhile Char.isDigit = decimal n := by
    rw [List.takeWhile_append_of_pos hall]; simp [hd]
  have hdrop : (decimal n ++ d :: r).dropWhile Char.isDigit = d :: r := by
    rw [List.dropWhile_append_of_pos hall]; simp [hd]
  rw [readNat, ht, if_neg (decimal_ne_nil n), digitsValue_decimal hn, hdrop]

theorem serializeFieldType_data (t : Ros2Hashing.FieldType) :
    (serializeFieldType ros2Formatter t).data =
      "\x7b\"type_id\": ".data ++ (decimal t.typeId.toNat ++ (", \"capacity\": ".data ++
      (decimal t.capacity.toNat ++ (", \"string_capacity\": ".data ++
      (decimal t.stringCapacity.toNat ++ (", \"nested_type_name\": ".data ++
      ((formatEscapedStr t.nestedTypeName).data ++ "\x7d".data))))))) := rfl


theorem uint8_ofNat_toNat (x : UInt8) : UInt8.ofNat x.toNat = x := by
  cases x with | mk v => simp [UInt8.ofNat, UInt8.toNat, Fin.ofNat]

theorem uint32_ofNat_toNat (x : UInt32) : UInt32.ofNat x.toNat = x := by
  cases x with | mk v => simp [UInt32.ofNat, UInt32.toNat, Fin.ofNat]

/-- A `FieldType` object. -/
def readFieldType (cs : List Char) : Option (Ros2Hashing.FieldType × List Char) := do
  let cs ← lit "\x7b\"type_id\": ".data cs
  let (typeId, cs) ← readNat cs
  let cs ← lit ", \"capacity\": ".data cs
  let (capacity, cs) ← readNat cs
  let cs ← lit ", \"string_capacity\": ".data cs
  let (stringCapacity, cs) ← readNat cs
  let cs ← lit ", \"nested_type_name\": ".data cs
  let (nestedTypeName, cs) ← readQuoted cs
  let cs ← lit "\x7d".data cs
  return (⟨UInt8.ofNat typeId, UInt32.ofNat capacity, UInt32.ofNat stringCapacity,
    nestedTypeName⟩, cs)

theorem readFieldType_serialize (t : Ros2Hashing.FieldType) (r : List Char) :
    readFieldType ((serializeFieldType ros2Formatter t).data ++ r) = some (t, r) := by
  have h8 : t.typeId.toNat < UInt64.size := t.typeId.val.isLt.trans (by decide)
  have h32 : ∀ x : UInt32, x.toNat < UInt64.size := fun x => x.val.isLt.trans (by decide)
  rw [serializeFieldType_data]
  simp [readFieldType, lit, readNat_decimal h8 (show (',').isDigit = false by decide),
    readNat_decimal (h32 _) (show (',').isDigit = false by decide), readQuoted_formatEscapedStr,
    uint8_ofNat_toNat, uint32_ofNat_toNat]


/-! ## Arrays -/

/-- The elements of an array after its `[`, each read by `read`, and the text after its `]`;
`fuel` bounds the number of elements. -/
def readElems {α : Type} (read : List Char → Option (α × List Char)) :
    Nat → List Char → Option (List α × List Char)
  | 0, _ => none
  | fuel + 1, cs => (read cs).bind fun p =>
    match lit ", ".data p.2 with
    | some cs => consRead p.1 (readElems read fuel cs)
    | none => (lit "]".data p.2).map fun cs => ([p.1], cs)

/-- An array, each element read by `read`. -/
def readArray {α : Type} (read : List Char → Option (α × List Char)) (cs : List Char) :
    Option (List α × List Char) :=
  match lit "[]".data cs with
  | some r => some ([], r)
  | none => (lit "[".data cs).bind (readElems read cs.length)

section Arrays

variable {α β : Type} {read : List Char → Option (β × List Char)} {ser : α → String}
  {g : α → β}

theorem length_le_joinSep {xs : List α} (hobj : ∀ x ∈ xs, ∃ t, (ser x).data = '\x7b' :: t) :
    xs.length ≤ (joinSep (xs.map ser)).data.length := by
  induction xs with
  | nil => simp
  | cons x xs ih =>
    obtain ⟨t, ht⟩ := hobj x (.head _)
    have ih := ih fun y hy => hobj y (.tail _ hy)
    cases xs with
    | nil =>
      simp only [List.map_cons, List.map_nil, joinSep, ht, List.length_cons, List.length_nil]
      omega
    | cons y ys =>
      simp only [List.map_cons, joinSep, String.data_append, List.length_cons, List.length_append,
        ht] at ih ⊢
      omega

/-- The elements of a non-empty array read back, given that each element does. -/
theorem readElems_joinSep : ∀ {xs : List α},
    (∀ x ∈ xs, ∀ r, read ((ser x).data ++ r) = some (g x, r)) → xs ≠ [] →
    ∀ {fuel}, xs.length ≤ fuel → ∀ r,
      readElems read fuel ((joinSep (xs.map ser)).data ++ ("]".data ++ r)) = some (xs.map g, r)
  | [], _, h, _, _, _ => absurd rfl h
  | [x], hread, _, fuel + 1, _, r => by
    simp [joinSep, readElems, hread x (.head _), lit]
  | x :: y :: ys, hread, _, fuel + 1, hfuel, r => by
    have ih := readElems_joinSep (fun z hz => hread z (.tail _ hz)) (List.cons_ne_nil y ys)
      (show (y :: ys).length ≤ fuel by simpa using hfuel) r
    simp only [List.map_cons, joinSep, String.data_append, List.append_assoc] at ih ⊢
    simp only [List.singleton_append] at ih
    simp [readElems, hread x (.head _), lit, ih, consRead]

/-- An array of objects reads back, given that each element does. -/
theorem readArray_serializeSeq {xs : List α}
    (hread : ∀ x ∈ xs, ∀ r, read ((ser x).data ++ r) = some (g x, r))
    (hobj : ∀ x ∈ xs, ∃ t, (ser x).data = '\x7b' :: t) (r : List Char) :
    readArray read ((serializeSeq ros2Formatter ser xs).data ++ r) = some (xs.map g, r) := by
  rw [serializeSeq_ros2, renderArray]
  cases xs with
  | nil => simp [joinSep, readArray, lit]
  | cons x xs =>
    obtain ⟨t, ht⟩ := hobj x (.head _)
    have hlen := length_le_joinSep hobj
    obtain ⟨u, hu⟩ : ∃ u, (joinSep ((x :: xs).map ser)).data = '\x7b' :: u := by
      cases xs <;> simp [joinSep, ht]
    have htext : ("[" ++ joinSep ((x :: xs).map ser) ++ "]").data ++ r =
        "[".data ++ ((joinSep ((x :: xs).map ser)).data ++ ("]".data ++ r)) := by
      simp only [String.data_append, List.append_assoc]
    rw [htext, readArray]
    have hclosed : lit "[]".data ("[".data ++ ((joinSep ((x :: xs).map ser)).data ++
        ("]".data ++ r))) = none := by
      rw [hu]; simp [lit]
    rw [hclosed]
    simp only [lit_append, Option.some_bind]
    exact readElems_joinSep hread (List.cons_ne_nil _ _)
      (hlen.trans (by simp only [List.length_append]; omega)) r

end Arrays


/-! ## The description's objects -/

theorem serializeField_data (x : Field) :
    (serializeField ros2Formatter x).data =
      "\x7b\"name\": ".data ++ ((formatEscapedStr x.name).data ++ (", \"type\": ".data ++
      ((serializeFieldType ros2Formatter x.fieldType).data ++ "\x7d".data))) := rfl

theorem serializeTypeDescription_data (d : TypeDescription) :
    (serializeTypeDescription ros2Formatter d).data =
      "\x7b\"type_name\": ".data ++ ((formatEscapedStr d.typeName).data ++ (", \"fields\": ".data ++
      ((serializeSeq ros2Formatter (serializeField ros2Formatter) d.fields).data ++
        "\x7d".data))) := rfl

theorem toRos2Json_data (m : TypeDescriptionMsg) :
    (toRos2Json m).data =
      "\x7b\"type_description\": ".data ++
        ((serializeTypeDescription ros2Formatter m.typeDescription).data ++
        (", \"referenced_type_descriptions\": ".data ++
        ((serializeSeq ros2Formatter (serializeTypeDescription ros2Formatter)
          m.referencedTypeDescriptions).data ++ "\x7d".data))) := rfl

/-- A `Field` object; `_default_value` is not in the text, and reads back empty. -/
def readField (cs : List Char) : Option (Field × List Char) := do
  let cs ← lit "\x7b\"name\": ".data cs
  let (name, cs) ← readQuoted cs
  let cs ← lit ", \"type\": ".data cs
  let (fieldType, cs) ← readFieldType cs
  let cs ← lit "\x7d".data cs
  return (⟨name, fieldType, ""⟩, cs)

/-- A `TypeDescription` object. -/
def readTypeDescription (cs : List Char) : Option (TypeDescription × List Char) := do
  let cs ← lit "\x7b\"type_name\": ".data cs
  let (typeName, cs) ← readQuoted cs
  let cs ← lit ", \"fields\": ".data cs
  let (fields, cs) ← readArray readField cs
  let cs ← lit "\x7d".data cs
  return (⟨typeName, fields⟩, cs)

/-- A `TypeDescriptionMsg` object. -/
def readTypeDescriptionMsg (cs : List Char) : Option (TypeDescriptionMsg × List Char) := do
  let cs ← lit "\x7b\"type_description\": ".data cs
  let (typeDescription, cs) ← readTypeDescription cs
  let cs ← lit ", \"referenced_type_descriptions\": ".data cs
  let (referenced, cs) ← readArray readTypeDescription cs
  let cs ← lit "\x7d".data cs
  return (⟨typeDescription, referenced⟩, cs)

/-- The description a `to_ros2_json` text is of: the whole text read as a `TypeDescriptionMsg`. -/
def fromRos2Json (s : String) : Option TypeDescriptionMsg :=
  match readTypeDescriptionMsg s.data with
  | some (m, []) => some m
  | _ => none

theorem readField_serialize (x : Field) (r : List Char) :
    readField ((serializeField ros2Formatter x).data ++ r) = some (x.withoutDefault, r) := by
  rw [serializeField_data]
  simp [readField, lit, readQuoted_formatEscapedStr, readFieldType_serialize, Field.withoutDefault]

theorem readTypeDescription_serialize (d : TypeDescription) (r : List Char) :
    readTypeDescription ((serializeTypeDescription ros2Formatter d).data ++ r) =
      some (d.withoutDefaults, r) := by
  rw [serializeTypeDescription_data]
  simp [readTypeDescription, lit, readQuoted_formatEscapedStr,
    readArray_serializeSeq (fun x _ => readField_serialize x)
      (fun x _ => ⟨_, serializeField_data x⟩), TypeDescription.withoutDefaults]


/-! ## The whole text -/

/-- The text `to_ros2_json` writes reads back whole as the description without its defaults. -/
theorem readTypeDescriptionMsg_toRos2Json (m : TypeDescriptionMsg) :
    readTypeDescriptionMsg (toRos2Json m).data = some (m.withoutDefaults, []) := by
  rw [← List.append_nil (toRos2Json m).data, toRos2Json_data]
  simp [readTypeDescriptionMsg, lit, readTypeDescription_serialize,
    readArray_serializeSeq (fun d _ => readTypeDescription_serialize d)
      (fun d _ => ⟨_, serializeTypeDescription_data d⟩), TypeDescriptionMsg.withoutDefaults]

/-- Reading back the text `to_ros2_json` writes gives the description, up to the default values
serde skips: every name, escapes included, every number and every list comes back. -/
theorem fromRos2Json_toRos2Json (m : TypeDescriptionMsg) :
    fromRos2Json (toRos2Json m) = some m.withoutDefaults := by
  rw [fromRos2Json, readTypeDescriptionMsg_toRos2Json]

/-- Two descriptions that `to_ros2_json` writes as the same text differ at most in their default
values: the hashed text determines the rest of the description. -/
theorem toRos2Json_injective {m₁ m₂ : TypeDescriptionMsg}
    (h : toRos2Json m₁ = toRos2Json m₂) : m₁.withoutDefaults = m₂.withoutDefaults := by
  have h₁ := readTypeDescriptionMsg_toRos2Json m₁
  rw [h, readTypeDescriptionMsg_toRos2Json m₂] at h₁
  exact (Prod.mk.inj (Option.some.inj h₁)).1.symm

theorem toRos2Json_injective_defaults :
    toRos2Json ⟨⟨"p/msg/M", [⟨"x", ⟨6, 0, 0, ""⟩, "1"⟩]⟩, []⟩ =
      toRos2Json ⟨⟨"p/msg/M", [⟨"x", ⟨6, 0, 0, ""⟩, "2"⟩]⟩, []⟩ ∧
    (⟨⟨"p/msg/M", [⟨"x", ⟨6, 0, 0, ""⟩, "1"⟩]⟩, []⟩ :
        TypeDescriptionMsg).withoutDefaults =
      (⟨⟨"p/msg/M", [⟨"x", ⟨6, 0, 0, ""⟩, "2"⟩]⟩, []⟩ :
        TypeDescriptionMsg).withoutDefaults := by
  refine ⟨?same, toRos2Json_injective ?same⟩
  rfl

end Roslibrust.Json
