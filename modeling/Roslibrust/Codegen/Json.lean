import Roslibrust.Codegen.TypeDescription

/-!
# `to_ros2_json`: serde_json driven by `Ros2Formatter`

The hash input is the JSON text serde_json writes for a `TypeDescriptionMsg` through
`Ros2Formatter`, which overrides three hooks of serde_json's `Formatter` trait: `", "` between
array elements and between object members, `": "` between a key and its value.

The serializer is modelled as serde_json runs it. A sequence or a struct is a `Compound` whose
`State` is `Empty` when it has no elements (the closing bracket is then written at once), `First`
before its first element and `Rest` after; each element starts with the formatter's
`begin_array_value(first)` or `begin_object_key(first)`. Keys and strings go through
`format_escaped_str`, integers through `itoa`. The derived `Serialize` impls list the fields in
declaration order and skip `_default_value`.

Writing into a `Vec<u8>` cannot fail and serde_json writes valid UTF-8, so the two `unwrap`s of
`to_ros2_json` never panic; the model returns the text.
-/

namespace Roslibrust.Json

open Ros2Hashing Str

variable {α : Type}

/-- The hooks of `serde_json::ser::Formatter` that `Ros2Formatter` overrides. -/
structure Formatter where
  /-- `begin_array_value(first)`. -/
  beginArrayValue : Bool → String
  /-- `begin_object_key(first)`. -/
  beginObjectKey : Bool → String
  /-- `begin_object_value`. -/
  beginObjectValue : String

/-- serde_json's `CompactFormatter`: the trait's default hooks. -/
def compactFormatter : Formatter where
  beginArrayValue first := if first then "" else ","
  beginObjectKey first := if first then "" else ","
  beginObjectValue := ":"

/-- `Ros2Formatter`. -/
def ros2Formatter : Formatter where
  beginArrayValue first := if first then "" else ", "
  beginObjectKey first := if first then "" else ", "
  beginObjectValue := ": "

/-- serde_json's `State` of a `Compound`. -/
inductive State where
  | Empty
  | First
  | Rest
  deriving DecidableEq

/-- A lowercase hex digit (`HEX_DIGITS`). -/
def hexDigit (n : Nat) : Char := if n < 10 then Char.ofNat (48 + n) else Char.ofNat (87 + n)

/-- `format_escaped_str_contents` on one char: the escape of `ESCAPE` for a quote, a backslash or
a control char, the char itself otherwise. -/
def escapeChar (c : Char) : String :=
  if c = '"' then "\\\""
  else if c = '\\' then "\\\\"
  else if c = '\x08' then "\\b"
  else if c = '\x0c' then "\\f"
  else if c = '\n' then "\\n"
  else if c = '\r' then "\\r"
  else if c = '\t' then "\\t"
  else if c.toNat < 0x20 then "\\u00" ++ String.mk [hexDigit (c.toNat / 16), hexDigit (c.toNat % 16)]
  else c.toString

/-- `format_escaped_str`: a quoted, escaped string. -/
def formatEscapedStr (s : String) : String := "\"" ++ String.join (s.data.map escapeChar) ++ "\""

/-- `itoa`: an unsigned integer in decimal. -/
def formatUnsigned (n : Nat) : String := String.mk (decimal n)

/-- The elements of a sequence from state `st` on, each after `begin_array_value`, then `end`. -/
def seqElements (f : Formatter) (ser : α → String) : State → List α → String
  | .Empty, [] => ""
  | _, [] => "]"
  | st, x :: xs => f.beginArrayValue (st = .First) ++ ser x ++ seqElements f ser .Rest xs

/-- `serialize_seq(Some(len))` and its elements: `[`, and `]` at once when `len` is 0. -/
def serializeSeq (f : Formatter) (ser : α → String) (xs : List α) : String :=
  if xs.length = 0 then "[" ++ "]" ++ seqElements f ser .Empty xs
  else "[" ++ seqElements f ser .First xs

/-- The members of a struct from state `st` on, each a key and its serialized value, then `end`. -/
def structFields (f : Formatter) : State → List (String × String) → String
  | .Empty, [] => ""
  | _, [] => "\x7d"
  | st, (k, v) :: rest =>
    f.beginObjectKey (st = .First) ++ formatEscapedStr k ++ f.beginObjectValue ++ v ++
      structFields f .Rest rest

/-- `serialize_struct(name, len)` and its fields: `{`, and `}` at once when `len` is 0. -/
def serializeStruct (f : Formatter) (fields : List (String × String)) : String :=
  if fields.length = 0 then "\x7b" ++ "\x7d" ++ structFields f .Empty fields
  else "\x7b" ++ structFields f .First fields

/-- The derived `Serialize` of `FieldType`. -/
def serializeFieldType (f : Formatter) (t : Ros2Hashing.FieldType) : String :=
  serializeStruct f
    [("type_id", formatUnsigned t.typeId.toNat), ("capacity", formatUnsigned t.capacity.toNat),
      ("string_capacity", formatUnsigned t.stringCapacity.toNat),
      ("nested_type_name", formatEscapedStr t.nestedTypeName)]

/-- The derived `Serialize` of `Field`: `type` renames `field_type`, `_default_value` is skipped. -/
def serializeField (f : Formatter) (x : Field) : String :=
  serializeStruct f [("name", formatEscapedStr x.name), ("type", serializeFieldType f x.fieldType)]

/-- The derived `Serialize` of `TypeDescription`. -/
def serializeTypeDescription (f : Formatter) (d : TypeDescription) : String :=
  serializeStruct f
    [("type_name", formatEscapedStr d.typeName), ("fields", serializeSeq f (serializeField f) d.fields)]

/-- The derived `Serialize` of `TypeDescriptionMsg`. -/
def serializeTypeDescriptionMsg (f : Formatter) (m : TypeDescriptionMsg) : String :=
  serializeStruct f
    [("type_description", serializeTypeDescription f m.typeDescription),
      ("referenced_type_descriptions",
        serializeSeq f (serializeTypeDescription f) m.referencedTypeDescriptions)]

/-- `to_ros2_json`. -/
def toRos2Json (m : TypeDescriptionMsg) : String := serializeTypeDescriptionMsg ros2Formatter m

end Roslibrust.Json
