import Roslibrust.Codegen.Json
import Roslibrust.Rust.BTreeMap

/-!
# `ros2_hashing.rs`: type descriptions and the ROS2 type hash

`convert_to_type_description` lowers a parsed message to a `TypeDescriptionMsg`: one field record
per field (a numeric tag from `get_field_type_id`, the capacities, the nested type's ROS2 name),
and, for each non-primitive field, the description of the graph entry it names, computed by a
recursive call, merged with that call's own references into a map keyed by type name.
`calculate_ros2_hash` hashes the JSON of the result; `calculate_ros2_srv_hash` first adds three
synthetic entries for a service's request, response and event types to a copy of the graph and
hashes an aggregate with three fields.

The recursion follows graph lookups, so it is indexed by fuel: `diverge` when the fuel runs out.
It ends on every acyclic graph, and never on a cycle. SHA-256 is a parameter: no statement here
depends on which function it is.
-/

namespace Roslibrust.Ros2Hashing

open Str

/-- The errors of `ros2_hashing.rs` (`anyhow::Error`). -/
inductive HashError where
  /-- "Failed to find definition for nested type: {} while hashing {} for ROS2" -/
  | nestedTypeNotFound (nested referrer : String)
  /-- "Failed to find field type ID for {}" -/
  | fieldTypeIdNotFound (fieldTypeString : String)
  deriving Repr, DecidableEq

/-- `FIELD_TYPE_NAME_TO_ID`. -/
def fieldTypeNameToId : List (String × UInt8) :=
  [("FIELD_TYPE_NOT_SET", 0), ("FIELD_TYPE_NESTED_TYPE", 1),
    ("FIELD_TYPE_INT8", 2), ("FIELD_TYPE_UINT8", 3), ("FIELD_TYPE_INT16", 4),
    ("FIELD_TYPE_UINT16", 5), ("FIELD_TYPE_INT32", 6), ("FIELD_TYPE_UINT32", 7),
    ("FIELD_TYPE_INT64", 8), ("FIELD_TYPE_UINT64", 9), ("FIELD_TYPE_FLOAT", 10),
    ("FIELD_TYPE_DOUBLE", 11), ("FIELD_TYPE_LONG_DOUBLE", 12), ("FIELD_TYPE_CHAR", 13),
    ("FIELD_TYPE_WCHAR", 14), ("FIELD_TYPE_BOOLEAN", 15), ("FIELD_TYPE_BYTE", 16),
    ("FIELD_TYPE_STRING", 17), ("FIELD_TYPE_WSTRING", 18), ("FIELD_TYPE_FIXED_STRING", 19),
    ("FIELD_TYPE_FIXED_WSTRING", 20), ("FIELD_TYPE_BOUNDED_STRING", 21),
    ("FIELD_TYPE_BOUNDED_WSTRING", 22),
    ("FIELD_TYPE_NESTED_TYPE_ARRAY", 49), ("FIELD_TYPE_INT8_ARRAY", 50),
    ("FIELD_TYPE_UINT8_ARRAY", 51), ("FIELD_TYPE_INT16_ARRAY", 52),
    ("FIELD_TYPE_UINT16_ARRAY", 53), ("FIELD_TYPE_INT32_ARRAY", 54),
    ("FIELD_TYPE_UINT32_ARRAY", 55), ("FIELD_TYPE_INT64_ARRAY", 56),
    ("FIELD_TYPE_UINT64_ARRAY", 57), ("FIELD_TYPE_FLOAT_ARRAY", 58),
    ("FIELD_TYPE_DOUBLE_ARRAY", 59), ("FIELD_TYPE_LONG_DOUBLE_ARRAY", 60),
    ("FIELD_TYPE_CHAR_ARRAY", 61), ("FIELD_TYPE_WCHAR_ARRAY", 62),
    ("FIELD_TYPE_BOOLEAN_ARRAY", 63), ("FIELD_TYPE_BYTE_ARRAY", 64),
    ("FIELD_TYPE_STRING_ARRAY", 65), ("FIELD_TYPE_WSTRING_ARRAY", 66),
    ("FIELD_TYPE_FIXED_STRING_ARRAY", 67), ("FIELD_TYPE_FIXED_WSTRING_ARRAY", 68),
    ("FIELD_TYPE_BOUNDED_STRING_ARRAY", 69), ("FIELD_TYPE_BOUNDED_WSTRING_ARRAY", 70),
    ("FIELD_TYPE_NESTED_TYPE_BOUNDED_SEQUENCE", 97), ("FIELD_TYPE_INT8_BOUNDED_SEQUENCE", 98),
    ("FIELD_TYPE_UINT8_BOUNDED_SEQUENCE", 99), ("FIELD_TYPE_INT16_BOUNDED_SEQUENCE", 100),
    ("FIELD_TYPE_UINT16_BOUNDED_SEQUENCE", 101), ("FIELD_TYPE_INT32_BOUNDED_SEQUENCE", 102),
    ("FIELD_TYPE_UINT32_BOUNDED_SEQUENCE", 103), ("FIELD_TYPE_INT64_BOUNDED_SEQUENCE", 104),
    ("FIELD_TYPE_UINT64_BOUNDED_SEQUENCE", 105), ("FIELD_TYPE_FLOAT_BOUNDED_SEQUENCE", 106),
    ("FIELD_TYPE_DOUBLE_BOUNDED_SEQUENCE", 107),
    ("FIELD_TYPE_LONG_DOUBLE_BOUNDED_SEQUENCE", 108),
    ("FIELD_TYPE_CHAR_BOUNDED_SEQUENCE", 109), ("FIELD_TYPE_WCHAR_BOUNDED_SEQUENCE", 110),
    ("FIELD_TYPE_BOOLEAN_BOUNDED_SEQUENCE", 111), ("FIELD_TYPE_BYTE_BOUNDED_SEQUENCE", 112),
    ("FIELD_TYPE_STRING_BOUNDED_SEQUENCE", 113), ("FIELD_TYPE_WSTRING_BOUNDED_SEQUENCE", 114),
    ("FIELD_TYPE_FIXED_STRING_BOUNDED_SEQUENCE", 115),
    ("FIELD_TYPE_FIXED_WSTRING_BOUNDED_SEQUENCE", 116),
    ("FIELD_TYPE_BOUNDED_STRING_BOUNDED_SEQUENCE", 117),
    ("FIELD_TYPE_BOUNDED_WSTRING_BOUNDED_SEQUENCE", 118),
    ("FIELD_TYPE_NESTED_TYPE_UNBOUNDED_SEQUENCE", 145),
    ("FIELD_TYPE_INT8_UNBOUNDED_SEQUENCE", 146), ("FIELD_TYPE_UINT8_UNBOUNDED_SEQUENCE", 147),
    ("FIELD_TYPE_INT16_UNBOUNDED_SEQUENCE", 148), ("FIELD_TYPE_UINT16_UNBOUNDED_SEQUENCE", 149),
    ("FIELD_TYPE_INT32_UNBOUNDED_SEQUENCE", 150), ("FIELD_TYPE_UINT32_UNBOUNDED_SEQUENCE", 151),
    ("FIELD_TYPE_INT64_UNBOUNDED_SEQUENCE", 152), ("FIELD_TYPE_UINT64_UNBOUNDED_SEQUENCE", 153),
    ("FIELD_TYPE_FLOAT_UNBOUNDED_SEQUENCE", 154), ("FIELD_TYPE_DOUBLE_UNBOUNDED_SEQUENCE", 155),
    ("FIELD_TYPE_LONG_DOUBLE_UNBOUNDED_SEQUENCE", 156),
    ("FIELD_TYPE_CHAR_UNBOUNDED_SEQUENCE", 157), ("FIELD_TYPE_WCHAR_UNBOUNDED_SEQUENCE", 158),
    ("FIELD_TYPE_BOOLEAN_UNBOUNDED_SEQUENCE", 159), ("FIELD_TYPE_BYTE_UNBOUNDED_SEQUENCE", 160),
    ("FIELD_TYPE_STRING_UNBOUNDED_SEQUENCE", 161),
    ("FIELD_TYPE_WSTRING_UNBOUNDED_SEQUENCE", 162),
    ("FIELD_TYPE_FIXED_STRING_UNBOUNDED_SEQUENCE", 163),
    ("FIELD_TYPE_FIXED_WSTRING_UNBOUNDED_SEQUENCE", 164),
    ("FIELD_TYPE_BOUNDED_STRING_UNBOUNDED_SEQUENCE", 165),
    ("FIELD_TYPE_BOUNDED_WSTRING_UNBOUNDED_SEQUENCE", 166)]

/-- `FIELD_VALUE_TYPE_NAMES`. -/
def fieldValueTypeNames : List (String × String) :=
  [("nested_type", "NESTED_TYPE"), ("int8", "INT8"), ("uint8", "UINT8"), ("int16", "INT16"),
    ("uint16", "UINT16"), ("int32", "INT32"), ("uint32", "UINT32"), ("int64", "INT64"),
    ("uint64", "UINT64"), ("float32", "FLOAT"), ("float64", "DOUBLE"), ("long", "LONG_DOUBLE"),
    ("char", "CHAR"), ("wchar", "WCHAR"), ("bool", "BOOLEAN"), ("octet", "BYTE"),
    ("string", "STRING"), ("wstring", "WSTRING"), ("bounded_string", "BOUNDED_STRING"),
    ("bounded_wstring", "BOUNDED_WSTRING")]

/-- The `_ARRAY` / `_BOUNDED_SEQUENCE` / `_UNBOUNDED_SEQUENCE` suffix of an array kind. -/
def arraySuffix : ArrayType → String
  | .FixedLength _ => "_ARRAY"
  | .Unbounded => "_UNBOUNDED_SEQUENCE"
  | .Bounded _ => "_BOUNDED_SEQUENCE"
  | .NotArray => ""

/-- `get_field_type_string`: the symbolic tag name of a field type (`char` is looked up as
`uint8`). -/
def getFieldTypeString (t : Roslibrust.FieldType) : String :=
  let tempFieldType := if t.fieldType = "char" then "uint8" else t.fieldType
  let coreName := (fieldValueTypeNames.lookup tempFieldType).getD "NESTED_TYPE"
  let stringPrefix := match t.stringCapacity with
    | some _ => "BOUNDED_"
    | none => ""
  "FIELD_TYPE_" ++ stringPrefix ++ coreName ++ arraySuffix t.arrayInfo

/-- `get_field_type_id`. -/
def getFieldTypeId (t : Roslibrust.FieldType) : Outcome HashError UInt8 :=
  match fieldTypeNameToId.lookup (getFieldTypeString t) with
  | some id => .ok id
  | none => .err (.fieldTypeIdNotFound (getFieldTypeString t))

/-- The names `convert_to_type_description` treats as service-internal (`SPECIAL_SUFFIX`). -/
def specialSuffix : List String := ["_Request", "_Response", "_Event"]

/-- The `nested_type_name` of a field: empty for a primitive; `source_package/srv/T` under
service naming when `T` has a special suffix; the field's ROS2 type name otherwise. -/
def nestedTypeName (field : FieldInfo) (serviceNaming : Bool) : String :=
  if field.fieldType.isPrimitive then ""
  else if serviceNaming && specialSuffix.any (fun s => endsWith s.data field.fieldType.fieldType.data)
  then field.fieldType.sourcePackage ++ "/srv/" ++ field.fieldType.fieldType
  else field.getRos2FullTypeName

/-- The `capacity` of a field: the array bound, cast `as u32`. -/
def capacityOf : ArrayType → UInt32
  | .Bounded size => size.toUInt32
  | .FixedLength size => size.toUInt32
  | .Unbounded => 0
  | .NotArray => 0

/-- The field record pushed for `field`, given its type tag. -/
def describeField (field : FieldInfo) (serviceNaming : Bool) (typeId : UInt8) : Field where
  name := field.fieldName
  fieldType := {
    typeId := typeId
    capacity := capacityOf field.fieldType.arrayInfo
    stringCapacity := (field.fieldType.stringCapacity.getD 0).toUInt32
    nestedTypeName := nestedTypeName field serviceNaming }
  defaultValue := ""

/-- The field ROS2 gives an empty message. -/
def structureNeedsAtLeastOneMember : Field where
  name := "structure_needs_at_least_one_member"
  fieldType := { typeId := 3, capacity := 0, stringCapacity := 0, nestedTypeName := "" }
  defaultValue := ""

/-- The accumulators of the loop over a message's fields. -/
structure ConvertState where
  /-- `fields`. -/
  fields : List Field
  /-- `referenced_type_descriptions`, keyed by type name. -/
  referenced : BTreeMap TypeDescription

/-- Merge a nested call's result into the reference map: its references, then its own
description, each under its type name, overwriting. -/
def mergeReferenced (refs : BTreeMap TypeDescription) (sub : TypeDescriptionMsg) :
    BTreeMap TypeDescription :=
  let refs := sub.referencedTypeDescriptions.foldl (fun acc d => acc.insert d.typeName d) refs
  refs.insert sub.typeDescription.typeName sub.typeDescription

/-- One iteration of the loop of `convert_to_type_description`; `recur` is the recursive call
(always with `service_naming = true`). -/
def convertField (graph : BTreeMap MessageFile) (parsed : ParsedMessageFile) (serviceNaming : Bool)
    (recur : ParsedMessageFile → Outcome HashError TypeDescriptionMsg) (st : ConvertState)
    (field : FieldInfo) : Outcome HashError ConvertState := do
  let typeId ← getFieldTypeId field.fieldType
  let fields := st.fields ++ [describeField field serviceNaming typeId]
  if field.fieldType.isPrimitive then pure { st with fields := fields }
  else
    let subMessage ← Outcome.okOr (.nestedTypeNotFound field.getFullTypeName parsed.getFullName)
      (graph.get field.getFullTypeName)
    let sub ← recur subMessage.parsed
    pure { fields := fields, referenced := mergeReferenced st.referenced sub }

/-- The loop's initial state: the phantom field for an empty message, an empty map. -/
def initState (parsed : ParsedMessageFile) : ConvertState where
  fields := if parsed.fields.isEmpty then [structureNeedsAtLeastOneMember] else []
  referenced := .empty

/-- `convert_to_type_description`, with `fuel` bounding the depth of the recursion. -/
def convertToTypeDescription (graph : BTreeMap MessageFile) :
    Nat → ParsedMessageFile → Bool → Outcome HashError TypeDescriptionMsg
  | 0, _, _ => .diverge
  | fuel + 1, parsed, serviceNaming => do
    let st ← parsed.fields.foldlM
      (convertField graph parsed serviceNaming fun m => convertToTypeDescription graph fuel m true)
      (initState parsed)
    pure {
      typeDescription := { typeName := parsed.getRos2FullName, fields := st.fields }
      referencedTypeDescriptions := st.referenced.values }

variable {H : Type}

/-- `calculate_hash`: SHA-256 of the JSON text. -/
def calculateHash (sha256 : String → H) (m : TypeDescriptionMsg) : H := sha256 (Json.toRos2Json m)

/-- `calculate_ros2_hash`. -/
def calculateRos2Hash (sha256 : String → H) (fuel : Nat) (parsed : ParsedMessageFile)
    (graph : BTreeMap MessageFile) : Outcome Empty H :=
  (Outcome.expect "Failed to convert file to a valid ROS2 type description"
    (convertToTypeDescription graph fuel parsed false)).bind fun d => .ok (calculateHash sha256 d)

/-- The three synthesized field types of a service that name its own virtual types. -/
def serviceFieldType (parsed : ParsedServiceFile) (fieldType : String) (arrayInfo : ArrayType) :
    Roslibrust.FieldType where
  packageName := some parsed.package
  sourcePackage := parsed.package
  fieldType := fieldType
  arrayInfo := arrayInfo
  stringCapacity := none

/-- The event type `<Name>_Event` of a service. -/
def serviceEvent (parsed : ParsedServiceFile) : ParsedMessageFile where
  name := parsed.name ++ "_Event"
  package := parsed.package
  constants := []
  version := some .ROS2
  path := parsed.path
  fields := [
    { fieldName := "info", default := none,
      fieldType := {
        packageName := some "service_msgs"
        sourcePackage := "service_msgs"
        fieldType := "ServiceEventInfo"
        arrayInfo := .NotArray
        stringCapacity := none } },
    { fieldName := "request", default := none,
      fieldType := serviceFieldType parsed (parsed.name ++ "_Request") (.Bounded 1) },
    { fieldName := "response", default := none,
      fieldType := serviceFieldType parsed (parsed.name ++ "_Response") (.Bounded 1) }]

/-- The aggregate `total_message_file` hashed for a service. -/
def serviceTotal (parsed : ParsedServiceFile) : ParsedMessageFile where
  name := parsed.name
  package := parsed.package
  constants := []
  version := some .ROS2
  path := parsed.path
  fields := [
    { fieldName := "request_message", default := none,
      fieldType := serviceFieldType parsed (parsed.name ++ "_Request") .NotArray },
    { fieldName := "response_message", default := none,
      fieldType := serviceFieldType parsed (parsed.name ++ "_Response") .NotArray },
    { fieldName := "event_message", default := none,
      fieldType := serviceFieldType parsed (parsed.name ++ "_Event") .NotArray }]

/-- `graph_copy`: the graph with the event, request and response entries inserted (overwriting
any entry already under their keys). -/
def serviceGraph (parsed : ParsedServiceFile) (graph : BTreeMap MessageFile) :
    BTreeMap MessageFile :=
  ((graph.insert (parsed.getFullName ++ "_Event") ⟨serviceEvent parsed⟩).insert
      (parsed.getFullName ++ "_Request")
      ⟨{ parsed.requestType with name := parsed.name ++ "_Request" }⟩).insert
    (parsed.getFullName ++ "_Response") ⟨{ parsed.responseType with name := parsed.name ++ "_Response" }⟩

/-- `calculate_ros2_srv_hash`. -/
def calculateRos2SrvHash (sha256 : String → H) (fuel : Nat) (parsed : ParsedServiceFile)
    (graph : BTreeMap MessageFile) : Outcome Empty H :=
  (Outcome.expect "Failed to convert service file to a valid ROS2 type description"
    (convertToTypeDescription (serviceGraph parsed graph) fuel (serviceTotal parsed) true)).bind
    fun d => .ok (calculateHash sha256 d)

end Roslibrust.Ros2Hashing
