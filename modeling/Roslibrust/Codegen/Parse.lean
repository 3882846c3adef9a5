import Roslibrust.Codegen.Types

/-!
# `parse/mod.rs`: field lines, constant lines and type tokens

`parse_type` splits a type token at its first `[` and first `]` into a base and an array kind;
`parse_field_type` resolves the base to a package (intrinsic, same package, the `Header` special
case, or an explicit `pkg/Type` redirect); `parse_bounded_string` strips a `string<=N` bound.
`parse_field` and `parse_constant_field` cut a definition line into its tokens.

Every `Error::new`/`bail!` site is a constructor of `ParseError` holding the values its message
interpolates; the message template is in the constructor's docstring.
-/

namespace Roslibrust

open Str

/-- The errors of `parse/mod.rs`. -/
inductive ParseError where
  /-- "Did not find field_type on line: {line} while parsing {pkg_name}/{msg_name}" -/
  | fieldTypeNotFound (line pkgName msgName : String)
  /-- "Did not find field_name on line: {line} while parsing {pkg_name}/{msg_name}" -/
  | fieldNameNotFound (line pkgName msgName : String)
  /-- "Failed to find white space seperator ' ' while parsing constant information one line
  {line} for package {pkg:?}" -/
  | constantSeparatorNotFound (line : String) (pkg : Package)
  /-- "Failed to find expected '=' while parsing constant information on line {line} for
  package {pkg:?}" -/
  | constantEqualsNotFound (line : String) (pkg : Package)
  /-- "Unable to parse capacity of bounded string: {type_str}: {err}" -/
  | boundedStringCapacity (typeStr : String) (err : IntErrorKind)
  /-- "Unable to parse size of the array: {type_str}, defaulting to 0: {err}" -/
  | arraySize (typeStr : String) (err : IntErrorKind)
  /-- "Found malformed type: {type_str} in package {pkg:?}. Likely file is invalid." -/
  | malformedType (typeStr : String) (pkg : Package)
  deriving Repr, DecidableEq

/-- `ROS_PRIMITIVE_TYPE_LIST`. -/
def rosPrimitiveTypeList : List String :=
  ["bool", "int8", "uint8", "byte", "char", "int16", "uint16", "int32", "uint32", "int64",
    "uint64", "float32", "float64", "string", "wstring", "time", "duration"]

/-- `ROS_TYPE_TO_RUST_TYPE_MAP`. -/
def rosTypeToRustTypeMap : List (String × String) :=
  [("bool", "bool"), ("int8", "i8"), ("uint8", "u8"), ("byte", "u8"), ("char", "u8"),
    ("int16", "i16"), ("uint16", "u16"), ("int32", "i32"), ("uint32", "u32"), ("int64", "i64"),
    ("uint64", "u64"), ("float32", "f32"), ("float64", "f64"),
    ("string", "::std::string::String"),
    ("time", "::roslibrust::codegen::integral_types::Time"),
    ("duration", "::roslibrust::codegen::integral_types::Duration")]

/-- `ROS_2_TYPE_TO_RUST_TYPE_MAP`. -/
def ros2TypeToRustTypeMap : List (String × String) :=
  [("bool", "bool"), ("int8", "i8"), ("uint8", "u8"), ("byte", "u8"), ("char", "u8"),
    ("int16", "i16"), ("uint16", "u16"), ("int32", "i32"), ("uint32", "u32"), ("int64", "i64"),
    ("uint64", "u64"), ("float32", "f32"), ("float64", "f64"),
    ("string", "::std::string::String"),
    ("builtin_interfaces/Time", "::roslibrust::codegen::integral_types::Time"),
    ("builtin_interfaces/Duration", "::roslibrust::codegen::integral_types::Duration")]

/-- `is_intrinsic_type`: time and duration are intrinsic in ROS1 through the type map, and in ROS2
through the primitive list. -/
def isIntrinsicType : RosVersion → String → Bool
  | .ROS1, rosType => (rosTypeToRustTypeMap.lookup rosType).isSome
  | .ROS2, rosType => rosPrimitiveTypeList.contains rosType

/-- `convert_ros_type_to_rust_type`. -/
def convertRosTypeToRustType : RosVersion → String → Option String
  | .ROS1, rosType => rosTypeToRustTypeMap.lookup rosType
  | .ROS2, rosType => ros2TypeToRustTypeMap.lookup rosType

/-- `parse_bounded_string`: `string<=N` is `string` with capacity `N`; anything else is kept. -/
def parseBoundedString (typeStr : List Char) : Outcome ParseError (String × Option UInt64) :=
  if startsWith "string<=".data typeStr then do
    let digits ← sliceFrom typeStr 8
    match parseUsize digits with
    | .ok capacity => pure ("string", some capacity)
    | .error e => .err (.boundedStringCapacity (String.mk typeStr) e)
  else pure (String.mk typeStr, none)

/-- `parse_field_type`: resolve the base of a type token to a package. -/
def parseFieldType (typeStr : String) (arrayInfo : ArrayType) (pkg : Package) :
    Outcome ParseError FieldType :=
  match split '/' typeStr.data with
  | [item] => do
    let pkgVersion := pkg.version.getD .ROS1
    let (fieldType, stringCapacity) ← parseBoundedString item
    pure {
      packageName :=
        if isIntrinsicType pkgVersion fieldType then none
        else if typeStr = "Header" then some "std_msgs"
        else some pkg.name
      sourcePackage := pkg.name
      fieldType := fieldType
      arrayInfo := arrayInfo
      stringCapacity := stringCapacity }
  | item0 :: item1 :: _ =>
    pure {
      packageName := some (String.mk item0)
      sourcePackage := pkg.name
      fieldType := String.mk item1
      stringCapacity := none
      arrayInfo := arrayInfo }
  | [] => .panic "index out of bounds: the len is 0 but the index is 0"

/-- The array kind named by the text between the brackets of a type token. -/
def parseArraySize (typeStr : String) (fixedSizeStr : List Char) : Outcome ParseError ArrayType := do
  let (isBounded, offset) := if startsWith "<=".data fixedSizeStr then (true, 2) else (false, 0)
  let digits ← sliceFrom fixedSizeStr offset
  match parseUsize digits with
  | .ok fixedSize => pure (if isBounded then .Bounded fixedSize else .FixedLength fixedSize)
  | .error e => .err (.arraySize typeStr e)

/-- `parse_type`: split a type token at its first `[` and first `]`. -/
def parseType (typeStr : String) (pkg : Package) : Outcome ParseError FieldType :=
  let s := typeStr.data
  match find '[' s, find ']' s with
  | some o, some c => do
    let width ← usizeSub c o
    let arrayInfo ← if width = 1 then pure ArrayType.Unbounded else do
      let fixedSizeStr ← slice s (o + 1) c
      parseArraySize typeStr fixedSizeStr
    let base ← sliceTo s o
    parseFieldType (String.mk base) arrayInfo pkg
  | none, none => parseFieldType typeStr .NotArray pkg
  | _, _ => .err (.malformedType typeStr pkg)

/-- `parse_field`: a line `TYPE NAME [DEFAULT]`. -/
def parseField (line : String) (pkg : Package) (msgName : String) :
    Outcome ParseError FieldInfo := do
  let tokens := splitWhitespace line.data
  let fieldTypeToken ← Outcome.okOr (.fieldTypeNotFound line pkg.name msgName) tokens.head?
  let fieldType ← parseType (String.mk fieldTypeToken) pkg
  let fieldName ← Outcome.okOr (.fieldNameNotFound line pkg.name msgName) (tokens.drop 1).head?
  let sep ← Outcome.unwrap (find ' ' line.data)
  let default ← if pkg.version = some .ROS2 then do
      let afterSep ← sliceFrom line.data (sep + 1)
      let lineAfterSep := trim afterSep
      match find ' ' lineAfterSep with
      | some defStart => do
        let rest ← sliceFrom lineAfterSep defStart
        let remainder := trim rest
        pure (if remainder.isEmpty then none else some (String.mk remainder))
      | none => pure none
    else pure none
  pure { fieldType := fieldType, fieldName := String.mk fieldName, default := default }

/-- `parse_constant_field`: a line `TYPE NAME = VALUE`. -/
def parseConstantField (line : String) (pkg : Package) : Outcome ParseError ConstantInfo := do
  let s := line.data
  let sep ← Outcome.okOr (.constantSeparatorNotFound line pkg) (find ' ' s)
  let afterSep ← sliceFrom s sep
  let equalAfterSep ← Outcome.okOr (.constantEqualsNotFound line pkg) (find '=' afterSep)
  let typePart ← sliceTo s sep
  let parsed ← parseType (String.mk (trim typePart)) pkg
  let namePart ← slice s (sep + 1) (equalAfterSep + sep)
  let constantType :=
    if parsed.fieldType = "String" then "&\x27static str" else parsed.fieldType
  let valuePart ← sliceFrom s (sep + equalAfterSep + 1)
  pure {
    constantType := constantType
    constantName := String.mk (trim namePart)
    constantValue := String.mk (trim valuePart) }

/-- `strip_comments`: the part of a line before its first `#`. -/
def stripComments (line : List Char) : Outcome ParseError (List Char) :=
  match find '#' line with
  | some token => sliceTo line token
  | none => pure line

end Roslibrust
