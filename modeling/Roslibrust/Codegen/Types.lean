import Roslibrust.Rust.Str

/-!
# The codegen crate's data model

The records the parser produces and the hash reads: `Package`, `ArrayType`, `FieldType`,
`FieldInfo`, `ConstantInfo`, `ParsedMessageFile`, `ParsedServiceFile` and the graph entry
`MessageFile`. They are declared in the crate's `lib.rs`, `utils.rs`, `parse/msg.rs` and
`parse/srv.rs`, which are not among the sources; their shapes are those the sources construct
and read. Fields nothing modelled reads (a file's raw `source`, a graph entry's digests and
definition text) are left out.

The name helpers of `lib.rs` (`is_primitive`, `get_full_type_name`, `get_ros2_full_type_name`,
`get_full_name`, `get_ros2_full_name`) are modelled from the spec.

`usize` is `UInt64`: the crate builds for 64-bit targets.
-/

namespace Roslibrust

open Str

/-- `utils::RosVersion`. -/
inductive RosVersion where
  | ROS1
  | ROS2
  deriving Repr, DecidableEq

/-- `utils::Package`: a package discovered on disk. -/
structure Package where
  /-- The package name. -/
  name : String
  /-- The package root (`PathBuf`). -/
  path : String
  /-- The ROS version the package targets, when known. -/
  version : Option RosVersion
  deriving Repr, DecidableEq

/-- `ArrayType`: how many elements a field holds. -/
inductive ArrayType where
  | NotArray
  | FixedLength (n : UInt64)
  | Bounded (n : UInt64)
  | Unbounded
  deriving Repr, DecidableEq

/-- `FieldType`: a field's type after `parse_type`. -/
structure FieldType where
  /-- The package the type lives in; `None` for an intrinsic. -/
  packageName : Option String
  /-- The package whose file declares the field. -/
  sourcePackage : String
  /-- The bare type name, `string` for a bounded string. -/
  fieldType : String
  /-- The array kind. -/
  arrayInfo : ArrayType
  /-- The bound of a `string<=N`. -/
  stringCapacity : Option UInt64
  deriving Repr, DecidableEq

/-- `FieldInfo`: one field line. -/
structure FieldInfo where
  /-- The field's type. -/
  fieldType : FieldType
  /-- The field's name. -/
  fieldName : String
  /-- The default value of a ROS2 field (`RosLiteral`, kept as its text). -/
  default : Option String
  deriving Repr, DecidableEq

/-- `ConstantInfo`: one constant line. -/
structure ConstantInfo where
  /-- The constant's type name. -/
  constantType : String
  /-- The constant's name. -/
  constantName : String
  /-- The value text (`RosLiteral`). -/
  constantValue : String
  deriving Repr, DecidableEq

/-- `ParsedMessageFile`: a parsed `.msg` file, or a message synthesized for a service. -/
structure ParsedMessageFile where
  /-- The type name. -/
  name : String
  /-- The owning package's name. -/
  package : String
  /-- The fields, in wire order. -/
  fields : List FieldInfo
  /-- The constants. -/
  constants : List ConstantInfo
  /-- The ROS version of the owning package. -/
  version : Option RosVersion
  /-- The path of the file the type comes from. -/
  path : String
  deriving Repr, DecidableEq

/-- `ParsedServiceFile`: a parsed `.srv` file. Modelled from the spec: a name, the owning package,
the path, and the request and response bodies. -/
structure ParsedServiceFile where
  /-- The service name. -/
  name : String
  /-- The owning package's name. -/
  package : String
  /-- The request body. -/
  requestType : ParsedMessageFile
  /-- The response body. -/
  responseType : ParsedMessageFile
  /-- The path of the `.srv` file. -/
  path : String
  deriving Repr, DecidableEq

/-- `MessageFile`: a resolved graph entry; only the parsed file is read by the hash. -/
structure MessageFile where
  /-- The parsed definition. -/
  parsed : ParsedMessageFile
  deriving Repr, DecidableEq

/-- Modelled from the spec: `FieldType::is_primitive`. A type is primitive when it names no
package: the parser gives every non-intrinsic type one. -/
def FieldType.isPrimitive (t : FieldType) : Bool := t.packageName.isNone

/-- Modelled from the spec: `FieldInfo::get_full_type_name`, the graph key `package/Type`. -/
def FieldInfo.getFullTypeName (f : FieldInfo) : String :=
  match f.fieldType.packageName with
  | some p => p ++ "/" ++ f.fieldType.fieldType
  | none => f.fieldType.fieldType

/-- Modelled from the spec: `FieldInfo::get_ros2_full_type_name`, the ROS2 name
`package/msg/Type` of a message type. -/
def FieldInfo.getRos2FullTypeName (f : FieldInfo) : String :=
  match f.fieldType.packageName with
  | some p => p ++ "/msg/" ++ f.fieldType.fieldType
  | none => f.fieldType.fieldType

/-- Modelled from the spec: `ParsedMessageFile::get_full_name`, `package/Name`. -/
def ParsedMessageFile.getFullName (m : ParsedMessageFile) : String := m.package ++ "/" ++ m.name

/-- Whether a path names a `.srv` file. -/
def isSrvPath (path : String) : Bool := endsWith ".srv".data path.data

/-- Modelled from the spec: `ParsedMessageFile::get_ros2_full_name`, `package/msg/Name`, and
`package/srv/Name` for the service-internal types, which `calculate_ros2_srv_hash` builds with
the `.srv` file's path. -/
def ParsedMessageFile.getRos2FullName (m : ParsedMessageFile) : String :=
  m.package ++ (if isSrvPath m.path then "/srv/" else "/msg/") ++ m.name

/-- Modelled from the spec: `ParsedServiceFile::get_full_name`, `package/Name`. -/
def ParsedServiceFile.getFullName (s : ParsedServiceFile) : String := s.package ++ "/" ++ s.name

end Roslibrust
