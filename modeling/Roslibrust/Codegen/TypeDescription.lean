import Roslibrust.Codegen.Types

/-!
# The ROS2 type-description records

`ros2_hashing.rs` lowers a message to these records, serializes them to JSON and hashes the text.
They mirror the `type_description_interfaces` messages of ROS2: a `TypeDescriptionMsg` is the
description of the hashed type with the descriptions of every type it references.
-/

namespace Roslibrust.Ros2Hashing

/-- `FieldType` (of the hash): a field's numeric type tag, capacities and nested type. -/
structure FieldType where
  /-- The tag of `FIELD_TYPE_NAME_TO_ID`. -/
  typeId : UInt8
  /-- The array bound, 0 for none. -/
  capacity : UInt32
  /-- The string bound, 0 for none. -/
  stringCapacity : UInt32
  /-- The ROS2 name of a nested type, empty for a primitive. -/
  nestedTypeName : String
  deriving Repr, DecidableEq

/-- `Field`. -/
structure Field where
  /-- The field name. -/
  name : String
  /-- The field's type (serialized under the key `type`). -/
  fieldType : FieldType
  /-- `_default_value`, skipped by serde. -/
  defaultValue : String
  deriving Repr, DecidableEq

/-- `TypeDescription`. -/
structure TypeDescription where
  /-- The type's ROS2 name. -/
  typeName : String
  /-- Its fields. -/
  fields : List Field
  deriving Repr, DecidableEq

/-- `TypeDescriptionMsg`. -/
structure TypeDescriptionMsg where
  /-- The description of the hashed type. -/
  typeDescription : TypeDescription
  /-- The descriptions of the types it references. -/
  referencedTypeDescriptions : List TypeDescription
  deriving Repr, DecidableEq

end Roslibrust.Ros2Hashing
