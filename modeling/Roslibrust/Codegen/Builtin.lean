import Roslibrust.Codegen.Parse
import Roslibrust.Rust.BTreeMap

/-!
# `ros2_builtin_interfaces.rs`: the message types shipped with the crate

`get_builtin_interfaces` parses three fixed definitions, `builtin_interfaces/Time`,
`builtin_interfaces/Duration` and `service_msgs/ServiceEventInfo`, and returns them keyed by full
name. The service hash depends on them: every service's event type has a `ServiceEventInfo` field,
which has a `Time` field.

`parse_ros_message_file` and `MessageFile::resolve`, which the function calls, are not part of the
source: the first is modelled from the spec's line grammar, the second keeps only the parsed file,
the one part of a `MessageFile` the hash reads.
-/

namespace Roslibrust

open Str

/-- Modelled from the spec: `parse_ros_message_file`, its loop over lines. Each line is cut at its
first `#` and trimmed; a blank line is skipped, a line holding `=` is a constant
(`parse_constant_field`) and any other line a field (`parse_field`), kept in order. -/
def parseRosMessageFile (data name : String) (pkg : Package) (path : String) :
    Outcome ParseError ParsedMessageFile := do
  let (fields, constants) ← (split '\n' data.data).foldlM
    (fun (acc : List FieldInfo × List ConstantInfo) fullLine => do
      let line := trim (← stripComments fullLine)
      if line.isEmpty then pure acc
      else if '=' ∈ line then do
        let c ← parseConstantField ⟨line⟩ pkg
        pure (acc.1, acc.2 ++ [c])
      else do
        let f ← parseField ⟨line⟩ pkg name
        pure (acc.1 ++ [f], acc.2))
    ([], [])
  pure ⟨name, pkg.name, fields, constants, pkg.version, path⟩

/-- `SERVICE_EVENT_INFO`, one literal per line. -/
def serviceEventInfo : String :=
  "\nuint8 REQUEST_SENT = 0" ++
  "\nuint8 REQUEST_RECEIVED = 1" ++
  "\nuint8 RESPONSE_SENT = 2" ++
  "\nuint8 RESPONSE_RECEIVED = 3" ++
  "\n" ++
  "\n# The type of event this message represents" ++
  "\nuint8 event_type" ++
  "\n" ++
  "\n# Timestamp for when the event occurred (sent or received time)" ++
  "\nbuiltin_interfaces/Time stamp" ++
  "\n" ++
  "\n# Unique identifier for the client that sent the service request" ++
  "\n# Note, this is only unique for the current session." ++
  "\n# The size here has to match the size of rmw_dds_common/msg/Gid," ++
  "\n# but unfortunately we cannot use that message directly due to a" ++
  "\n# circular dependency." ++
  "\nchar[16] client_gid" ++
  "\n" ++
  "\n# Sequence number for the request" ++
  "\n# Combined with the client ID, this creates a unique ID for the service transaction" ++
  "\nint64 sequence_number\n"

/-- `TIME_MSG`, one literal per line. -/
def timeMsg : String :=
  "\n# This message communicates ROS Time defined here:" ++
  "\n# https://design.ros2.org/articles/clock_and_time.html" ++
  "\n" ++
  "\n# The seconds component, valid over all int32 values." ++
  "\nint32 sec" ++
  "\n" ++
  "\n# The nanoseconds component, valid in the range [0, 1e9), to be added to the seconds component. " ++
  "\n# e.g." ++
  "\n# The time -1.7 seconds is represented as \x7bsec: -2, nanosec: 3e8\x7d" ++
  "\n# The time 1.7 seconds is represented as \x7bsec: 1, nanosec: 7e8\x7d" ++
  "\nuint32 nanosec\n"

/-- `DURATION_MSG`, one literal per line. -/
def durationMsg : String :=
  "\n# Duration defines a period between two time points." ++
  "\n# Messages of this datatype are of ROS Time following this design:" ++
  "\n# https://design.ros2.org/articles/clock_and_time.html" ++
  "\n" ++
  "\n# The seconds component, valid over all int32 values." ++
  "\nint32 sec" ++
  "\n" ++
  "\n# The nanoseconds component, valid in the range [0, 1e9), to be added to the seconds component. " ++
  "\n# e.g." ++
  "\n# The duration -1.7 seconds is represented as \x7bsec: -2, nanosec: 3e8\x7d" ++
  "\n# The duration 1.7 seconds is represented as \x7bsec: 1, nanosec: 7e8\x7d" ++
  "\nuint32 nanosec\n"

/-- The package the built-in definitions are parsed in. -/
def builtinPackage (name : String) : Package := ⟨name, "/tmp", some .ROS2⟩

/-- `get_builtin_interfaces`: each definition is parsed, resolved and inserted under its full
name; a definition that fails to parse panics (`expect`). -/
def getBuiltinInterfaces : Outcome Empty (BTreeMap MessageFile) := do
  let parsed ← Outcome.expect "Internal representation of Time is invalid"
    (parseRosMessageFile timeMsg "Time" (builtinPackage "builtin_interfaces") "/tmp/msg/Time.msg")
  let map := BTreeMap.empty.insert parsed.getFullName ⟨parsed⟩
  let parsed ← Outcome.expect "Internal representation of Duration is invalid"
    (parseRosMessageFile durationMsg "Duration" (builtinPackage "builtin_interfaces")
      "/tmp/msg/Duration.msg")
  let map := map.insert parsed.getFullName ⟨parsed⟩
  let parsed ← Outcome.expect "Internal representation of ServiceEventInfo is invalid"
    (parseRosMessageFile serviceEventInfo "ServiceEventInfo" (builtinPackage "service_msgs")
      "/tmp/msg/ServiceEventInfo.msg")
  pure (map.insert parsed.getFullName ⟨parsed⟩)

end Roslibrust
