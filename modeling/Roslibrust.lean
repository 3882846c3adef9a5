import Roslibrust.Rust.Outcome
import Roslibrust.Rust.Str
import Roslibrust.Rust.BTreeMap
import Roslibrust.Codegen.Types
import Roslibrust.Codegen.Parse
import Roslibrust.Codegen.TypeDescription
import Roslibrust.Codegen.Json
import Roslibrust.Codegen.Hashing
import Roslibrust.Codegen.Builtin
import Roslibrust.Mock.Topics
import Roslibrust.Mock.Messaging
import Roslibrust.Mock.Services
import Roslibrust.Proofs.Str
import Roslibrust.Proofs.ParseType
import Roslibrust.Proofs.FieldLine
import Roslibrust.Proofs.FieldTypeId
import Roslibrust.Proofs.Convert
import Roslibrust.Proofs.Topics
import Roslibrust.Proofs.Delivery
import Roslibrust.Proofs.Services
import Roslibrust.Proofs.Json
import Roslibrust.Proofs.JsonRoundTrip
import Roslibrust.Proofs.Referenced
import Roslibrust.Proofs.Termination
import Roslibrust.Proofs.Locality
