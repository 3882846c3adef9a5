import Roslibrust.Rust.BTreeMap

/-!
# `MockRos`'s services

`advertise_service` type-erases the server into a callback from a serialized request to a
serialized response and inserts it into the shared `ServiceStore` under the write lock, replacing
an earlier server of the topic. `service_client` returns a `MockServiceClient` that holds only the
topic and a `Weak` reference to the store, and `call_service` makes one and calls it.
`MockServiceClient::call` runs in two steps that other tasks interleave with: it upgrades its
`Weak` reference, failing when the store is gone; then, after yielding, it looks the topic up under
the read lock and runs the callback it found on a blocking thread.

The store lives as long as a strong reference to it does: one for each live `MockRos` value (its
clones share the store), and one for each call between its upgrade and its answer. Requests and
responses are the serialized payloads (`bincode` is not modelled): a callback answers with a
response, with the error it boxed (a failed deserialization, the server's own error or a failed
serialization), or with a panic, which `spawn_blocking` reports as a `JoinError`.
-/

namespace Roslibrust.Mock

variable {β : Type}

/-- What a type-erased callback does with a serialized request. -/
inductive Reply (β : Type) where
  /-- The serialized response. -/
  | ok (response : β)
  /-- The boxed error, by its `to_string`. -/
  | err (message : String)
  /-- The callback panicked. -/
  | panic

/-- The variants of `roslibrust_common::Error` that a service call returns, as lib.rs builds
them. -/
inductive Error where
  | ServerError (message : String)
  | SerializationError (message : String)
  | Disconnected
  deriving DecidableEq, Repr

/-- Where a service call is. -/
inductive CallPhase (β : Type) where
  /-- Not yet past the upgrade of its `Weak` reference. -/
  | start
  /-- Holding the store, its lookup still to come. -/
  | upgraded
  /-- Returned. -/
  | returned (result : Except Error β)

/-- A call is past its upgrade and not yet answered: it holds a strong reference. -/
def CallPhase.isUpgraded : CallPhase β → Bool
  | .upgraded => true
  | _ => false

/-- One `MockServiceClient::call`. -/
structure ServiceCall (β : Type) where
  /-- The client's topic. -/
  topic : String
  /-- The serialized request. -/
  request : β
  /-- How far the call has run. -/
  phase : CallPhase β

/-- The mock's services and the calls made on them. -/
structure Services (β : Type) where
  /-- `ServiceStore`: each topic's callback. -/
  store : BTreeMap (β → Reply β)
  /-- The live `MockRos` values, each holding the store. -/
  handles : Nat
  /-- The calls, in the order they were made. -/
  calls : List (ServiceCall β)

/-- `MockRos::new`: one `MockRos` value and an empty store. -/
def Services.new : Services β := ⟨.empty, 1, []⟩

/-- The strong count of the store's `Arc`: the live `MockRos` values and the calls holding it. -/
def Services.strongCount (s : Services β) : Nat :=
  s.handles + s.calls.countP fun call => call.phase.isUpgraded

/-- The scheduler's choices. -/
inductive ServiceAction (β : Type) where
  /-- `advertise_service` on a live `MockRos`: the insert under the write lock. -/
  | advertiseService (topic : String) (server : β → Reply β)
  /-- A client of `topic` (from `service_client`, or made by `call_service`) calls `call`. -/
  | call (topic : String) (request : β)
  /-- Call `i` upgrades its `Weak` reference. -/
  | upgrade (i : Nat)
  /-- Call `i` looks its topic up under the read lock and runs the callback. -/
  | lookup (i : Nat)
  /-- A live `MockRos` is cloned. -/
  | clone
  /-- A live `MockRos` is dropped. -/
  | drop

/-- The error of a call whose `Weak` reference no longer upgrades. -/
def backendDropped : Error :=
  .ServerError "No connection to MockRos backend? Has it been dropped?"

/-- The error of a call that found no server for its topic. -/
def noServer (topic : String) : Error :=
  .ServerError ("No service server found for topic: " ++ topic)

/-- What `call` returns once the callback has run: a `JoinError` is `Disconnected`, the
callback's boxed error a `SerializationError` carrying its text. -/
def callbackResult : Reply β → Except Error β
  | .ok response => .ok response
  | .err message => .error (.SerializationError message)
  | .panic => .error .Disconnected

/-- What `call` returns after its lookup found `server`, or nothing, for `topic`. -/
def lookupResult (topic : String) (request : β) : Option (β → Reply β) → Except Error β
  | none => .error (noServer topic)
  | some server => callbackResult (server request)

/-- One atomic step; `none` when it is not enabled. -/
def Services.step (s : Services β) : ServiceAction β → Option (Services β)
  | .advertiseService t server =>
    if s.handles = 0 then none else some { s with store := s.store.insert t server }
  | .call t request => some { s with calls := s.calls ++ [⟨t, request, .start⟩] }
  | .upgrade i =>
    match s.calls[i]? with
    | some ⟨t, request, .start⟩ =>
      some { s with calls := s.calls.set i ⟨t, request,
        if s.strongCount = 0 then .returned (.error backendDropped) else .upgraded⟩ }
    | _ => none
  | .lookup i =>
    match s.calls[i]? with
    | some ⟨t, request, .upgraded⟩ =>
      some { s with
        calls := s.calls.set i
          ⟨t, request, .returned (lookupResult t request (s.store.get t))⟩ }
    | _ => none
  | .clone => if s.handles = 0 then none else some { s with handles := s.handles + 1 }
  | .drop => if s.handles = 0 then none else some { s with handles := s.handles - 1 }

/-- A schedule run from `s`: `none` if some step is not enabled. -/
def Services.run (s : Services β) (as : List (ServiceAction β)) : Option (Services β) :=
  as.foldlM Services.step s

end Roslibrust.Mock
