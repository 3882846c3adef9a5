import Roslibrust.Rust.BTreeMap

/-!
# `MockRos::advertise` and `MockRos::subscribe`

Both methods look the topic up under the read lock of the shared `TopicMap` and return a handle
on the channel found; on a miss they drop the read lock, create a fresh broadcast channel, take
the write lock, insert the channel (overwriting whatever is there) and return a handle on it.

A call is therefore two atomic steps on the shared map, and concurrent calls interleave between
them. The state is the map, the number of channels created so far (channels are named by their
creation number) and every call made; a `Phase` says where a call is. A call that has returned
holds a handle — a publisher's `Sender` or a subscriber's `Receiver` — on one channel, and a
message sent on a channel reaches exactly the receivers of that channel.
-/

namespace Roslibrust.Mock

/-- The trait method a call runs. -/
inductive Endpoint where
  | advertise
  | subscribe
  deriving Repr, DecidableEq

/-- Where a call is. -/
inductive Phase where
  /-- Not yet past its read-locked lookup. -/
  | start
  /-- Its lookup missed; the insert under the write lock is still to come. -/
  | missed
  /-- Returned a handle on channel `channel`. -/
  | returned (channel : Nat)
  deriving Repr, DecidableEq

/-- One `advertise` or `subscribe` call. -/
structure Call where
  /-- The method. -/
  endpoint : Endpoint
  /-- The topic argument. -/
  topic : String
  /-- How far the call has run. -/
  phase : Phase
  deriving Repr, DecidableEq

/-- The mock's shared topic state and the calls made on it. -/
structure World where
  /-- `TopicMap`: each topic's channel. -/
  topics : BTreeMap Nat
  /-- The number of channels `Channel::channel(10)` has created. -/
  channels : Nat
  /-- The calls, in the order they were issued. -/
  calls : List Call
  deriving DecidableEq

/-- `MockRos::new`, before any call. -/
def MockRos.new : World := ⟨.empty, 0, []⟩

/-- The scheduler's choices: issue a call, or run the next step of call number `i`. -/
inductive Action where
  /-- A task calls `advertise` or `subscribe` on a topic. -/
  | call (endpoint : Endpoint) (topic : String)
  /-- Call `i` runs its read-locked block. -/
  | lookup (i : Nat)
  /-- Call `i` creates a channel and runs its write-locked insert. -/
  | insert (i : Nat)
  deriving Repr, DecidableEq

/-- One atomic step; `none` when the chosen call is not at that step. -/
def step (w : World) : Action → Option World
  | .call e t => some { w with calls := w.calls ++ [⟨e, t, .start⟩] }
  | .lookup i =>
    match w.calls[i]? with
    | some ⟨e, t, .start⟩ =>
      some { w with calls := w.calls.set i ⟨e, t,
        match w.topics.get t with
        | some c => .returned c
        | none => .missed⟩ }
    | _ => none
  | .insert i =>
    match w.calls[i]? with
    | some ⟨e, t, .missed⟩ =>
      some { topics := w.topics.insert t w.channels, channels := w.channels + 1,
             calls := w.calls.set i ⟨e, t, .returned w.channels⟩ }
    | _ => none

/-- A schedule run from `w`: `none` if some step is not enabled. -/
def run (w : World) (as : List Action) : Option World := as.foldlM step w

/-- Some returned call holds a handle on channel `c` for topic `t`. -/
def HoldsHandle (w : World) (t : String) (c : Nat) : Prop :=
  ∃ e, ⟨e, t, .returned c⟩ ∈ w.calls

/-- The step is an insert over a topic the map already holds: the case the code does not
re-check after taking the write lock. -/
def Clobbers (w : World) : Action → Prop
  | .insert i => ∃ call ∈ w.calls[i]?, (w.topics.get call.topic).isSome
  | _ => False

end Roslibrust.Mock
