import Roslibrust.Mock.Topics
import Mathlib.Logic.Function.Basic

/-!
# `MockPublisher::publish` and `MockSubscriber::next`

`publish` serializes the message and calls `Sender::send` on its handle's broadcast channel,
mapping a failed send to `Error::Disconnected`; `next` awaits `Receiver::recv` and maps every
receive error to `Error::Disconnected` before deserializing. The channels are the
`tokio::sync::broadcast` channels `Channel::channel(10)` makes, and the model follows that
library's documented behaviour:

* a channel keeps the values sent on it in order, and a receiver holds a position in that
  sequence; `resubscribe` gives a new receiver at the current tail;
* `send` succeeds when some receiver of the channel is alive, and otherwise hands the value back
  without storing it;
* the channel retains only the last `cap` values (`cap` is at least the 10 asked for: the library
  may round a capacity up); a receiver whose next value has been overwritten gets `Lagged` and
  moves to the oldest value retained; a receiver at the tail waits, or gets `Closed` once no
  sender of the channel is alive.

A topic-map entry holds a `(Sender, Receiver)` pair, so a channel in the map has a live sender
and a live receiver; replacing the entry drops both. The map itself lives in an `Arc` that the
clones of one `MockRos` share, and nothing else holds it: publishers and subscribers hold their
`Sender` or `Receiver` directly. The clones are counted, not told apart: a call borrows one, so
the last one is not dropped while a call is in flight; once it is dropped, the map's pairs go with
it, and a channel has a live sender or receiver only through handles. Handles live until dropped. Messages are the
serialized payloads (`bincode` is not modelled). The state extends the topic-map `World` with
each channel's sent values, each subscriber's position, the dropped handles, and the trace of
what the calls returned.
-/

namespace Roslibrust.Mock

variable {α : Type}

/-- What a call returned to its caller, in the order the steps ran. -/
inductive Event (α : Type) where
  /-- Call `i` (method `e`, topic `t`) returned a handle on channel `c`. -/
  | joined (i : Nat) (e : Endpoint) (t : String) (c : Nat)
  /-- The publisher of call `i` (topic `t`, channel `c`) published `v`; `ok` is false when
  `publish` returned `Error::Disconnected`. -/
  | published (i : Nat) (t : String) (c : Nat) (v : α) (ok : Bool)
  /-- The subscriber of call `i` got `v` from `next`, or `none` for `Error::Disconnected`. -/
  | received (i : Nat) (r : Option α)

/-- The mock with its channels' contents. -/
structure Net (α : Type) where
  /-- The topic map and the `advertise`/`subscribe` calls. -/
  world : World
  /-- Every value sent on each channel, oldest first. -/
  log : Nat → List α
  /-- Each subscriber's receiver position, by call number. -/
  position : Nat → Nat
  /-- The calls whose handle has been dropped. -/
  dropped : List Nat
  /-- What the calls returned, in order. -/
  events : List (Event α)
  /-- The live `MockRos` values, which share the topic map. -/
  mocks : Nat

/-- `MockRos::new`. -/
def Net.new : Net α := ⟨MockRos.new, fun _ => [], fun _ => 0, [], [], 1⟩

/-- The scheduler's choices: a topic-map step, a handle's `publish`, `next` or drop, or a clone
or drop of a `MockRos`. -/
inductive NetAction (α : Type) where
  /-- A step of an `advertise` or `subscribe` call. -/
  | topic (a : Action)
  /-- The publisher of call `i` publishes `v`. -/
  | publish (i : Nat) (v : α)
  /-- The subscriber of call `i` runs `next`. -/
  | next (i : Nat)
  /-- The handle of call `i` is dropped. -/
  | drop (i : Nat)
  /-- A `MockRos` is cloned. -/
  | cloneMockRos
  /-- A `MockRos` is dropped. -/
  | dropMockRos

/-- Some live handle returned by an `e` call is on channel `c`. -/
def Net.holds (n : Net α) (e : Endpoint) (c : Nat) : Bool :=
  n.world.calls.enum.any fun p =>
    p.2.endpoint == e && p.2.phase == .returned c && !(n.dropped.contains p.1)

/-- Some `MockRos` value still holds the topic map. -/
def Net.mapHeld (n : Net α) : Bool := decide (0 < n.mocks)

/-- Some `advertise` or `subscribe` call has not returned yet. -/
def Net.inFlight (n : Net α) : Bool :=
  n.world.calls.any fun call => call.phase == .start || call.phase == .missed

/-- Channel `c` has a live `Receiver`: the map's, or a subscriber's. -/
def Net.receiverLive (n : Net α) (c : Nat) : Bool :=
  n.mapHeld && n.world.topics.values.contains c || n.holds .subscribe c

/-- Channel `c` has a live `Sender`: the map's, or a publisher's. -/
def Net.senderLive (n : Net α) (c : Nat) : Bool :=
  n.mapHeld && n.world.topics.values.contains c || n.holds .advertise c

/-- One atomic step, with the channels' capacity `cap`; `none` when it is not enabled (a
`next` at the tail of an open channel is still waiting). -/
def Net.step (cap : Nat) (n : Net α) : NetAction α → Option (Net α)
  | .topic (.call e t) =>
    if n.mocks = 0 then none
    else some { n with world := { n.world with calls := n.world.calls ++ [⟨e, t, .start⟩] } }
  | .topic (.lookup i) =>
    match n.world.calls[i]? with
    | some ⟨e, t, .start⟩ =>
      match n.world.topics.get t with
      | some c => some { n with
          world := { n.world with calls := n.world.calls.set i ⟨e, t, .returned c⟩ }
          position := if e = .subscribe then Function.update n.position i (n.log c).length
            else n.position
          events := n.events ++ [.joined i e t c] }
      | none =>
        some { n with world := { n.world with calls := n.world.calls.set i ⟨e, t, .missed⟩ } }
    | _ => none
  | .topic (.insert i) =>
    match n.world.calls[i]? with
    | some ⟨e, t, .missed⟩ => some { n with
        world := ⟨n.world.topics.insert t n.world.channels, n.world.channels + 1,
          n.world.calls.set i ⟨e, t, .returned n.world.channels⟩⟩
        position := if e = .subscribe then Function.update n.position i 0 else n.position
        events := n.events ++ [.joined i e t n.world.channels] }
    | _ => none
  | .publish i v =>
    match n.world.calls[i]? with
    | some ⟨.advertise, t, .returned c⟩ =>
      if n.dropped.contains i then none
      else if n.receiverLive c then
        some { n with log := Function.update n.log c (n.log c ++ [v])
                      events := n.events ++ [.published i t c v true] }
      else some { n with events := n.events ++ [.published i t c v false] }
    | _ => none
  | .next i =>
    match n.world.calls[i]? with
    | some ⟨.subscribe, _, .returned c⟩ =>
      if n.dropped.contains i then none
      else if n.position i + cap < (n.log c).length then
        some { n with position := Function.update n.position i ((n.log c).length - cap)
                      events := n.events ++ [.received i none] }
      else if h : n.position i < (n.log c).length then
        some { n with position := Function.update n.position i (n.position i + 1)
                      events := n.events ++ [.received i (some (n.log c)[n.position i])] }
      else if n.senderLive c then none
      else some { n with events := n.events ++ [.received i none] }
    | _ => none
  | .drop i =>
    match n.world.calls[i]? with
    | some ⟨_, _, .returned _⟩ =>
      if n.dropped.contains i then none else some { n with dropped := i :: n.dropped }
    | _ => none
  | .cloneMockRos => if n.mocks = 0 then none else some { n with mocks := n.mocks + 1 }
  | .dropMockRos =>
    if n.mocks = 0 ∨ n.mocks = 1 ∧ n.inFlight then none else some { n with mocks := n.mocks - 1 }

/-- A schedule run from `n`: `none` if some step is not enabled. -/
def Net.run (cap : Nat) (n : Net α) (as : List (NetAction α)) : Option (Net α) :=
  as.foldlM (Net.step cap) n

/-- The topic-map steps of a schedule. -/
def topicActions : List (NetAction α) → List Action :=
  List.filterMap fun | .topic a => some a | _ => none

end Roslibrust.Mock
