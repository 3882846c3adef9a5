import Roslibrust.Mock.Messaging
import Roslibrust.Proofs.Topics

/-!
# Proofs: what a mock subscriber receives

`Net.step_cases` says once what each step of the messaging model can do, and every schedule runs
its topic-map steps as a schedule of the topic-map model, to the same map and calls
(`Net.run_world`). The invariant `Net.Wf` of every reachable state ties the channels to the trace
of what the calls returned: a channel holds exactly what was sent on it, and a subscriber has read
its channel from the tail it joined at (`Reads`). So in every interleaving, races included, what a
subscriber gets is, in order and never twice, some of the values sent on its channel after it
subscribed, and exactly the first of them when `next` never failed (`Net.run_receivedInOrder`).

On the schedules in which no insert overwrites a map entry, a subscriber's channel is its topic's
(`Net.OnMap`), so delivery holds per topic (`Net.run_topicDelivery`). While a `MockRos` is alive,
the map's `(Sender, Receiver)` pair keeps such a channel open and listened to, and no step brings
the last `MockRos` back once it is dropped (`Net.run_mocks`). So on the schedules after which one
is still alive, `next` fails only when the subscriber lags more than the channel's capacity behind
(`Net.Held`): every `publish` succeeds (`Net.run_publishSucceeds`), a subscriber that had at most
the 10 values `Channel::channel(10)` asks for published after it subscribed loses none of them
(`Net.run_noLoss`), and at the tail of its channel `next` waits (`Net.run_noShutdown`).
-/

namespace Roslibrust.Mock

variable {α : Type} {cap : Nat} {n n' : Net α} {a : NetAction α}

/-! ### One step, and the topic-map model below it -/

/-- What one step can do, guards included: the topic-map steps change the world as `step` does
and record a returned handle; `publish`, `next`, a handle's drop and a `MockRos` clone or drop
leave the world alone. -/
theorem Net.step_cases (h : Net.step cap n a = some n') :
    (∃ e t, a = .topic (.call e t) ∧ 0 < n.mocks ∧
      n' = { n with world := { n.world with calls := n.world.calls ++ [⟨e, t, .start⟩] } }) ∨
    (∃ i e t c, a = .topic (.lookup i) ∧ n.world.calls[i]? = some ⟨e, t, .start⟩ ∧
      n.world.topics.get t = some c ∧
      n' = { n with world := { n.world with calls := n.world.calls.set i ⟨e, t, .returned c⟩ }
                    position := if e = .subscribe then Function.update n.position i (n.log c).length
                      else n.position
                    events := n.events ++ [.joined i e t c] }) ∨
    (∃ i e t, a = .topic (.lookup i) ∧ n.world.calls[i]? = some ⟨e, t, .start⟩ ∧
      n.world.topics.get t = none ∧
      n' = { n with
        world := { n.world with calls := n.world.calls.set i ⟨e, t, .missed⟩ } }) ∨
    (∃ i e t, a = .topic (.insert i) ∧ n.world.calls[i]? = some ⟨e, t, .missed⟩ ∧
      n' = { n with world := ⟨n.world.topics.insert t n.world.channels, n.world.channels + 1,
                      n.world.calls.set i ⟨e, t, .returned n.world.channels⟩⟩
                    position :=
                      if e = .subscribe then Function.update n.position i 0 else n.position
                    events := n.events ++ [.joined i e t n.world.channels] }) ∨
    (∃ i t c v, a = .publish i v ∧ n.world.calls[i]? = some ⟨.advertise, t, .returned c⟩ ∧
      n.dropped.contains i = false ∧
      n' = { n with
        log := if n.receiverLive c then Function.update n.log c (n.log c ++ [v]) else n.log
        events := n.events ++ [.published i t c v (n.receiverLive c)] }) ∨
    (∃ i t c r k, a = .next i ∧ n.world.calls[i]? = some ⟨.subscribe, t, .returned c⟩ ∧
      n.dropped.contains i = false ∧
      ((n.position i + cap < (n.log c).length ∧ r = none ∧ k = (n.log c).length - cap) ∨
        (∃ hk : n.position i < (n.log c).length, (n.log c).length ≤ n.position i + cap ∧
          r = some (n.log c)[n.position i] ∧ k = n.position i + 1) ∨
        ((n.log c).length ≤ n.position i ∧ n.senderLive c = false ∧ r = none ∧
          k = n.position i)) ∧
      n' = { n with position := Function.update n.position i k
                    events := n.events ++ [.received i r] }) ∨
    (∃ i e t c, a = .drop i ∧ n.world.calls[i]? = some ⟨e, t, .returned c⟩ ∧
      n.dropped.contains i = false ∧ n' = { n with dropped := i :: n.dropped }) ∨
    (a = .cloneMockRos ∧ 0 < n.mocks ∧ n' = { n with mocks := n.mocks + 1 }) ∨
    (a = .dropMockRos ∧ 0 < n.mocks ∧ (n.mocks = 1 → n.inFlight = false) ∧
      n' = { n with mocks := n.mocks - 1 }) := by
  cases a with
  | topic b =>
    cases b with
    | call e t =>
      simp only [Net.step] at h
      split_ifs at h with h0
      cases h; exact .inl ⟨e, t, rfl, Nat.pos_of_ne_zero h0, rfl⟩
    | lookup i =>
      simp only [Net.step] at h
      split at h
      · rename_i e t hi
        split at h
        · cases h; exact .inr (.inl ⟨i, e, t, _, rfl, hi, ‹_›, rfl⟩)
        · cases h; exact .inr (.inr (.inl ⟨i, e, t, rfl, hi, ‹_›, rfl⟩))
      · cases h
    | insert i =>
      simp only [Net.step] at h
      split at h
      · cases h; exact .inr (.inr (.inr (.inl ⟨i, _, _, rfl, ‹_›, rfl⟩)))
      · cases h
  | publish i v =>
    simp only [Net.step] at h
    split at h
    · rename_i t c hi
      refine .inr (.inr (.inr (.inr (.inl ⟨i, t, c, v, rfl, hi, ?_⟩))))
      split_ifs at h with hd hl <;> cases h <;> simp_all
    · cases h
  | next i =>
    simp only [Net.step] at h
    split at h
    · rename_i t c hi
      refine .inr (.inr (.inr (.inr (.inr (.inl ⟨i, t, c, ?_⟩)))))
      split_ifs at h with hd hlag hlt hs <;> cases h
      · exact ⟨none, _, rfl, hi, by simpa using hd, .inl ⟨hlag, rfl, rfl⟩, rfl⟩
      · exact ⟨_, _, rfl, hi, by simpa using hd,
          .inr (.inl ⟨hlt, by omega, rfl, rfl⟩), rfl⟩
      · exact ⟨none, n.position i, rfl, hi, by simpa using hd,
          .inr (.inr ⟨by omega, by simpa using hs, rfl, rfl⟩),
          by simp [Function.update_eq_self]⟩
    · cases h
  | drop i =>
    simp only [Net.step] at h
    split at h
    · split_ifs at h with hd
      cases h
      exact .inr (.inr (.inr (.inr (.inr (.inr (.inl
        ⟨i, _, _, _, rfl, ‹_›, by simpa using hd, rfl⟩))))))
    · cases h
  | cloneMockRos =>
    simp only [Net.step] at h
    split_ifs at h with h0
    cases h; exact .inr (.inr (.inr (.inr (.inr (.inr (.inr (.inl
      ⟨rfl, Nat.pos_of_ne_zero h0, rfl⟩)))))))
  | dropMockRos =>
    simp only [Net.step] at h
    split_ifs at h with h0
    cases h; push_neg at h0
    exact .inr (.inr (.inr (.inr (.inr (.inr (.inr (.inr
      ⟨rfl, Nat.pos_of_ne_zero h0.1, fun h1 => by simpa using h0.2 h1, rfl⟩)))))))

/-- A step changes the topic map and the calls exactly as the topic-map model's step does. -/
theorem Net.step_world (h : Net.step cap n a = some n') :
    Mock.run n.world (topicActions [a]) = some n'.world := by
  rcases Net.step_cases h with ⟨e, t, rfl, -, rfl⟩ | ⟨i, e, t, c, rfl, hi, hc, rfl⟩ |
      ⟨i, e, t, rfl, hi, hc, rfl⟩ | ⟨i, e, t, rfl, hi, rfl⟩ |
      ⟨i, t, c, v, rfl, -, -, rfl⟩ | ⟨i, t, c, r, k, rfl, -, -, -, rfl⟩ |
      ⟨i, e, t, c, rfl, -, -, rfl⟩ | ⟨rfl, -, rfl⟩ | ⟨rfl, -, -, rfl⟩ <;>
    simp [Mock.run, topicActions, Mock.step, *]

theorem topicActions_cons (a : NetAction α) (as : List (NetAction α)) :
    topicActions (a :: as) = topicActions [a] ++ topicActions as := by
  cases a <;> rfl

/-- Every schedule of the messaging model runs its topic-map steps as a schedule of the topic-map
model, to the same map and calls. -/
theorem Net.run_world :
    ∀ {as : List (NetAction α)} {n n' : Net α}, Net.run cap n as = some n' →
      Mock.run n.world (topicActions as) = some n'.world
  | [], _, _, h => by cases h; rfl
  | a :: as, n, n', h => by
    obtain ⟨n₁, h₁, h₂⟩ := Option.bind_eq_some.mp h
    rw [topicActions_cons, Mock.run, List.foldlM_append]
    exact Option.bind_eq_some.mpr ⟨_, Net.step_world h₁, Net.run_world h₂⟩

/-! ### Handles -/

/-- The handle a call holds once it has returned: its method, topic and channel. -/
def Call.handle (call : Call) : Option (Endpoint × String × Nat) :=
  match call.phase with
  | .returned c => some (call.endpoint, call.topic, c)
  | _ => none

/-- The handle call `i` holds, if it has returned. -/
def handleOf (calls : List Call) (i : Nat) : Option (Endpoint × String × Nat) :=
  calls[i]?.bind Call.handle

theorem handleOf_eq_some {calls : List Call} {i : Nat} {e : Endpoint} {t : String} {c : Nat} :
    handleOf calls i = some (e, t, c) ↔ calls[i]? = some ⟨e, t, .returned c⟩ := by
  unfold handleOf
  rcases calls[i]? with _ | ⟨e', t', p⟩
  · simp
  · cases p <;> simp [Call.handle, and_assoc]

theorem handleOf_append_start (calls : List Call) (e : Endpoint) (t : String) :
    handleOf (calls ++ [⟨e, t, .start⟩]) = handleOf calls := by
  funext i
  unfold handleOf
  rw [List.getElem?_append]
  split
  · rfl
  · rw [List.getElem?_eq_none (by omega : calls.length ≤ i)]
    cases i - calls.length <;> simp [Call.handle]

/-- Changing one call changes only its own entry. -/
theorem handleOf_set {calls : List Call} {j : Nat} (hj : j < calls.length) (x : Call) :
    handleOf (calls.set j x) = Function.update (handleOf calls) j x.handle := by
  funext i
  unfold handleOf
  rw [List.getElem?_set, Function.update_apply]
  by_cases hij : i = j
  · subst hij; simp [hj]
  · simp [Ne.symm hij, hij]

theorem handleOf_of_handle {calls : List Call} {j : Nat} {call : Call}
    (hj : calls[j]? = some call) : handleOf calls j = call.handle := by
  simp [handleOf, hj]


/-! ### What a trace says -/

/-- The call an event is of. -/
def Event.caller : Event α → Nat
  | .joined i .. | .published i .. | .received i _ => i

/-- What the subscriber of call `i` got from `next`, in order. -/
def receivedBy (i : Nat) : List (Event α) → List (Option α) :=
  List.filterMap fun
    | .received j r => if j = i then some r else none
    | _ => none

/-- The values sent on channel `c`, in order. -/
def sentOn (c : Nat) : List (Event α) → List α :=
  List.filterMap fun
    | .published _ _ c' v true => if c' = c then some v else none
    | _ => none

/-- The values published on topic `t` that `publish` reported sent, in order. -/
def sentOnTopic (t : String) : List (Event α) → List α :=
  List.filterMap fun
    | .published _ t' _ v true => if t' = t then some v else none
    | _ => none

/-- The events after call `i` returned its handle. -/
def afterJoin (i : Nat) : List (Event α) → List (Event α)
  | [] => []
  | .joined j _ _ _ :: evs => if j = i then evs else afterJoin i evs
  | _ :: evs => afterJoin i evs

theorem receivedBy_eq_nil {i : Nat} {evs : List (Event α)} (h : ∀ ev ∈ evs, ev.caller ≠ i) :
    receivedBy i evs = [] :=
  List.filterMap_eq_nil_iff.mpr fun ev hev => by
    have := h ev hev
    cases ev <;> simp_all [Event.caller]

theorem afterJoin_append_of_caller_ne {i : Nat} {evs : List (Event α)}
    (h : ∀ ev ∈ evs, ev.caller ≠ i) (l : List (Event α)) :
    afterJoin i (evs ++ l) = afterJoin i l := by
  induction evs with
  | nil => rfl
  | cons ev evs ih =>
    have hev := h ev (.head _)
    have := ih fun ev' h' => h ev' (.tail _ h')
    cases ev <;> simp_all [afterJoin, Event.caller]

theorem afterJoin_append_of_joined {i : Nat} {evs : List (Event α)} {e : Endpoint} {t : String}
    {c : Nat} (h : .joined i e t c ∈ evs) (l : List (Event α)) :
    afterJoin i (evs ++ l) = afterJoin i evs ++ l := by
  induction evs with
  | nil => cases h
  | cons ev evs ih =>
    cases ev with
    | joined j e' t' c' =>
      by_cases hj : j = i
      · simp [afterJoin, hj]
      · have : Event.joined i e t c ∈ evs := by
          rcases List.mem_cons.mp h with h | h
          · cases h; exact absurd rfl hj
          · exact h
        simp [afterJoin, hj, ih this]
    | published | received =>
      simp only [List.cons_append, afterJoin]
      exact ih (by simpa using h)

/-! ### What one subscriber read -/

/-- A subscriber that started at position `s` of its channel's values `L`, whose `next` calls
returned `R` and left it at position `k`: each call returned the value at its position and moved
past it, or returned an error and moved forward, at most to the tail. -/
inductive Reads (L : List α) (s : Nat) : Nat → List (Option α) → Prop
  | start : s ≤ L.length → Reads L s s []
  | value {k R} : Reads L s k R → (hk : k < L.length) → Reads L s (k + 1) (R ++ [some L[k]])
  | error {k k' R} : Reads L s k R → k ≤ k' → k' ≤ L.length → Reads L s k' (R ++ [none])

namespace Reads

variable {L : List α} {s k : Nat} {R : List (Option α)}

theorem bounds (h : Reads L s k R) : s ≤ k ∧ k ≤ L.length := by
  induction h <;> omega

/-- Sending more values keeps what was read. -/
theorem append (h : Reads L s k R) (M : List α) : Reads (L ++ M) s k R := by
  induction h with
  | start hs => exact .start (by simp; omega)
  | value _ hk ih =>
    have := ih.value (by simp; omega)
    rwa [List.getElem_append_left hk] at this
  | error _ h₁ h₂ ih => exact ih.error h₁ (by simp; omega)

/-- The values read are, in order, some of the values between the start and the position. -/
theorem sublist (h : Reads L s k R) : (R.filterMap id).Sublist ((L.take k).drop s) := by
  induction h with
  | start => simp
  | @value k R h hk ih =>
    rw [List.filterMap_append, List.take_succ, List.getElem?_eq_getElem hk,
      List.drop_append_of_le_length (by have := h.bounds; simp; omega)]
    exact ih.append (by simp)
  | error _ h₁ _ ih =>
    simpa using ih.trans ((List.take_sublist_take_left _ h₁).drop s)

/-- Without an error, the values read are exactly the values between the start and the
position. -/
theorem eq_of_none_not_mem (h : Reads L s k R) (hR : none ∉ R) :
    R.filterMap id = (L.take k).drop s := by
  induction h with
  | start => simp
  | @value k R h hk ih =>
    rw [List.filterMap_append, List.take_succ, List.getElem?_eq_getElem hk,
      List.drop_append_of_le_length (by have := h.bounds; simp; omega),
      ih fun hn => hR (List.mem_append_left _ hn)]
    simp
  | error => simp at hR

end Reads


@[simp] theorem receivedBy_append (i : Nat) (l l' : List (Event α)) :
    receivedBy i (l ++ l') = receivedBy i l ++ receivedBy i l' :=
  List.filterMap_append _ _ _

@[simp] theorem sentOn_append (c : Nat) (l l' : List (Event α)) :
    sentOn c (l ++ l') = sentOn c l ++ sentOn c l' :=
  List.filterMap_append _ _ _

/-! ### The delivery invariant -/

/-- The trace part of the invariant, over the handles `h`, each channel's values, the
subscribers' positions and the trace: each channel holds what was sent on it, and every subscriber
has read its channel from where it joined. -/
structure Delivers (h : Nat → Option (Endpoint × String × Nat)) (log : Nat → List α)
    (position : Nat → Nat) (evs : List (Event α)) : Prop where
  /-- Every event is of a call that holds a handle. -/
  caller : ∀ ev ∈ evs, (h ev.caller).isSome
  /-- A call that holds a handle has its `joined` event in the trace. -/
  joined : ∀ {i e t c}, h i = some (e, t, c) → .joined i e t c ∈ evs
  /-- A channel holds exactly the values sent on it. -/
  log_eq : ∀ c, log c = sentOn c evs
  /-- A subscriber started at the tail of its channel and has read it since. -/
  reads : ∀ {i t c}, h i = some (.subscribe, t, c) →
    ∃ s, Reads (log c) s (position i) (receivedBy i evs) ∧
      sentOn c (afterJoin i evs) = (log c).drop s

namespace Delivers

variable {h : Nat → Option (Endpoint × String × Nat)} {log : Nat → List α}
  {position : Nat → Nat} {evs : List (Event α)} {j : Nat} {e : Endpoint} {t : String} {c : Nat}

theorem nil : Delivers (fun _ => none) (fun _ => []) position ([] : List (Event α)) :=
  ⟨fun _ h => (List.not_mem_nil _ h).elim, fun h => (by cases h), fun _ => rfl,
    fun h => (by cases h)⟩

/-- Call `j` returns a handle on channel `c`; a subscriber starts at the channel's tail. -/
theorem join (hd : Delivers h log position evs) (hj : h j = none) :
    Delivers (Function.update h j (some (e, t, c))) log
      (if e = .subscribe then Function.update position j (log c).length else position)
      (evs ++ [.joined j e t c]) := by
  have hne : ∀ ev ∈ evs, ev.caller ≠ j := fun ev hev heq => by
    simpa [heq, hj] using hd.caller ev hev
  refine ⟨fun ev hev => ?_, fun {i _ _ _} hi => ?_,
    fun c' => by rw [hd.log_eq, sentOn_append]; exact (List.append_nil _).symm,
    fun {i _ _} hi => ?_⟩
  · rcases List.mem_append.mp hev with hev | hev
    · rw [Function.update_apply]
      split_ifs <;> simp [hd.caller ev hev]
    · rw [List.mem_singleton.mp hev]
      simp [Event.caller]
  · rw [Function.update_apply] at hi
    split_ifs at hi with hij
    · cases hi; simp [hij]
    · exact List.mem_append_left _ (hd.joined hi)
  · rw [Function.update_apply] at hi
    split_ifs at hi with hij
    · cases hi; subst hij
      refine ⟨(log c).length, ?_, ?_⟩
      · rw [receivedBy_append, receivedBy_eq_nil hne]
        simpa using Reads.start le_rfl
      · simp [afterJoin_append_of_caller_ne hne, afterJoin, sentOn]
    · obtain ⟨s, hr, hs⟩ := hd.reads hi
      have hp : (if e = .subscribe then Function.update position j (log c).length else position) i =
          position i := by
        split_ifs <;> simp [hij]
      refine ⟨s, ?_, ?_⟩
      · simpa [hp, receivedBy] using hr
      · simpa [afterJoin_append_of_joined (hd.joined hi), sentOn] using hs

/-- The publisher of call `j` (topic `t`, channel `c`) publishes `v`; the value is sent when
`ok`. -/
theorem publish (hd : Delivers h log position evs) (hj : (h j).isSome) (ok : Bool) (v : α) :
    Delivers h (if ok then Function.update log c (log c ++ [v]) else log) position
      (evs ++ [.published j t c v ok]) := by
  have hlog : ∀ c', (if ok then Function.update log c (log c ++ [v]) else log) c' =
      log c' ++ sentOn c' [.published j t c v ok] := by
    intro c'
    by_cases hc : c' = c
    · subst hc; cases ok <;> simp [sentOn]
    · cases ok <;> simp [sentOn, hc, Ne.symm hc]
  refine ⟨fun ev hev => ?_, fun hi => List.mem_append_left _ (hd.joined hi),
    fun c' => by rw [hlog, hd.log_eq, sentOn_append], fun {i _ c'} hi => ?_⟩
  · rcases List.mem_append.mp hev with hev | hev
    · exact hd.caller ev hev
    · rw [List.mem_singleton.mp hev]
      exact hj
  · obtain ⟨s, hr, hs⟩ := hd.reads hi
    refine ⟨s, ?_, ?_⟩
    · simpa [hlog, receivedBy] using hr.append (sentOn c' [.published j t c v ok])
    · rw [afterJoin_append_of_joined (hd.joined hi), sentOn_append, hs, hlog,
        List.drop_append_of_le_length (hr.bounds.1.trans hr.bounds.2)]

/-- The subscriber of call `j` on channel `c` gets `r` from `next` and moves to position `k`:
the value at its position, or an error and a position forward, at most to the tail. -/
theorem next (hd : Delivers h log position evs) (hj : h j = some (.subscribe, t, c)) {r : Option α}
    {k : Nat}
    (hr : (∃ hk : position j < (log c).length, r = some (log c)[position j] ∧
        k = position j + 1) ∨
      (r = none ∧ position j ≤ k ∧ (k ≤ (log c).length ∨ k = position j))) :
    Delivers h log (Function.update position j k) (evs ++ [.received j r]) := by
  refine ⟨fun ev hev => ?_, fun hi => List.mem_append_left _ (hd.joined hi),
    fun c' => by rw [hd.log_eq, sentOn_append]; exact (List.append_nil _).symm,
    fun {i _ c'} hi => ?_⟩
  · rcases List.mem_append.mp hev with hev | hev
    · exact hd.caller ev hev
    · rw [List.mem_singleton.mp hev]
      simp [Event.caller, hj]
  · obtain ⟨s, hR, hs⟩ := hd.reads hi
    have hsent : sentOn c' (afterJoin i (evs ++ [.received j r])) = (log c').drop s := by
      simpa [afterJoin_append_of_joined (hd.joined hi), sentOn] using hs
    by_cases hij : i = j
    · subst hij
      obtain rfl : c' = c := by simp_all
      refine ⟨s, ?_, hsent⟩
      rw [Function.update_same, receivedBy_append]
      rcases hr with ⟨hk, rfl, rfl⟩ | ⟨rfl, hk, hk'⟩
      · simpa [receivedBy] using hR.value hk
      · have := hR.bounds
        simpa [receivedBy] using hR.error hk (by omega)
    · refine ⟨s, ?_, hsent⟩
      simpa [Function.update_noteq hij, receivedBy, Ne.symm hij] using hR

end Delivers

/-- A step never takes a handle away. -/
theorem Net.step_handleOf (h : Net.step cap n a = some n') {i : Nat}
    {x : Endpoint × String × Nat} (hx : handleOf n.world.calls i = some x) :
    handleOf n'.world.calls i = some x := by
  rcases Net.step_cases h with ⟨e, t, -, -, rfl⟩ | ⟨j, e, t, c, -, hj, -, rfl⟩ |
      ⟨j, e, t, -, hj, -, rfl⟩ | ⟨j, e, t, -, hj, rfl⟩ | ⟨_, _, _, _, -, -, -, rfl⟩ |
      ⟨_, _, _, _, _, -, -, -, -, rfl⟩ | ⟨_, _, _, _, -, -, -, rfl⟩ | ⟨-, -, rfl⟩ |
      ⟨-, -, -, rfl⟩
  case inl => rwa [handleOf_append_start]
  case inr.inl | inr.inr.inl | inr.inr.inr.inl =>
    have hij : i ≠ j := fun e => by simp [e, handleOf_of_handle hj, Call.handle] at hx
    simpa [handleOf_set (List.getElem?_eq_some_iff.mp hj).1, hij] using hx
  all_goals exact hx

/-- A step only adds events at the end of the trace. -/
theorem Net.step_events (h : Net.step cap n a = some n') : ∃ l, n'.events = n.events ++ l := by
  rcases Net.step_cases h with ⟨_, _, -, -, rfl⟩ | ⟨_, _, _, _, -, -, -, rfl⟩ |
      ⟨_, _, _, -, -, -, rfl⟩ | ⟨_, _, _, -, -, rfl⟩ | ⟨_, _, _, _, -, -, -, rfl⟩ |
      ⟨_, _, _, _, _, -, -, -, -, rfl⟩ | ⟨_, _, _, _, -, -, -, rfl⟩ | ⟨-, -, rfl⟩ |
      ⟨-, -, -, rfl⟩ <;>
    first | exact ⟨_, rfl⟩ | exact ⟨[], (List.append_nil _).symm⟩

/-! ### The reachable states -/

/-- What every reachable state keeps. -/
structure Net.Wf (n : Net α) : Prop where
  /-- Every channel in the map has been created. -/
  map_lt : ∀ {t c}, n.world.topics.get t = some c → c < n.world.channels
  /-- Two topics never share a channel in the map. -/
  map_inj : ∀ {t t' c}, n.world.topics.get t = some c → n.world.topics.get t' = some c →
    t = t'
  /-- Every handle is on a channel that has been created. -/
  handle_lt : ∀ {i e t c}, handleOf n.world.calls i = some (e, t, c) → c < n.world.channels
  /-- Nothing has been sent on a channel not yet created. -/
  fresh : ∀ {c}, n.world.channels ≤ c → n.log c = []
  /-- Every subscriber has read its channel from where it joined. -/
  delivers : Delivers (handleOf n.world.calls) n.log n.position n.events

theorem Net.wf_new : (Net.new : Net α).Wf where
  map_lt h := by cases h
  map_inj h := by cases h
  handle_lt h := by cases h
  fresh _ := rfl
  delivers := Delivers.nil

/-- Changing the calls without changing who holds which handle keeps the invariant. -/
theorem Net.Wf.of_handleOf (hw : n.Wf) {calls : List Call}
    (hh : handleOf calls = handleOf n.world.calls) :
    ({ n with world := { n.world with calls := calls } } : Net α).Wf where
  map_lt := hw.map_lt
  map_inj := hw.map_inj
  handle_lt h := hw.handle_lt (by rwa [← hh])
  fresh := hw.fresh
  delivers := by simpa only [hh] using hw.delivers

/-- Every step keeps the invariant. -/
theorem Net.Wf.step (hw : n.Wf) (h : Net.step cap n a = some n') : n'.Wf := by
  rcases Net.step_cases h with ⟨e, t, -, -, rfl⟩ | ⟨i, e, t, c, -, hi, hc, rfl⟩ |
      ⟨i, e, t, -, hi, -, rfl⟩ | ⟨i, e, t, -, hi, rfl⟩ | ⟨i, t, c, v, -, hi, -, rfl⟩ |
      ⟨i, t, c, r, k, -, hi, -, hr, rfl⟩ | ⟨i, -, -, -, -, -, -, -, rfl⟩ | ⟨-, -, rfl⟩ |
      ⟨-, -, -, rfl⟩
  case inl => exact hw.of_handleOf (handleOf_append_start _ e t)
  case inr.inl =>
    have hlt := (List.getElem?_eq_some_iff.mp hi).1
    have hh := handleOf_set hlt ⟨e, t, .returned c⟩
    refine ⟨hw.map_lt, hw.map_inj, fun {j _ _ _} hj => ?_, hw.fresh, ?_⟩
    · simp only [hh, Function.update_apply] at hj
      split_ifs at hj
      · cases hj; exact hw.map_lt hc
      · exact hw.handle_lt hj
    · rw [hh]
      exact hw.delivers.join (handleOf_of_handle hi)
  case inr.inr.inl =>
    exact hw.of_handleOf <| (handleOf_set (List.getElem?_eq_some_iff.mp hi).1 _).trans
      (Function.update_eq_self_iff.mpr (handleOf_of_handle hi).symm)
  case inr.inr.inr.inl =>
    have hh :=
      handleOf_set (List.getElem?_eq_some_iff.mp hi).1 ⟨e, t, .returned n.world.channels⟩
    have h0 : (n.log n.world.channels).length = 0 := by simp [hw.fresh le_rfl]
    refine ⟨fun {t' _} ht => ?_, fun {t₁ t₂ _} h₁ h₂ => ?_, fun {j _ _ _} hj => ?_,
      fun {_} hc => hw.fresh (by dsimp only at hc; omega), ?_⟩ <;> dsimp only at *
    · simp only [BTreeMap.get_insert] at ht
      split_ifs at ht
      · cases ht; omega
      · have := hw.map_lt ht; omega
    · simp only [BTreeMap.get_insert] at h₁ h₂
      split_ifs at h₁ h₂ with e₁ e₂ e₂
      · exact e₁.trans e₂.symm
      · cases h₁; exact absurd (hw.map_lt h₂) (lt_irrefl _)
      · cases h₂; exact absurd (hw.map_lt h₁) (lt_irrefl _)
      · exact hw.map_inj h₁ h₂
    · simp only [hh, Function.update_apply] at hj
      split_ifs at hj
      · cases hj; omega
      · have := hw.handle_lt hj; omega
    · have := hw.delivers.join (e := e) (t := t) (c := n.world.channels) (handleOf_of_handle hi)
      rw [h0] at this
      simpa only [hh] using this
  case inr.inr.inr.inr.inl =>
    have hc := hw.handle_lt (handleOf_eq_some.mpr hi)
    refine ⟨hw.map_lt, hw.map_inj, hw.handle_lt, fun {c'} hc' => ?_, ?_⟩
    · have : c' ≠ c := by dsimp only at hc'; omega
      split_ifs <;> simp [this, hw.fresh hc']
    · exact hw.delivers.publish (by simp [handleOf_eq_some.mpr hi]) _ v
  case inr.inr.inr.inr.inr.inl =>
    refine ⟨hw.map_lt, hw.map_inj, hw.handle_lt, hw.fresh,
      hw.delivers.next (handleOf_eq_some.mpr hi) ?_⟩
    rcases hr with ⟨hlag, rfl, rfl⟩ | ⟨hk, -, rfl, rfl⟩ | ⟨-, -, rfl, rfl⟩
    · exact .inr ⟨rfl, by omega, .inl (by omega)⟩
    · exact .inl ⟨hk, rfl, rfl⟩
    · exact .inr ⟨rfl, le_rfl, .inr rfl⟩
  all_goals exact ⟨hw.map_lt, hw.map_inj, hw.handle_lt, hw.fresh, hw.delivers⟩

/-- Every state a schedule reaches keeps the invariant. -/
theorem Net.Wf.run : ∀ {as : List (NetAction α)} {n n' : Net α}, n.Wf →
    Net.run cap n as = some n' → n'.Wf
  | [], _, _, hw, h => by cases h; exact hw
  | _ :: _, _, _, hw, h => by
    obtain ⟨_, h₁, h₂⟩ := Option.bind_eq_some.mp h
    exact Net.Wf.run (hw.step h₁) h₂

/-- What a subscriber got, against what was sent on its channel after it joined. -/
theorem Net.Wf.received_sentOn (hw : n.Wf) {i : Nat} {t : String} {c : Nat}
    (hi : n.world.calls[i]? = some ⟨.subscribe, t, .returned c⟩) :
    ((receivedBy i n.events).filterMap id).Sublist (sentOn c (afterJoin i n.events)) ∧
    (none ∉ receivedBy i n.events →
      ((receivedBy i n.events).filterMap id).IsPrefix (sentOn c (afterJoin i n.events))) := by
  obtain ⟨s, hr, hs⟩ := hw.delivers.reads (handleOf_eq_some.mpr hi)
  rw [hs]
  refine ⟨hr.sublist.trans ((List.take_sublist _ _).drop s), fun hR => ?_⟩
  rw [hr.eq_of_none_not_mem hR, List.drop_take]
  exact List.take_prefix _ _

/-- In every schedule, races included, a subscriber gets values sent on its channel after it
subscribed, in the order they were sent and none twice; when `next` never returned an error, it
got exactly the first of them. -/
theorem Net.run_receivedInOrder {as : List (NetAction α)} {n : Net α}
    (h : Net.run cap Net.new as = some n) {i : Nat} {t : String} {c : Nat}
    (hi : n.world.calls[i]? = some ⟨.subscribe, t, .returned c⟩) :
    ((receivedBy i n.events).filterMap id).Sublist (sentOn c (afterJoin i n.events)) ∧
    (none ∉ receivedBy i n.events →
      ((receivedBy i n.events).filterMap id).IsPrefix (sentOn c (afterJoin i n.events))) :=
  (Net.wf_new.run h).received_sentOn hi

/-- A subscriber of topic `t` creates its channel, a publisher of `t` finds it, publishes `7`,
and the subscriber runs `next`. -/
def subscribePublishNext : List (NetAction Nat) :=
  [.topic (.call .subscribe "t"), .topic (.lookup 0), .topic (.insert 0),
    .topic (.call .advertise "t"), .topic (.lookup 1), .publish 1 7, .next 0]

/-- The state `subscribePublishNext` reaches with the capacity `Channel::channel(10)` asks for. -/
def afterSubscribePublishNext : Net Nat := (Net.run 10 Net.new subscribePublishNext).getD Net.new

theorem Net.run_receivedInOrder_publishNext :
    Net.run 10 Net.new subscribePublishNext = some afterSubscribePublishNext ∧
    afterSubscribePublishNext.world.calls[0]? = some ⟨.subscribe, "t", .returned 0⟩ ∧
    ((receivedBy 0 afterSubscribePublishNext.events).filterMap id).Sublist
      (sentOn 0 (afterJoin 0 afterSubscribePublishNext.events)) ∧
    (none ∉ receivedBy 0 afterSubscribePublishNext.events →
      ((receivedBy 0 afterSubscribePublishNext.events).filterMap id).IsPrefix
        (sentOn 0 (afterJoin 0 afterSubscribePublishNext.events))) := by
  refine ⟨?run, ?subscriber, Net.run_receivedInOrder ?run ?subscriber⟩
  · rfl
  · decide

/-! ### Schedules without an overwriting insert -/

/-- A schedule none of whose steps overwrites a map entry splits into two such schedules. -/
theorem noClobber_append : ∀ {w : World} {l₁ l₂ : List Action}, NoClobber w (l₁ ++ l₂) →
    NoClobber w l₁ ∧ ∀ w', Mock.run w l₁ = some w' → NoClobber w' l₂
  | _, [], _, h => ⟨trivial, fun _ h' => by cases h'; exact h⟩
  | _, _ :: _, _, ⟨hn, hrest⟩ =>
    ⟨⟨hn, fun w₁ h₁ => (noClobber_append (hrest w₁ h₁)).1⟩, fun _ h' => by
      obtain ⟨w₁, h₁, h₂⟩ := Option.bind_eq_some.mp h'
      exact (noClobber_append (hrest w₁ h₁)).2 _ h₂⟩

/-- Every handle is on its topic's map channel, and every publish so far was on the map channel
of its topic. -/
structure Net.OnMap (n : Net α) : Prop where
  coherent : Coherent n.world
  published : ∀ {j t c v ok}, Event.published j t c v ok ∈ n.events →
    n.world.topics.get t = some c

theorem Net.onMap_new : (Net.new : Net α).OnMap :=
  ⟨coherent_new, fun h => (List.not_mem_nil _ h).elim⟩

/-- A step that does not overwrite a map entry keeps every handle and every publish on its
topic's map channel. -/
theorem Net.OnMap.step (ho : n.OnMap) (hn : NoClobber n.world (topicActions [a]))
    (h : Net.step cap n a = some n') : n'.OnMap := by
  have hc := coherent_run ho.coherent hn (Net.step_world h)
  rcases Net.step_cases h with ⟨_, _, rfl, -, rfl⟩ | ⟨_, _, _, _, rfl, -, -, rfl⟩ |
      ⟨_, _, _, rfl, -, -, rfl⟩ | ⟨i, e, t, rfl, hi, rfl⟩ | ⟨i, t, c, v, rfl, hi, -, rfl⟩ |
      ⟨_, _, _, _, _, rfl, -, -, -, rfl⟩ | ⟨_, _, _, _, rfl, -, -, rfl⟩ | ⟨rfl, -, rfl⟩ |
      ⟨rfl, -, -, rfl⟩
  case inr.inr.inr.inl =>
    have hfree : n.world.topics.get t = none := by
      simpa [Clobbers, hi] using hn.1
    refine ⟨hc, fun {_ t' _ _ _} hm => ?_⟩
    have hget := ho.published (by simpa using hm)
    have ht : t' ≠ t := fun e => by rw [e, hfree] at hget; cases hget
    simpa [ht] using hget
  case inr.inr.inr.inr.inl =>
    refine ⟨hc, fun hm => ?_⟩
    rcases List.mem_append.mp hm with hm | hm
    · exact ho.published hm
    · cases List.mem_singleton.mp hm
      exact ho.coherent _ (List.getElem?_mem hi) c rfl
  all_goals exact ⟨hc, fun hm => ho.published (by simpa using hm)⟩

/-- Every state a schedule without an overwriting insert reaches keeps every handle and every
publish on its topic's map channel. -/
theorem Net.OnMap.run : ∀ {as : List (NetAction α)} {n n' : Net α}, n.OnMap →
    NoClobber n.world (topicActions as) → Net.run cap n as = some n' → n'.OnMap
  | [], _, _, ho, _, h => by cases h; exact ho
  | a :: _, _, _, ho, hn, h => by
    obtain ⟨_, h₁, h₂⟩ := Option.bind_eq_some.mp h
    rw [topicActions_cons] at hn
    obtain ⟨hn₁, hn₂⟩ := noClobber_append hn
    exact Net.OnMap.run (ho.step hn₁ h₁) (hn₂ _ (Net.step_world h₁)) h₂

/-! ### While a `MockRos` is alive -/

/-- No step brings a `MockRos` back: a call and a clone need a live one. -/
theorem Net.step_mocks (h : Net.step cap n a = some n') (h' : 0 < n'.mocks) : 0 < n.mocks := by
  rcases Net.step_cases h with ⟨_, _, -, h0, -⟩ | ⟨_, _, _, _, -, -, -, rfl⟩ |
      ⟨_, _, _, -, -, -, rfl⟩ | ⟨_, _, _, -, -, rfl⟩ | ⟨_, _, _, _, -, -, -, rfl⟩ |
      ⟨_, _, _, _, _, -, -, -, -, rfl⟩ | ⟨_, _, _, _, -, -, -, rfl⟩ | ⟨-, h0, -⟩ |
      ⟨-, h0, -, -⟩ <;>
    assumption

/-- A `MockRos` alive after a schedule was alive before each of its steps. -/
theorem Net.run_mocks : ∀ {as : List (NetAction α)} {n n' : Net α},
    Net.run cap n as = some n' → 0 < n'.mocks → 0 < n.mocks
  | [], _, _, h, h' => by cases h; exact h'
  | _ :: _, _, _, h, h' => by
    obtain ⟨_, h₁, h₂⟩ := Option.bind_eq_some.mp h
    exact Net.step_mocks h₁ (Net.run_mocks h₂ h')

/-- While a `MockRos` holds the map, a channel in the map has a live `Receiver` and a live
`Sender`: the map's pair. -/
theorem Net.live_of_mapped (halive : 0 < n.mocks) {t : String} {c : Nat}
    (hc : n.world.topics.get t = some c) : n.receiverLive c = true ∧ n.senderLive c = true := by
  simp [Net.receiverLive, Net.senderLive, Net.mapHeld, halive,
    (BTreeMap.mem_values_iff _ _).mpr ⟨t, hc⟩]

/-- Every publish so far succeeded, and every error `next` returned was a lag: more than `cap`
values had been sent on the subscriber's channel since it joined. -/
structure Net.Held (cap : Nat) (n : Net α) : Prop where
  sent : ∀ {j t c v ok}, Event.published j t c v ok ∈ n.events → ok = true
  lagged : ∀ {i}, Event.received i none ∈ n.events →
    ∃ e t c, handleOf n.world.calls i = some (e, t, c) ∧
      cap < (sentOn c (afterJoin i n.events)).length

theorem Net.held_new : (Net.new : Net α).Held cap :=
  ⟨fun h => (List.not_mem_nil _ h).elim, fun h => (List.not_mem_nil _ h).elim⟩

/-- A step from a state whose map a `MockRos` holds, with every handle on its topic's map channel,
makes `publish` succeed and `next` fail only on a lag: the map's `(Sender, Receiver)` pair keeps
every such channel open and listened to. -/
theorem Net.Held.step (hw : n.Wf) (ho : n.OnMap) (hh : n.Held cap) (halive : 0 < n.mocks)
    (h : Net.step cap n a = some n') : n'.Held cap := by
  have hlag : ∀ {i}, Event.received i none ∈ n.events →
      ∃ e t c, handleOf n'.world.calls i = some (e, t, c) ∧
        cap < (sentOn c (afterJoin i n'.events)).length := fun hm => by
    obtain ⟨e, t, c, hj, hl⟩ := hh.lagged hm
    obtain ⟨l, hl'⟩ := Net.step_events h
    refine ⟨e, t, c, Net.step_handleOf h hj, ?_⟩
    rw [hl', afterJoin_append_of_joined (hw.delivers.joined hj), sentOn_append, List.length_append]
    omega
  rcases Net.step_cases h with ⟨_, _, -, -, rfl⟩ | ⟨_, _, _, _, -, -, -, rfl⟩ |
      ⟨_, _, _, -, -, -, rfl⟩ | ⟨_, _, _, -, -, rfl⟩ | ⟨i, t, c, v, -, hi, -, rfl⟩ |
      ⟨i, t, c, r, k, -, hi, -, hr, rfl⟩ | ⟨_, _, _, _, -, -, -, rfl⟩ | ⟨-, -, rfl⟩ |
      ⟨-, -, -, rfl⟩
  case inr.inr.inr.inr.inl =>
    refine ⟨fun hm => ?_, fun hm => hlag (by simpa using hm)⟩
    rcases List.mem_append.mp hm with hm | hm
    · exact hh.sent hm
    · cases List.mem_singleton.mp hm
      exact (Net.live_of_mapped halive (ho.coherent _ (List.getElem?_mem hi) c rfl)).1
  case inr.inr.inr.inr.inr.inl =>
    clear h hlag
    have hj := handleOf_eq_some.mpr hi
    refine ⟨fun hm => hh.sent (by simpa using hm), fun {i'} hm => ?_⟩
    rcases List.mem_append.mp hm with hm | hm
    · obtain ⟨e', t', c', hj', hl⟩ := hh.lagged hm
      refine ⟨e', t', c', hj', ?_⟩
      rw [afterJoin_append_of_joined (hw.delivers.joined hj'), sentOn_append, List.length_append]
      omega
    · obtain ⟨rfl, rfl⟩ : i' = i ∧ r = none := by simpa [eq_comm] using hm
      rcases hr with ⟨hl, -⟩ | ⟨-, -, ⟨⟩, -⟩ | ⟨-, hs, -⟩
      · obtain ⟨s, hR, hs⟩ := hw.delivers.reads hj
        refine ⟨_, _, _, hj, ?_⟩
        rw [afterJoin_append_of_joined (hw.delivers.joined hj), sentOn_append, List.length_append,
          hs, List.length_drop]
        have := hR.bounds
        omega
      · have := (Net.live_of_mapped halive (ho.coherent _ (List.getElem?_mem hi) c rfl)).2
        rw [hs] at this
        cases this
  all_goals exact ⟨fun hm => hh.sent (by simpa using hm), fun hm => hlag (by simpa using hm)⟩

/-- Every state reached without an overwriting insert by a schedule after which a `MockRos` is
still alive keeps every publish successful and every error of `next` a lag. -/
theorem Net.Held.run : ∀ {as : List (NetAction α)} {n n' : Net α}, n.Wf → n.OnMap →
    n.Held cap → NoClobber n.world (topicActions as) → Net.run cap n as = some n' →
    0 < n'.mocks → n'.Held cap
  | [], _, _, _, _, hh, _, h, _ => by cases h; exact hh
  | a :: _, _, _, hw, ho, hh, hn, h, halive => by
    obtain ⟨_, h₁, h₂⟩ := Option.bind_eq_some.mp h
    rw [topicActions_cons] at hn
    obtain ⟨hn₁, hn₂⟩ := noClobber_append hn
    exact Net.Held.run (hw.step h₁) (ho.step hn₁ h₁)
      (hh.step hw ho (Net.run_mocks h halive) h₁) (hn₂ _ (Net.step_world h₁)) h₂ halive

/-! ### Delivery per topic -/

theorem mem_of_mem_afterJoin {i : Nat} {ev : Event α} :
    ∀ {l : List (Event α)}, ev ∈ afterJoin i l → ev ∈ l
  | [], h => h
  | ev' :: l, h => by
    cases ev' with
    | joined j =>
      unfold afterJoin at h
      split_ifs at h
      · exact .tail _ h
      · exact .tail _ (mem_of_mem_afterJoin h)
    | published | received => exact .tail _ (mem_of_mem_afterJoin h)

/-- Where a topic and a channel name each other in every sent value's event, the values sent on
the channel are the values published on the topic. -/
theorem sentOn_eq_sentOnTopic {l : List (Event α)} {t : String} {c : Nat}
    (hl : ∀ {j t' c' v}, Event.published j t' c' v true ∈ l → (t' = t ↔ c' = c)) :
    sentOn c l = sentOnTopic t l := by
  unfold sentOn sentOnTopic
  refine List.filterMap_congr fun ev hev => ?_
  cases ev with
  | published j t' c' v ok =>
    cases ok
    · rfl
    · simp only [hl hev]
  | joined | received => rfl

/-- In a state reached without an overwriting insert, the values sent on a topic's map channel
are the values published on the topic, in any part of the trace. -/
theorem Net.OnMap.sentOn_eq (hw : n.Wf) (ho : n.OnMap) {t : String} {c : Nat}
    (hc : n.world.topics.get t = some c) {l : List (Event α)}
    (hl : ∀ ev ∈ l, ev ∈ n.events) : sentOn c l = sentOnTopic t l :=
  sentOn_eq_sentOnTopic fun hm => by
    have hget := ho.published (hl _ hm)
    exact ⟨fun e => Option.some.inj ((e ▸ hget).symm.trans hc),
      fun e => hw.map_inj hget (e ▸ hc)⟩

theorem mem_receivedBy {i : Nat} {r : Option α} {evs : List (Event α)} :
    r ∈ receivedBy i evs ↔ Event.received i r ∈ evs := by
  unfold receivedBy
  rw [List.mem_filterMap]
  constructor
  · rintro ⟨ev, hev, h⟩
    cases ev <;> simp_all
  · exact fun h => ⟨_, h, by simp⟩

/-- In a state reached without an overwriting insert and with a `MockRos` alive throughout, every
error a subscriber got from `next` was a lag: more than `cap` values were published on its topic
since it subscribed. -/
theorem Net.Held.lagged_topic (hw : n.Wf) (ho : n.OnMap) (hh : n.Held cap) {i : Nat} {t : String}
    {c : Nat} (hi : n.world.calls[i]? = some ⟨.subscribe, t, .returned c⟩)
    (hm : Event.received i none ∈ n.events) :
    cap < (sentOnTopic t (afterJoin i n.events)).length := by
  obtain ⟨_, _, _, hj, hl⟩ := hh.lagged hm
  rw [handleOf_eq_some.mpr hi] at hj
  cases hj
  rwa [← ho.sentOn_eq hw (ho.coherent _ (List.getElem?_mem hi) c rfl)
    fun _ => mem_of_mem_afterJoin]

/-- In every schedule without an overwriting insert after which a `MockRos` is still alive, every
`publish` returned `Ok`, having sent its value on the channel the map holds for its topic. -/
theorem Net.run_publishSucceeds {as : List (NetAction α)} {n : Net α}
    (h : Net.run cap Net.new as = some n) (hn : NoClobber MockRos.new (topicActions as))
    (halive : 0 < n.mocks) :
    ∀ {j t c v ok}, Event.published j t c v ok ∈ n.events →
      n.world.topics.get t = some c ∧ ok = true := fun hm =>
  ⟨(Net.onMap_new.run hn h).published hm,
    (Net.held_new.run Net.wf_new Net.onMap_new hn h halive).sent hm⟩

/-- The subscriber creates the channel of `"t"` and the publisher finds it: no insert overwrites
an entry. -/
theorem noClobber_subscribePublishNext :
    NoClobber MockRos.new (topicActions subscribePublishNext) := by
  simp [subscribePublishNext, topicActions, NoClobber, Clobbers, Mock.step, MockRos.new]

theorem Net.run_publishSucceeds_publishNext :
    Net.run 10 Net.new subscribePublishNext = some afterSubscribePublishNext ∧
    NoClobber MockRos.new (topicActions subscribePublishNext) ∧
    0 < afterSubscribePublishNext.mocks ∧
    ∀ {j t c v ok}, Event.published j t c v ok ∈ afterSubscribePublishNext.events →
      afterSubscribePublishNext.world.topics.get t = some c ∧ ok = true := by
  refine ⟨?run, ?noClobber, ?alive, Net.run_publishSucceeds ?run ?noClobber ?alive⟩
  · rfl
  · exact noClobber_subscribePublishNext
  · decide

/-- In every schedule without an overwriting insert, a subscriber gets values published on its
topic after it subscribed, in the order they were published and none twice; when `next` never
returned an error, it got exactly the first of them. -/
theorem Net.run_topicDelivery {as : List (NetAction α)} {n : Net α}
    (h : Net.run cap Net.new as = some n) (hn : NoClobber MockRos.new (topicActions as))
    {i : Nat} {t : String} {c : Nat}
    (hi : n.world.calls[i]? = some ⟨.subscribe, t, .returned c⟩) :
    ((receivedBy i n.events).filterMap id).Sublist (sentOnTopic t (afterJoin i n.events)) ∧
    (none ∉ receivedBy i n.events →
      ((receivedBy i n.events).filterMap id).IsPrefix (sentOnTopic t (afterJoin i n.events))) := by
  have hw := Net.wf_new.run h
  have ho := Net.onMap_new.run hn h
  rw [← ho.sentOn_eq hw (ho.coherent _ (List.getElem?_mem hi) c rfl)
    fun _ => mem_of_mem_afterJoin]
  exact hw.received_sentOn hi

theorem Net.run_topicDelivery_publishNext :
    Net.run 10 Net.new subscribePublishNext = some afterSubscribePublishNext ∧
    NoClobber MockRos.new (topicActions subscribePublishNext) ∧
    afterSubscribePublishNext.world.calls[0]? = some ⟨.subscribe, "t", .returned 0⟩ ∧
    ((receivedBy 0 afterSubscribePublishNext.events).filterMap id).Sublist
      (sentOnTopic "t" (afterJoin 0 afterSubscribePublishNext.events)) ∧
    (none ∉ receivedBy 0 afterSubscribePublishNext.events →
      ((receivedBy 0 afterSubscribePublishNext.events).filterMap id).IsPrefix
        (sentOnTopic "t" (afterJoin 0 afterSubscribePublishNext.events))) := by
  refine ⟨?run, ?noClobber, ?subscriber, Net.run_topicDelivery ?run ?noClobber ?subscriber⟩
  · rfl
  · exact noClobber_subscribePublishNext
  · decide

/-- In every schedule without an overwriting insert after which a `MockRos` is still alive, a
subscriber that had at most 10 values published on its topic after it subscribed never got an
error from `next`, and got exactly the first of those values: the channel's capacity is at least
the 10 asked for, and the map's `Sender` keeps the channel open. -/
theorem Net.run_noLoss (hcap : 10 ≤ cap) {as : List (NetAction α)} {n : Net α}
    (h : Net.run cap Net.new as = some n) (hn : NoClobber MockRos.new (topicActions as))
    (halive : 0 < n.mocks) {i : Nat} {t : String} {c : Nat}
    (hi : n.world.calls[i]? = some ⟨.subscribe, t, .returned c⟩)
    (hlen : (sentOnTopic t (afterJoin i n.events)).length ≤ 10) :
    none ∉ receivedBy i n.events ∧
    ((receivedBy i n.events).filterMap id).IsPrefix (sentOnTopic t (afterJoin i n.events)) := by
  have hw := Net.wf_new.run h
  have ho := Net.onMap_new.run hn h
  have hh := Net.held_new.run Net.wf_new Net.onMap_new hn h halive
  have hnone : none ∉ receivedBy i n.events := fun hm => by
    have := hh.lagged_topic hw ho hi (mem_receivedBy.mp hm)
    omega
  rw [← ho.sentOn_eq hw (ho.coherent _ (List.getElem?_mem hi) c rfl)
    fun _ => mem_of_mem_afterJoin]
  exact ⟨hnone, (hw.received_sentOn hi).2 hnone⟩

theorem Net.run_noLoss_publishNext :
    10 ≤ 10 ∧ Net.run 10 Net.new subscribePublishNext = some afterSubscribePublishNext ∧
    NoClobber MockRos.new (topicActions subscribePublishNext) ∧
    0 < afterSubscribePublishNext.mocks ∧
    afterSubscribePublishNext.world.calls[0]? = some ⟨.subscribe, "t", .returned 0⟩ ∧
    (sentOnTopic "t" (afterJoin 0 afterSubscribePublishNext.events)).length ≤ 10 ∧
    none ∉ receivedBy 0 afterSubscribePublishNext.events ∧
    ((receivedBy 0 afterSubscribePublishNext.events).filterMap id).IsPrefix
      (sentOnTopic "t" (afterJoin 0 afterSubscribePublishNext.events)) := by
  refine ⟨?cap, ?run, ?noClobber, ?alive, ?subscriber, ?len,
    Net.run_noLoss ?cap ?run ?noClobber ?alive ?subscriber ?len⟩
  · exact le_rfl
  · rfl
  · exact noClobber_subscribePublishNext
  all_goals decide

/-- Topics are not shut down when their handles are dropped ("It does not implement automatic
shutdown of topics on dropping"): in every schedule without an overwriting insert after which a
`MockRos` is still alive, a subscriber never gets the error of a closed channel, even after every
publisher of its topic has been dropped. Every error it got was a lag, and at the tail of its
channel its `next` waits. -/
theorem Net.run_noShutdown {as : List (NetAction α)} {n : Net α}
    (h : Net.run cap Net.new as = some n) (hn : NoClobber MockRos.new (topicActions as))
    (halive : 0 < n.mocks) {i : Nat} {t : String} {c : Nat}
    (hi : n.world.calls[i]? = some ⟨.subscribe, t, .returned c⟩) :
    (Event.received i none ∈ n.events → cap < (sentOnTopic t (afterJoin i n.events)).length) ∧
    (n.position i = (n.log c).length → Net.step cap n (.next i) = none) := by
  have hw := Net.wf_new.run h
  have ho := Net.onMap_new.run hn h
  have hh := Net.held_new.run Net.wf_new Net.onMap_new hn h halive
  refine ⟨hh.lagged_topic hw ho hi, fun hpos => ?_⟩
  have hlive := (Net.live_of_mapped halive (ho.coherent _ (List.getElem?_mem hi) c rfl)).2
  simp only [Net.step, hi]
  split_ifs <;> first | rfl | omega

theorem Net.run_noShutdown_publishNext :
    Net.run 10 Net.new subscribePublishNext = some afterSubscribePublishNext ∧
    NoClobber MockRos.new (topicActions subscribePublishNext) ∧
    0 < afterSubscribePublishNext.mocks ∧
    afterSubscribePublishNext.world.calls[0]? = some ⟨.subscribe, "t", .returned 0⟩ ∧
    (Event.received 0 none ∈ afterSubscribePublishNext.events →
      10 < (sentOnTopic "t" (afterJoin 0 afterSubscribePublishNext.events)).length) ∧
    (afterSubscribePublishNext.position 0 = (afterSubscribePublishNext.log 0).length →
      Net.step 10 afterSubscribePublishNext (.next 0) = none) := by
  refine ⟨?run, ?noClobber, ?alive, ?subscriber,
    Net.run_noShutdown ?run ?noClobber ?alive ?subscriber⟩
  · rfl
  · exact noClobber_subscribePublishNext
  all_goals decide

end Roslibrust.Mock
