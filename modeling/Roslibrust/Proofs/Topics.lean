import Roslibrust.Mock.Topics
import Mathlib.Data.List.Basic
import Mathlib.Data.Option.Defs

/-!
# Proofs: which channel a mock handle is on

A returned call holds a handle on the channel the topic map held for its topic when it returned;
the map keeps that channel as long as no insert overwrites an entry. So on every schedule in which
no insert lands on a topic the map already holds, every handle of a topic is on the map's channel
for it, and publishers and subscribers of a topic share one channel. Two first calls on one topic
that both miss before either inserts are such a schedule's exception: the second insert replaces
the first channel, and the first caller's handle is left on a channel nobody else uses.
-/

namespace Roslibrust.Mock

/-- Every returned call is on the channel the map holds for its topic. -/
def Coherent (w : World) : Prop :=
  ∀ call ∈ w.calls, ∀ c, call.phase = .returned c → w.topics.get call.topic = some c

/-- A schedule none of whose steps inserts over a topic the map already holds. -/
def NoClobber : World → List Action → Prop
  | _, [] => True
  | w, a :: as => ¬ Clobbers w a ∧ ∀ w', step w a = some w' → NoClobber w' as

variable {w w' : World} {a : Action}

/-- What one step can do. -/
theorem step_cases (h : step w a = some w') :
    (∃ e t, a = .call e t ∧ w' = { w with calls := w.calls ++ [⟨e, t, .start⟩] }) ∨
    (∃ i e t, a = .lookup i ∧ w.calls[i]? = some ⟨e, t, .start⟩ ∧
      w' = { w with calls := w.calls.set i ⟨e, t,
        match w.topics.get t with
        | some c => .returned c
        | none => .missed⟩ }) ∨
    (∃ i e t, a = .insert i ∧ w.calls[i]? = some ⟨e, t, .missed⟩ ∧
      w' = ⟨w.topics.insert t w.channels, w.channels + 1,
        w.calls.set i ⟨e, t, .returned w.channels⟩⟩) := by
  cases a with
  | call e t =>
    cases h
    exact .inl ⟨e, t, rfl, rfl⟩
  | lookup i =>
    simp only [step] at h
    split at h
    · cases h
      exact .inr (.inl ⟨i, _, _, rfl, ‹_›, rfl⟩)
    · cases h
  | insert i =>
    simp only [step] at h
    split at h
    · cases h
      exact .inr (.inr ⟨i, _, _, rfl, ‹_›, rfl⟩)
    · cases h

theorem coherent_new : Coherent MockRos.new := fun _ h => absurd h (List.not_mem_nil _)

/-- A step that does not overwrite a map entry keeps every handle on its topic's channel. -/
theorem coherent_step (hc : Coherent w) (hn : ¬ Clobbers w a) (h : step w a = some w') :
    Coherent w' := by
  rcases step_cases h with ⟨e, t, rfl, rfl⟩ | ⟨i, e, t, rfl, hi, rfl⟩ | ⟨i, e, t, rfl, hi, rfl⟩
  · intro call hm c hp
    rcases List.mem_append.mp hm with hm | hm
    · exact hc call hm c hp
    · rw [List.mem_singleton.mp hm] at hp
      cases hp
  · intro call hm c hp
    rcases List.mem_or_eq_of_mem_set hm with hm | rfl
    · exact hc call hm c hp
    · dsimp only at hp ⊢
      split at hp
      · cases hp
        assumption
      · cases hp
  · have hfree : w.topics.get t = none := by
      simpa [Clobbers, hi] using hn
    intro call hm c hp
    rcases List.mem_or_eq_of_mem_set hm with hm | rfl
    · have hget := hc call hm c hp
      have hne : call.topic ≠ t := fun e => by rw [e, hfree] at hget; cases hget
      simpa [BTreeMap.get_insert, hne] using hget
    · cases hp
      simp [BTreeMap.get_insert]

/-- Every schedule without an overwriting insert keeps every handle on its topic's channel. -/
theorem coherent_run :
    ∀ {as : List Action} {w w' : World}, Coherent w → NoClobber w as → run w as = some w' →
      Coherent w'
  | [], _, _, hc, _, h => by cases h; exact hc
  | a :: _, w, _, hc, ⟨hn, hrest⟩, h => by
    obtain ⟨w₁, h₁, h₂⟩ := Option.bind_eq_some.mp h
    exact coherent_run (coherent_step hc hn h₁) (hrest w₁ h₁) h₂

/-- From a fresh mock, on every schedule in which no insert overwrites a topic, every handle
returned for a topic is on the channel the map holds for it: publishers and subscribers of a
topic share one channel. -/
theorem run_handles_onMapChannel {as : List Action} {w : World} (h : run MockRos.new as = some w)
    (hn : NoClobber MockRos.new as) : ∀ t c, HoldsHandle w t c → w.topics.get t = some c :=
  fun _ c ⟨_, hm⟩ => coherent_run coherent_new hn h _ hm c rfl

theorem run_handles_onMapChannel_sequential :
    run MockRos.new [.call .advertise "t", .lookup 0, .insert 0, .call .subscribe "t", .lookup 1] =
      some ⟨BTreeMap.empty.insert "t" 0, 1,
        [⟨.advertise, "t", .returned 0⟩, ⟨.subscribe, "t", .returned 0⟩]⟩ ∧
    NoClobber MockRos.new
      [.call .advertise "t", .lookup 0, .insert 0, .call .subscribe "t", .lookup 1] ∧
    ∀ t c, HoldsHandle ⟨BTreeMap.empty.insert "t" 0, 1,
        [⟨.advertise, "t", .returned 0⟩, ⟨.subscribe, "t", .returned 0⟩]⟩ t c →
      (BTreeMap.empty.insert "t" 0 : BTreeMap Nat).get t = some c := by
  refine ⟨?run, ?noClobber, run_handles_onMapChannel ?run ?noClobber⟩
  · decide
  · simp [NoClobber, Clobbers, step, MockRos.new]

/-- Two first calls on a topic that both miss before either inserts: the publisher is left on
channel 0, the subscriber and the map on channel 1. -/
theorem run_firstCalls_race :
    run MockRos.new
        [.call .advertise "t", .call .subscribe "t", .lookup 0, .lookup 1, .insert 0, .insert 1] =
      some ⟨BTreeMap.empty.insert "t" 1, 2,
        [⟨.advertise, "t", .returned 0⟩, ⟨.subscribe, "t", .returned 1⟩]⟩ := by
  decide

end Roslibrust.Mock
