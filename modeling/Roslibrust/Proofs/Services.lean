import Roslibrust.Mock.Services
import Mathlib.Data.List.Basic

/-!
# Proofs: what a mock service call returns

`Services.step_cases` says once what each step can do. The store holds, for every topic, the
callback of the latest `advertise_service` of the schedule (`Services.run_store`), and a call reads
the store at its lookup, not when its client was made. So in every interleaving each call that
returned was answered at one step of the schedule (`Services.run_answeredIn`): at its lookup, with
the reply of the server last advertised for its topic before that step, or the "no service server"
error when there was none; or at its upgrade, with the "no connection" error, when no `MockRos`
value and no call in flight held the store. Such a store is gone for good: nothing can take a
strong reference to it again, and every later call gets that error (`Services.run_gone`).
-/

namespace Roslibrust.Mock

variable {β : Type} {s s' : Services β} {a : ServiceAction β}

/-! ### One step -/

/-- What one step can do, guards included. -/
theorem Services.step_cases (h : s.step a = some s') :
    (∃ t server, a = .advertiseService t server ∧ s.handles ≠ 0 ∧
      s' = { s with store := s.store.insert t server }) ∨
    (∃ t request, a = .call t request ∧
      s' = { s with calls := s.calls ++ [⟨t, request, .start⟩] }) ∨
    (∃ i t request, a = .upgrade i ∧ s.calls[i]? = some ⟨t, request, .start⟩ ∧
      s' = { s with calls := s.calls.set i ⟨t, request,
        if s.strongCount = 0 then .returned (.error backendDropped) else .upgraded⟩ }) ∨
    (∃ i t request, a = .lookup i ∧ s.calls[i]? = some ⟨t, request, .upgraded⟩ ∧
      s' = { s with
        calls := s.calls.set i
          ⟨t, request, .returned (lookupResult t request (s.store.get t))⟩ }) ∨
    (a = .clone ∧ s.handles ≠ 0 ∧ s' = { s with handles := s.handles + 1 }) ∨
    (a = .drop ∧ s.handles ≠ 0 ∧ s' = { s with handles := s.handles - 1 }) := by
  cases a with
  | advertiseService t server =>
    simp only [Services.step] at h
    split_ifs at h with h0
    cases h
    exact .inl ⟨t, server, rfl, h0, rfl⟩
  | call t request => cases h; exact .inr (.inl ⟨t, request, rfl, rfl⟩)
  | upgrade i =>
    simp only [Services.step] at h
    split at h
    · cases h; exact .inr (.inr (.inl ⟨i, _, _, rfl, ‹_›, rfl⟩))
    · cases h
  | lookup i =>
    simp only [Services.step] at h
    split at h
    · cases h; exact .inr (.inr (.inr (.inl ⟨i, _, _, rfl, ‹_›, rfl⟩)))
    · cases h
  | clone =>
    simp only [Services.step] at h
    split_ifs at h with h0
    cases h
    exact .inr (.inr (.inr (.inr (.inl ⟨rfl, h0, rfl⟩))))
  | drop =>
    simp only [Services.step] at h
    split_ifs at h with h0
    cases h
    exact .inr (.inr (.inr (.inr (.inr ⟨rfl, h0, rfl⟩))))

theorem Services.run_append (s : Services β) (as : List (ServiceAction β))
    (a : ServiceAction β) : s.run (as ++ [a]) = (s.run as).bind (·.step a) := by
  simp [Services.run, List.foldlM_append]

/-! ### The store is the latest registrations -/

/-- The callback the last `advertise_service` of `t` in a schedule registered. -/
def latestServer (t : String) (as : List (ServiceAction β)) : Option (β → Reply β) :=
  as.foldl (fun o a => match a with
    | .advertiseService t' server => if t' = t then some server else o
    | _ => o) none

theorem latestServer_append (t : String) (as : List (ServiceAction β)) (a : ServiceAction β) :
    latestServer t (as ++ [a]) = match a with
      | .advertiseService t' server => if t' = t then some server else latestServer t as
      | _ => latestServer t as := by
  simp only [latestServer, List.foldl_append, List.foldl_cons, List.foldl_nil]

/-- The store holds, for every topic, the callback of its latest `advertise_service`. -/
theorem Services.run_store {as : List (ServiceAction β)} {s : Services β}
    (h : Services.new.run as = some s) (t : String) : s.store.get t = latestServer t as := by
  induction as using List.reverseRecOn generalizing s with
  | nil => cases h; rfl
  | append_singleton as a ih =>
    rw [Services.run_append] at h
    obtain ⟨s₀, h₀, h⟩ := Option.bind_eq_some.mp h
    rcases Services.step_cases h with ⟨t', server, rfl, -, rfl⟩ | ⟨_, _, rfl, rfl⟩ |
        ⟨_, _, _, rfl, -, rfl⟩ | ⟨_, _, _, rfl, -, rfl⟩ | ⟨rfl, -, rfl⟩ |
        ⟨rfl, -, rfl⟩ <;>
      simp [latestServer_append, ih h₀, eq_comm]


/-! ### Each call is answered at one step -/

/-- How call `i` (topic `t`, request `req`) got its result `r` in the schedule `as`: at its lookup,
step `k`, from the server last advertised for `t` before that step; or at its upgrade, step `k`,
from a state in which no `MockRos` value and no call held the store any more. -/
def AnsweredIn (as : List (ServiceAction β)) (i : Nat) (t : String) (req : β)
    (r : Except Error β) : Prop :=
  (∃ k, as[k]? = some (.lookup i) ∧ r = lookupResult t req (latestServer t (as.take k))) ∨
  (∃ k s, as[k]? = some (.upgrade i) ∧ Services.new.run (as.take k) = some s ∧
    s.strongCount = 0 ∧ r = .error backendDropped)

theorem AnsweredIn.append {as : List (ServiceAction β)} {i : Nat} {t : String} {req : β}
    {r : Except Error β} (h : AnsweredIn as i t req r) (a : ServiceAction β) :
    AnsweredIn (as ++ [a]) i t req r := by
  have hk : ∀ {k b}, as[k]? = some b →
      (as ++ [a])[k]? = some b ∧ (as ++ [a]).take k = as.take k :=
    fun {k _} hb => by
      have hlt := (List.getElem?_eq_some_iff.mp hb).1
      exact ⟨by rw [List.getElem?_append_left hlt, hb], List.take_append_of_le_length hlt.le⟩
  rcases h with ⟨k, hb, hr⟩ | ⟨k, s, hb, hs, h0, hr⟩
  · exact .inl ⟨k, (hk hb).1, by rw [(hk hb).2]; exact hr⟩
  · exact .inr ⟨k, s, (hk hb).1, by rw [(hk hb).2]; exact hs, h0, hr⟩

/-- An entry of a list with one more element at the end, other than that element, was there. -/
theorem getElem?_of_append_singleton {γ : Type} {l : List γ} {x y : γ} {i : Nat}
    (h : (l ++ [x])[i]? = some y) (hne : y ≠ x) : l[i]? = some y := by
  rw [List.getElem?_append] at h
  split at h
  · exact h
  · generalize i - l.length = m at h
    cases m
    · exact absurd (Option.some.inj h).symm hne
    · cases h

/-- An entry of a list with entry `j` set is the new value at `j`, or was there. -/
theorem getElem?_set_eq_some {γ : Type} {l : List γ} {j i : Nat} {x y : γ}
    (h : (l.set j x)[i]? = some y) : (j = i ∧ x = y) ∨ l[i]? = some y := by
  rw [List.getElem?_set] at h
  split_ifs at h with hji
  · exact .inl ⟨hji, Option.some.inj h⟩
  · exact .inr h

theorem getElem?_append_concat_length (as : List (ServiceAction β)) (a : ServiceAction β) :
    (as ++ [a])[as.length]? = some a ∧ (as ++ [a]).take as.length = as :=
  ⟨List.getElem?_concat_length as a, by simp⟩

/-- Every call that returned got its result at one step of the schedule: at its lookup, from the
server last advertised for its topic before that step, or the "no service server" error when there
was none; or at its upgrade, with the "no connection" error, when no `MockRos` value and no call
held the store any more. -/
theorem Services.run_answeredIn {as : List (ServiceAction β)} {s : Services β}
    (h : Services.new.run as = some s) {i : Nat} {t : String} {req : β} {r : Except Error β}
    (hi : s.calls[i]? = some ⟨t, req, .returned r⟩) : AnsweredIn as i t req r := by
  induction as using List.reverseRecOn generalizing s with
  | nil => cases h; cases hi
  | append_singleton as a ih =>
    rw [Services.run_append] at h
    obtain ⟨s₀, h₀, h⟩ := Option.bind_eq_some.mp h
    obtain ⟨hlast, htake⟩ := getElem?_append_concat_length as a
    rcases Services.step_cases h with ⟨_, _, -, -, rfl⟩ | ⟨t', req', rfl, rfl⟩ |
        ⟨j, t', req', rfl, -, rfl⟩ | ⟨j, t', req', rfl, -, rfl⟩ | ⟨-, -, rfl⟩ |
        ⟨-, -, rfl⟩
    · exact (ih h₀ hi).append _
    · exact (ih h₀ (getElem?_of_append_singleton hi (by simp))).append _
    · rcases getElem?_set_eq_some hi with ⟨rfl, hx⟩ | hi
      · split_ifs at hx with h0 <;> cases hx
        exact .inr ⟨as.length, s₀, hlast, by rw [htake]; exact h₀, h0, rfl⟩
      · exact (ih h₀ hi).append _
    · rcases getElem?_set_eq_some hi with ⟨rfl, hx⟩ | hi
      · cases hx
        exact .inl ⟨as.length, hlast, by rw [htake, Services.run_store h₀]⟩
      · exact (ih h₀ hi).append _
    all_goals exact (ih h₀ hi).append _


theorem Services.run_answeredIn_clientFirst :
    Services.new.run [.call "s" true, .upgrade 0, .lookup 0, .advertiseService "s" Reply.ok,
        .call "s" true, .upgrade 1, .lookup 1] =
      some ⟨BTreeMap.empty.insert "s" Reply.ok, 1,
        [⟨"s", true, .returned (.error (noServer "s"))⟩,
          ⟨"s", true, .returned (.ok true)⟩]⟩ ∧
    (⟨BTreeMap.empty.insert "s" Reply.ok, 1,
        [⟨"s", true, .returned (.error (noServer "s"))⟩,
          ⟨"s", true, .returned (.ok true)⟩]⟩ :
        Services Bool).calls[1]? = some ⟨"s", true, .returned (.ok true)⟩ ∧
    AnsweredIn [.call "s" true, .upgrade 0, .lookup 0, .advertiseService "s" Reply.ok,
        .call "s" true, .upgrade 1, .lookup 1] 1 "s" true (.ok true) := by
  refine ⟨?run, ?call, Services.run_answeredIn ?run ?call⟩ <;> rfl

/-! ### A call's answer is fixed at its lookup -/

/-- A step never changes a call that has returned. -/
theorem Services.step_returned (h : s.step a = some s') {i : Nat} {t : String} {req : β}
    {r : Except Error β} (hi : s.calls[i]? = some ⟨t, req, .returned r⟩) :
    s'.calls[i]? = some ⟨t, req, .returned r⟩ := by
  have hne : ∀ {j : Nat} {x : ServiceCall β}, x.phase ≠ .returned r →
      s.calls[j]? = some x → j ≠ i := fun hx hj e => by subst e; rw [hi] at hj; cases hj; exact hx rfl
  rcases Services.step_cases h with ⟨_, _, -, -, rfl⟩ | ⟨_, _, -, rfl⟩ |
      ⟨_, _, _, -, hj, rfl⟩ | ⟨_, _, _, -, hj, rfl⟩ | ⟨-, -, rfl⟩ | ⟨-, -, rfl⟩
  · exact hi
  · rwa [List.getElem?_append_left (List.getElem?_eq_some_iff.mp hi).1]
  · rwa [List.getElem?_set_ne (hne (by simp) hj)]
  · rwa [List.getElem?_set_ne (hne (by simp) hj)]
  all_goals exact hi

/-- A call that has returned keeps its answer on every schedule from there. -/
theorem Services.run_returned {as : List (ServiceAction β)} {s s' : Services β}
    (h : s.run as = some s') {i : Nat} {t : String} {req : β} {r : Except Error β}
    (hi : s.calls[i]? = some ⟨t, req, .returned r⟩) :
    s'.calls[i]? = some ⟨t, req, .returned r⟩ := by
  induction as generalizing s with
  | nil => cases h; exact hi
  | cons a as ih =>
    obtain ⟨s₁, h₁, h₂⟩ := Option.bind_eq_some.mp h
    exact ih h₂ (Services.step_returned h₁ hi)

/-- A call's answer is fixed at its lookup: when step `k` of a schedule is call `i`'s lookup, the
call returned the reply of the server last advertised for its topic before step `k`, or the
"no service server" error when there was none, whatever ran before and after, and whether its
client was made before or after the server was advertised. -/
theorem Services.run_answerAtLookup {as : List (ServiceAction β)} {s : Services β}
    (h : Services.new.run as = some s) {i k : Nat} (hk : as[k]? = some (.lookup i))
    {t : String} {req : β} {r : Except Error β}
    (hi : s.calls[i]? = some ⟨t, req, .returned r⟩) :
    r = lookupResult t req (latestServer t (as.take k)) := by
  obtain ⟨hlt, hget⟩ := List.getElem?_eq_some_iff.mp hk
  rw [← List.take_append_drop k as, List.drop_eq_getElem_cons hlt, hget, Services.run,
    List.foldlM_append] at h
  obtain ⟨s₀, h₀, h⟩ := Option.bind_eq_some.mp h
  obtain ⟨s₁, h₁, h₂⟩ := Option.bind_eq_some.mp h
  rcases Services.step_cases h₁ with ⟨_, _, ⟨⟩, -⟩ | ⟨_, _, ⟨⟩, -⟩ |
      ⟨_, _, _, ⟨⟩, -⟩ | ⟨_, t', req', ⟨⟩, hj, rfl⟩ | ⟨⟨⟩, -⟩ | ⟨⟨⟩, -⟩
  have hlast := Services.run_returned h₂
    (List.getElem?_set_self (List.getElem?_eq_some_iff.mp hj).1)
  rw [hi] at hlast
  cases hlast
  rw [Services.run_store h₀]

/-- A client calls `s` before the server of `s` is advertised, and its lookup runs after. -/
def clientBeforeServer : List (ServiceAction Bool) :=
  [.call "s" true, .upgrade 0, .advertiseService "s" Reply.ok, .lookup 0]

theorem Services.run_answerAtLookup_clientBeforeServer :
    Services.new.run clientBeforeServer =
      some ⟨BTreeMap.empty.insert "s" Reply.ok, 1, [⟨"s", true, .returned (.ok true)⟩]⟩ ∧
    clientBeforeServer[3]? = some (.lookup 0) ∧
    (⟨BTreeMap.empty.insert "s" Reply.ok, 1, [⟨"s", true, .returned (.ok true)⟩]⟩ :
      Services Bool).calls[0]? = some ⟨"s", true, .returned (.ok true)⟩ ∧
    .ok true = lookupResult "s" true (latestServer "s" (clientBeforeServer.take 3)) := by
  refine ⟨?run, ?lookup, ?call, Services.run_answerAtLookup ?run ?lookup ?call⟩ <;> rfl

/-! ### A dropped store stays dropped -/

theorem Services.strongCount_eq_zero {s : Services β} :
    s.strongCount = 0 ↔
      s.handles = 0 ∧ ∀ call ∈ s.calls, call.phase.isUpgraded = false := by
  simp [Services.strongCount, List.countP_eq_zero]

/-- A step from a state whose store is gone keeps it gone, and answers every call it answers with
the "no connection" error. -/
theorem Services.step_gone (h0 : s.strongCount = 0) (h : s.step a = some s') :
    s'.strongCount = 0 ∧ ∀ {i : Nat} {t : String} {req : β} {r : Except Error β},
      s'.calls[i]? = some ⟨t, req, .returned r⟩ →
      s.calls[i]? = some ⟨t, req, .returned r⟩ ∨ r = .error backendDropped := by
  obtain ⟨hh, hu⟩ := Services.strongCount_eq_zero.mp h0
  rcases Services.step_cases h with ⟨_, _, -, hne, -⟩ | ⟨t', req', -, rfl⟩ |
      ⟨j, t', req', -, -, rfl⟩ | ⟨j, t', req', -, hj, rfl⟩ | ⟨-, hne, -⟩ |
      ⟨-, hne, -⟩
  · exact absurd hh hne
  · refine ⟨Services.strongCount_eq_zero.mpr ⟨hh, fun c hc => ?_⟩,
      fun hi => .inl (getElem?_of_append_singleton hi (by simp))⟩
    rcases List.mem_append.mp hc with hc | hc
    · exact hu c hc
    · rw [List.mem_singleton.mp hc]; rfl
  · refine ⟨Services.strongCount_eq_zero.mpr ⟨hh, fun c hc => ?_⟩, fun hi => ?_⟩
    · rcases List.mem_or_eq_of_mem_set hc with hc | rfl
      · exact hu c hc
      · simp [h0, CallPhase.isUpgraded]
    · rcases getElem?_set_eq_some hi with ⟨rfl, hx⟩ | hi
      · rw [if_pos h0] at hx
        cases hx; exact .inr rfl
      · exact .inl hi
  · exact absurd (hu _ (List.getElem?_mem hj)) (by simp [CallPhase.isUpgraded])
  · exact absurd hh hne
  · exact absurd hh hne

/-- Once no `MockRos` value and no call in flight holds the store, it is gone for good: on every
schedule from there the strong count stays 0, and every call answered on the way gets the
"no connection" error. -/
theorem Services.run_gone {as : List (ServiceAction β)} {s s' : Services β}
    (h0 : s.strongCount = 0) (h : s.run as = some s') :
    s'.strongCount = 0 ∧ ∀ {i : Nat} {t : String} {req : β} {r : Except Error β},
      s'.calls[i]? = some ⟨t, req, .returned r⟩ →
      s.calls[i]? = some ⟨t, req, .returned r⟩ ∨ r = .error backendDropped := by
  induction as generalizing s with
  | nil => cases h; exact ⟨h0, .inl⟩
  | cons a as ih =>
    obtain ⟨s₁, h₁, h₂⟩ := Option.bind_eq_some.mp h
    obtain ⟨h0₁, hr₁⟩ := Services.step_gone h0 h₁
    obtain ⟨h0', hr⟩ := ih h0₁ h₂
    exact ⟨h0', fun hi => (hr hi).elim hr₁ .inr⟩

theorem Services.run_gone_afterDrop :
    (⟨.empty, 0, []⟩ : Services Bool).strongCount = 0 ∧
    (⟨.empty, 0, []⟩ : Services Bool).run [.call "s" true, .upgrade 0] =
      some ⟨.empty, 0, [⟨"s", true, .returned (.error backendDropped)⟩]⟩ ∧
    (⟨.empty, 0, [⟨"s", true, .returned (.error backendDropped)⟩]⟩ :
      Services Bool).strongCount = 0 ∧
    ∀ {i : Nat} {t : String} {req : Bool} {r : Except Error Bool},
      (⟨.empty, 0, [⟨"s", true, .returned (.error backendDropped)⟩]⟩ :
        Services Bool).calls[i]? = some ⟨t, req, .returned r⟩ →
      (⟨.empty, 0, []⟩ : Services Bool).calls[i]? = some ⟨t, req, .returned r⟩ ∨
        r = .error backendDropped := by
  refine ⟨?gone, ?run, Services.run_gone ?gone ?run⟩ <;> rfl

end Roslibrust.Mock
