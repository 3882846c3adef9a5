import Roslibrust.Proofs.Referenced
import Roslibrust.Proofs.Termination

/-!
# Proofs: a conversion reads only the keys it reaches

`convert_to_type_description` looks the graph up only at the key a non-primitive field names,
and recurses only into the entry it finds there. So two graphs that agree on every key reachable
from a message give the message the same description, at every depth of the recursion: the
same description, the same error, or the same divergence. Acyclicity plays no part. Hence an
entry the message does not reach can be added, edited or removed without changing its hash,
and the three entries `calculate_ros2_srv_hash` adds to its copy of the graph change only the
descriptions of messages that reach them.

In particular `calculate_ros2_srv_hash` returns on every closed, acyclic graph with the built-in
interfaces unless an entry `graph_copy` overwrites is reached from the service's request or
response: an overwritten entry nothing there reaches does no harm.
-/

namespace Roslibrust.Ros2Hashing

/-- Two folds whose steps agree on the list's elements, from every state, agree. -/
theorem foldlM_congr_mem {σ α : Type} {m : Type → Type} [Monad m] {f g : σ → α → m σ} :
    ∀ {xs : List α} {s : σ}, (∀ x ∈ xs, ∀ s, f s x = g s x) → xs.foldlM f s = xs.foldlM g s
  | [], _, _ => rfl
  | x :: xs, s, h => by
    simp only [List.foldlM_cons, h x (.head _)]
    exact congrArg _ (funext fun _ => foldlM_congr_mem fun y hy => h y (.tail _ hy))

section Congr

variable {G G₁ G₂ : BTreeMap MessageFile} {M : ParsedMessageFile} {b : Bool}
  {r₁ r₂ : ParsedMessageFile → Outcome HashError TypeDescriptionMsg} {st : ConvertState}
  {f : FieldInfo} {k : String}

/-! ## One step, then the whole recursion -/

/-- One step reads the graph only at the key a nested field names, and recurses only on the
entry found there. -/
theorem convertField_congr
    (hkey : f.fieldType.isPrimitive = false → G₁.get f.getFullTypeName = G₂.get f.getFullTypeName)
    (hrec : f.fieldType.isPrimitive = false →
      ∀ mf, G₁.get f.getFullTypeName = some mf → r₁ mf.parsed = r₂ mf.parsed) :
    convertField G₁ M b r₁ st f = convertField G₂ M b r₂ st f := by
  simp only [convertField]
  congr 1
  funext id
  split
  · rfl
  · next hp =>
    have hp : f.fieldType.isPrimitive = false := by simpa using hp
    rw [← hkey hp]
    cases hg : G₁.get f.getFullTypeName with
    | none => rfl
    | some mf => simp only [Outcome.okOr_some, Outcome.ok_bind, hrec hp mf hg]

/-- A conversion reads the graph only at the keys the message reaches. -/
theorem convertToTypeDescription_congr_reaches :
    ∀ (n : Nat) {M : ParsedMessageFile} {b : Bool}, (∀ k, Reaches G₁ M k → G₁.get k = G₂.get k) →
      convertToTypeDescription G₁ n M b = convertToTypeDescription G₂ n M b
  | 0, _, _, _ => rfl
  | n + 1, M, b, h => by
    simp only [convertToTypeDescription]
    congr 1
    exact foldlM_congr_mem fun f hf _ => convertField_congr (fun hp => h _ (.field hf hp))
      fun hp mf hg => convertToTypeDescription_congr_reaches n fun k hk => h k (.nested hf hp hg hk)

/-! ## Hashes and the service graph -/

theorem calculateRos2Hash_congr_reaches {H : Type} (sha256 : String → H) (fuel : Nat)
    (h : ∀ k, Reaches G₁ M k → G₁.get k = G₂.get k) :
    calculateRos2Hash sha256 fuel M G₁ = calculateRos2Hash sha256 fuel M G₂ := by
  rw [calculateRos2Hash, convertToTypeDescription_congr_reaches fuel h, calculateRos2Hash]

theorem serviceGraph_get_of_not_mem {S : ParsedServiceFile} (hk : k ∉ serviceKeys S) :
    (serviceGraph S G).get k = G.get k := by
  simp only [serviceKeys, List.mem_cons, List.mem_singleton, List.not_mem_nil, or_false,
    not_or] at hk
  simp [serviceGraph, hk.1, hk.2.1, hk.2.2]

/-- A message that reaches none of a service's synthetic keys converts alike in the service
graph. -/
theorem convertToTypeDescription_serviceGraph {S : ParsedServiceFile} (n : Nat)
    (h : ∀ k, Reaches G M k → k ∉ serviceKeys S) :
    convertToTypeDescription (serviceGraph S G) n M b = convertToTypeDescription G n M b :=
  (convertToTypeDescription_congr_reaches n fun k hk => (serviceGraph_get_of_not_mem (h k hk)).symm).symm

/-! ## Keys no field names -/

/-- The keys the non-primitive fields of a message name. -/
def fieldKeys (m : ParsedMessageFile) : List String :=
  (m.fields.filter fun f => !f.fieldType.isPrimitive).map FieldInfo.getFullTypeName

/-- A key that no field of the message or of a graph entry names is never reached. -/
theorem not_reaches_of_unnamed (hM : k ∉ fieldKeys M) (hG : ∀ e ∈ G.entries, k ∉ fieldKeys e.2.parsed) :
    ¬ Reaches G M k := by
  intro h
  induction h with
  | field hf hp => exact hM (List.mem_map_of_mem _ (List.mem_filter.mpr ⟨hf, by simp [hp]⟩))
  | nested _ _ hg _ ih => exact ih (hG _ ((BTreeMap.mem_entries_iff ..).mpr hg)) hG

end Congr

/-- Graphs that agree on every key a message reaches give it the same conversion, for every
flag and fuel, and so the same `calculate_ros2_hash`; the entries the service graph adds change
the conversion only of messages that reach one of the three keys they occupy. -/
theorem convertToTypeDescription_graphLocal :
    (∀ (G₁ G₂ : BTreeMap MessageFile) (M : ParsedMessageFile) (b : Bool) (n : Nat),
      (∀ k, Reaches G₁ M k → G₁.get k = G₂.get k) →
        convertToTypeDescription G₁ n M b = convertToTypeDescription G₂ n M b) ∧
    (∀ {H : Type} (sha256 : String → H) (fuel : Nat) (M : ParsedMessageFile)
      (G₁ G₂ : BTreeMap MessageFile), (∀ k, Reaches G₁ M k → G₁.get k = G₂.get k) →
        calculateRos2Hash sha256 fuel M G₁ = calculateRos2Hash sha256 fuel M G₂) ∧
    (∀ (S : ParsedServiceFile) (G : BTreeMap MessageFile) (M : ParsedMessageFile) (b : Bool)
      (n : Nat), (∀ k, Reaches G M k → k ∉ serviceKeys S) →
        convertToTypeDescription (serviceGraph S G) n M b = convertToTypeDescription G n M b) :=
  ⟨fun _ _ _ _ n h => convertToTypeDescription_congr_reaches n h,
    fun sha256 fuel _ _ _ h => calculateRos2Hash_congr_reaches sha256 fuel h,
    fun _ _ _ _ n h => convertToTypeDescription_serviceGraph n h⟩

/-- Editing `builtin_interfaces/Duration`, which `ServiceEventInfo` does not reach, keeps its
hash. -/
theorem convertToTypeDescription_graphLocal_builtins :
    calculateRos2Hash String.length 3 builtinServiceEventInfo
        (builtinInterfaces.insert "builtin_interfaces/Duration" ⟨builtinTime⟩) =
      calculateRos2Hash String.length 3 builtinServiceEventInfo builtinInterfaces :=
  convertToTypeDescription_graphLocal.2.1 String.length 3 _ _ _ fun k hk =>
    BTreeMap.get_insert_ne _ _ fun e => not_reaches_of_unnamed (by decide) (by decide) (e ▸ hk)

/-! ## The service hash -/

section ServiceHash

variable {G : BTreeMap MessageFile} {rank : String → Nat} {S : ParsedServiceFile}
  {M : ParsedMessageFile} {k : String} {n : Nat}

/-- In a closed graph, the keys a message whose fields resolve reaches are keys of the graph. -/
theorem Reaches.isSome (hc : Closed G)
    (hM : ∀ f ∈ M.fields, f.fieldType.isPrimitive = false → (G.get f.getFullTypeName).isSome)
    (h : Reaches G M k) : (G.get k).isSome := by
  induction h with
  | field hf hp => exact hM _ hf hp
  | nested _ _ hg _ ih =>
    exact ih fun g hg' hp' => hc _ ((BTreeMap.mem_entries_iff _ _ _).mpr hg) g hg' hp'

/-- What a message reaches depends only on its fields. -/
theorem Reaches.of_fields_eq {M' : ParsedMessageFile} (hr : Reaches G M k)
    (h : M.fields = M'.fields) : Reaches G M' k := by
  rw [reaches_iff] at hr ⊢
  rwa [← h]

/-- A message without nested fields reaches nothing. -/
theorem not_reaches_of_primitive (h : ∀ f ∈ M.fields, f.fieldType.isPrimitive = true) :
    ¬ Reaches G M k := by
  rintro (⟨hf, hp⟩ | ⟨hf, hp, -, -⟩) <;> simp [h _ hf] at hp

/-- `ServiceEventInfo` reaches only `Time`, which has no nested fields. -/
theorem reaches_builtinServiceEventInfo
    (hT : G.get "builtin_interfaces/Time" = some ⟨builtinTime⟩)
    (h : Reaches G builtinServiceEventInfo k) : k = "builtin_interfaces/Time" := by
  have hstamp : ∀ f ∈ builtinServiceEventInfo.fields, f.fieldType.isPrimitive = false →
      f.getFullTypeName = "builtin_interfaces/Time" := by decide
  rcases h with ⟨hf, hp⟩ | ⟨hf, hp, hg, hr⟩
  · exact hstamp _ hf hp
  · rw [hstamp _ hf hp, hT] at hg
    cases hg
    exact absurd hr (not_reaches_of_primitive (by decide))

theorem append_ne_of_not_suffix {s t u : String} (h : ¬ t.data.reverse <+: u.data.reverse) :
    s ++ t ≠ u := fun e =>
  h ⟨s.data.reverse, by rw [← e, String.data_append, List.reverse_append]⟩

/-- No synthetic key is a built-in key: none ends like `ServiceEventInfo` or `Time`. -/
theorem builtin_not_mem_serviceKeys
    (hk : k = "service_msgs/ServiceEventInfo" ∨ k = "builtin_interfaces/Time") :
    k ∉ serviceKeys S := by
  simp only [serviceKeys, List.mem_cons, List.mem_singleton, List.not_mem_nil, or_false, not_or]
  rcases hk with rfl | rfl <;>
    exact ⟨(append_ne_of_not_suffix (by decide)).symm, (append_ne_of_not_suffix (by decide)).symm,
      (append_ne_of_not_suffix (by decide)).symm⟩

/-- A message below `n` that reaches no key `graph_copy` overwrites converts in `graph_copy` as it
does in the graph: with `n + 1` units of fuel. -/
theorem convertToTypeDescription_serviceGraph_ok (hG : Hashable G rank) (hc : Closed G)
    (hM : FieldsBelow G rank n M)
    (hclob : ∀ k ∈ serviceKeys S, (G.get k).isSome → ¬ Reaches G M k) (b : Bool) :
    ∃ d, convertToTypeDescription (serviceGraph S G) (n + 1) M b = .ok d := by
  have havoid : ∀ k, Reaches G M k → k ∉ serviceKeys S := fun k hk hmem =>
    hclob k hmem (hk.isSome hc fun f hf hp => ((hM f hf).2 hp).1) hk
  rw [convertToTypeDescription_serviceGraph _ havoid]
  exact convertToTypeDescription_ok_of_below hG n b hM

/-- A synthesized field meets the condition of `convertToTypeDescription_ok_of_fields` when the
entry under its synthetic key converts. -/
theorem serviceField_ok {suffix name : String} {a : ArrayType} {P : ParsedMessageFile}
    (hg : (serviceGraph S G).get (S.getFullName ++ suffix) = some ⟨P⟩)
    (hP : ∃ d, convertToTypeDescription (serviceGraph S G) n P true = .ok d) :
    Taggable (serviceFieldType S (S.name ++ suffix) a) ∧
      ((serviceFieldType S (S.name ++ suffix) a).isPrimitive = false →
        ∃ mf, (serviceGraph S G).get
            (FieldInfo.getFullTypeName ⟨serviceFieldType S (S.name ++ suffix) a, name, none⟩) =
            some mf ∧
          ∃ d, convertToTypeDescription (serviceGraph S G) n mf.parsed true = .ok d) :=
  ⟨.inl rfl, fun _ => ⟨_, by rw [serviceFieldType_key]; exact hg, hP⟩⟩

variable {H : Type} (sha256 : String → H)

/-- On a graph that holds the built-in interfaces, whose field types come from `parse_type`, and
that is closed and ordered by `rank`: `calculate_ros2_srv_hash` of every service whose request and
response field types come from `parse_type` and resolve in the graph returns a hash, unless the
request or the response reaches an entry of the graph that `graph_copy` overwrites with a
synthetic one. -/
theorem calculateRos2SrvHash_returns {B : BTreeMap MessageFile}
    (hB : getBuiltinInterfaces = .ok B) (hbuiltin : ∀ e ∈ B.entries, G.get e.1 = some e.2)
    (hparsed : ∀ e ∈ G.entries, ∀ f ∈ e.2.parsed.fields, ∃ t p, parseType t p = .ok f.fieldType)
    (hclosed : Closed G) (hranked : RankedBy G rank)
    (hS : ∀ f ∈ S.requestType.fields ++ S.responseType.fields,
      (∃ t p, parseType t p = .ok f.fieldType) ∧
        (f.fieldType.isPrimitive = false → (G.get f.getFullTypeName).isSome))
    (hclob : ∀ k ∈ serviceKeys S, (G.get k).isSome →
      ¬ Reaches G S.requestType k ∧ ¬ Reaches G S.responseType k) :
    ∃ N h, ∀ fuel, N ≤ fuel → calculateRos2SrvHash sha256 fuel S G = .ok h := by
  have hG := hashable_of_parsed hparsed hclosed hranked
  rw [getBuiltinInterfaces_eq] at hB
  cases hB
  have hsei : G.get "service_msgs/ServiceEventInfo" = some ⟨builtinServiceEventInfo⟩ :=
    hbuiltin ("service_msgs/ServiceEventInfo", _) (by decide)
  have htime : G.get "builtin_interfaces/Time" = some ⟨builtinTime⟩ :=
    hbuiltin ("builtin_interfaces/Time", _) (by decide)
  -- the request and response fields lie below some `R`, above `ServiceEventInfo`
  obtain ⟨R₀, hR₀⟩ := @exists_fieldsBelow G rank _ fun f hf =>
    ⟨let ⟨_, _, h⟩ := (hS f hf).1; parseType_capacity h, (hS f hf).2⟩
  let R := R₀ + rank "service_msgs/ServiceEventInfo" + 1
  have hbelow : ∀ m : ParsedMessageFile, m.fields ⊆ S.requestType.fields ++ S.responseType.fields →
      FieldsBelow G rank R m := fun _ hm =>
    FieldsBelow.mono (n := R₀) (fun f hf => hR₀ f (hm hf)) (by omega) fun _ h => ⟨h, rfl⟩
  -- the synthetic request and response have the fields of the service's, and reach what they do
  have hreq := convertToTypeDescription_serviceGraph_ok (S := S)
    (M := { S.requestType with name := S.name ++ "_Request" }) hG hclosed
    (hbelow S.requestType (List.subset_append_left _ _))
    (fun k hk hs hr => (hclob k hk hs).1 (hr.of_fields_eq rfl)) true
  have hresp := convertToTypeDescription_serviceGraph_ok (S := S)
    (M := { S.responseType with name := S.name ++ "_Response" }) hG hclosed
    (hbelow S.responseType (List.subset_append_right _ _))
    (fun k hk hs hr => (hclob k hk hs).2 (hr.of_fields_eq rfl)) true
  obtain ⟨dsei, hdsei⟩ := convertToTypeDescription_serviceGraph_ok (S := S) hG hclosed
    (hG.get hsei) (fun k hk _ hr => builtin_not_mem_serviceKeys
      (.inr (reaches_builtinServiceEventInfo htime hr)) hk) true
  have hev : ∃ d, convertToTypeDescription (serviceGraph S G) (R + 2) (serviceEvent S) true =
      .ok d := by
    refine convertToTypeDescription_ok_of_fields fun f hf => ?_
    simp only [serviceEvent, List.mem_cons, List.mem_singleton, List.not_mem_nil, or_false] at hf
    rcases hf with rfl | rfl | rfl
    · exact ⟨.inl rfl, fun _ => ⟨_, (serviceGraph_get_of_not_mem
        (builtin_not_mem_serviceKeys (.inl rfl))).trans hsei, _,
        convertToTypeDescription_mono (by omega) hdsei⟩⟩
    · exact serviceField_ok serviceGraph_get_request hreq
    · exact serviceField_ok serviceGraph_get_response hresp
  obtain ⟨d, hd⟩ : ∃ d, convertToTypeDescription (serviceGraph S G) (R + 3) (serviceTotal S) true =
      .ok d := by
    refine convertToTypeDescription_ok_of_fields fun f hf => ?_
    simp only [serviceTotal, List.mem_cons, List.mem_singleton, List.not_mem_nil, or_false] at hf
    rcases hf with rfl | rfl | rfl
    · exact serviceField_ok serviceGraph_get_request
        (hreq.imp fun _ => convertToTypeDescription_mono (by omega))
    · exact serviceField_ok serviceGraph_get_response
        (hresp.imp fun _ => convertToTypeDescription_mono (by omega))
    · exact serviceField_ok serviceGraph_get_event hev
  refine ⟨R + 3, calculateHash sha256 d, fun fuel hfuel => ?_⟩
  rw [calculateRos2SrvHash, convertToTypeDescription_mono hfuel hd]
  rfl

end ServiceHash

/-- The built-in interfaces with the ordinary message `pkg/Srv_Request`, which nothing
references. -/
def unreachedClashGraph : BTreeMap MessageFile :=
  builtinInterfaces.insert "pkg/Srv_Request" ⟨srvRequestMsg⟩

/-- The service `pkg/Srv`, whose request carries a `builtin_interfaces/Time`. -/
def stampService : ParsedServiceFile :=
  ⟨"Srv", "pkg",
    ⟨"SrvRequest", "pkg", [⟨⟨some "builtin_interfaces", "pkg", "Time", .NotArray, none⟩, "stamp",
      none⟩], [], some .ROS2, "/pkg/srv/Srv.srv"⟩,
    ⟨"SrvResponse", "pkg", [], [], some .ROS2, "/pkg/srv/Srv.srv"⟩, "/pkg/srv/Srv.srv"⟩

theorem calculateRos2SrvHash_returns_unreachedClash :
    getBuiltinInterfaces = .ok builtinInterfaces ∧
    (∀ e ∈ builtinInterfaces.entries, unreachedClashGraph.get e.1 = some e.2) ∧
    (∀ e ∈ unreachedClashGraph.entries, ∀ f ∈ e.2.parsed.fields,
      ∃ t p, parseType t p = .ok f.fieldType) ∧
    Closed unreachedClashGraph ∧
    RankedBy unreachedClashGraph (fun k => if k = "service_msgs/ServiceEventInfo" then 1 else 0) ∧
    (∀ f ∈ stampService.requestType.fields ++ stampService.responseType.fields,
      (∃ t p, parseType t p = .ok f.fieldType) ∧
        (f.fieldType.isPrimitive = false → (unreachedClashGraph.get f.getFullTypeName).isSome)) ∧
    (∀ k ∈ serviceKeys stampService, (unreachedClashGraph.get k).isSome →
      ¬ Reaches unreachedClashGraph stampService.requestType k ∧
        ¬ Reaches unreachedClashGraph stampService.responseType k) ∧
    ∃ N h, ∀ fuel, N ≤ fuel →
      calculateRos2SrvHash String.length fuel stampService unreachedClashGraph = .ok h := by
  refine ⟨getBuiltinInterfaces_eq, ?builtin, ?parsed, ?closed, ?ranked, ?fields, ?clob,
    calculateRos2SrvHash_returns String.length getBuiltinInterfaces_eq ?builtin ?parsed ?closed
      ?ranked ?fields ?clob⟩
  · decide
  · intro e he f hf
    rcases mem_insertEntry he with rfl | he
    · obtain rfl : f = ⟨⟨none, "pkg", "int32", .NotArray, none⟩, "x", none⟩ := by
        simpa [srvRequestMsg] using hf
      exact ⟨"int32", ⟨"pkg", "/pkg", some .ROS2⟩, by decide⟩
    · exact builtinInterfaces_parsed e he f hf
  · decide
  · decide
  · intro f hf
    obtain rfl : f = ⟨⟨some "builtin_interfaces", "pkg", "Time", .NotArray, none⟩, "stamp", none⟩ := by
      simpa [stampService] using hf
    exact ⟨⟨"builtin_interfaces/Time", ⟨"pkg", "/pkg", some .ROS2⟩, by decide⟩, fun _ => by decide⟩
  · intro k hk _
    simp only [serviceKeys, List.mem_cons, List.mem_singleton, List.not_mem_nil, or_false] at hk
    rcases hk with rfl | rfl | rfl <;>
      exact ⟨not_reaches_of_unnamed (by decide) (by decide),
        not_reaches_of_unnamed (by decide) (by decide)⟩

end Roslibrust.Ros2Hashing
