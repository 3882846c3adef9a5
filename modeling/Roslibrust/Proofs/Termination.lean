import Roslibrust.Proofs.Convert
import Roslibrust.Codegen.Builtin

/-!
# Proofs: when the ROS2 hash returns

`convert_to_type_description` recurses through graph lookups, so nothing structural bounds it. On a
graph that is closed (every nested field names a key) and ordered by a rank that drops along every
field reference (acyclic), the rank of a key bounds the depth of the recursion from it: with that
much fuel the conversion returns `Ok`, and every tag lookup succeeds because the fields are
taggable. `calculate_ros2_hash` then returns without reaching its `expect`.

For a service the hash runs on `graph_copy`, which has three synthetic entries more, inserted over
any entry of the graph under their keys. A message that reaches an overwritten entry reaches the
service's own request or response instead, and the recursion can then never end, although the
graph itself is acyclic (`calculateRos2SrvHash_syntheticKeyClash`).
-/

namespace Roslibrust.Ros2Hashing

open Str

/-- A field type `get_field_type_id` can tag: a string capacity only on `string`. -/
def Taggable (t : Roslibrust.FieldType) : Prop := t.stringCapacity = none ∨ t.fieldType = "string"

instance (t : Roslibrust.FieldType) : Decidable (Taggable t) := inferInstanceAs (Decidable (_ ∨ _))

/-- The fields of `M` are taggable, and each non-primitive one names a key of `G` of rank below
`n`. -/
def FieldsBelow (G : BTreeMap MessageFile) (rank : String → Nat) (n : Nat) (M : ParsedMessageFile) :
    Prop :=
  ∀ f ∈ M.fields, Taggable f.fieldType ∧
    (f.fieldType.isPrimitive = false → (G.get f.getFullTypeName).isSome ∧ rank f.getFullTypeName < n)

/-- Every non-primitive field of every entry names a key of the graph. -/
def Closed (G : BTreeMap MessageFile) : Prop :=
  ∀ e ∈ G.entries, ∀ f ∈ e.2.parsed.fields, f.fieldType.isPrimitive = false →
    (G.get f.getFullTypeName).isSome

/-- `rank` drops along every non-primitive field reference, so no chain of references returns to
an entry: the graph is acyclic. -/
def RankedBy (G : BTreeMap MessageFile) (rank : String → Nat) : Prop :=
  ∀ e ∈ G.entries, ∀ f ∈ e.2.parsed.fields, f.fieldType.isPrimitive = false →
    rank f.getFullTypeName < rank e.1

/-- A graph the hash runs on: every entry's fields are below the entry's own rank. -/
def Hashable (G : BTreeMap MessageFile) (rank : String → Nat) : Prop :=
  ∀ e ∈ G.entries, FieldsBelow G rank (rank e.1) e.2.parsed

instance (G : BTreeMap MessageFile) (rank : String → Nat) (n : Nat) (M : ParsedMessageFile) :
    Decidable (FieldsBelow G rank n M) :=
  inferInstanceAs (Decidable (∀ f ∈ M.fields, _))

instance (G : BTreeMap MessageFile) : Decidable (Closed G) :=
  inferInstanceAs (Decidable (∀ e ∈ G.entries, _))

instance (G : BTreeMap MessageFile) (rank : String → Nat) : Decidable (RankedBy G rank) :=
  inferInstanceAs (Decidable (∀ e ∈ G.entries, _))

instance (G : BTreeMap MessageFile) (rank : String → Nat) : Decidable (Hashable G rank) :=
  inferInstanceAs (Decidable (∀ e ∈ G.entries, _))

variable {G G' : BTreeMap MessageFile} {rank rank' : String → Nat} {n n' : Nat}
  {M : ParsedMessageFile} {k : String} {mf : MessageFile}

/-! ## Graphs the hash runs on -/

theorem Hashable.get (hG : Hashable G rank) (hk : G.get k = some mf) :
    FieldsBelow G rank (rank k) mf.parsed :=
  hG _ ((BTreeMap.mem_entries_iff _ _ _).mpr hk)

theorem hashable_of_get (h : ∀ k mf, G.get k = some mf → FieldsBelow G rank (rank k) mf.parsed) :
    Hashable G rank :=
  fun e he => h e.1 e.2 ((BTreeMap.mem_entries_iff _ _ _).mp he)

/-- Taggable fields, a closed graph and a rank that orders it make a graph the hash runs on. -/
theorem hashable_of_closed (htag : ∀ e ∈ G.entries, ∀ f ∈ e.2.parsed.fields, Taggable f.fieldType)
    (hc : Closed G) (hr : RankedBy G rank) : Hashable G rank :=
  fun e he f hf => ⟨htag e he f hf, fun hp => ⟨hc e he f hf hp, hr e he f hf hp⟩⟩

/-- A larger bound, and a graph holding every key of `G` at the same rank, keep fields below. -/
theorem FieldsBelow.mono (h : FieldsBelow G rank n M) (hn : n ≤ n')
    (hG : ∀ k, (G.get k).isSome → (G'.get k).isSome ∧ rank' k = rank k) :
    FieldsBelow G' rank' n' M := fun f hf =>
  let ⟨ht, hnp⟩ := h f hf
  ⟨ht, fun hp =>
    let ⟨hs, hlt⟩ := hnp hp
    let ⟨hs', hr⟩ := hG _ hs
    ⟨hs', hr ▸ Nat.lt_of_lt_of_le hlt hn⟩⟩

/-- Fields that are taggable and resolve lie below some bound. -/
theorem exists_fieldsBelow :
    ∀ {fs : List FieldInfo}, (∀ f ∈ fs, Taggable f.fieldType ∧
      (f.fieldType.isPrimitive = false → (G.get f.getFullTypeName).isSome)) →
    ∃ n, ∀ f ∈ fs, Taggable f.fieldType ∧
      (f.fieldType.isPrimitive = false → (G.get f.getFullTypeName).isSome ∧ rank f.getFullTypeName < n)
  | [], _ => ⟨0, fun _ h => absurd h (List.not_mem_nil _)⟩
  | f :: _, h => by
    rw [List.forall_mem_cons] at h
    obtain ⟨n, hn⟩ := exists_fieldsBelow h.2
    refine ⟨max n (rank f.getFullTypeName + 1), List.forall_mem_cons.mpr
      ⟨⟨h.1.1, fun hp => ⟨h.1.2 hp, by omega⟩⟩, fun g hg => ⟨(hn g hg).1, fun hp => ?_⟩⟩⟩
    obtain ⟨hs, hlt⟩ := (hn g hg).2 hp
    exact ⟨hs, by omega⟩

/-! ## One message -/

section Convert

variable {parsed : ParsedMessageFile} {b : Bool}
  {recur : ParsedMessageFile → Outcome HashError TypeDescriptionMsg} {st : ConvertState}
  {field : FieldInfo}

/-- A taggable field whose entry, if it needs one, exists and converts gives a loop step. -/
theorem convertField_ok_of_taggable (ht : Taggable field.fieldType)
    (hrec : field.fieldType.isPrimitive = false →
      ∃ mf, G.get field.getFullTypeName = some mf ∧ ∃ sub, recur mf.parsed = .ok sub) :
    ∃ st', convertField G parsed b recur st field = .ok st' := by
  obtain ⟨id, hid, -⟩ := getFieldTypeId_tag ht
  cases hp : field.fieldType.isPrimitive with
  | true => simp [convertField, hid, hp]
  | false =>
    obtain ⟨mf, hmf, sub, hsub⟩ := hrec hp
    simp [convertField, hid, hp, hmf, hsub]

/-- The conversion returns when every field is taggable and every nested entry converts with one
unit of fuel less. -/
theorem convertToTypeDescription_ok_of_fields
    (h : ∀ f ∈ M.fields, Taggable f.fieldType ∧ (f.fieldType.isPrimitive = false →
      ∃ mf, G.get f.getFullTypeName = some mf ∧
        ∃ sub, convertToTypeDescription G n mf.parsed true = .ok sub)) :
    ∃ d, convertToTypeDescription G (n + 1) M b = .ok d := by
  have hloop : ∃ st, M.fields.foldlM
      (convertField G M b fun m => convertToTypeDescription G n m true) (initState M) = .ok st ∧
      True :=
    Outcome.foldlM_ok_of_step _
      (fun _ _ f hf => (convertField_ok_of_taggable (h f hf).1 (h f hf).2).imp fun _ h => ⟨h, ⟨⟩⟩) ⟨⟩
  obtain ⟨st, hst, -⟩ := hloop
  exact ⟨_, by simp only [convertToTypeDescription, hst, Outcome.ok_bind]; rfl⟩

/-- On a graph the hash runs on, fields below `n` convert with `n + 1` units of fuel. -/
theorem convertToTypeDescription_ok_of_below (hG : Hashable G rank) (n : Nat) :
    ∀ {M : ParsedMessageFile} (b : Bool), FieldsBelow G rank n M →
      ∃ d, convertToTypeDescription G (n + 1) M b = .ok d := by
  induction n with
  | zero =>
    intro M b hM
    exact convertToTypeDescription_ok_of_fields fun f hf =>
      ⟨(hM f hf).1, fun hp => absurd ((hM f hf).2 hp).2 (Nat.not_lt_zero _)⟩
  | succ n ih =>
    intro M b hM
    refine convertToTypeDescription_ok_of_fields fun f hf => ⟨(hM f hf).1, fun hp => ?_⟩
    obtain ⟨hs, hlt⟩ := (hM f hf).2 hp
    obtain ⟨mf, hmf⟩ := Option.isSome_iff_exists.mp hs
    exact ⟨mf, hmf, ih true ((hG.get hmf).mono (Nat.le_of_lt_succ hlt) fun _ hk => ⟨hk, rfl⟩)⟩

/-- Conversion of the first field's entry diverging makes the whole conversion diverge. -/
theorem convertToTypeDescription_diverge {f : FieldInfo} {fs : List FieldInfo} {P : ParsedMessageFile}
    (hM : M.fields = f :: fs) (ht : Taggable f.fieldType) (hp : f.fieldType.isPrimitive = false)
    (hg : G.get f.getFullTypeName = some ⟨P⟩)
    (hd : convertToTypeDescription G n P true = .diverge) :
    convertToTypeDescription G (n + 1) M b = .diverge := by
  obtain ⟨id, hid, -⟩ := getFieldTypeId_tag ht
  simp [convertToTypeDescription, hM, convertField, hid, hp, hg, hd]

end Convert

variable {H : Type} (sha256 : String → H)

/-- On a graph the hash runs on, `calculate_ros2_hash` of an entry returns one hash for every fuel
above the entry's rank. -/
theorem calculateRos2Hash_ok_of_hashable (hG : Hashable G rank) (hk : G.get k = some mf) :
    ∃ h, ∀ fuel, rank k + 1 ≤ fuel → calculateRos2Hash sha256 fuel mf.parsed G = .ok h := by
  obtain ⟨d, hd⟩ := convertToTypeDescription_ok_of_below hG (rank k) false (hG.get hk)
  refine ⟨calculateHash sha256 d, fun fuel hfuel => ?_⟩
  rw [calculateRos2Hash, convertToTypeDescription_mono hfuel hd]
  rfl

/-! ## Services -/

/-- The keys `calculate_ros2_srv_hash` adds to its copy of the graph: the event, request and
response types. -/
def serviceKeys (S : ParsedServiceFile) : List String :=
  [S.getFullName ++ "_Event", S.getFullName ++ "_Request", S.getFullName ++ "_Response"]

section Service

variable {S : ParsedServiceFile}

theorem append_ne_append {s a b : String} (h : a.data ≠ b.data) : s ++ a ≠ s ++ b := fun e =>
  h (by simpa using congrArg String.data e)

theorem event_ne_request : S.getFullName ++ "_Event" ≠ S.getFullName ++ "_Request" :=
  append_ne_append (by decide)

theorem event_ne_response : S.getFullName ++ "_Event" ≠ S.getFullName ++ "_Response" :=
  append_ne_append (by decide)

theorem request_ne_response : S.getFullName ++ "_Request" ≠ S.getFullName ++ "_Response" :=
  append_ne_append (by decide)

/-- The synthesized fields name the synthetic keys. -/
theorem serviceFieldType_key (suffix name : String) (a : ArrayType) :
    FieldInfo.getFullTypeName ⟨serviceFieldType S (S.name ++ suffix) a, name, none⟩ =
      S.getFullName ++ suffix := by
  simp [FieldInfo.getFullTypeName, serviceFieldType, ParsedServiceFile.getFullName,
    String.append_assoc]

/-- `graph_copy` holds the renamed request under the request key. -/
theorem serviceGraph_get_request :
    (serviceGraph S G).get (S.getFullName ++ "_Request") =
      some ⟨{ S.requestType with name := S.name ++ "_Request" }⟩ := by
  simp only [serviceGraph, BTreeMap.get_insert_ne _ _ request_ne_response,
    BTreeMap.get_insert_self]

/-- `graph_copy` holds the renamed response under the response key. -/
theorem serviceGraph_get_response :
    (serviceGraph S G).get (S.getFullName ++ "_Response") =
      some ⟨{ S.responseType with name := S.name ++ "_Response" }⟩ :=
  BTreeMap.get_insert_self _ _ _

/-- `graph_copy` holds the event type under the event key. -/
theorem serviceGraph_get_event :
    (serviceGraph S G).get (S.getFullName ++ "_Event") = some ⟨serviceEvent S⟩ := by
  simp only [serviceGraph, BTreeMap.get_insert_ne _ _ event_ne_response,
    BTreeMap.get_insert_ne _ _ event_ne_request, BTreeMap.get_insert_self]

end Service

/-! ## Parsed messages and the built-in interfaces -/

theorem parseField_fieldType {line msgName : String} {pkg : Package} {f : FieldInfo}
    (h : parseField line pkg msgName = .ok f) : ∃ t, parseType t pkg = .ok f.fieldType := by
  simp only [parseField, Outcome.bind_eq_ok] at h
  obtain ⟨_, -, ft, hft, _, -, _, -, h⟩ := h
  refine ⟨_, hft.trans (congrArg _ ?_)⟩
  -- every way through the default-value code ends in the record built from `ft`
  split at h
  · obtain ⟨_, -, h⟩ := Outcome.bind_eq_ok.mp h
    split at h
    · obtain ⟨_, -, h⟩ := Outcome.bind_eq_ok.mp h
      cases h
      rfl
    · cases h
      rfl
  · cases h
    rfl

/-- Every field type of a parsed message file is a `parse_type` output. -/
theorem parseRosMessageFile_fields {data name path : String} {pkg : Package} {m : ParsedMessageFile}
    (h : parseRosMessageFile data name pkg path = .ok m) :
    ∀ f ∈ m.fields, ∃ t, parseType t pkg = .ok f.fieldType := by
  simp only [parseRosMessageFile, Outcome.bind_eq_ok] at h
  obtain ⟨⟨fields, constants⟩, hloop, h⟩ := h
  cases h
  refine Outcome.foldlM_ok_induction
    (fun _ (acc : List FieldInfo × List ConstantInfo) => ∀ f ∈ acc.1, ∃ t, parseType t pkg = .ok f.fieldType)
    (fun _ _ acc acc' hacc hstep => ?_) [] (fun _ h => absurd h (List.not_mem_nil _)) hloop
  simp only [Outcome.bind_eq_ok] at hstep
  obtain ⟨_, -, hstep⟩ := hstep
  split_ifs at hstep
  · cases hstep
    exact hacc
  · obtain ⟨_, -, hstep⟩ := Outcome.bind_eq_ok.mp hstep
    cases hstep
    exact hacc
  · obtain ⟨f, hf, hstep⟩ := Outcome.bind_eq_ok.mp hstep
    cases hstep
    intro g hg
    rcases List.mem_append.mp hg with hg | hg
    · exact hacc g hg
    · exact List.mem_singleton.mp hg ▸ parseField_fieldType hf

/-- `builtin_interfaces/Time` as `get_builtin_interfaces` parses it. -/
def builtinTime : ParsedMessageFile :=
  ⟨"Time", "builtin_interfaces",
    [⟨⟨none, "builtin_interfaces", "int32", .NotArray, none⟩, "sec", none⟩,
      ⟨⟨none, "builtin_interfaces", "uint32", .NotArray, none⟩, "nanosec", none⟩],
    [], some .ROS2, "/tmp/msg/Time.msg"⟩

/-- `builtin_interfaces/Duration` as `get_builtin_interfaces` parses it. -/
def builtinDuration : ParsedMessageFile :=
  ⟨"Duration", "builtin_interfaces",
    [⟨⟨none, "builtin_interfaces", "int32", .NotArray, none⟩, "sec", none⟩,
      ⟨⟨none, "builtin_interfaces", "uint32", .NotArray, none⟩, "nanosec", none⟩],
    [], some .ROS2, "/tmp/msg/Duration.msg"⟩

/-- `service_msgs/ServiceEventInfo` as `get_builtin_interfaces` parses it. -/
def builtinServiceEventInfo : ParsedMessageFile :=
  ⟨"ServiceEventInfo", "service_msgs",
    [⟨⟨none, "service_msgs", "uint8", .NotArray, none⟩, "event_type", none⟩,
      ⟨⟨some "builtin_interfaces", "service_msgs", "Time", .NotArray, none⟩, "stamp", none⟩,
      ⟨⟨none, "service_msgs", "char", .FixedLength 16, none⟩, "client_gid", none⟩,
      ⟨⟨none, "service_msgs", "int64", .NotArray, none⟩, "sequence_number", none⟩],
    [⟨"uint8", "REQUEST_SENT", "0"⟩, ⟨"uint8", "REQUEST_RECEIVED", "1"⟩,
      ⟨"uint8", "RESPONSE_SENT", "2"⟩, ⟨"uint8", "RESPONSE_RECEIVED", "3"⟩],
    some .ROS2, "/tmp/msg/ServiceEventInfo.msg"⟩

/-- The map `get_builtin_interfaces` returns. -/
def builtinInterfaces : BTreeMap MessageFile :=
  ((BTreeMap.empty.insert "builtin_interfaces/Time" ⟨builtinTime⟩).insert
    "builtin_interfaces/Duration" ⟨builtinDuration⟩).insert
    "service_msgs/ServiceEventInfo" ⟨builtinServiceEventInfo⟩

theorem parseRosMessageFile_time :
    parseRosMessageFile timeMsg "Time" (builtinPackage "builtin_interfaces") "/tmp/msg/Time.msg" =
      .ok builtinTime := by
  decide

theorem parseRosMessageFile_duration :
    parseRosMessageFile durationMsg "Duration" (builtinPackage "builtin_interfaces")
      "/tmp/msg/Duration.msg" = .ok builtinDuration := by
  decide

theorem parseRosMessageFile_serviceEventInfo :
    parseRosMessageFile serviceEventInfo "ServiceEventInfo" (builtinPackage "service_msgs")
      "/tmp/msg/ServiceEventInfo.msg" = .ok builtinServiceEventInfo := by
  decide

/-- `get_builtin_interfaces` returns without reaching its `expect`s. -/
theorem getBuiltinInterfaces_eq : getBuiltinInterfaces = .ok builtinInterfaces := by
  simp only [getBuiltinInterfaces, parseRosMessageFile_time, parseRosMessageFile_duration,
    parseRosMessageFile_serviceEventInfo]
  rfl

theorem builtinInterfaces_parsed :
    ∀ e ∈ builtinInterfaces.entries, ∀ f ∈ e.2.parsed.fields, ∃ t p, parseType t p = .ok f.fieldType := by
  intro e he f hf
  rcases mem_insertEntry he with rfl | he
  · exact (parseRosMessageFile_fields parseRosMessageFile_serviceEventInfo f hf).imp fun _ h => ⟨_, h⟩
  rcases mem_insertEntry he with rfl | he
  · exact (parseRosMessageFile_fields parseRosMessageFile_duration f hf).imp fun _ h => ⟨_, h⟩
  rcases mem_insertEntry he with rfl | he
  · exact (parseRosMessageFile_fields parseRosMessageFile_time f hf).imp fun _ h => ⟨_, h⟩
  · exact absurd he (List.not_mem_nil _)

/-! ## Hashing a closed, acyclic graph -/

/-- A closed graph ordered by `rank`, whose field types come from `parse_type`, is one the hash
runs on: every such type is taggable. -/
theorem hashable_of_parsed
    (hparsed : ∀ e ∈ G.entries, ∀ f ∈ e.2.parsed.fields, ∃ t p, parseType t p = .ok f.fieldType)
    (hclosed : Closed G) (hranked : RankedBy G rank) : Hashable G rank :=
  hashable_of_closed (fun e he f hf => let ⟨_, _, h⟩ := hparsed e he f hf; parseType_capacity h)
    hclosed hranked

/-- On a graph whose field types come from `parse_type`, that is closed and ordered by `rank`,
`calculate_ros2_hash` of every entry returns a hash without panicking, the same for all fuel above
the entry's rank: the recursion is at most that deep. -/
theorem calculateRos2Hash_returns
    (hparsed : ∀ e ∈ G.entries, ∀ f ∈ e.2.parsed.fields, ∃ t p, parseType t p = .ok f.fieldType)
    (hclosed : Closed G) (hranked : RankedBy G rank) :
    ∀ k mf, G.get k = some mf →
      ∃ h, ∀ fuel, rank k + 1 ≤ fuel → calculateRos2Hash sha256 fuel mf.parsed G = .ok h :=
  fun _ _ hk => calculateRos2Hash_ok_of_hashable sha256 (hashable_of_parsed hparsed hclosed hranked) hk

theorem calculateRos2Hash_returns_builtins :
    (∀ e ∈ builtinInterfaces.entries, ∀ f ∈ e.2.parsed.fields,
      ∃ t p, parseType t p = .ok f.fieldType) ∧
    Closed builtinInterfaces ∧
    RankedBy builtinInterfaces (fun k => if k = "service_msgs/ServiceEventInfo" then 1 else 0) ∧
    ∀ k mf, builtinInterfaces.get k = some mf → ∃ h, ∀ fuel,
      (if k = "service_msgs/ServiceEventInfo" then 1 else 0) + 1 ≤ fuel →
        calculateRos2Hash String.length fuel mf.parsed builtinInterfaces = .ok h := by
  refine ⟨builtinInterfaces_parsed, ?closed, ?ranked,
    calculateRos2Hash_returns String.length builtinInterfaces_parsed ?closed ?ranked⟩ <;> decide

/-! ## A graph with an entry under a synthetic key -/

/-- `pkg/Foo`, with a field of the ordinary message `pkg/Srv_Request`. -/
def fooMsg : ParsedMessageFile :=
  ⟨"Foo", "pkg", [⟨⟨some "pkg", "pkg", "Srv_Request", .NotArray, none⟩, "r", none⟩], [], some .ROS2,
    "/pkg/msg/Foo.msg"⟩

/-- `pkg/Srv_Request`, an ordinary message. -/
def srvRequestMsg : ParsedMessageFile :=
  ⟨"Srv_Request", "pkg", [⟨⟨none, "pkg", "int32", .NotArray, none⟩, "x", none⟩], [], some .ROS2,
    "/pkg/msg/Srv_Request.msg"⟩

/-- The built-in interfaces with `pkg/Foo` and `pkg/Srv_Request`. -/
def clashGraph : BTreeMap MessageFile :=
  (builtinInterfaces.insert "pkg/Foo" ⟨fooMsg⟩).insert "pkg/Srv_Request" ⟨srvRequestMsg⟩

/-- The service `pkg/Srv`, whose request has a `pkg/Foo` field. -/
def clashService : ParsedServiceFile :=
  ⟨"Srv", "pkg",
    ⟨"SrvRequest", "pkg", [⟨⟨some "pkg", "pkg", "Foo", .NotArray, none⟩, "foo", none⟩], [],
      some .ROS2, "/pkg/srv/Srv.srv"⟩,
    ⟨"SrvResponse", "pkg", [], [], some .ROS2, "/pkg/srv/Srv.srv"⟩, "/pkg/srv/Srv.srv"⟩

/-- In the service graph the request's `pkg/Foo` field leads to `pkg/Srv_Request`, which is now the
request itself: neither converts with any fuel. -/
theorem clashService_request_diverges : ∀ n,
    convertToTypeDescription (serviceGraph clashService clashGraph) n
        { clashService.requestType with name := clashService.name ++ "_Request" } true = .diverge ∧
      convertToTypeDescription (serviceGraph clashService clashGraph) n fooMsg true = .diverge
  | 0 => ⟨rfl, rfl⟩
  | n + 1 =>
    ⟨convertToTypeDescription_diverge (by rfl) (by decide) (by rfl) (by decide)
        (clashService_request_diverges n).2,
      convertToTypeDescription_diverge (by rfl) (by decide) (by rfl) (by decide)
        (clashService_request_diverges n).1⟩

/-- A graph that holds the built-in interfaces, whose field types come from `parse_type`, whose keys
name their entries, that is closed and acyclic, and a service whose fields resolve in it without
naming a synthetic key: `calculate_ros2_srv_hash` still never returns, because `graph_copy`
replaces the ordinary `pkg/Srv_Request` by the service's request. -/
theorem calculateRos2SrvHash_syntheticKeyClash :
    getBuiltinInterfaces = .ok builtinInterfaces ∧
    (∀ e ∈ builtinInterfaces.entries, clashGraph.get e.1 = some e.2) ∧
    (∀ e ∈ clashGraph.entries, ∀ f ∈ e.2.parsed.fields, ∃ t p, parseType t p = .ok f.fieldType) ∧
    (∀ e ∈ clashGraph.entries, e.2.parsed.getFullName = e.1) ∧
    Closed clashGraph ∧ (∃ rank, RankedBy clashGraph rank) ∧
    (∀ f ∈ clashService.requestType.fields ++ clashService.responseType.fields,
      (∃ t p, parseType t p = .ok f.fieldType) ∧ (f.fieldType.isPrimitive = false →
        (clashGraph.get f.getFullTypeName).isSome ∧ f.getFullTypeName ∉ serviceKeys clashService)) ∧
    ∀ {H' : Type} (hash : String → H') fuel,
      calculateRos2SrvHash hash fuel clashService clashGraph = .diverge := by
  refine ⟨getBuiltinInterfaces_eq, by decide, fun e he f hf => ?_, by decide, by decide,
    ⟨fun k => if k = "pkg/Foo" ∨ k = "service_msgs/ServiceEventInfo" then 1 else 0, by decide⟩,
    fun f hf => ?_, fun _ fuel => ?_⟩
  · rcases mem_insertEntry he with rfl | he
    · obtain rfl : f = ⟨⟨none, "pkg", "int32", .NotArray, none⟩, "x", none⟩ := by
        simpa [srvRequestMsg] using hf
      exact ⟨"int32", ⟨"pkg", "/pkg", some .ROS2⟩, by decide⟩
    rcases mem_insertEntry he with rfl | he
    · obtain rfl : f = ⟨⟨some "pkg", "pkg", "Srv_Request", .NotArray, none⟩, "r", none⟩ := by
        simpa [fooMsg] using hf
      exact ⟨"Srv_Request", ⟨"pkg", "/pkg", some .ROS2⟩, by decide⟩
    · exact builtinInterfaces_parsed e he f hf
  · obtain rfl : f = ⟨⟨some "pkg", "pkg", "Foo", .NotArray, none⟩, "foo", none⟩ := by
      simpa [clashService] using hf
    exact ⟨⟨"Foo", ⟨"pkg", "/pkg", some .ROS2⟩, by decide⟩, fun _ => by decide⟩
  · cases fuel with
    | zero => rfl
    | succ n =>
      rw [calculateRos2SrvHash, convertToTypeDescription_diverge (by rfl) (by decide) (by rfl)
        (by decide) (clashService_request_diverges n).1]
      rfl

end Roslibrust.Ros2Hashing
