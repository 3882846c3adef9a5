import Roslibrust.Proofs.Convert

/-!
# Proofs: which descriptions a conversion references

`convert_to_type_description` collects the descriptions of nested types in a map keyed by type
name: each nested field merges the recursive call's references and then the call's own
description, overwriting. The map ends up holding one description for each graph key reachable
from the message through nested-field lookups, namely the description that key converts to,
provided distinct keys have distinct ROS2 names. They do on every graph whose keys name their
own entries: an entry's name is the stem of its file, which holds no `/`, so the ROS2 name
`package/msg/Name` gives back both the name and the package.
-/

namespace Roslibrust.Ros2Hashing

/-- Graph key `k` converts, as every recursive call converts it (`service_naming = true`), to the
description `t`. -/
def ConvertsTo (G : BTreeMap MessageFile) (k : String) (t : TypeDescription) : Prop :=
  ∃ mf n sub, G.get k = some mf ∧ convertToTypeDescription G n mf.parsed true = .ok sub ∧
    t = sub.typeDescription

/-- The graph keys reached from a message through one or more lookups of non-primitive
fields. -/
inductive Reaches (G : BTreeMap MessageFile) : ParsedMessageFile → String → Prop
  /-- A non-primitive field names a key. -/
  | field {m : ParsedMessageFile} {f : FieldInfo} : f ∈ m.fields →
      f.fieldType.isPrimitive = false → Reaches G m f.getFullTypeName
  /-- A key reached from the entry a non-primitive field names. -/
  | nested {m : ParsedMessageFile} {f : FieldInfo} {mf : MessageFile} {k : String} :
      f ∈ m.fields → f.fieldType.isPrimitive = false → G.get f.getFullTypeName = some mf →
      Reaches G mf.parsed k → Reaches G m k

/-- Distinct entries of the graph have distinct ROS2 names. -/
def Ros2NamesDistinct (G : BTreeMap MessageFile) : Prop :=
  G.entries.Pairwise fun e e' => e.2.parsed.getRos2FullName ≠ e'.2.parsed.getRos2FullName

instance (G : BTreeMap MessageFile) : Decidable (Ros2NamesDistinct G) :=
  inferInstanceAs (Decidable (List.Pairwise _ _))

/-- A reference map holding, under its type name, the description of each key of `S` and
nothing else. -/
structure RefsOf (G : BTreeMap MessageFile) (m : BTreeMap TypeDescription) (S : String → Prop) :
    Prop where
  keyed : ∀ name t, m.get name = some t → t.typeName = name
  sound : ∀ name t, m.get name = some t → ∃ k, S k ∧ ConvertsTo G k t
  complete : ∀ k, S k → ∃ t, ConvertsTo G k t ∧ m.get t.typeName = some t

/-- The keys the fields of `fs` reach: each non-primitive field's key, and what its entry
reaches. -/
def ReachedBy (G : BTreeMap MessageFile) (fs : List FieldInfo) (k : String) : Prop :=
  ∃ f ∈ fs, f.fieldType.isPrimitive = false ∧
    (k = f.getFullTypeName ∨ ∃ mf, G.get f.getFullTypeName = some mf ∧ Reaches G mf.parsed k)

variable {G : BTreeMap MessageFile} {k k' : String} {t t' : TypeDescription}
  {m : BTreeMap TypeDescription} {S S' : String → Prop}

/-! ## Descriptions of keys -/

/-- A key converts to one description: the recursion is deterministic, and more fuel keeps a
result. -/
theorem convertsTo_unique (h : ConvertsTo G k t) (h' : ConvertsTo G k t') : t = t' := by
  obtain ⟨mf, n, sub, hg, hc, rfl⟩ := h
  obtain ⟨mf', n', sub', hg', hc', rfl⟩ := h'
  rw [hg] at hg'
  cases hg'
  have := convertToTypeDescription_mono (Nat.le_max_left n n') hc
  rw [convertToTypeDescription_mono (Nat.le_max_right n n') hc'] at this
  cases this
  rfl

theorem convertsTo_typeName (h : ConvertsTo G k t) :
    ∃ mf, G.get k = some mf ∧ t.typeName = mf.parsed.getRos2FullName := by
  obtain ⟨mf, n, sub, hg, hc, rfl⟩ := h
  exact ⟨mf, hg, (convertToTypeDescription_fields hc).1⟩

/-- With distinct ROS2 names, a type name determines the key. -/
theorem Ros2NamesDistinct.key_eq (hG : Ros2NamesDistinct G) (h : ConvertsTo G k t)
    (h' : ConvertsTo G k' t') (hn : t.typeName = t'.typeName) : k = k' := by
  obtain ⟨mf, hg, hname⟩ := convertsTo_typeName h
  obtain ⟨mf', hg', hname'⟩ := convertsTo_typeName h'
  by_contra hne
  exact hG.forall (fun _ _ h => Ne.symm h) ((BTreeMap.mem_entries_iff _ _ _).mpr hg)
    ((BTreeMap.mem_entries_iff _ _ _).mpr hg') (fun e => hne (congrArg Prod.fst e))
    (hname ▸ hname' ▸ hn)

/-! ## The reference map -/

theorem RefsOf.empty : RefsOf G .empty fun _ => False :=
  ⟨by simp, by simp, fun _ h => h.elim⟩

theorem RefsOf.congr (h : RefsOf G m S) (hS : ∀ k, S k ↔ S' k) : RefsOf G m S' :=
  ⟨h.keyed, fun n t ht => let ⟨k, hk, hc⟩ := h.sound n t ht; ⟨k, (hS k).mp hk, hc⟩,
    fun k hk => h.complete k ((hS k).mpr hk)⟩

/-- Inserting a key's description under its type name adds the key. -/
theorem RefsOf.insert (hG : Ros2NamesDistinct G) (h : RefsOf G m S) (ht : ConvertsTo G k t) :
    RefsOf G (m.insert t.typeName t) fun k' => S k' ∨ k' = k where
  keyed n t' h' := by
    rw [BTreeMap.get_insert] at h'
    split_ifs at h' with hn
    · cases h'
      exact hn.symm
    · exact h.keyed n t' h'
  sound n t' h' := by
    rw [BTreeMap.get_insert] at h'
    split_ifs at h'
    · cases h'
      exact ⟨k, .inr rfl, ht⟩
    · obtain ⟨k', hk', hc⟩ := h.sound n t' h'
      exact ⟨k', .inl hk', hc⟩
  complete k' hk' := by
    rcases hk' with hk' | rfl
    · obtain ⟨t', hc, hget⟩ := h.complete k' hk'
      refine ⟨t', hc, ?_⟩
      rw [BTreeMap.get_insert]
      split_ifs with hn
      · obtain rfl := hG.key_eq hc ht hn
        rw [convertsTo_unique hc ht]
      · exact hget
    · exact ⟨t, ht, BTreeMap.get_insert_self _ _ _⟩

/-- Inserting descriptions of keys one after another adds their keys. -/
theorem RefsOf.foldl_insert (hG : Ros2NamesDistinct G) :
    ∀ {L : List TypeDescription} {m : BTreeMap TypeDescription} {S : String → Prop},
      RefsOf G m S → (∀ t ∈ L, ∃ k, ConvertsTo G k t) →
      RefsOf G (L.foldl (fun acc d => acc.insert d.typeName d) m)
        fun k => S k ∨ ∃ t ∈ L, ConvertsTo G k t
  | [], _, _, h, _ => h.congr (by simp)
  | t :: _, _, _, h, hL => by
    obtain ⟨k, hk⟩ := hL t (List.mem_cons_self _ _)
    refine (RefsOf.foldl_insert hG (h.insert hG hk)
      fun t' ht' => hL t' (List.mem_cons_of_mem _ ht')).congr fun k' => ?_
    constructor
    · rintro ((h1 | rfl) | ⟨t', ht', hc⟩)
      · exact .inl h1
      · exact .inr ⟨t, List.mem_cons_self _ _, hk⟩
      · exact .inr ⟨t', List.mem_cons_of_mem _ ht', hc⟩
    · rintro (h1 | ⟨t', ht', hc⟩)
      · exact .inl (.inl h1)
      · rcases List.mem_cons.mp ht' with rfl | ht'
        · exact .inl (.inr (hG.key_eq hc hk rfl))
        · exact .inr ⟨t', ht', hc⟩

theorem RefsOf.values (h : RefsOf G m S) :
    (∀ t ∈ m.values, ∃ k, S k ∧ ConvertsTo G k t) ∧ (∀ k, S k → ∃ t ∈ m.values, ConvertsTo G k t) := by
  refine ⟨fun t ht => ?_, fun k hk => ?_⟩
  · obtain ⟨n, hn⟩ := (BTreeMap.mem_values_iff _ _).mp ht
    exact h.sound n t hn
  · obtain ⟨t, hc, hget⟩ := h.complete k hk
    exact ⟨t, (BTreeMap.mem_values_iff _ _).mpr ⟨_, hget⟩, hc⟩

/-- Merging a nested call's result adds the key looked up and everything its entry reaches. -/
theorem RefsOf.merge (hG : Ros2NamesDistinct G) (h : RefsOf G m S) {key : String}
    {mf : MessageFile} {n : Nat} {sub : TypeDescriptionMsg} (hget : G.get key = some mf)
    (hsub : convertToTypeDescription G n mf.parsed true = .ok sub)
    (hrefs : (∀ t ∈ sub.referencedTypeDescriptions, ∃ k, Reaches G mf.parsed k ∧ ConvertsTo G k t) ∧
      ∀ k, Reaches G mf.parsed k → ∃ t ∈ sub.referencedTypeDescriptions, ConvertsTo G k t) :
    RefsOf G (mergeReferenced m sub) fun k => (S k ∨ Reaches G mf.parsed k) ∨ k = key := by
  have h1 := h.foldl_insert hG fun t ht => (hrefs.1 t ht).imp fun _ hk => hk.2
  refine (h1.insert hG ⟨mf, n, sub, hget, hsub, rfl⟩).congr fun k => or_congr_left (or_congr_right ?_)
  constructor
  · rintro ⟨t, ht, hc⟩
    obtain ⟨k', hk', hc'⟩ := hrefs.1 t ht
    exact hG.key_eq hc hc' rfl ▸ hk'
  · exact fun hk => hrefs.2 k hk

theorem reaches_iff {M : ParsedMessageFile} : Reaches G M k ↔ ReachedBy G M.fields k := by
  constructor
  · rintro (⟨hf, hp⟩ | ⟨hf, hp, hg, hr⟩)
    · exact ⟨_, hf, hp, .inl rfl⟩
    · exact ⟨_, hf, hp, .inr ⟨_, hg, hr⟩⟩
  · rintro ⟨f, hf, hp, rfl | ⟨mf, hg, hr⟩⟩
    · exact .field hf hp
    · exact .nested hf hp hg hr

theorem reachedBy_append_primitive {pre : List FieldInfo} {x : FieldInfo}
    (hp : x.fieldType.isPrimitive = true) : ReachedBy G (pre ++ [x]) k ↔ ReachedBy G pre k := by
  simp only [ReachedBy, List.mem_append, List.mem_singleton]
  constructor
  · rintro ⟨f, hf | rfl, hfp, hr⟩
    · exact ⟨f, hf, hfp, hr⟩
    · rw [hp] at hfp
      cases hfp
  · rintro ⟨f, hf, hfp, hr⟩
    exact ⟨f, .inl hf, hfp, hr⟩

theorem reachedBy_append_nested {pre : List FieldInfo} {x : FieldInfo} {mf : MessageFile}
    (hp : x.fieldType.isPrimitive = false) (hg : G.get x.getFullTypeName = some mf) :
    ReachedBy G (pre ++ [x]) k ↔ (ReachedBy G pre k ∨ Reaches G mf.parsed k) ∨ k = x.getFullTypeName := by
  simp only [ReachedBy, List.mem_append, List.mem_singleton]
  constructor
  · rintro ⟨f, hf | rfl, hfp, hr⟩
    · exact .inl (.inl ⟨f, hf, hfp, hr⟩)
    · rcases hr with rfl | ⟨mf', hg', hr⟩
      · exact .inr rfl
      · rw [hg] at hg'
        cases hg'
        exact .inl (.inr hr)
  · rintro ((⟨f, hf, hfp, hr⟩ | hr) | rfl)
    · exact ⟨f, .inl hf, hfp, hr⟩
    · exact ⟨x, .inr rfl, hp, .inr ⟨mf, hg, hr⟩⟩
    · exact ⟨x, .inr rfl, hp, .inl rfl⟩

/-! ## Whole conversions -/

/-- The reference map of a successful conversion holds exactly the descriptions of the keys the
message reaches. -/
theorem convertToTypeDescription_refsOf (hG : Ros2NamesDistinct G) :
    ∀ (n : Nat) {M : ParsedMessageFile} {b : Bool} {d : TypeDescriptionMsg},
      convertToTypeDescription G n M b = .ok d →
      ∃ refs, RefsOf G refs (Reaches G M) ∧ d.referencedTypeDescriptions = refs.values
  | 0, _, _, _, h => by cases h
  | n + 1, M, b, d, h => by
    obtain ⟨_, st, hn, hst, rfl⟩ := convertToTypeDescription_ok h
    cases hn
    have hrun := Outcome.foldlM_ok_induction
      (fun pre (s : ConvertState) => RefsOf G s.referenced (ReachedBy G pre))
      (fun pre x s s' hP hstep => by
        obtain ⟨_, _, ⟨hp, rfl⟩ | ⟨hp, mf, sub, hmf, hsub, rfl⟩⟩ := convertField_ok hstep
        · exact hP.congr fun _ => (reachedBy_append_primitive hp).symm
        · obtain ⟨refs, hR, hv⟩ := convertToTypeDescription_refsOf hG n hsub
          exact (hP.merge hG hmf hsub (hv ▸ hR.values)).congr fun _ =>
            (reachedBy_append_nested hp hmf).symm)
      [] (RefsOf.empty.congr fun _ => by simp [ReachedBy]) hst
    exact ⟨st.referenced, (hrun.congr fun _ => reaches_iff.symm), rfl⟩

/-- The values of a reference map are in strictly increasing type-name order. -/
theorem RefsOf.values_sorted (h : RefsOf G m S) :
    m.values.Pairwise fun t t' => t.typeName < t'.typeName := by
  refine List.pairwise_map.mpr (m.sorted.imp_of_mem fun ha hb hab => ?_)
  rw [h.keyed _ _ ((BTreeMap.mem_entries_iff _ _ _).mp ha),
    h.keyed _ _ ((BTreeMap.mem_entries_iff _ _ _).mp hb)]
  exact hab

/-- On a graph whose entries have distinct ROS2 names, a successful conversion lists each type
the message reaches exactly once, by its converted description, in strictly increasing name
order, and nothing else. -/
theorem convertToTypeDescription_referenced {fuel : Nat} {M : ParsedMessageFile} {b : Bool}
    {d : TypeDescriptionMsg} (hG : Ros2NamesDistinct G)
    (h : convertToTypeDescription G fuel M b = .ok d) :
    d.referencedTypeDescriptions.Pairwise (fun t t' => t.typeName < t'.typeName) ∧
      (∀ k, Reaches G M k → ∃ t, ConvertsTo G k t) ∧
      ∀ t, t ∈ d.referencedTypeDescriptions ↔ ∃ k, Reaches G M k ∧ ConvertsTo G k t := by
  obtain ⟨refs, hR, hv⟩ := convertToTypeDescription_refsOf hG fuel h
  rw [hv]
  refine ⟨hR.values_sorted, fun k hk => ?_, fun t => ⟨hR.values.1 t, ?_⟩⟩
  · obtain ⟨t, -, hc⟩ := hR.values.2 k hk
    exact ⟨t, hc⟩
  · rintro ⟨k, hk, hc⟩
    obtain ⟨t', ht', hc'⟩ := hR.values.2 k hk
    exact convertsTo_unique hc' hc ▸ ht'

/-! ## Graphs keyed by full name

A key names its entry when it is the entry's `package/Name`. The name is a file stem, with no
`/`, so it is the last segment of the ROS2 name `package/msg/Name`, and what comes before
`/msg/` is the package: keys that name their entries give distinct ROS2 names.
-/

theorem getRos2FullName_data_reverse (m : ParsedMessageFile) :
    m.getRos2FullName.data.reverse = m.name.data.reverse ++
      '/' :: ((if isSrvPath m.path then "vrs/" else "gsm/").data ++ m.package.data.reverse) := by
  unfold ParsedMessageFile.getRos2FullName
  split_ifs <;> simp

/-- When names hold no `/`, the ROS2 name determines the `package/Name` key. -/
theorem getFullName_of_getRos2FullName {m m' : ParsedMessageFile} (hn : '/' ∉ m.name.data)
    (hn' : '/' ∉ m'.name.data) (h : m.getRos2FullName = m'.getRos2FullName) :
    m.getFullName = m'.getFullName := by
  have hd := congrArg (fun s : String => s.data.reverse) h
  simp only [getRos2FullName_data_reverse] at hd
  obtain ⟨hname, hrest⟩ :=
    Str.append_cons_inj_of_not_mem (by simpa using hn) (by simpa using hn') hd
  have hpk : m.package.data.reverse = m'.package.data.reverse := by
    have := congrArg (List.drop 4) hrest
    split_ifs at this <;> simpa using this
  simp only [ParsedMessageFile.getFullName, String.ext_iff, String.data_append,
    List.reverse_injective hpk, List.reverse_injective hname]

/-- A graph whose keys name their entries, and whose names hold no `/`, has distinct ROS2
names. -/
theorem ros2NamesDistinct_of_keyed (hk : ∀ e ∈ G.entries, e.2.parsed.getFullName = e.1)
    (hn : ∀ e ∈ G.entries, '/' ∉ e.2.parsed.name.data) : Ros2NamesDistinct G :=
  G.sorted.imp_of_mem fun ha hb hab he => by
    rw [← hk _ ha, ← hk _ hb, getFullName_of_getRos2FullName (hn _ ha) (hn _ hb) he] at hab
    exact lt_irrefl _ hab

/-- On a graph whose keys name their own entries, with names that hold no `/` as file stems do,
a successful conversion lists each type the message reaches exactly once, by the description that
type converts to whichever field path reached it, in strictly increasing name order, and nothing
else. -/
theorem convertToTypeDescription_referencedKeyed {fuel : Nat} {M : ParsedMessageFile} {b : Bool}
    {d : TypeDescriptionMsg} (hk : ∀ e ∈ G.entries, e.2.parsed.getFullName = e.1)
    (hn : ∀ e ∈ G.entries, '/' ∉ e.2.parsed.name.data)
    (h : convertToTypeDescription G fuel M b = .ok d) :
    d.referencedTypeDescriptions.Pairwise (fun t t' => t.typeName < t'.typeName) ∧
      (∀ k, Reaches G M k → ∃ t, ConvertsTo G k t) ∧
      ∀ t, t ∈ d.referencedTypeDescriptions ↔ ∃ k, Reaches G M k ∧ ConvertsTo G k t :=
  convertToTypeDescription_referenced (ros2NamesDistinct_of_keyed hk hn) h

/-- `p/A` and `p/B` both nest `p/C`: a diamond. -/
def diamondGraph : BTreeMap MessageFile :=
  ((BTreeMap.empty.insert "p/C"
    ⟨⟨"C", "p", [⟨⟨none, "p", "int32", .NotArray, none⟩, "v", none⟩], [], some .ROS2,
      "C.msg"⟩⟩).insert "p/A"
    ⟨⟨"A", "p", [⟨⟨some "p", "p", "C", .NotArray, none⟩, "c", none⟩], [], some .ROS2,
      "A.msg"⟩⟩).insert "p/B"
    ⟨⟨"B", "p", [⟨⟨some "p", "p", "C", .NotArray, none⟩, "c", none⟩,
      ⟨⟨none, "p", "bool", .NotArray, none⟩, "w", none⟩], [], some .ROS2, "B.msg"⟩⟩

/-- A message nesting both sides of the diamond. -/
def diamondTop : ParsedMessageFile :=
  ⟨"Top", "p", [⟨⟨some "p", "p", "A", .NotArray, none⟩, "a", none⟩,
    ⟨⟨some "p", "p", "B", .NotArray, none⟩, "b", none⟩], [], some .ROS2, "Top.msg"⟩

/-- The description of `diamondTop`: `p/msg/C` is referenced once. -/
def diamondTopDescription : TypeDescriptionMsg :=
  ⟨⟨"p/msg/Top", [⟨"a", ⟨1, 0, 0, "p/msg/A"⟩, ""⟩, ⟨"b", ⟨1, 0, 0, "p/msg/B"⟩, ""⟩]⟩,
    [⟨"p/msg/A", [⟨"c", ⟨1, 0, 0, "p/msg/C"⟩, ""⟩]⟩,
      ⟨"p/msg/B", [⟨"c", ⟨1, 0, 0, "p/msg/C"⟩, ""⟩, ⟨"w", ⟨15, 0, 0, ""⟩, ""⟩]⟩,
      ⟨"p/msg/C", [⟨"v", ⟨6, 0, 0, ""⟩, ""⟩]⟩]⟩

theorem convertToTypeDescription_referencedKeyed_diamond :
    (∀ e ∈ diamondGraph.entries, e.2.parsed.getFullName = e.1) ∧
    (∀ e ∈ diamondGraph.entries, '/' ∉ e.2.parsed.name.data) ∧
    convertToTypeDescription diamondGraph 3 diamondTop false = .ok diamondTopDescription ∧
    diamondTopDescription.referencedTypeDescriptions.Pairwise
      (fun t t' => t.typeName < t'.typeName) ∧
    (∀ k, Reaches diamondGraph diamondTop k → ∃ t, ConvertsTo diamondGraph k t) ∧
    ∀ t, t ∈ diamondTopDescription.referencedTypeDescriptions ↔
      ∃ k, Reaches diamondGraph diamondTop k ∧ ConvertsTo diamondGraph k t := by
  refine ⟨?keyed, ?names, ?run,
    convertToTypeDescription_referencedKeyed ?keyed ?names ?run⟩ <;> decide

end Roslibrust.Ros2Hashing
