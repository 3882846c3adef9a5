import Roslibrust.Codegen.Json
import Roslibrust.Proofs.Str

/-!
# Proofs: the JSON text that is hashed

The spec's rendering of a type description: objects `{KEY: VALUE, ...}` with their members in
declaration order, arrays `[a, b, ...]`, decimal integers, and strings in double quotes with only
`"` and `\` escaped. serde_json driven by `Ros2Formatter` writes exactly this text whenever every
name is printable ASCII, so that no control char needs a `\u` escape. The text is then printable
ASCII, a single line, and when no name holds a space its only whitespace is the one space after
each `:` and `,`; a name with a space carries the space into the text.
-/

namespace Roslibrust.Ros2Hashing

/-- Every string a description holds satisfies `P`: the type name, and each field's name and
nested type name. -/
def TypeDescription.AllStrings (P : String → Prop) (t : TypeDescription) : Prop :=
  P t.typeName ∧ ∀ f ∈ t.fields, P f.name ∧ P f.fieldType.nestedTypeName

def TypeDescriptionMsg.AllStrings (P : String → Prop) (m : TypeDescriptionMsg) : Prop :=
  m.typeDescription.AllStrings P ∧ ∀ t ∈ m.referencedTypeDescriptions, t.AllStrings P

instance {P : String → Prop} [DecidablePred P] (t : TypeDescription) :
    Decidable (t.AllStrings P) := inferInstanceAs (Decidable (_ ∧ ∀ f ∈ t.fields, _ ∧ _))

instance {P : String → Prop} [DecidablePred P] (m : TypeDescriptionMsg) :
    Decidable (m.AllStrings P) :=
  inferInstanceAs (Decidable (_ ∧ ∀ t ∈ m.referencedTypeDescriptions, _))

end Roslibrust.Ros2Hashing

namespace Roslibrust.Json

open Ros2Hashing Str

/-! ## The reference rendering -/

/-- Strings joined by `", "`. -/
def joinSep : List String → String
  | [] => ""
  | [x] => x
  | x :: y :: xs => x ++ ", " ++ joinSep (y :: xs)

/-- A char inside double quotes: `"` and `\` escaped, everything else as it is. -/
def quoteChar (c : Char) : String :=
  if c = '"' then "\\\"" else if c = '\\' then "\\\\" else c.toString

/-- A double-quoted string. -/
def quote (s : String) : String := "\"" ++ String.join (s.data.map quoteChar) ++ "\""

/-- An object: `KEY: VALUE` for each member, in order. -/
def renderObject (members : List (String × String)) : String :=
  "\x7b" ++ joinSep (members.map fun m => quote m.1 ++ ": " ++ m.2) ++ "\x7d"

/-- An array of rendered elements. -/
def renderArray (xs : List String) : String := "[" ++ joinSep xs ++ "]"

def renderFieldType (t : Ros2Hashing.FieldType) : String :=
  renderObject [("type_id", toString t.typeId.toNat), ("capacity", toString t.capacity.toNat),
    ("string_capacity", toString t.stringCapacity.toNat),
    ("nested_type_name", quote t.nestedTypeName)]

def renderField (x : Field) : String :=
  renderObject [("name", quote x.name), ("type", renderFieldType x.fieldType)]

def renderTypeDescription (d : TypeDescription) : String :=
  renderObject [("type_name", quote d.typeName), ("fields", renderArray (d.fields.map renderField))]

/-- `R(d)`. -/
def renderMsg (m : TypeDescriptionMsg) : String :=
  renderObject [("type_description", renderTypeDescription m.typeDescription),
    ("referenced_type_descriptions",
      renderArray (m.referencedTypeDescriptions.map renderTypeDescription))]

/-- A printable ASCII char, `0x20` to `0x7e`. -/
def printable (c : Char) : Bool := 0x20 ≤ c.toNat && c.toNat < 0x7f

/-- A string of printable ASCII chars. -/
def PrintableStr (s : String) : Prop := ∀ c ∈ s.data, printable c = true

instance : DecidablePred PrintableStr := fun s => inferInstanceAs (Decidable (∀ c ∈ s.data, _))

/-- The text has no whitespace but a single space right after a `:` or a `,`. -/
def sepSpaced : List Char → Bool
  | [] => true
  | [c] => !isWhitespace c
  | c :: d :: r =>
    if isWhitespace c then false
    else if (c = ':' ∨ c = ',') ∧ d = ' ' then sepSpaced r
    else sepSpaced (d :: r)

/-! ## The serializer writes the reference rendering -/

section Serializer

variable {α : Type}

theorem escapeChar_printable {c : Char} (h : printable c = true) : escapeChar c = quoteChar c := by
  have h32 : 32 ≤ c.toNat := by simp [printable] at h; omega
  have hlow : ∀ d : Char, d.toNat < 32 → c ≠ d := fun d hd e => by subst e; omega
  unfold escapeChar quoteChar
  by_cases h1 : c = '"'
  · simp only [h1, if_true]
  by_cases h2 : c = '\\'
  · simp only [h1, h2, if_true, if_false]
  -- a printable char is none of the control chars `escape_char` names
  simp only [h1, h2, hlow '\x08' (by decide), hlow '\x0c' (by decide), hlow '\n' (by decide),
    hlow '\r' (by decide), hlow '\t' (by decide), Nat.not_lt.mpr h32, if_false]

theorem formatEscapedStr_printable {s : String} (h : PrintableStr s) :
    formatEscapedStr s = quote s := by
  rw [formatEscapedStr, quote, List.map_congr_left fun c hc => escapeChar_printable (h c hc)]

theorem formatUnsigned_eq (n : Nat) : formatUnsigned n = toString n := rfl

theorem seqElements_rest (ser : α → String) (x : α) (xs : List α) :
    seqElements ros2Formatter ser .Rest (x :: xs) = ", " ++ joinSep ((x :: xs).map ser) ++ "]" := by
  induction xs generalizing x with
  | nil => rfl
  | cons y ys ih =>
    rw [seqElements, ih]
    simp only [List.map_cons, joinSep, String.append_assoc]
    rfl

theorem serializeSeq_ros2 (ser : α → String) (xs : List α) :
    serializeSeq ros2Formatter ser xs = renderArray (xs.map ser) := by
  match xs with
  | [] => rfl
  | [x] => rfl
  | x :: y :: ys =>
    rw [serializeSeq, if_neg (by simp), seqElements, seqElements_rest]
    simp only [List.map_cons, joinSep, renderArray, String.append_assoc]
    rfl

theorem structFields_rest (m : String × String) (ms : List (String × String)) :
    structFields ros2Formatter .Rest (m :: ms) =
      ", " ++ joinSep ((m :: ms).map fun m => formatEscapedStr m.1 ++ ": " ++ m.2) ++ "\x7d" := by
  induction ms generalizing m with
  | nil => rfl
  | cons m' ms ih =>
    rw [structFields, ih]
    simp only [List.map_cons, joinSep, String.append_assoc]
    rfl

theorem serializeStruct_ros2 {ms : List (String × String)} (hne : ms ≠ []) :
    serializeStruct ros2Formatter ms =
      "\x7b" ++ joinSep (ms.map fun m => formatEscapedStr m.1 ++ ": " ++ m.2) ++ "\x7d" := by
  match ms, hne with
  | [_], _ => rfl
  | m :: m' :: ms, _ =>
    rw [serializeStruct, if_neg (by simp), structFields, structFields_rest]
    simp only [List.map_cons, joinSep, String.append_assoc]
    rfl

/-- A struct with printable keys is written as an object. -/
theorem serializeStruct_render {ms : List (String × String)} (hne : ms ≠ [])
    (hk : ∀ m ∈ ms, PrintableStr m.1) : serializeStruct ros2Formatter ms = renderObject ms := by
  rw [serializeStruct_ros2 hne, renderObject,
    List.map_congr_left fun m hm => by rw [formatEscapedStr_printable (hk m hm)]]

end Serializer

/-! ## The whole description -/

section Render

theorem serializeFieldType_render {t : Ros2Hashing.FieldType} (h : PrintableStr t.nestedTypeName) :
    serializeFieldType ros2Formatter t = renderFieldType t := by
  rw [serializeFieldType, serializeStruct_render (List.cons_ne_nil _ _)
    (by simp only [List.forall_mem_cons]; decide), formatEscapedStr_printable h]
  rfl

theorem serializeField_render {x : Field} (h : PrintableStr x.name ∧ PrintableStr x.fieldType.nestedTypeName) :
    serializeField ros2Formatter x = renderField x := by
  rw [serializeField, serializeStruct_render (List.cons_ne_nil _ _)
    (by simp only [List.forall_mem_cons]; decide), formatEscapedStr_printable h.1,
    serializeFieldType_render h.2]
  rfl

theorem serializeTypeDescription_render {t : TypeDescription} (h : t.AllStrings PrintableStr) :
    serializeTypeDescription ros2Formatter t = renderTypeDescription t := by
  rw [serializeTypeDescription, serializeStruct_render (List.cons_ne_nil _ _)
    (by simp only [List.forall_mem_cons]; decide), formatEscapedStr_printable h.1,
    serializeSeq_ros2, List.map_congr_left fun f hf => serializeField_render (h.2 f hf)]
  rfl

theorem toRos2Json_render {d : TypeDescriptionMsg} (h : d.AllStrings PrintableStr) :
    toRos2Json d = renderMsg d := by
  rw [toRos2Json, serializeTypeDescriptionMsg, serializeStruct_render (List.cons_ne_nil _ _)
    (by simp only [List.forall_mem_cons]; decide), serializeTypeDescription_render h.1,
    serializeSeq_ros2, List.map_congr_left fun t ht => serializeTypeDescription_render (h.2 t ht)]
  rfl

end Render

/-! ## What the text is made of -/

/-- A property of texts that the rendering's separators, brackets and numbers have and that
concatenation keeps. -/
structure TextClosed (Q : List Char → Prop) : Prop where
  nil : Q []
  append : ∀ {a b}, Q a → Q b → Q (a ++ b)
  sep : Q ", ".data
  colon : Q ": ".data
  brackets : ∀ s ∈ ["\x7b", "\x7d", "[", "]"], Q (String.data s)
  num : ∀ n : Nat, Q (toString n).data

/-- The keys of the derived `Serialize` impls. -/
def jsonKeys : List String :=
  ["type_id", "capacity", "string_capacity", "nested_type_name", "name", "type", "type_name",
    "fields", "type_description", "referenced_type_descriptions"]

section Closure

variable {Q : List Char → Prop} {P : String → Prop}

theorem joinSep_closed (hQ : TextClosed Q) :
    ∀ {xs : List String}, (∀ x ∈ xs, Q x.data) → Q (joinSep xs).data
  | [], _ => hQ.nil
  | [x], h => h x (List.mem_singleton_self x)
  | x :: y :: ys, h => by
    rw [joinSep, String.data_append, String.data_append]
    exact hQ.append (hQ.append (h x (List.mem_cons_self _ _)) hQ.sep)
      (joinSep_closed hQ fun z hz => h z (List.mem_cons_of_mem _ hz))

theorem renderObject_closed (hQ : TextClosed Q) {ms : List (String × String)}
    (h : ∀ m ∈ ms, Q (quote m.1).data ∧ Q m.2.data) : Q (renderObject ms).data := by
  rw [renderObject, String.data_append, String.data_append]
  refine hQ.append (hQ.append (hQ.brackets _ (by simp)) (joinSep_closed hQ fun x hx => ?_))
    (hQ.brackets _ (by simp))
  obtain ⟨m, hm, rfl⟩ := List.mem_map.mp hx
  rw [String.data_append, String.data_append]
  exact hQ.append (hQ.append (h m hm).1 hQ.colon) (h m hm).2

theorem renderArray_closed (hQ : TextClosed Q) {xs : List String} (h : ∀ x ∈ xs, Q x.data) :
    Q (renderArray xs).data := by
  rw [renderArray, String.data_append, String.data_append]
  exact hQ.append (hQ.append (hQ.brackets _ (by simp)) (joinSep_closed hQ h))
    (hQ.brackets _ (by simp))

variable (hQ : TextClosed Q) (hq : ∀ s, P s → Q (quote s).data)
  (hk : ∀ k ∈ jsonKeys, Q (quote k).data)
include hQ hq hk

theorem renderField_closed {f : Field} (hf : P f.name ∧ P f.fieldType.nestedTypeName) :
    Q (renderField f).data := by
  refine renderObject_closed hQ fun m hm => ?_
  simp only [List.mem_cons, List.mem_singleton, List.not_mem_nil, or_false] at hm
  rcases hm with rfl | rfl
  · exact ⟨hk "name" (by decide), hq _ hf.1⟩
  · refine ⟨hk "type" (by decide), renderObject_closed hQ fun m hm => ?_⟩
    simp only [List.mem_cons, List.mem_singleton, List.not_mem_nil, or_false] at hm
    rcases hm with rfl | rfl | rfl | rfl
    · exact ⟨hk "type_id" (by decide), hQ.num _⟩
    · exact ⟨hk "capacity" (by decide), hQ.num _⟩
    · exact ⟨hk "string_capacity" (by decide), hQ.num _⟩
    · exact ⟨hk "nested_type_name" (by decide), hq _ hf.2⟩

theorem renderTypeDescription_closed {t : TypeDescription} (ht : t.AllStrings P) :
    Q (renderTypeDescription t).data := by
  refine renderObject_closed hQ fun m hm => ?_
  simp only [List.mem_cons, List.mem_singleton, List.not_mem_nil, or_false] at hm
  rcases hm with rfl | rfl
  · exact ⟨hk "type_name" (by decide), hq _ ht.1⟩
  · refine ⟨hk "fields" (by decide), renderArray_closed hQ fun x hx => ?_⟩
    obtain ⟨f, hf, rfl⟩ := List.mem_map.mp hx
    exact renderField_closed hQ hq hk (ht.2 f hf)

theorem renderMsg_closed {d : TypeDescriptionMsg} (hd : d.AllStrings P) : Q (renderMsg d).data := by
  refine renderObject_closed hQ fun m hm => ?_
  simp only [List.mem_cons, List.mem_singleton, List.not_mem_nil, or_false] at hm
  rcases hm with rfl | rfl
  · exact ⟨hk "type_description" (by decide), renderTypeDescription_closed hQ hq hk hd.1⟩
  · refine ⟨hk "referenced_type_descriptions" (by decide), renderArray_closed hQ fun x hx => ?_⟩
    obtain ⟨t, ht, rfl⟩ := List.mem_map.mp hx
    exact renderTypeDescription_closed hQ hq hk (hd.2 t ht)

end Closure

/-! ## Printable text, spaced separators -/

section Chars

theorem foldl_append_data :
    ∀ (l : List String) (r : String), (l.foldl (· ++ ·) r).data = r.data ++ (l.map String.data).flatten
  | [], r => by simp
  | s :: l, r => by rw [List.foldl_cons, foldl_append_data l, String.data_append]; simp

theorem join_data (l : List String) : (String.join l).data = (l.map String.data).flatten :=
  foldl_append_data l ""

theorem mem_quoteChar {c x : Char} (h : c ∈ (quoteChar x).data) : c = '"' ∨ c = '\\' ∨ c = x := by
  unfold quoteChar at h
  split_ifs at h <;> simp_all [Char.toString, String.singleton]

/-- A quoted string holds quotes, backslashes and the string's own chars. -/
theorem mem_quote {s : String} {c : Char} (h : c ∈ (quote s).data) :
    c = '"' ∨ c = '\\' ∨ c ∈ s.data := by
  simp only [quote, String.data_append, join_data, List.mem_append, List.mem_flatten,
    List.map_map, List.mem_map, Function.comp] at h
  rcases h with (h | ⟨_, ⟨x, hx, rfl⟩, hc⟩) | h
  · exact .inl (by simpa using h)
  · rcases mem_quoteChar hc with h | h | rfl
    · exact .inl h
    · exact .inr (.inl h)
    · exact .inr (.inr hx)
  · exact .inl (by simpa using h)

theorem digit_bounds {c : Char} (h : c.isDigit = true) : 48 ≤ c.toNat ∧ c.toNat ≤ 57 := by
  simp only [Char.isDigit, Bool.and_eq_true, decide_eq_true_eq] at h
  exact ⟨h.1, h.2⟩

/-- The only whitespace char among the printable ones is the space. -/
theorem isWhitespace_of_printable {c : Char} (h : printable c = true) (hc : c ≠ ' ') :
    isWhitespace c = false := by
  simp only [printable, Bool.and_eq_true, decide_eq_true_eq] at h
  cases hw : isWhitespace c
  · rfl
  · simp only [isWhitespace, Bool.or_eq_true, Bool.and_eq_true, decide_eq_true_eq,
      beq_iff_eq] at hw
    have h32 : c.toNat = 32 := by omega
    exact absurd (show c = ' ' from Char.ext (UInt32.eq_of_toBitVec_eq (BitVec.eq_of_toNat_eq h32))) hc

theorem sepSpaced_head {c : Char} {r : List Char} (h : sepSpaced (c :: r) = true) :
    isWhitespace c = false := by
  cases r with
  | nil => simpa [sepSpaced] using h
  | cons d r =>
    simp only [sepSpaced] at h
    by_contra hw
    rw [if_pos (Bool.not_eq_false _ ▸ hw)] at h
    cases h

theorem sepSpaced_append :
    ∀ {a b : List Char}, sepSpaced a = true → sepSpaced b = true → sepSpaced (a ++ b) = true
  | [], _, _, hb => hb
  | [_], [], ha, _ => ha
  | [c], d :: r, ha, hb => by
    have hc : isWhitespace c = false := by simpa [sepSpaced] using ha
    have hd : d ≠ ' ' := fun e => absurd (sepSpaced_head hb) (by rw [e]; decide)
    simp [sepSpaced, hc, hd, hb]
  | c :: d :: r, b, ha, hb => by
    simp only [sepSpaced] at ha
    rw [List.cons_append, List.cons_append, sepSpaced]
    split_ifs at ha ⊢
    · exact sepSpaced_append ha hb
    · exact sepSpaced_append ha hb

theorem sepSpaced_of_noWs :
    ∀ {s : List Char}, (∀ c ∈ s, isWhitespace c = false) → sepSpaced s = true
  | [], _ => rfl
  | [c], h => by simp [sepSpaced, h c (List.mem_singleton_self c)]
  | c :: d :: r, h => by
    have hd : d ≠ ' ' := fun e => absurd (h d (by simp)) (by rw [e]; decide)
    rw [sepSpaced, if_neg (by simp [h c (List.mem_cons_self _ _)]), if_neg (by simp [hd])]
    exact sepSpaced_of_noWs fun x hx => h x (List.mem_cons_of_mem _ hx)

/-- Printable texts. -/
theorem printableText : TextClosed fun s => ∀ c ∈ s, printable c = true where
  nil := fun _ h => absurd h (List.not_mem_nil _)
  append ha hb := fun c hc => (List.mem_append.mp hc).elim (ha c) (hb c)
  sep := by decide
  colon := by decide
  brackets := by decide
  num n := fun c hc => by
    have := digit_bounds (@isDigit_of_mem_decimal n c hc)
    simp only [printable, Bool.and_eq_true, decide_eq_true_eq]
    omega

/-- Texts whose only whitespace is a single space after a `:` or a `,`. -/
theorem sepSpacedText : TextClosed fun s => sepSpaced s = true where
  nil := rfl
  append := sepSpaced_append
  sep := rfl
  colon := rfl
  brackets := by decide
  num n := sepSpaced_of_noWs fun c hc => by
    have := digit_bounds (@isDigit_of_mem_decimal n c hc)
    simp only [isWhitespace, Bool.or_eq_false_iff, Bool.and_eq_false_iff, decide_eq_false_iff_not,
      beq_eq_false_iff_ne]
    omega

end Chars

/-- `to_ros2_json` writes the reference rendering `R(d)` of every description whose names are
printable ASCII; the text is printable ASCII, so a single line, and if no name holds a space,
its only whitespace is the single space after each `:` and `,`. -/
theorem toRos2Json_eq_renderMsg (d : TypeDescriptionMsg) (h : d.AllStrings PrintableStr) :
    toRos2Json d = renderMsg d ∧ (∀ c ∈ (toRos2Json d).data, printable c = true) ∧
      (d.AllStrings (fun s => PrintableStr s ∧ ' ' ∉ s.data) →
        sepSpaced (toRos2Json d).data = true) := by
  rw [toRos2Json_render h]
  refine ⟨rfl, renderMsg_closed printableText (fun s hs c hc => ?_) (by decide) h,
    fun h' => renderMsg_closed sepSpacedText (fun s hs => ?_) (by decide) h'⟩
  · rcases mem_quote hc with rfl | rfl | hc
    · rfl
    · rfl
    · exact hs c hc
  · refine sepSpaced_of_noWs fun c hc => ?_
    rcases mem_quote hc with rfl | rfl | hc
    · rfl
    · rfl
    · exact isWhitespace_of_printable (hs.1 c hc) fun e => hs.2 (e ▸ hc)

example : toRos2Json ⟨⟨"std_msgs/msg/String", [⟨"data", ⟨17, 0, 0, ""⟩, ""⟩]⟩, []⟩ =
    "\x7b\"type_description\": \x7b\"type_name\": \"std_msgs/msg/String\", \"fields\": [\x7b\"name\": \"data\", \"type\": \x7b\"type_id\": 17, \"capacity\": 0, \"string_capacity\": 0, \"nested_type_name\": \"\"\x7d\x7d]\x7d, \"referenced_type_descriptions\": []\x7d" := by
  rfl

theorem toRos2Json_eq_renderMsg_string :
    TypeDescriptionMsg.AllStrings PrintableStr
        ⟨⟨"std_msgs/msg/String", [⟨"data", ⟨17, 0, 0, ""⟩, ""⟩]⟩, []⟩ ∧
      TypeDescriptionMsg.AllStrings (fun s => PrintableStr s ∧ ' ' ∉ s.data)
        ⟨⟨"std_msgs/msg/String", [⟨"data", ⟨17, 0, 0, ""⟩, ""⟩]⟩, []⟩ ∧
      toRos2Json ⟨⟨"std_msgs/msg/String", [⟨"data", ⟨17, 0, 0, ""⟩, ""⟩]⟩, []⟩ =
        renderMsg ⟨⟨"std_msgs/msg/String", [⟨"data", ⟨17, 0, 0, ""⟩, ""⟩]⟩, []⟩ ∧
      sepSpaced (toRos2Json ⟨⟨"std_msgs/msg/String", [⟨"data", ⟨17, 0, 0, ""⟩, ""⟩]⟩, []⟩).data =
        true := by
  refine ⟨?printable, ?noSpace, (toRos2Json_eq_renderMsg _ ?printable).1,
    (toRos2Json_eq_renderMsg _ ?printable).2.2 ?noSpace⟩ <;> decide

/-- A type name with a space: printable, and the space stands between two letters. -/
theorem toRos2Json_spaceInName :
    TypeDescriptionMsg.AllStrings PrintableStr ⟨⟨"pkg/msg/A B", []⟩, []⟩ ∧
    toRos2Json ⟨⟨"pkg/msg/A B", []⟩, []⟩ =
      "\x7b\"type_description\": \x7b\"type_name\": \"pkg/msg/A B\", \"fields\": []\x7d, \"referenced_type_descriptions\": []\x7d" ∧
    sepSpaced (toRos2Json ⟨⟨"pkg/msg/A B", []⟩, []⟩).data = false := by
  decide

end Roslibrust.Json
