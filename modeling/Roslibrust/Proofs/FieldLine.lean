import Roslibrust.Proofs.ParseType

/-!
# Proofs: field and constant lines

`parse_field` reads a line `TYPE NAME [DEFAULT]` and `parse_constant_field` a line
`TYPE NAME = VALUE`. Both locate their separators with `find(' ')`, while `parse_field` takes
the tokens from `split_whitespace`. Here the spec's line grammar is a pair of structures whose
fields carry the conditions on each part, rendered to the line text. The two parsers read back
every line of the grammar whose first whitespace run holds a space (and, for a ROS2 default,
whose second run does too): then the first `' '` is in the run the spec means. With only tabs
in those runs the first `' '` lies further on, and the default or the constant's name and type
are cut at the wrong place.
-/

namespace Roslibrust.Str

variable {ε : Type}

/-! ## Whitespace runs, tokens and trimmed text -/

/-- A run of whitespace chars (the spec's `w1`, `w2`, `w3`). -/
def Blank (w : List Char) : Prop := ∀ c ∈ w, isWhitespace c = true

/-- A token: a non-empty run of non-whitespace chars. -/
def Token (s : List Char) : Prop := s ≠ [] ∧ ∀ c ∈ s, isWhitespace c = false

/-- Text without leading or trailing whitespace (possibly empty). -/
def Trimmed (s : List Char) : Prop :=
  (∀ c ∈ s.head?, isWhitespace c = false) ∧ ∀ c ∈ s.getLast?, isWhitespace c = false

instance (w : List Char) : Decidable (Blank w) := inferInstanceAs (Decidable (∀ c ∈ w, _))
instance (s : List Char) : Decidable (Token s) := inferInstanceAs (Decidable (_ ∧ _))
instance (s : List Char) : Decidable (Trimmed s) := inferInstanceAs (Decidable (_ ∧ _))

/-! ## `trim` and `split_whitespace` around whitespace runs -/

theorem Blank.reverse {w : List Char} (h : Blank w) : Blank w.reverse :=
  fun c hc => h c (List.mem_reverse.mp hc)

theorem Token.trimmed {s : List Char} (h : Token s) : Trimmed s :=
  ⟨fun c hc => h.2 c (List.mem_of_mem_head? hc), fun c hc => h.2 c (List.mem_of_mem_getLast? hc)⟩

theorem dropWhile_blank_append {w : List Char} (hw : Blank w) (l : List Char) :
    (w ++ l).dropWhile isWhitespace = l.dropWhile isWhitespace := by
  induction w with
  | nil => rfl
  | cons c w ih =>
    rw [List.cons_append, List.dropWhile_cons_of_pos (hw c (.head _))]
    exact ih fun c hc => hw c (.tail _ hc)

theorem dropWhile_of_head {l : List Char} (h : ∀ c ∈ l.head?, isWhitespace c = false) :
    l.dropWhile isWhitespace = l := by
  cases l with
  | nil => rfl
  | cons c l => exact List.dropWhile_cons_of_neg (by simp [h c rfl])

theorem trim_blank_append {w : List Char} (hw : Blank w) (l : List Char) : trim (w ++ l) = trim l := by
  rw [trim, trim, dropWhile_blank_append hw]

theorem trim_append_blank {w : List Char} (hw : Blank w) (l : List Char) : trim (l ++ w) = trim l := by
  rw [trim, trim, List.dropWhile_append]
  split
  next h =>
    rw [List.isEmpty_iff.mp h, List.dropWhile_eq_nil_iff.mpr hw]
  next => rw [List.reverse_append, dropWhile_blank_append hw.reverse]

theorem trim_of_trimmed {s : List Char} (h : Trimmed s) : trim s = s := by
  rw [trim, dropWhile_of_head h.1, dropWhile_of_head (by rw [List.head?_reverse]; exact h.2),
    List.reverse_reverse]

/-- `trim` removes exactly the whitespace runs around trimmed text. -/
theorem trim_blank_around {w s w' : List Char} (hw : Blank w) (hs : Trimmed s) (hw' : Blank w') :
    trim (w ++ s ++ w') = s := by
  rw [trim_append_blank hw', trim_blank_append hw, trim_of_trimmed hs]

theorem splitWhitespace_blank_append {w : List Char} (hw : Blank w) (r : List Char) :
    splitWhitespace (w ++ r) = splitWhitespace r := by
  induction w with
  | nil => rfl
  | cons c w ih =>
    rw [splitWhitespace, List.cons_append, List.splitOnP_cons, if_pos (hw c (.head _)),
      List.filter_cons_of_neg (by simp)]
    exact ih fun c hc => hw c (.tail _ hc)

theorem splitWhitespace_token {s : List Char} (hs : Token s) : splitWhitespace s = [s] := by
  rw [splitWhitespace, List.splitOnP_eq_single _ _ (by simpa using hs.2),
    List.filter_cons_of_pos (by simpa using hs.1)]
  rfl

theorem splitWhitespace_token_append {s w : List Char} (hs : Token s) (hw : Blank w) (hw0 : w ≠ [])
    (r : List Char) : splitWhitespace (s ++ w ++ r) = s :: splitWhitespace r := by
  obtain ⟨c, w, rfl⟩ := List.exists_cons_of_ne_nil hw0
  rw [splitWhitespace, List.append_assoc, List.cons_append,
    List.splitOnP_first _ _ (by simpa using hs.2) _ (hw c (.head _)),
    List.filter_cons_of_pos (by simpa using hs.1)]
  exact congrArg _ (splitWhitespace_blank_append (fun c hc => hw c (.tail _ hc)) r)

/-! ## Where the separators are found -/

/-- The first occurrence of a char that occurs: nothing before it is that char. -/
theorem exists_first_of_mem {c : Char} {s : List Char} (h : c ∈ s) :
    ∃ pre post, s = pre ++ c :: post ∧ c ∉ pre := by
  induction s with
  | nil => cases h
  | cons d s ih =>
    by_cases hd : d = c
    · exact ⟨[], s, by rw [hd]; rfl, List.not_mem_nil _⟩
    · obtain ⟨pre, post, rfl, hc⟩ := ih ((List.mem_cons.mp h).resolve_left (Ne.symm hd))
      exact ⟨d :: pre, post, rfl, by simp [Ne.symm hd, hc]⟩

/-- A whitespace run holding a space, cut at its first space. -/
theorem Blank.split_space {w : List Char} (hw : Blank w) (hsp : ' ' ∈ w) :
    ∃ a b, w = a ++ ' ' :: b ∧ ' ' ∉ a ∧ Blank a ∧ Blank b := by
  obtain ⟨a, b, rfl, ha⟩ := exists_first_of_mem hsp
  exact ⟨a, b, rfl, ha, fun c hc => hw c (by simp [hc]), fun c hc => hw c (by simp [hc])⟩

theorem Blank.cons_space {b : List Char} (h : Blank b) : Blank (' ' :: b) :=
  fun c hc => (List.mem_cons.mp hc).elim (fun e => e ▸ rfl) (h c)

theorem space_not_mem_of_token {s : List Char} (h : Token s) : ' ' ∉ s :=
  fun hs => absurd (h.2 _ hs) (by decide)

@[simp] theorem utf8Size_space : (' ').utf8Size = 1 := rfl

@[simp] theorem utf8Size_equals : ('=').utf8Size = 1 := rfl

theorem sliceFrom_of_byteLen {s t : List Char} {i : Nat} (hi : byteLen s = i) :
    (sliceFrom (s ++ t) i : Outcome ε _) = .ok t :=
  hi ▸ sliceFrom_append s t

theorem slice_of_byteLen {s m t : List Char} {i j : Nat} (hi : byteLen s = i)
    (hj : byteLen s + byteLen m = j) : (slice (s ++ m ++ t) i j : Outcome ε _) = .ok m :=
  hi ▸ hj ▸ slice_append s m t

/-- The first space of a text whose first space sits after `s ++ a`. -/
theorem find_space_cut {s a : List Char} (hs : ' ' ∉ s) (ha : ' ' ∉ a) (b : List Char) :
    find ' ' (s ++ (a ++ ' ' :: b)) = some (byteLen s + byteLen a) := by
  rw [← List.append_assoc, find_append_cons (by simp [hs, ha]), byteLen_append]

theorem sliceFrom_space_cut (s a b : List Char) :
    (sliceFrom (s ++ (a ++ ' ' :: b)) (byteLen s + byteLen a) : Outcome ε _) = .ok (' ' :: b) := by
  rw [← List.append_assoc]
  exact sliceFrom_of_byteLen (byteLen_append s a)

theorem sliceFrom_after_space_cut (s a b : List Char) :
    (sliceFrom (s ++ (a ++ ' ' :: b)) (byteLen s + byteLen a + 1) : Outcome ε _) = .ok b := by
  rw [show s ++ (a ++ ' ' :: b) = (s ++ a ++ [' ']) ++ b by simp]
  exact sliceFrom_of_byteLen (by simp [Nat.add_assoc])

theorem equals_not_mem_of_blank {w : List Char} (h : Blank w) : '=' ∉ w :=
  fun hw => absurd (h _ hw) (by decide)

end Roslibrust.Str

namespace Roslibrust

open Str

/-! ## Field lines -/

/-- A field line of the spec's grammar, `TYPE w1 NAME` or `TYPE w1 NAME w2 DEFAULT`: the
conditions on each part are fields, so only lines of the grammar can be built. -/
structure FieldLine where
  type : List Char
  /-- The first whitespace run. -/
  gap : List Char
  name : List Char
  /-- The second whitespace run and the default value, when the line has one. -/
  default : Option (List Char × List Char)
  type_token : Token type
  gap_blank : Blank gap
  gap_ne_nil : gap ≠ []
  name_token : Token name
  default_wf : ∀ d ∈ default, Blank d.1 ∧ d.1 ≠ [] ∧ d.2 ≠ [] ∧ Trimmed d.2

/-- What follows the name: nothing, or the second whitespace run and the default. -/
def FieldLine.tail : Option (List Char × List Char) → List Char
  | none => []
  | some d => d.1 ++ d.2

/-- The text of the line. -/
def FieldLine.render (l : FieldLine) : String := ⟨l.type ++ l.gap ++ l.name ++ FieldLine.tail l.default⟩

/-- The field the spec reads from the line, given `parse_type`'s result for its type. -/
def FieldLine.info (l : FieldLine) (t : FieldType) (p : Package) : FieldInfo :=
  ⟨t, ⟨l.name⟩, if p.version = some .ROS2 then l.default.map fun d => ⟨d.2⟩ else none⟩

theorem FieldLine.splitWhitespace_render (l : FieldLine) :
    ∃ rest, splitWhitespace l.render.data = l.type :: l.name :: rest := by
  rw [render, List.append_assoc _ l.name, splitWhitespace_token_append l.type_token l.gap_blank l.gap_ne_nil]
  match l.default, l.default_wf with
  | none, _ => exact ⟨[], by rw [FieldLine.tail, List.append_nil, splitWhitespace_token l.name_token]⟩
  | some d, hwf =>
    obtain ⟨hb, hne, -⟩ := hwf d rfl
    exact ⟨_, by rw [FieldLine.tail, ← List.append_assoc, splitWhitespace_token_append l.name_token hb hne]⟩

theorem FieldLine.trimmed_nameTail (l : FieldLine) : Trimmed (l.name ++ FieldLine.tail l.default) := by
  match l.default, l.default_wf with
  | none, _ => simpa [FieldLine.tail] using l.name_token.trimmed
  | some d, hwf =>
    obtain ⟨-, -, hne, hD⟩ := hwf d rfl
    refine ⟨?_, ?_⟩
    · rw [List.head?_append_of_ne_nil _ l.name_token.1]; exact l.name_token.trimmed.1
    · rw [FieldLine.tail, ← List.append_assoc, List.getLast?_append_of_ne_nil _ hne]; exact hD.2

/-- `parse_field` reads back every field line whose first gap holds a space and, in a ROS2
package, whose second gap does too: the type `parse_type` gives, the name, and the default
exactly when the package is ROS2. -/
theorem parseField_fieldLine (l : FieldLine) (p : Package) (m : String) {t : FieldType}
    (ht : parseType ⟨l.type⟩ p = .ok t) (hsp : ' ' ∈ l.gap)
    (hdsp : p.version = some .ROS2 → ∀ d ∈ l.default, ' ' ∈ d.1) :
    parseField l.render p m = .ok (l.info t p) := by
  obtain ⟨rest, htok⟩ := l.splitWhitespace_render
  have hnt := l.trimmed_nameTail
  cases l with
  | mk ty gap name default hty hgap _ hname hwf =>
    dsimp only [FieldLine.render, FieldLine.info] at *
    -- the first space of the line is the first one of the gap
    obtain ⟨a, b, rfl, ha, -, hb⟩ := hgap.split_space hsp
    simp only [List.append_assoc, List.cons_append] at htok ⊢
    simp only [parseField, htok, List.head?, Outcome.okOr_some, Outcome.ok_bind, ht, List.drop,
      find_space_cut (space_not_mem_of_token hty) ha, Outcome.unwrap_some]
    by_cases hv : p.version = some .ROS2
    · simp only [hv, if_true, sliceFrom_after_space_cut, Outcome.ok_bind, Outcome.pure_eq,
        trim_blank_append hb, trim_of_trimmed hnt]
      rcases default with _ | ⟨w, D⟩
      · simp [FieldLine.tail, find_eq_none (space_not_mem_of_token hname)]
      · -- the default starts at the first space of the second gap
        obtain ⟨hw, -, hD0, hD⟩ := hwf _ rfl
        obtain ⟨c, d, rfl, hc, -, hd⟩ := hw.split_space (hdsp hv _ rfl)
        simp only [FieldLine.tail, List.append_assoc, List.cons_append,
          find_space_cut (space_not_mem_of_token hname) hc, sliceFrom_space_cut, Outcome.ok_bind]
        rw [← List.cons_append, trim_blank_append hd.cons_space, trim_of_trimmed hD]
        simp [hD0]
    · simp [hv]

/-- A field line with a tab and a space before its default. -/
def spacedFieldLine : FieldLine :=
  ⟨"int32".data, " ".data, "x".data, some ("\t ".data, "[1, 2]".data),
    by decide, by decide, by decide, by decide, by decide⟩

theorem parseField_fieldLine_spaced :
    parseType ⟨spacedFieldLine.type⟩ ⟨"pkg", "/pkg", some .ROS2⟩ =
      .ok ⟨none, "pkg", "int32", .NotArray, none⟩ ∧
    ' ' ∈ spacedFieldLine.gap ∧
    (some RosVersion.ROS2 = some .ROS2 → ∀ d ∈ spacedFieldLine.default, ' ' ∈ d.1) ∧
    parseField spacedFieldLine.render ⟨"pkg", "/pkg", some .ROS2⟩ "Msg" =
      .ok (spacedFieldLine.info ⟨none, "pkg", "int32", .NotArray, none⟩ ⟨"pkg", "/pkg", some .ROS2⟩) := by
  refine ⟨?ht, ?hsp, ?hd, parseField_fieldLine spacedFieldLine _ "Msg" ?ht ?hsp ?hd⟩ <;> decide

/-! ## Constant lines -/

/-- A constant line of the spec's grammar, `TYPE w1 NAME w2 = w3 VALUE`. -/
structure ConstantLine where
  type : List Char
  /-- The first whitespace run. -/
  gap : List Char
  name : List Char
  /-- The whitespace before `=`, possibly empty. -/
  gapBefore : List Char
  /-- The whitespace after `=`, possibly empty. -/
  gapAfter : List Char
  /-- The value text; it may hold further `=`. -/
  value : List Char
  type_token : Token type
  gap_blank : Blank gap
  gap_ne_nil : gap ≠ []
  name_token : Token name
  name_no_equals : '=' ∉ name
  gapBefore_blank : Blank gapBefore
  gapAfter_blank : Blank gapAfter
  value_trimmed : Trimmed value

/-- The text of the line. -/
def ConstantLine.render (l : ConstantLine) : String :=
  ⟨l.type ++ l.gap ++ l.name ++ l.gapBefore ++ '=' :: (l.gapAfter ++ l.value)⟩

/-- The constant the spec reads from the line, given `parse_type`'s result for its type. -/
def ConstantLine.info (l : ConstantLine) (t : FieldType) : ConstantInfo :=
  ⟨if t.fieldType = "String" then "&\x27static str" else t.fieldType, ⟨l.name⟩, ⟨l.value⟩⟩

/-- `parse_constant_field` on a line whose first space follows `P` and whose first `=` after it
follows `M`: the type is parsed from `P`, the name is `M` and the value what follows `=`, each
trimmed. -/
theorem parseConstantField_cut {P M T : List Char} (hP : ' ' ∉ P) (hM : '=' ∉ M) (p : Package) :
    parseConstantField ⟨P ++ ' ' :: (M ++ '=' :: T)⟩ p =
      (parseType ⟨trim P⟩ p).bind fun parsed =>
        .ok ⟨if parsed.fieldType = "String" then "&\x27static str" else parsed.fieldType, ⟨trim M⟩,
          ⟨trim T⟩⟩ := by
  have heq : find '=' (' ' :: (M ++ '=' :: T)) = some (byteLen (' ' :: M)) := by
    rw [← List.cons_append]
    exact find_append_cons (by simp [hM]) _
  have hname : (slice (P ++ ' ' :: (M ++ '=' :: T)) (byteLen P + 1) (byteLen (' ' :: M) + byteLen P) :
      Outcome ParseError _) = .ok M := by
    rw [show P ++ ' ' :: (M ++ '=' :: T) = (P ++ [' ']) ++ M ++ '=' :: T by simp]
    exact slice_of_byteLen (by simp) (by simp; omega)
  have hvalue : (sliceFrom (P ++ ' ' :: (M ++ '=' :: T)) (byteLen P + byteLen (' ' :: M) + 1) :
      Outcome ParseError _) = .ok T := by
    rw [show P ++ ' ' :: (M ++ '=' :: T) = (P ++ ' ' :: M ++ ['=']) ++ T by simp]
    exact sliceFrom_of_byteLen (by simp; omega)
  simp only [parseConstantField, find_append_cons hP, Outcome.okOr_some, Outcome.ok_bind,
    sliceFrom_append, heq, sliceTo_append, hname, hvalue, Outcome.pure_eq]
  rfl

/-- `parse_constant_field` reads back every constant line whose first gap holds a space: the
type (`&'static str` for `String`), the name and the value, which may itself hold `=`. -/
theorem parseConstantField_constantLine (l : ConstantLine) (p : Package) {t : FieldType}
    (ht : parseType ⟨l.type⟩ p = .ok t) (hsp : ' ' ∈ l.gap) :
    parseConstantField l.render p = .ok (l.info t) := by
  cases l with
  | mk ty gap name wb wa v hty hgap _ hname hne hwb hwa hv =>
    dsimp only [ConstantLine.render, ConstantLine.info] at *
    obtain ⟨a, b, rfl, ha, ha', hb⟩ := hgap.split_space hsp
    rw [show ty ++ (a ++ ' ' :: b) ++ name ++ wb ++ '=' :: (wa ++ v) =
        (ty ++ a) ++ ' ' :: ((b ++ name ++ wb) ++ '=' :: (wa ++ v)) by simp,
      parseConstantField_cut (by simp [space_not_mem_of_token hty, ha])
        (by simp [equals_not_mem_of_blank hb, hne, equals_not_mem_of_blank hwb]),
      trim_append_blank ha', trim_of_trimmed hty.trimmed, ht, trim_blank_around hb hname.trimmed hwb,
      trim_blank_append hwa, trim_of_trimmed hv]
    rfl

/-- A string constant whose value holds `=`, with a tab and a space after its type. -/
def spacedConstantLine : ConstantLine :=
  ⟨"string".data, "\t ".data, "GREETING".data, [], " ".data, "a = b".data,
    by decide, by decide, by decide, by decide, by decide, by decide, by decide, by decide⟩

/-- `parse_constant_field` reads back every constant line whose first gap holds a space: the
type (`&'static str` for `String`), the name and the value, which may itself hold `=`. -/
theorem parseConstantField_constantLine_spaced :
    parseType ⟨spacedConstantLine.type⟩ ⟨"pkg", "/pkg", some .ROS2⟩ =
      .ok ⟨none, "pkg", "string", .NotArray, none⟩ ∧
    ' ' ∈ spacedConstantLine.gap ∧
    parseConstantField spacedConstantLine.render ⟨"pkg", "/pkg", some .ROS2⟩ =
      .ok (spacedConstantLine.info ⟨none, "pkg", "string", .NotArray, none⟩) := by
  refine ⟨?ht, ?hsp, parseConstantField_constantLine spacedConstantLine _ ?ht ?hsp⟩ <;> decide

/-! ## Runs without a space -/

/-- With only a tab in a run the spec reads as a separator, the first `' '` lies further on:
the default of `x` is cut at the space inside `[1, 2]`, and the constant's name becomes part
of its type, leaving an empty name. -/
theorem parseLine_tabSeparator :
    parseField "int32 x\t[1, 2]" ⟨"pkg", "/pkg", some .ROS2⟩ "Msg" =
      .ok ⟨⟨none, "pkg", "int32", .NotArray, none⟩, "x", some "2]"⟩ ∧
    parseConstantField "int32\tX = 1" ⟨"pkg", "/pkg", some .ROS2⟩ = .ok ⟨"int32\tX", "", "1"⟩ := by
  decide

end Roslibrust
