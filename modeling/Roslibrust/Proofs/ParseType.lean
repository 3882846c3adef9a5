import Roslibrust.Codegen.Parse
import Roslibrust.Proofs.Str

/-!
# Proofs: what `parse_type` accepts, returns and panics on

On a well-formed token — a base without brackets, followed by ``, `[]`, `[n]` or `[<=n]` —
`parse_type` returns the array kind written and resolves the base as the spec says; a base
`string<=` followed by anything but a `usize` numeral is an error. Of an arbitrary token it only
checks that the first `[` and the first `]` are both present or both absent and in that order:
text after the `]`, further brackets, extra `/` and empty segments all pass. The one panic is a
`]` before the first `[`.
-/

namespace Roslibrust

open Str

/-- The array suffix of a type token: ``, `[]`, `[n]` or `[<=n]`. -/
def ArrayType.render : ArrayType → List Char
  | .NotArray => []
  | .Unbounded => ['[', ']']
  | .FixedLength n => '[' :: (decimal n.toNat ++ [']'])
  | .Bounded n => '[' :: '<' :: '=' :: (decimal n.toNat ++ [']'])

/-- A token part without a package separator or a bracket. -/
def Plain (s : List Char) : Prop := '/' ∉ s ∧ '[' ∉ s ∧ ']' ∉ s

instance (s : List Char) : Decidable (Plain s) := inferInstanceAs (Decidable (_ ∧ _ ∧ _))

section Lemmas

variable {ε : Type}

theorem not_mem_decimal {c : Char} (hc : c.isDigit = false) (n : Nat) : c ∉ decimal n :=
  fun h => by simp [isDigit_of_mem_decimal h] at hc

theorem startsWith_iff {p s : List Char} : startsWith p s = true ↔ ∃ r, s = p ++ r := by
  rw [startsWith, List.isPrefixOf_iff_prefix]
  exact ⟨fun ⟨r, h⟩ => ⟨r, h.symm⟩, fun ⟨r, h⟩ => ⟨r, h.symm⟩⟩

theorem decimal_ne_nil (n : Nat) : decimal n ≠ [] := by
  obtain ⟨c, cs, h, -⟩ := decimal_cons n
  simp [h]

/-- `parse_array_size` on `n` and `<=n`. -/
theorem parseArraySize_decimal (typeStr : String) (n : UInt64) :
    parseArraySize typeStr (decimal n.toNat) = .ok (.FixedLength n) ∧
    parseArraySize typeStr ('<' :: '=' :: decimal n.toNat) = .ok (.Bounded n) := by
  obtain ⟨c, cs, hc, hd⟩ := decimal_cons n.toNat
  have hlt : startsWith "<=".data (decimal n.toNat) = false := by
    rw [hc]; simp [startsWith, List.isPrefixOf]; rintro rfl; exact absurd hd (by decide)
  constructor
  · simp [parseArraySize, hlt, sliceFrom, parseUsize_decimal]
  · have hs : startsWith "<=".data ('<' :: '=' :: decimal n.toNat) = true :=
      startsWith_iff.mpr ⟨_, rfl⟩
    have hslice : (sliceFrom ('<' :: '=' :: decimal n.toNat) 2 : Outcome ParseError _) =
        .ok (decimal n.toNat) :=
      sliceFrom_append ['<', '='] _
    simp [parseArraySize, hs, hslice, parseUsize_decimal]

theorem byteLen_pos_of_ne_nil {m : List Char} (h : m ≠ []) : 0 < byteLen m := by
  obtain ⟨c, cs, rfl⟩ := List.exists_cons_of_ne_nil h
  have := c.utf8Size_pos
  simp only [byteLen_cons]
  omega

/-- A bracketed suffix after a bracket-free base: `parse_type` reads the text between the
brackets as the array kind and passes the base on. -/
theorem parseType_bracket {b m : List Char} (hb1 : '[' ∉ b) (hb2 : ']' ∉ b) (hm : ']' ∉ m)
    (hm0 : m ≠ []) (p : Package) :
    parseType ⟨b ++ '[' :: (m ++ [']'])⟩ p =
      parseArraySize ⟨b ++ '[' :: (m ++ [']'])⟩ m >>= fun a => parseFieldType ⟨b⟩ a p := by
  have ho : find '[' (b ++ '[' :: (m ++ [']'])) = some (byteLen b) := find_append_cons hb1 _
  have hc : find ']' (b ++ '[' :: (m ++ [']'])) = some (byteLen b + 1 + byteLen m) := by
    rw [find_append_of_not_mem hb2, find_cons, if_neg (by decide), find_append_cons hm]
    simp only [Option.map_some']
    congr 1
    show byteLen b + (1 + byteLen m) = _
    omega
  have hm1 := byteLen_pos_of_ne_nil hm0
  have hs : (slice (b ++ '[' :: (m ++ [']'])) (byteLen b + 1) (byteLen b + 1 + byteLen m) :
      Outcome ParseError _) = .ok m := by
    have := slice_append (ε := ParseError) (b ++ ['[']) m [']']
    simp only [byteLen_append, List.append_assoc, List.singleton_append, List.cons_append] at this
    exact this
  have ht : (sliceTo (b ++ '[' :: (m ++ [']'])) (byteLen b) : Outcome ParseError _) = .ok b :=
    sliceTo_append _ _
  simp only [parseType, ho, hc, usizeSub_of_le (by omega : byteLen b ≤ byteLen b + 1 + byteLen m), Outcome.ok_bind,
    show byteLen b + 1 + byteLen m - byteLen b ≠ 1 by omega, if_false, hs, ht]

/-- A bracket-free base followed by an array suffix: `parse_type` reads the array kind written
and passes the base on. -/
theorem parseType_render {b : List Char} (hb1 : '[' ∉ b) (hb2 : ']' ∉ b) (k : ArrayType)
    (p : Package) : parseType ⟨b ++ k.render⟩ p = parseFieldType ⟨b⟩ k p := by
  cases k with
  | NotArray =>
    simp [parseType, ArrayType.render, find_eq_none hb1, find_eq_none hb2]
  | Unbounded =>
    have ho : find '[' (b ++ ['[', ']']) = some (byteLen b) := find_append_cons hb1 _
    have hc : find ']' (b ++ ['[', ']']) = some (byteLen b + 1) := by
      rw [find_append_of_not_mem hb2]; rfl
    have ht : (sliceTo (b ++ ['[', ']']) (byteLen b) : Outcome ParseError _) = .ok b :=
      sliceTo_append _ _
    simp [parseType, ArrayType.render, ho, hc, ht]
  | FixedLength n =>
    have := parseType_bracket hb1 hb2 (not_mem_decimal (by decide) n.toNat) (decimal_ne_nil _) p
    rw [ArrayType.render, this, (parseArraySize_decimal _ n).1]
    rfl
  | Bounded n =>
    have hm : ']' ∉ '<' :: '=' :: decimal n.toNat := by
      simp [not_mem_decimal (by decide : (']' : Char).isDigit = false)]
    have := parseType_bracket hb1 hb2 hm (List.cons_ne_nil _ _) p
    rw [ArrayType.render]
    refine this.trans ?_
    rw [(parseArraySize_decimal _ n).2]
    rfl

theorem split_plain {s : List Char} (h : '/' ∉ s) : split '/' s = [s] :=
  List.splitOnP_eq_single _ _ fun x hx e => h (by simpa using (beq_iff_eq.mp e) ▸ hx)

theorem split_redirect {P T : List Char} (hP : '/' ∉ P) (hT : '/' ∉ T) :
    split '/' (P ++ '/' :: T) = [P, T] := by
  rw [split, List.splitOn, List.splitOnP_first _ _ (fun x hx e => hP (by simpa using (beq_iff_eq.mp e) ▸ hx))
    _ (by decide)]
  exact congrArg _ (split_plain hT)

theorem parseBoundedString_plain {s : List Char} (h : startsWith "string<=".data s = false) :
    parseBoundedString s = .ok (⟨s⟩, none) := by
  simp [parseBoundedString, h]

/-- `parse_bounded_string` on a `string<=` base: the capacity is whatever `parse::<usize>()` makes of
the rest. -/
theorem parseBoundedString_bounded (r : List Char) :
    parseBoundedString ("string<=".data ++ r) = match parseUsize r with
      | .ok c => .ok ("string", some c)
      | .error e => .err (.boundedStringCapacity ⟨"string<=".data ++ r⟩ e) := by
  have hs : startsWith "string<=".data ("string<=".data ++ r) = true := startsWith_iff.mpr ⟨_, rfl⟩
  have hslice : (sliceFrom ("string<=".data ++ r) 8 : Outcome ParseError _) = .ok r :=
    sliceFrom_append "string<=".data _
  rw [parseBoundedString, if_pos hs, hslice]
  rfl

theorem isIntrinsicType_string (v : RosVersion) : isIntrinsicType v "string" = true := by
  cases v <;> decide

end Lemmas

/-! ## Well-formed tokens -/

/-- A `string<=` base: `string` with the capacity read, or the capacity's parse error. -/
theorem parseType_boundedString {r : List Char} (hr : Plain r) (k : ArrayType) (p : Package) :
    parseType ("string<=" ++ ⟨r⟩ ++ ⟨k.render⟩) p = match parseUsize r with
      | .ok m => .ok ⟨none, p.name, "string", k, some m⟩
      | .error e => .err (.boundedStringCapacity ("string<=" ++ ⟨r⟩) e) := by
  have hb : Plain ("string<=".data ++ r) := by simp [Plain, hr.1, hr.2.1, hr.2.2]
  rw [show "string<=" ++ ⟨r⟩ ++ ⟨k.render⟩ = ⟨("string<=".data ++ r) ++ k.render⟩ from
      String.ext (by simp), parseType_render hb.2.1 hb.2.2, parseFieldType, split_plain hb.1]
  have hp := parseBoundedString_bounded r
  dsimp only at hp ⊢
  rw [hp]
  cases parseUsize r with
  | ok m => simp [isIntrinsicType_string]
  | error e => rfl

/-- `parse_type` on the tokens of the TYPE grammar: a `pkg/Type` redirect, a bounded string
`string<=m`, or any other bracket- and slash-free name not starting with `string<=`, each
followed by any array suffix; a `string<=` base whose capacity is no `usize` is an error. -/
theorem parseType_wellFormed (p : Package) (k : ArrayType) :
    (∀ P T : String, Plain P.data → Plain T.data →
      parseType (P ++ "/" ++ T ++ ⟨k.render⟩) p = .ok ⟨some P, p.name, T, k, none⟩) ∧
    (∀ m : UInt64, parseType ("string<=" ++ ⟨decimal m.toNat⟩ ++ ⟨k.render⟩) p =
      .ok ⟨none, p.name, "string", k, some m⟩) ∧
    (∀ T : String, Plain T.data → startsWith "string<=".data T.data = false →
      parseType (T ++ ⟨k.render⟩) p =
        .ok ⟨if isIntrinsicType (p.version.getD .ROS1) T then none
            else if T = "Header" then some "std_msgs" else some p.name, p.name, T, k, none⟩) ∧
    (∀ r : List Char, Plain r → ∀ e, parseUsize r = .error e →
      parseType ("string<=" ++ ⟨r⟩ ++ ⟨k.render⟩) p =
        .err (.boundedStringCapacity ("string<=" ++ ⟨r⟩) e)) := by
  refine ⟨fun P T hP hT => ?_, fun m => ?_, fun T hT hs => ?_, fun r hr e he => ?_⟩
  · rw [show P ++ "/" ++ T ++ ⟨k.render⟩ = ⟨(P.data ++ '/' :: T.data) ++ k.render⟩ from
        String.ext (by simp)]
    rw [parseType_render (by simp [hP.2.1, hT.2.1]) (by simp [hP.2.2, hT.2.2]), parseFieldType,
      split_redirect hP.1 hT.1]
    rfl
  · have hm : Plain (decimal m.toNat) := ⟨not_mem_decimal (by decide) _,
      not_mem_decimal (by decide) _, not_mem_decimal (by decide) _⟩
    rw [parseType_boundedString hm, parseUsize_decimal]
  · rw [show T ++ ⟨k.render⟩ = ⟨T.data ++ k.render⟩ from rfl,
      parseType_render hT.2.1 hT.2.2, parseFieldType, split_plain hT.1]
    simp [parseBoundedString_plain hs]
  · rw [parseType_boundedString hr, he]

/-- A redirect, a bare `Header` and a bounded string without a number. -/
theorem parseType_wellFormed_header :
    parseType ("std_msgs" ++ "/" ++ "Header" ++ ⟨ArrayType.Unbounded.render⟩) ⟨"pkg", "/pkg", none⟩ =
      .ok ⟨some "std_msgs", "pkg", "Header", .Unbounded, none⟩ ∧
    parseType ("Header" ++ ⟨ArrayType.NotArray.render⟩) ⟨"pkg", "/pkg", none⟩ =
      .ok ⟨if isIntrinsicType .ROS1 "Header" then none
          else if "Header" = "Header" then some "std_msgs" else some "pkg",
        "pkg", "Header", .NotArray, none⟩ ∧
    parseType ("string<=" ++ ⟨['x']⟩ ++ ⟨ArrayType.NotArray.render⟩) ⟨"pkg", "/pkg", none⟩ =
      .err (.boundedStringCapacity ("string<=" ++ ⟨['x']⟩) .InvalidDigit) :=
  ⟨(parseType_wellFormed _ _).1 "std_msgs" "Header" (by decide) (by decide),
    (parseType_wellFormed _ _).2.2.1 "Header" (by decide) (by decide),
    (parseType_wellFormed _ _).2.2.2 ['x'] (by decide) _ rfl⟩

/-- `string<=x` is free of `/`, `[` and `]`, and still an error. -/
theorem parseType_boundedStringNotNumber :
    parseType "string<=x" ⟨"pkg", "/pkg", some .ROS2⟩ =
      .err (.boundedStringCapacity "string<=x" .InvalidDigit) := by
  decide

/-! ## What an accepted token looks like -/

theorem parseFieldType_arrayInfo {t : String} {a : ArrayType} {p : Package} {ft : FieldType}
    (h : parseFieldType t a p = .ok ft) : ft.arrayInfo = a := by
  unfold parseFieldType at h
  split at h
  · obtain ⟨_, -, h⟩ := Outcome.bind_eq_ok.mp h
    cases h
    rfl
  · cases h
    rfl
  · cases h

theorem parseArraySize_ne_notArray {t : String} {s : List Char} {a : ArrayType}
    (h : parseArraySize t s = .ok a) : a ≠ .NotArray := by
  unfold parseArraySize at h
  obtain ⟨_, -, h⟩ := Outcome.bind_eq_ok.mp h
  split at h
  · cases h
    split <;> simp
  · cases h

/-- What an accepted token went through: no brackets and the whole token resolved, or both
brackets in order, an array kind read between them and the text before `[` resolved. -/
theorem parseType_ok_cases {t : String} {p : Package} {ft : FieldType}
    (h : parseType t p = .ok ft) :
    (find '[' t.data = none ∧ find ']' t.data = none ∧ parseFieldType t .NotArray p = .ok ft) ∨
    (∃ o c b a, find '[' t.data = some o ∧ find ']' t.data = some c ∧ o < c ∧ a ≠ .NotArray ∧
      parseFieldType ⟨b⟩ a p = .ok ft) := by
  unfold parseType at h
  cases ho : find '[' t.data <;> cases hc : find ']' t.data <;> simp only [ho, hc] at h
  · exact .inl ⟨rfl, rfl, h⟩
  · cases h
  · cases h
  · rename_i o c
    obtain ⟨w, hw, h⟩ := Outcome.bind_eq_ok.mp h
    have hle : o ≤ c := by
      by_contra hlt
      rw [usizeSub_of_lt (Nat.lt_of_not_le hlt)] at hw
      cases hw
    have hoc : o < c := Nat.lt_of_le_of_ne hle fun e => find_ne_of_ne (by decide) ho (e ▸ hc)
    split at h
    · simp only [Outcome.pure_eq, Outcome.ok_bind] at h
      obtain ⟨b, -, h⟩ := Outcome.bind_eq_ok.mp h
      exact .inr ⟨o, c, b, _, rfl, rfl, hoc, by simp, h⟩
    · obtain ⟨_, -, h⟩ := Outcome.bind_eq_ok.mp h
      obtain ⟨a, ha, h⟩ := Outcome.bind_eq_ok.mp h
      obtain ⟨b, -, h⟩ := Outcome.bind_eq_ok.mp h
      exact .inr ⟨o, c, b, a, rfl, rfl, hoc, parseArraySize_ne_notArray ha, h⟩

/-- An accepted token has both brackets or neither, its first `[` before its first `]`, and an
array kind exactly when it has brackets. -/
theorem parseType_ok_brackets {t : String} {p : Package} {ft : FieldType}
    (h : parseType t p = .ok ft) :
    (find '[' t.data = none ∧ find ']' t.data = none ∧ ft.arrayInfo = .NotArray) ∨
    (∃ o c, find '[' t.data = some o ∧ find ']' t.data = some c ∧ o < c ∧
      ft.arrayInfo ≠ .NotArray) := by
  rcases parseType_ok_cases h with ⟨ho, hc, hf⟩ | ⟨o, c, _, _, ho, hc, hoc, ha, hf⟩
  · exact .inl ⟨ho, hc, parseFieldType_arrayInfo hf⟩
  · exact .inr ⟨o, c, ho, hc, hoc, (parseFieldType_arrayInfo hf).symm ▸ ha⟩

theorem parseType_ok_brackets_fixed :
    parseType "int32[4]" ⟨"pkg", "/pkg", none⟩ = .ok ⟨none, "pkg", "int32", .FixedLength 4, none⟩ ∧
    ((find '[' "int32[4]".data = none ∧ find ']' "int32[4]".data = none ∧
        ArrayType.FixedLength 4 = .NotArray) ∨
      (∃ o c, find '[' "int32[4]".data = some o ∧ find ']' "int32[4]".data = some c ∧ o < c ∧
        ArrayType.FixedLength 4 ≠ .NotArray)) := by
  refine ⟨?parse, parseType_ok_brackets ?parse⟩
  decide

/-- Off-grammar tokens that are accepted: a second bracket pair, two `/`, an empty package. -/
theorem parseType_accepts_offGrammar :
    parseType "a[1][2]" ⟨"pkg", "/pkg", some .ROS2⟩ =
      .ok ⟨some "pkg", "pkg", "a", .FixedLength 1, none⟩ ∧
    parseType "a/b/c" ⟨"pkg", "/pkg", some .ROS2⟩ = .ok ⟨some "a", "pkg", "b", .NotArray, none⟩ ∧
    parseType "/a" ⟨"pkg", "/pkg", some .ROS2⟩ = .ok ⟨some "", "pkg", "a", .NotArray, none⟩ := by
  decide

/-! ## Panics -/

theorem parseBoundedString_noPanic (s : List Char) : Outcome.NoPanic (parseBoundedString s) := by
  by_cases hs : startsWith "string<=".data s
  · obtain ⟨r, rfl⟩ := startsWith_iff.mp hs
    rw [parseBoundedString_bounded]
    cases parseUsize r <;> simp
  · simp [parseBoundedString_plain (Bool.eq_false_iff.mpr hs)]

theorem parseFieldType_noPanic (t : String) (a : ArrayType) (p : Package) :
    Outcome.NoPanic (parseFieldType t a p) := by
  unfold parseFieldType
  split
  · exact Outcome.NoPanic.bind (parseBoundedString_noPanic _) fun ⟨_, _⟩ _ => (Outcome.noPanic_ok _)
  · exact (Outcome.noPanic_ok _)
  · rename_i h
    exact absurd h (List.splitOnP_ne_nil _ _)

theorem parseArraySize_noPanic (t : String) (s : List Char) : Outcome.NoPanic (parseArraySize t s) := by
  unfold parseArraySize
  split_ifs with hs
  · obtain ⟨r, rfl⟩ := startsWith_iff.mp hs
    refine Outcome.NoPanic.bind (by rw [show (2 : Nat) = byteLen "<=".data from rfl, sliceFrom_append]; exact (Outcome.noPanic_ok _)) fun d _ => ?_
    split <;> simp
  · refine Outcome.NoPanic.bind (by simp [sliceFrom]) fun d _ => ?_
    split <;> simp

theorem sliceTo_find {c : Char} {s : List Char} {i : Nat} (h : find c s = some i) :
    ∃ pre, (sliceTo s i : Outcome ε _) = .ok pre := by
  obtain ⟨pre, post, hs⟩ := splitAtByte_of_find h
  exact ⟨pre, by simp [sliceTo, hs]⟩

/-- Without a `]` before the first `[`, `parse_type` returns. -/
theorem parseType_noPanic {t : String} (p : Package)
    (h : ¬ ∃ o c, find '[' t.data = some o ∧ find ']' t.data = some c ∧ c < o) :
    Outcome.NoPanic (parseType t p) := by
  unfold parseType
  cases ho : find '[' t.data <;> cases hc : find ']' t.data <;> simp only [ho, hc]
  · exact parseFieldType_noPanic _ _ _
  · exact Outcome.noPanic_err _
  · exact Outcome.noPanic_err _
  · rename_i o c
    have hoc : o < c := Nat.lt_of_le_of_ne (Nat.not_lt.mp fun hlt => h ⟨o, c, ho, hc, hlt⟩)
      fun e => find_ne_of_ne (by decide) ho (e ▸ hc)
    obtain ⟨m, hm⟩ := slice_between (ε := ParseError) (by decide) ho hc hoc
    change slice _ (o + 1) c = _ at hm
    obtain ⟨pre, hpre⟩ := sliceTo_find (ε := ParseError) ho
    rw [usizeSub_of_le hoc.le, Outcome.ok_bind]
    split
    · simp only [Outcome.pure_eq, Outcome.ok_bind, hpre]
      exact parseFieldType_noPanic _ _ _
    · rw [hm, Outcome.ok_bind]
      refine Outcome.NoPanic.bind (parseArraySize_noPanic _ _) fun _ _ => ?_
      rw [hpre, Outcome.ok_bind]
      exact parseFieldType_noPanic _ _ _

/-- `parse_type` panics exactly when a `]` comes before the first `[`: `c - o` underflows. -/
theorem parseType_panic_iff (t : String) (p : Package) :
    (∃ msg, parseType t p = .panic msg) ↔
      ∃ o c, find '[' t.data = some o ∧ find ']' t.data = some c ∧ c < o := by
  refine ⟨fun ⟨msg, hm⟩ => Classical.byContradiction fun hn => parseType_noPanic p hn msg hm,
    fun ⟨o, c, ho, hc, hlt⟩ => ⟨"attempt to subtract with overflow", ?_⟩⟩
  simp only [parseType, ho, hc, usizeSub_of_lt hlt, Outcome.panic_bind]

/-- `][` underflows `c - o`; a tab-separated field line has no `' '` for the `unwrap`. -/
theorem parseType_parseField_panic :
    parseType "][" ⟨"pkg", "/pkg", some .ROS2⟩ = .panic "attempt to subtract with overflow" ∧
    parseField "int32\tx" ⟨"pkg", "/pkg", some .ROS2⟩ "Msg" =
      .panic "called `Option::unwrap()` on a `None` value" := by
  decide

/-! ## Bounded strings -/

theorem parseBoundedString_capacity {s : List Char} {n : String} {sc : Option UInt64}
    (h : parseBoundedString s = .ok (n, sc)) : sc = none ∨ n = "string" := by
  by_cases hs : startsWith "string<=".data s
  · obtain ⟨r, rfl⟩ := startsWith_iff.mp hs
    rw [parseBoundedString_bounded] at h
    split at h <;> cases h
    exact .inr rfl
  · rw [parseBoundedString_plain (Bool.eq_false_iff.mpr hs)] at h
    cases h
    exact .inl rfl

theorem parseFieldType_capacity {t : String} {a : ArrayType} {p : Package} {ft : FieldType}
    (h : parseFieldType t a p = .ok ft) : ft.stringCapacity = none ∨ ft.fieldType = "string" := by
  unfold parseFieldType at h
  split at h
  · obtain ⟨⟨n, sc⟩, hb, h⟩ := Outcome.bind_eq_ok.mp h
    cases h
    exact parseBoundedString_capacity hb
  · cases h
    exact .inl rfl
  · cases h

/-- Only a `string` carries a capacity. -/
theorem parseType_capacity {t : String} {p : Package} {ft : FieldType}
    (h : parseType t p = .ok ft) : ft.stringCapacity = none ∨ ft.fieldType = "string" := by
  rcases parseType_ok_cases h with ⟨-, -, hf⟩ | ⟨_, _, _, _, -, -, -, -, hf⟩ <;>
    exact parseFieldType_capacity hf

end Roslibrust
