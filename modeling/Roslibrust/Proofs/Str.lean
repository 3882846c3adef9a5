import Roslibrust.Rust.Str
import Mathlib.Data.List.Basic

/-!
# Proofs: byte offsets, slices and the decimal parser

`find` returns the byte offset of the first occurrence, and `splitAtByte` cuts exactly at the
byte offset of a char list: together they say that slicing at an offset `find` returned never
panics. The second half shows that `parse::<usize>()` reads back every decimal numeral of a
`usize`.
-/

namespace Roslibrust.Str

variable {ε : Type}

/-! ## `find` and `splitAtByte` -/

theorem find_eq_none {c : Char} {s : List Char} (h : c ∉ s) : find c s = none := by
  induction s with
  | nil => rfl
  | cons d s ih =>
    have hd : d ≠ c := fun e => h (e ▸ List.mem_cons_self _ _)
    simp [find_cons, hd, ih (fun m => h (List.mem_cons_of_mem _ m))]

theorem find_append_of_not_mem {c : Char} {s : List Char} (h : c ∉ s) (t : List Char) :
    find c (s ++ t) = (find c t).map (byteLen s + ·) := by
  induction s with
  | nil => simp
  | cons d s ih =>
    have hd : d ≠ c := fun e => h (e ▸ List.mem_cons_self _ _)
    simp only [List.cons_append, find_cons, hd, if_false, ih (fun m => h (List.mem_cons_of_mem _ m)),
      Option.map_map, byteLen_cons]
    congr 1
    funext x
    simp [Nat.add_assoc]

/-- The first occurrence of `c`, found at the byte length of what precedes it. -/
theorem find_append_cons {c : Char} {s : List Char} (h : c ∉ s) (t : List Char) :
    find c (s ++ c :: t) = some (byteLen s) := by
  simp [find_append_of_not_mem h, find_cons]

/-- A char that neither head holds marks where both lists are cut. -/
theorem append_cons_inj_of_not_mem {c : Char} :
    ∀ {s s' t t' : List Char}, c ∉ s → c ∉ s' → s ++ c :: t = s' ++ c :: t' → s = s' ∧ t = t'
  | [], [], _, _, _, _, h => ⟨rfl, (List.cons.inj h).2⟩
  | [], _ :: _, _, _, _, hs', h => absurd ((List.cons.inj h).1 ▸ List.mem_cons_self _ _) hs'
  | _ :: _, [], _, _, hs, _, h => absurd ((List.cons.inj h).1 ▸ List.mem_cons_self _ _) hs
  | _ :: _, _ :: _, _, _, hs, hs', h => by
    obtain ⟨rfl, ht⟩ := List.cons.inj h
    obtain ⟨rfl, rfl⟩ :=
      append_cons_inj_of_not_mem (fun m => hs (.tail _ m)) (fun m => hs' (.tail _ m)) ht
    exact ⟨rfl, rfl⟩

theorem find_eq_some {c : Char} {s : List Char} {i : Nat} (h : find c s = some i) :
    ∃ pre post, s = pre ++ c :: post ∧ c ∉ pre ∧ i = byteLen pre := by
  induction s generalizing i with
  | nil => simp at h
  | cons d s ih =>
    rw [find_cons] at h
    split_ifs at h with hd
    · cases h
      exact ⟨[], s, by simp [hd], by simp, rfl⟩
    · obtain ⟨j, hj, rfl⟩ := Option.map_eq_some'.mp h
      obtain ⟨pre, post, rfl, hc, rfl⟩ := ih hj
      exact ⟨d :: pre, post, rfl, by simp [Ne.symm hd, hc], by simp⟩

theorem splitAtByte_append_add (s t : List Char) (k : Nat) :
    splitAtByte (s ++ t) (byteLen s + k) = (splitAtByte t k).map fun p => (s ++ p.1, p.2) := by
  induction s with
  | nil => simp
  | cons c s ih =>
    have hc := c.utf8Size_pos
    obtain ⟨n, hn⟩ : ∃ n, byteLen (c :: s) + k = n + 1 := ⟨byteLen (c :: s) + k - 1, by simp; omega⟩
    rw [List.cons_append, hn, splitAtByte, if_pos (by simp at hn; omega),
      show n + 1 - c.utf8Size = byteLen s + k by simp at hn; omega, ih, Option.map_map]
    rfl

/-- Cutting a list at the byte length of a prefix gives back the prefix. -/
theorem splitAtByte_append (s t : List Char) : splitAtByte (s ++ t) (byteLen s) = some (s, t) := by
  simpa using splitAtByte_append_add s t 0

theorem sliceFrom_append (s t : List Char) : (sliceFrom (s ++ t) (byteLen s) : Outcome ε _) = .ok t := by
  simp [sliceFrom, splitAtByte_append]

theorem sliceTo_append (s t : List Char) : (sliceTo (s ++ t) (byteLen s) : Outcome ε _) = .ok s := by
  simp [sliceTo, splitAtByte_append]

theorem slice_append (s m t : List Char) :
    (slice (s ++ m ++ t) (byteLen s) (byteLen s + byteLen m) : Outcome ε _) = .ok m := by
  simp [slice, List.append_assoc, splitAtByte_append]

/-- A char at a found offset: `find` points at a char boundary holding `c`. -/
theorem splitAtByte_of_find {c : Char} {s : List Char} {i : Nat} (h : find c s = some i) :
    ∃ pre post, splitAtByte s i = some (pre, c :: post) := by
  obtain ⟨pre, post, rfl, -, rfl⟩ := find_eq_some h
  exact ⟨pre, post, splitAtByte_append _ _⟩

/-- Two different chars are never first found at the same offset. -/
theorem find_ne_of_ne {c d : Char} {s : List Char} {i : Nat} (hcd : c ≠ d) (hc : find c s = some i) :
    find d s ≠ some i := by
  intro hd
  obtain ⟨_, _, h1⟩ := splitAtByte_of_find hc
  obtain ⟨_, _, h2⟩ := splitAtByte_of_find hd
  rw [h1] at h2
  simp at h2
  exact hcd h2.2.1

theorem find_lt_byteLen {c : Char} {s : List Char} {i : Nat} (h : find c s = some i) :
    i < byteLen s := by
  obtain ⟨pre, post, rfl, -, rfl⟩ := find_eq_some h
  have := c.utf8Size_pos
  simp
  omega

theorem find_append_of_mem {c : Char} {s : List Char} (h : c ∈ s) (t : List Char) :
    find c (s ++ t) = find c s := by
  induction s with
  | nil => cases h
  | cons d s ih =>
    rw [List.cons_append, find_cons, find_cons]
    split_ifs with hd
    · rfl
    · rw [ih ((List.mem_cons.mp h).resolve_left (Ne.symm hd))]

/-- Between the first `a` and a later first `b`: the text after `a` up to `b` slices cleanly. -/
theorem slice_between {a b : Char} {s : List Char} {o c : Nat} (hab : a ≠ b)
    (ho : find a s = some o) (hc : find b s = some c) (hlt : o < c) :
    ∃ m, (slice s (o + a.utf8Size) c : Outcome ε _) = .ok m := by
  obtain ⟨pre, post, rfl, -, rfl⟩ := find_eq_some ho
  by_cases hb : b ∈ pre
  · rw [find_append_of_mem hb] at hc
    exact absurd (find_lt_byteLen hc) (by omega)
  · rw [find_append_of_not_mem hb, find_cons, if_neg hab] at hc
    obtain ⟨_, hj, rfl⟩ := Option.map_eq_some'.mp hc
    obtain ⟨_, hk, rfl⟩ := Option.map_eq_some'.mp hj
    obtain ⟨q, r, rfl, -, rfl⟩ := find_eq_some hk
    refine ⟨q, ?_⟩
    have := slice_append (ε := ε) (pre ++ [a]) q (b :: r)
    simp only [byteLen_append, byteLen_cons, byteLen_nil, List.append_assoc, List.singleton_append,
      List.cons_append, Nat.add_zero, Nat.add_assoc] at this
    exact this

/-! ## Decimal numerals -/

/-- One digit of `Nat.toDigitsCore`, by its definition. -/
theorem toDigitsCore_succ (f n : Nat) (ds : List Char) :
    Nat.toDigitsCore 10 (f + 1) n ds =
      if n / 10 = 0 then Nat.digitChar (n % 10) :: ds
      else Nat.toDigitsCore 10 f (n / 10) (Nat.digitChar (n % 10) :: ds) :=
  rfl

theorem toDigitsCore_acc (f n : Nat) (ds : List Char) :
    Nat.toDigitsCore 10 f n ds = Nat.toDigitsCore 10 f n [] ++ ds := by
  induction f generalizing n ds with
  | zero => rfl
  | succ f ih =>
    rw [toDigitsCore_succ, toDigitsCore_succ]
    split_ifs
    · rfl
    · rw [ih _ (_ :: ds), ih _ [_]]
      simp

theorem toDigitsCore_fuel {f f' n : Nat} (hf : n < f) (hf' : n < f') :
    Nat.toDigitsCore 10 f n [] = Nat.toDigitsCore 10 f' n [] := by
  induction f generalizing f' n with
  | zero => omega
  | succ f ih =>
    cases f' with
    | zero => omega
    | succ f' =>
      rw [toDigitsCore_succ, toDigitsCore_succ]
      split_ifs with h
      · rfl
      · rw [toDigitsCore_acc f, toDigitsCore_acc f', @ih f' (n / 10) (by omega) (by omega)]

/-- The numeral of `n` is that of `n / 10` followed by the last digit. -/
theorem decimal_eq (n : Nat) :
    decimal n = (if n / 10 = 0 then [] else decimal (n / 10)) ++ [Nat.digitChar (n % 10)] := by
  show Nat.toDigitsCore 10 (n + 1) n [] = _
  rw [toDigitsCore_succ]
  split_ifs with h
  · rfl
  · rw [toDigitsCore_acc, toDigitsCore_fuel (by omega : n / 10 < n) (Nat.lt_succ_self (n / 10))]
    rfl

theorem digitChar_spec {d : Nat} (h : d < 10) :
    (Nat.digitChar d).isDigit = true ∧ (Nat.digitChar d).toNat - '0'.toNat = d := by
  have : ∀ d < 10, (Nat.digitChar d).isDigit = true ∧ (Nat.digitChar d).toNat - '0'.toNat = d := by
    decide
  exact this d h

theorem digitsValue_append (acc : Nat) (l r : List Char) :
    digitsValue acc (l ++ r) = digitsValue acc l >>= fun v => digitsValue v r := by
  induction l generalizing acc with
  | nil => rfl
  | cons d l ih =>
    rw [List.cons_append, digitsValue, digitsValue]
    split_ifs <;> first | exact ih _ | rfl

theorem digitsValue_decimal {n : Nat} (h : n < UInt64.size) : digitsValue 0 (decimal n) = .ok n := by
  induction n using Nat.strong_induction_on with
  | _ n ih =>
    obtain ⟨hd, hv⟩ := digitChar_spec (Nat.mod_lt n (by decide : 10 > 0))
    rw [decimal_eq]
    split_ifs with h0
    · simp only [List.nil_append, digitsValue, hd, hv, if_true]
      rw [if_pos (by omega)]
      congr 1
      omega
    · rw [digitsValue_append, ih (n / 10) (by omega) (by omega)]
      simp only [digitsValue, hd, hv, if_true]
      show (if n / 10 * 10 + n % 10 < UInt64.size then Except.ok (n / 10 * 10 + n % 10) else _) = _
      rw [if_pos (by omega)]
      congr 1
      omega

theorem decimal_cons (n : Nat) : ∃ c cs, decimal n = c :: cs ∧ c.isDigit = true := by
  induction n using Nat.strong_induction_on with
  | _ n ih =>
    rw [decimal_eq]
    split_ifs with h0
    · exact ⟨_, [], rfl, (digitChar_spec (Nat.mod_lt n (by decide))).1⟩
    · obtain ⟨c, cs, hc, hd⟩ := ih (n / 10) (by omega)
      exact ⟨c, cs ++ _, by rw [hc]; rfl, hd⟩

theorem parseUsize_of_isDigit {c : Char} (h : c.isDigit = true) (cs : List Char) :
    parseUsize (c :: cs) = (digitsValue 0 (c :: cs)).map UInt64.ofNat := by
  have h1 : c ≠ '+' := by rintro rfl; exact absurd h (by decide)
  have h2 : c ≠ '-' := by rintro rfl; exact absurd h (by decide)
  unfold parseUsize
  split <;> simp_all

/-- `parse::<usize>()` reads back the numeral of every `usize`. -/
theorem parseUsize_decimal (n : UInt64) : parseUsize (decimal n.toNat) = .ok n := by
  obtain ⟨c, cs, hc, hd⟩ := decimal_cons n.toNat
  rw [hc, parseUsize_of_isDigit hd, ← hc, digitsValue_decimal n.toNat_lt_size]
  exact congrArg Except.ok
    (UInt64.eq_of_toBitVec_eq (BitVec.eq_of_toNat_eq (UInt64.toNat_ofNat_of_lt n.toNat_lt_size)))

/-- A numeral holds only digits. -/
theorem isDigit_of_mem_decimal {n : Nat} {c : Char} (h : c ∈ decimal n) : c.isDigit = true := by
  induction n using Nat.strong_induction_on with
  | _ n ih =>
    rw [decimal_eq] at h
    rcases List.mem_append.mp h with h | h
    · split_ifs at h with h0
      · simp at h
      · exact ih (n / 10) (by omega) h
    · rw [List.mem_singleton.mp h]
      exact (digitChar_spec (Nat.mod_lt n (by decide))).1

end Roslibrust.Str
