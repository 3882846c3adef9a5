import Roslibrust.Rust.Outcome
import Mathlib.Data.List.Basic

/-!
# The `str` operations the parser uses

A Rust `&str` is a UTF-8 byte string; here it is the list of its chars, and every index is a
*byte* offset, as in Rust: `find` returns the byte offset of a match, and slicing at an offset
that is past the end or inside a char panics. The ASCII separators the parser looks for are one
byte long, so the offsets it computes land on char boundaries; the proofs show it, rather than
the model assuming it.

`split_whitespace` and `trim` use Rust's `char::is_whitespace` (Unicode `White_Space`), and
`parse::<usize>` is the standard library's decimal parser on a 64-bit target.
-/

namespace Roslibrust.Str

variable {ε : Type}

/-- Rust's `char::is_whitespace`: the Unicode `White_Space` property. -/
def isWhitespace (c : Char) : Bool :=
  let n := c.toNat
  (9 ≤ n && n ≤ 13) || n == 32 || n == 0x85 || n == 0xA0 || n == 0x1680 ||
    (0x2000 ≤ n && n ≤ 0x200A) || n == 0x2028 || n == 0x2029 || n == 0x202F || n == 0x205F ||
    n == 0x3000

/-- `str::len`: the length of the UTF-8 encoding in bytes. -/
def byteLen : List Char → Nat
  | [] => 0
  | c :: s => c.utf8Size + byteLen s

/-- `str::find(c)`: the byte offset of the first `c`. -/
def find (c : Char) : List Char → Option Nat
  | [] => none
  | d :: s => if d = c then some 0 else (find c s).map (d.utf8Size + ·)

/-- The two halves of `s` at byte offset `i`, when `i` is a char boundary of `s` (the end
included); `none` when it falls inside a char or past the end. -/
def splitAtByte : List Char → Nat → Option (List Char × List Char)
  | s, 0 => some ([], s)
  | [], _ + 1 => none
  | c :: s, i + 1 =>
    if c.utf8Size ≤ i + 1 then (splitAtByte s (i + 1 - c.utf8Size)).map fun p => (c :: p.1, p.2)
    else none

/-- The payload of `core::str::slice_error_fail`, the panic of every bad `&s[..]`. -/
def sliceErrorFail : String := "byte index out of bounds or not on a char boundary"

/-- `&s[i..j]`. -/
def slice (s : List Char) (i j : Nat) : Outcome ε (List Char) :=
  if i ≤ j then
    match splitAtByte s i with
    | some (_, rest) =>
      match splitAtByte rest (j - i) with
      | some (mid, _) => .ok mid
      | none => .panic sliceErrorFail
    | none => .panic sliceErrorFail
  else .panic sliceErrorFail

/-- `&s[i..]`. -/
def sliceFrom (s : List Char) (i : Nat) : Outcome ε (List Char) :=
  match splitAtByte s i with
  | some (_, rest) => .ok rest
  | none => .panic sliceErrorFail

/-- `&s[..j]`. -/
def sliceTo (s : List Char) (j : Nat) : Outcome ε (List Char) :=
  match splitAtByte s j with
  | some (pre, _) => .ok pre
  | none => .panic sliceErrorFail

/-- `a - b` on `usize` as a debug build runs it: an underflow panics. (A release build wraps
instead; in `parse_type`, the only place it happens, the slice that follows then panics.) -/
def usizeSub (a b : Nat) : Outcome ε Nat :=
  if b ≤ a then .ok (a - b) else .panic "attempt to subtract with overflow"

/-- `str::trim`. -/
def trim (s : List Char) : List Char :=
  ((s.dropWhile isWhitespace).reverse.dropWhile isWhitespace).reverse

/-- `str::split_whitespace`: the maximal runs of non-whitespace chars, in order. -/
def splitWhitespace (s : List Char) : List (List Char) :=
  (s.splitOnP isWhitespace).filter fun w => !w.isEmpty

/-- `str::split(c)`: the pieces between the occurrences of `c`, empty pieces kept. -/
def split (c : Char) (s : List Char) : List (List Char) := s.splitOn c

/-- `str::starts_with`. -/
def startsWith (p s : List Char) : Bool := p.isPrefixOf s

/-- `str::ends_with`. -/
def endsWith (p s : List Char) : Bool := p.isSuffixOf s

/-- `core::num::IntErrorKind`: what `parse::<usize>()` reports. -/
inductive IntErrorKind where
  | Empty
  | InvalidDigit
  | PosOverflow
  deriving Repr, DecidableEq

/-- The digit loop of `usize::from_str_radix(_, 10)`: each char must be a digit, and each
partial value must fit in 64 bits. -/
def digitsValue (acc : Nat) : List Char → Except IntErrorKind Nat
  | [] => .ok acc
  | c :: cs =>
    if c.isDigit then
      if acc * 10 + (c.toNat - '0'.toNat) < UInt64.size then
        digitsValue (acc * 10 + (c.toNat - '0'.toNat)) cs
      else .error .PosOverflow
    else .error .InvalidDigit

/-- `str::parse::<usize>()` on a 64-bit target: an optional `+`, then at least one decimal
digit, with a value below `2^64`. -/
def parseUsize : List Char → Except IntErrorKind UInt64
  | [] => .error .Empty
  | ['+'] | ['-'] => .error .InvalidDigit
  | '+' :: ds => (digitsValue 0 ds).map UInt64.ofNat
  | ds => (digitsValue 0 ds).map UInt64.ofNat

/-- `n.to_string()` for an unsigned integer: its decimal numeral. -/
def decimal (n : Nat) : List Char := Nat.toDigits 10 n

@[simp] theorem find_nil (c : Char) : find c [] = none := rfl

theorem find_cons (c d : Char) (s : List Char) :
    find c (d :: s) = if d = c then some 0 else (find c s).map (d.utf8Size + ·) := rfl

@[simp] theorem splitAtByte_zero (s : List Char) : splitAtByte s 0 = some ([], s) := by
  cases s <;> rfl

@[simp] theorem byteLen_nil : byteLen [] = 0 := rfl

@[simp] theorem byteLen_cons (c : Char) (s : List Char) :
    byteLen (c :: s) = c.utf8Size + byteLen s := rfl

@[simp] theorem byteLen_append (s t : List Char) : byteLen (s ++ t) = byteLen s + byteLen t := by
  induction s <;> simp [*, Nat.add_assoc]

@[simp] theorem usizeSub_of_le {a b : Nat} (h : b ≤ a) : (usizeSub a b : Outcome ε Nat) = .ok (a - b) :=
  if_pos h

theorem usizeSub_of_lt {a b : Nat} (h : a < b) :
    (usizeSub a b : Outcome ε Nat) = .panic "attempt to subtract with overflow" :=
  if_neg (Nat.not_le.mpr h)

end Roslibrust.Str
