import Tilde.Text.Basic

/-!
# Numerals in a radix

Integers are written in any radix from 2 to 36 with the digits `0`–`9` and `A`–`Z`, a minus sign in
front of a negative one.

* `digits`: the digits of a natural number, most significant first, by division;
* `magnitude`: the same text, by core's conversion where the radix has one;
* `numeral?`: an integer's numeral, none for a radix out of range;
* `grouped`: a digit string with separators between groups counted from the right.
-/

namespace Tilde.Radix

/-- The digits of all radices, in order of their value. -/
def digitChars : Text :=
  ['0', '1', '2', '3', '4', '5', '6', '7', '8', '9', 'A', 'B', 'C', 'D', 'E', 'F', 'G', 'H', 'I',
    'J', 'K', 'L', 'M', 'N', 'O', 'P', 'Q', 'R', 'S', 'T', 'U', 'V', 'W', 'X', 'Y', 'Z']

/-- The digit of value `d`. -/
def digitChar (d : Nat) : Char := digitChars.getD d '?'

/-- A radix is usable from two on, as far as there are digits. -/
def InRange (radix : Int) : Prop := 2 ≤ radix ∧ radix ≤ 36

instance (radix : Int) : Decidable (InRange radix) := by unfold InRange; infer_instance

/-! ## Digits -/

/-- The digits of `n` without leading zeros, so none for zero. -/
def significantDigits (base n : Nat) : Text :=
  if _ : 2 ≤ base ∧ 0 < n then significantDigits base (n / base) ++ [digitChar (n % base)] else []
termination_by n
decreasing_by rename_i h; exact Nat.div_lt_self h.2 h.1

/-- The digits of `n`, a single `0` for zero. -/
def digits (base n : Nat) : Text := if n = 0 then ['0'] else significantDigits base n

/-- The digits of `n`: radices 2, 8, 10 and 16 take core's conversion, with letters in upper
case. -/
def magnitude (base n : Nat) : Text :=
  if base = 2 ∨ base = 8 ∨ base = 10 then Nat.toDigits base n
  else if base = 16 then (Nat.toDigits 16 n).map Char.toUpper
  else digits base n

/-- The sign of a numeral: a minus for negative numbers, else nothing. -/
def sign (n : Int) : Text := if n < 0 then ['-'] else []

/-- The numeral of an integer in a radix in range. -/
def numeral (n : Int) (base : Nat) : Text := sign n ++ magnitude base n.natAbs

/-- The numeral of an integer, if the radix is in range. -/
def numeral? (n radix : Int) : Option Text :=
  if InRange radix then some (numeral n radix.toNat) else none

/-- The decimal numeral of an integer. -/
def decimal (n : Int) : Text := numeral n 10

/-! ## Groups -/

/-- Cuts a text into pieces of `k + 1` characters, the last one as short as need be. -/
def pieces (k : Nat) (s : Text) : List Text :=
  if _ : s = [] then [] else s.take (k + 1) :: pieces k (s.drop (k + 1))
termination_by s.length
decreasing_by
  rename_i h
  have := List.length_pos_iff.mpr h
  simp only [List.length_drop]; omega

/-- Cuts a text into groups of `interval` characters from the right; the leftmost may be shorter. An
interval below one leaves no group. -/
def groups (interval : Int) (s : Text) : List Text :=
  match interval.toNat with
  | 0 => []
  | k + 1 =>
    let first := s.length % (k + 1)
    (if first = 0 then [] else [s.take first]) ++ pieces k (s.drop first)

/-- Puts the separator between the groups of a digit string. -/
def grouped (separator : Text) (interval : Int) (s : Text) : Text :=
  Text.join separator (groups interval s)

end Tilde.Radix
