import Tilde.Decimal.Numeral

/-!
# Significant digits

The fields for real numbers never look at a number but at the digits of its written form: the
significant digits, without zeros at either end, and the exponent of the first of them.

* `Parts.read?`: takes a written form apart.
-/

namespace Tilde.Decimal

/-- Significant digits, the first of which counts `10 ^ exponent`. Zero is the digit `0` with
exponent zero. -/
structure Parts where
  digits : Text
  exponent : Int
  deriving DecidableEq, Repr

/-- Drops the zeros at the end of a digit string. -/
def dropTrailingZeros (s : Text) : Text := (s.reverse.dropWhile (· == '0')).reverse

/-- Removes the zeros at both ends of a digit string whose first digit has the exponent. -/
def Parts.normal (digits : Text) (exponent : Int) : Parts :=
  let front := dropTrailingZeros digits
  let core := front.dropWhile (· == '0')
  if core.isEmpty then ⟨['0'], 0⟩
  else ⟨core, exponent - (front.length - core.length)⟩

/-- Takes the written form of a number apart, up to an `e` the mantissa, after it the exponent. None
if what follows the `e` is no integer. Anything else than zeros and the point is kept as it
stands. -/
def Parts.read? (s : Text) : Option Parts := do
  let mantissa := s.takeWhile (· != 'e')
  let shift ← match s.dropWhile (· != 'e') with
    | [] => some 0
    | _ :: r => readInteger? r
  let whole := mantissa.takeWhile (· != '.')
  let places := (mantissa.dropWhile (· != '.')).drop 1
  return Parts.normal (whole ++ places) (shift + whole.length - 1)

example :
    Parts.read? ['0', '.', '1', '2', '5'] = some ⟨['1', '2', '5'], -1⟩ := by decide

example :
    Parts.read? ['1', '.', '5', 'e', '+', '1', '6'] = some ⟨['1', '5'], 16⟩ := by decide

end Tilde.Decimal
