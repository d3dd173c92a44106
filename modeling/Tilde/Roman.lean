import Tilde.Text.Basic

/-!
# Roman numerals

The modern style writes four and nine of a rank by subtraction (IV, IX) and reaches 3999; the old
style only ever adds (IIII, VIIII) and reaches 4999.

* `numeral?`: the numeral of an integer in the style's range.
-/

namespace Tilde.Roman

/-- The signs of the modern style and their values, largest first. -/
def modernSigns : List (Nat × Text) :=
  [(1000, ['M']), (900, ['C', 'M']), (500, ['D']), (400, ['C', 'D']), (100, ['C']),
    (90, ['X', 'C']), (50, ['L']), (40, ['X', 'L']), (10, ['X']), (9, ['I', 'X']), (5, ['V']),
    (4, ['I', 'V']), (1, ['I'])]

/-- The signs of the old style and their values, largest first. -/
def oldSigns : List (Nat × Text) :=
  [(1000, ['M']), (500, ['D']), (100, ['C']), (50, ['L']), (10, ['X']), (5, ['V']), (1, ['I'])]

/-- Takes each sign as often as it fits and writes the remainder with the signs after it. -/
def spell : List (Nat × Text) → Nat → Text
  | [], _ => []
  | (value, sign) :: signs, n => Text.times sign (n / value : Nat) ++ spell signs (n % value)

/-- The greatest number of the style. -/
def limit (old : Bool) : Nat := if old then 4999 else 3999

/-- The numeral of a number of the style's range. -/
def numeral (old : Bool) (n : Nat) : Text := spell (if old then oldSigns else modernSigns) n

/-- The Roman numeral of an integer from one to the style's limit. -/
def numeral? (old : Bool) (n : Int) : Option Text :=
  if 1 ≤ n ∧ n ≤ limit old then some (numeral old n.toNat) else none

example : numeral false 1990 = ['M', 'C', 'M', 'X', 'C'] := by decide

example : numeral true 14 = ['X', 'I', 'I', 'I', 'I'] := by decide

end Tilde.Roman
