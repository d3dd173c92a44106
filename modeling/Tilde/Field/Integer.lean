import Tilde.Radix

/-!
# Integer fields

Integers in a radix, with or without a sign, grouped or not, right-justified in a field.

* `IntegerStyle`: how the field looks;
* `IntegerStyle.field`: the field of an integer.
-/

namespace Tilde

/-- How an integer field looks. Groups are counted in digits; the sign of a positive number is shown
on request. -/
structure IntegerStyle where
  width : Int := 0
  pad : Char := ' '
  separator : Text := [',']
  interval : Int := 3
  grouped : Bool := false
  plus : Bool := false
  deriving DecidableEq, Repr

namespace IntegerStyle

/-- The sign that is shown. -/
def sign (style : IntegerStyle) (n : Int) : Text :=
  if n < 0 then ['-'] else if style.plus then ['+'] else []

/-- The width of so many digits in groups, with a sign. -/
def groupedWidth (interval signWidth digits : Nat) : Nat :=
  digits + (digits - 1) / interval + signWidth

/-- The greatest number of digits, from `digits` on, that fit in a width when they are grouped. -/
def paddedDigits (interval signWidth width digits : Nat) : Nat :=
  if groupedWidth interval signWidth (digits + 1) ≤ width then
    paddedDigits interval signWidth width (digits + 1)
  else digits
termination_by width - digits
decreasing_by
  rename_i h
  have : digits + 1 ≤ groupedWidth interval signWidth (digits + 1) := by
    rw [groupedWidth, Nat.add_assoc]; exact Nat.le_add_right _ _
  omega

/-- Zeros that fill a field take part in the grouping; at most one column remains, and is left
blank. -/
def zeroFills (style : IntegerStyle) (signWidth digits : Nat) : Bool :=
  style.pad == '0' && decide ((digits : Int) + signWidth < style.width)

/-- The field of an integer whose digits are given. -/
def fieldOf (style : IntegerStyle) (sign digits : Text) : Text :=
  if style.grouped then
    if style.zeroFills sign.length digits.length then
      let count :=
        paddedDigits style.interval.toNat sign.length style.width.toNat digits.length
      let zeros := Text.padLeft digits count '0'
      Text.padLeft (sign ++ Radix.grouped style.separator style.interval zeros) style.width ' '
    else
      Text.padLeft (sign ++ Radix.grouped style.separator style.interval digits) style.width
        style.pad
  else Text.padLeft (sign ++ digits) style.width style.pad

/-- The field of an integer in a radix. -/
def field (style : IntegerStyle) (n : Int) (radix : Nat) : Text :=
  style.fieldOf (style.sign n) (Radix.magnitude radix n.natAbs)

end IntegerStyle

end Tilde
