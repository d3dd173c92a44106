import Tilde.Decimal.Fixed

/-!
# Monetary fields

A real number with a fixed number of digits after the point and a least number in front of it.

* `monetary`: the field.
-/

namespace Tilde.Decimal

/-- What a monetary field can be told. With `signFirst` the sign precedes the padding. -/
structure MoneyStyle where
  places : Option Int := some 2
  wholeDigits : Int := 1
  width : Int := 0
  pad : Text := [' ']
  signFirst : Bool := false
  plus : Bool := false
  deriving DecidableEq, Repr

/-- The monetary field. -/
def monetary (style : MoneyStyle) (negative : Bool) (p : Parts) : Text :=
  let sign := signText style.plus negative
  let r := p.round style.places none
  let body := positional r.digits r.leading style.places
  let whole := body.takeWhile (· != '.')
  let full := List.replicate (style.wholeDigits - whole.length).toNat '0' ++ body
  let padding := Text.times style.pad (style.width - full.length - sign.length)
  if style.signFirst then sign ++ padding ++ full else padding ++ sign ++ full

end Tilde.Decimal
