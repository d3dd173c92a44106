import Tilde.Decimal.Parts
import Tilde.Decimal.Shortest
import Tilde.Value.Arithmetic
import Tilde.Value.Written

/-!
# The digits of a value

A number is taken by the digits of its written form; a fraction is converted to a binary number
first, and a text is read as one.

* `Value.parts`: the digits of a value;
* `Value.isNegative`, `Value.negativity`: whether a minus is printed.
-/

namespace Tilde.Value

/-- The digits in a written form. -/
def readParts (s : Text) : Except Fault Decimal.Parts :=
  match Decimal.Parts.read? (Decimal.lowered s) with
  | some p => .ok p
  | none => .error .wrongValue

/-- The digits of the number that a text writes. -/
def textParts (s : Text) : Except Fault Decimal.Parts :=
  match Binary64.read? s with
  | some x => readParts x.text
  | none => .error .wrongValue

/-- The digits in the written form of a value; texts are read as numbers. An integer can have too
many digits for a written form. -/
def parts (v : Value) : Except Fault Decimal.Parts :=
  match v with
  | .bool _ => .error .wrongValue
  | .int n => if isWritableInteger n then readParts (Radix.decimal n) else .error .wrongValue
  | .float x => readParts x.text
  | .decimal d => readParts d.text
  | .fraction q => do readParts (← Number.binaryOf q).text
  | .text s => textParts s
  | .bytes bs =>
    if bs.all (· < 128) then textParts (bs.map fun b => Char.ofNat b.toNat)
    else .error .wrongValue
  | _ => .error .wrongType

/-- Numbers below zero are negative; the negative zero is too where a sign is printed anyway. -/
def isNegative (v : Value) (plus : Bool) : Except Fault Bool := do
  if ← v.isBelowZero then return true
  else match v with
    | .float x => return plus && x.isSigned
    | _ => return false

/-- Whether a number is negative, given a value that asks for a sign. A value that asks for none is
the answer itself, unless the number is below zero. -/
def negativity (v plus : Value) : Except Fault Value := do
  if plus.isTrue then return .bool (← v.isNegative true)
  else return if ← v.isBelowZero then .bool true else plus

end Tilde.Value
