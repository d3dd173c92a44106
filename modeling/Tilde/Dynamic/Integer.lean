import Tilde.Dynamic.Numeral
import Tilde.Dynamic.Setting
import Tilde.Field.Integer
import Tilde.Print

/-!
# Integer fields with settings of any kind

* `IntegerSettings`: the settings, and the style that they make if they are ordinary;
* `integerField`: the field of any value, in a radix that is a value, too.
-/

namespace Tilde

/-- The settings of an integer field. -/
structure IntegerSettings where
  width : Value
  pad : Value
  separator : Value
  interval : Value
  colon : Bool
  atSign : Bool

namespace IntegerSettings

/-- The style that the settings make, if they are ordinary. -/
def style? (s : IntegerSettings) : Option IntegerStyle := do
  let width ← s.width.ordinary?
  let pad ← s.pad.character?
  if s.colon then
    let separator ← s.separator.text?
    let interval ← s.interval.ordinary?
    if 1 ≤ interval then
      some {
        width := width, pad := pad, separator := separator, interval := interval
        grouped := true, plus := s.atSign }
    else none
  else some { width := width, pad := pad, plus := s.atSign }

/-- The greatest number of digits, from `digits` on, that fit in the width when they are grouped;
`steps` is how often one more is tried before there is no memory for so many. -/
def paddedDigits (s : IntegerSettings) (signWidth : Nat) : Nat → Nat → Except Fault Nat
  | 0, _ => .error .outOfMemory
  | steps + 1, digits => do
    let separators ← (Value.int digits).floorQuotient s.interval
    let column ← (← (Value.int (digits + 1 : Nat)).plus separators).plus (.int signWidth)
    if ← column.numberAtMost s.width then s.paddedDigits signWidth steps (digits + 1)
    else return digits

/-- Zeros that fill the field take part in the grouping, and blanks fill the rest. -/
def zeroFilled (s : IntegerSettings) (sign digits : Text) : Except Fault (Text × Value) := do
  match s.pad with
  | .text ['0'] =>
    if ← (Value.int (digits.length + sign.length : Nat)).less s.width then
      let count ← s.paddedDigits sign.length Text.memoryLimit digits.length
      return (Text.padLeft digits count '0', .text [' '])
    else return (digits, s.pad)
  | pad => return (digits, pad)

/-- The field of an integer whose digits are given. -/
def fieldOf (s : IntegerSettings) (sign digits : Text) : Except Fault Text := do
  if s.colon then
    let (digits, pad) ← s.zeroFilled sign digits
    Value.filledLeft (sign ++ (← Value.groupedDigits digits s.separator s.interval)) s.width pad
  else Value.filledLeft (sign ++ digits) s.width s.pad

end IntegerSettings

/-- A value in an integer field. What is no integer is printed for readers, right-justified. -/
def integerField (s : IntegerSettings) (room : Nat) (o : Options) (v radix : Value) :
    Except Fault Text := do
  match v with
  | .int n =>
    let digits ← Value.magnitudeDigits (.integer n.natAbs) radix
    match s.style? with
    | some style => return style.fieldOf (style.sign n) digits
    | none => s.fieldOf (if n < 0 then ['-'] else if s.atSign then ['+'] else []) digits
  | v =>
    let printed ← v.toText room { o with base := 10, showRadix := false, escape := false }
    Value.filledLeft printed s.width s.pad

end Tilde
