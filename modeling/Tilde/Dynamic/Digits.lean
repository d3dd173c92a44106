import Tilde.Decimal.Rounding
import Tilde.Dynamic.Setting

/-!
# Digit strings of any kind

Digit strings are texts, but the rules for rounding them and putting the point work on other
sequences as long as nothing has to be joined to a text. So a list of digits can be rounded down and
expanded, and a list of nines even has a successor.

* `Value.increased`: the digit string of the next number;
* `roundDigits`: rounding to places after the point, or to what fits a width;
* `expandDigits`, `pointDigits`, `positionalDigits`: positional notation.
-/

namespace Tilde

/-! ## Sequences -/

namespace Value

/-- The element at an index. A dictionary is looked up instead, and sets have no indices. -/
def elementAt (v : Value) (i : Nat) : Except Fault Value :=
  match v with
  | .dict es => do
    match ← es.findM? fun e => e.1.equal (.int i) with
    | some e => return e.2
    | none => throw .keyMissing
  | .set _ | .frozenSet _ => .error .wrongType
  | v =>
    match v.items? with
    | some items => match items[i]? with
      | some x => .ok x
      | none => .error .indexOutOfRange
    | none => .error .wrongType

/-- The first elements of a sequence that can be cut. -/
def firstElements (v : Value) (count : Nat) : Except Fault Value :=
  match v with
  | .text s => .ok (.text (s.take count))
  | .bytes s => .ok (.bytes (s.take count))
  | .list s => .ok (.list (s.take count))
  | .tuple s => .ok (.tuple (s.take count))
  | _ => .error .wrongType

/-- A sequence with zeros behind it. -/
def withZeros (v : Value) (zeros : Text) : Except Fault Value :=
  match v with
  | .list s => .ok (.list (s ++ zeros.map fun c => .text [c]))
  | .deque s => .ok (.deque (s ++ zeros.map fun c => .text [c]))
  | v => v.plus (.text zeros)

/-- How many of the first elements are nines, counted from the last one of them. -/
def endingNines (v : Value) : Nat → Except Fault Nat
  | 0 => .ok 0
  | i + 1 => do
    if ← (← v.elementAt i).equal (.text ['9']) then return (← v.endingNines i) + 1 else return 0

/-- The last character that there is has no successor. -/
def lastCode : Nat := 0x10FFFF

/-- The digit string of the next number. A sequence that is no text has one only if it consists of
nines. -/
def increased (v : Value) : Except Fault Text :=
  match v with
  | .text s =>
    if (s.reverse.dropWhile (· == '9')).head?.any (·.toNat == lastCode) then .error .wrongValue
    else .ok (Decimal.increment s)
  | v => do
    let count ← v.length
    if (← v.endingNines count) = count then return '1' :: List.replicate count '0'
    else throw .wrongType

end Value

/-! ## Rounding -/

/-- A rounded digit string, the exponent of its first digit before the carry, and the carry. -/
structure RoundedDigits where
  digits : Value
  exponent : Value
  carried : Bool

/-- The exponent of the first digit. -/
def RoundedDigits.leading (r : RoundedDigits) : Except Fault Value :=
  if r.carried then r.exponent.plus (.int 1) else .ok r.exponent

/-- How many digits to keep for places after the point, or for a width. -/
def keptCount (exponent places width : Value) : Except Fault Value := do
  let width ← if width.isNothing then pure width else (Value.int 2).larger width
  if !places.isNothing then (← exponent.plus places).plus (.int 1)
  else if ← (Value.int 0).numberAtMost exponent then
    (← exponent.plus (.int 1)).larger (← width.minus (.int 1))
  else width.plus exponent

/-- Keeps the first `count` digits, rounding half-up by the first digit that goes. -/
def cutDigits (digits exponent : Value) (count : Nat) : Except Fault RoundedDigits := do
  let kept ← digits.firstElements count
  if ← (Value.text ['5']).atMost (← digits.elementAt count) then
    let up ← kept.increased
    let carried := decide (count < up.length)
    return ⟨.text (if carried then up.dropLast else up), exponent, carried⟩
  else return ⟨kept, exponent, false⟩

/-- Rounds a digit string to places after the point; without these, to fit a width; without both,
not at all. -/
def roundDigits (digits exponent places width : Value) : Except Fault RoundedDigits := do
  if places.isNothing && width.isNothing then return ⟨digits, exponent, false⟩
  let length ← digits.length
  let count ← keptCount exponent places width
  let (padded, raised, count, length) ←
    if ← count.equal (.int 0) then
      pure (← (Value.text ['0']).plus digits, ← exponent.plus (.int 1), Value.int 1, length + 1)
    else pure (digits, exponent, count, length)
  if ← count.less (.int 0) then return ⟨.text ['0'], .int 0, false⟩
  else if ← count.less (.int length) then cutDigits padded raised (← count.asInteger).toNat
  else return ⟨digits, exponent, false⟩

/-! ## Positional notation -/

/-- The digits with the zeros that positional notation needs. -/
def expandDigits (digits exponent places : Value) : Except Fault Value := do
  let (digits, exponent) ←
    if ← exponent.isBelowZero then do
      let zeros ← Value.repeatText ['0'] (← (← exponent.negated).minus (.int 1))
      pure (← (Value.text zeros).plus digits, Value.int (-1))
    else pure (digits, exponent)
  let upTo ← if places.isNothing then pure exponent else exponent.plus places
  let target ← upTo.plus (.int 1)
  let length := Value.int (← digits.length)
  if ← length.less target then
    digits.withZeros (← Value.repeatText ['0'] (← target.minus length))
  else return digits

/-- Puts the point behind the digit of exponent zero, or in front. -/
def pointDigits (digits exponent : Value) : Except Fault Text := do
  if ← exponent.isBelowZero then return '.' :: (← digits.asText)
  else
    let first ← (← exponent.plus (.int 1)).asInteger
    let digits ← digits.asText
    return digits.take first.toNat ++ '.' :: digits.drop first.toNat

/-- The digit string in positional notation. -/
def positionalDigits (digits exponent places : Value) : Except Fault Text := do
  pointDigits (← expandDigits digits exponent places) exponent

end Tilde
