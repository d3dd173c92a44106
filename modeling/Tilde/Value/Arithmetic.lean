import Tilde.Number.Arithmetic
import Tilde.Value.Order

/-!
# Arithmetic on values

Settings can be values of any kind. Numbers are computed with by their own rules; sequences of one
kind are joined by a sum and repeated by a product with an integer.

* `plus`, `minus`, `times`, `floorQuotient`, `remainder`: the operations;
* `asIndex`: the integers that can count;
* `repeatText`, `filledLeft`, `filledRight`: texts made as long as a value says.
-/

namespace Tilde.Value

/-- An operation on numbers. -/
def numeric (f : Number → Number → Except Fault Number) (v w : Value) : Except Fault Value := do
  return (← f (← v.asNumber) (← w.asNumber)).toValue

/-- The sum of two numbers, or two sequences of one kind joined. -/
def plus (v w : Value) : Except Fault Value :=
  match v, w with
  | .text s, .text t => .ok (.text (s ++ t))
  | .bytes s, .bytes t => .ok (.bytes (s ++ t))
  | .list s, .list t => .ok (.list (s ++ t))
  | .tuple s, .tuple t => .ok (.tuple (s ++ t))
  | .deque s, .deque t => .ok (.deque (s ++ t))
  | v, w => numeric Number.plus v w

def minus (v w : Value) : Except Fault Value := numeric Number.minus v w

def floorQuotient (v w : Value) : Except Fault Value := numeric Number.floorQuotient v w

def remainder (v w : Value) : Except Fault Value := numeric Number.remainder v w

/-- The quotient rounded up. -/
def ceilingQuotient (v w : Value) : Except Fault Value := numeric Number.ceilingQuotient v w

def negated (v : Value) : Except Fault Value := do return (← (← v.asNumber).negated).toValue

/-- The absolute value. -/
def absolute (v : Value) : Except Fault Value := do return (← (← v.asNumber).magnitude).toValue

/-- The second value if it is greater than the first one, else the first one. -/
def larger (v w : Value) : Except Fault Value := do return if ← v.less w then w else v

/-- The second value if it is less than the first one, else the first one. -/
def smaller (v w : Value) : Except Fault Value := do return if ← w.less v then w else v

/-- The first value is a number at most as large as the second. -/
def numberAtMost (v w : Value) : Except Fault Bool := do (← v.asNumber).atMost (← w.asNumber)

/-! ## Counts -/

/-- A whole number. -/
def asInteger (v : Value) : Except Fault Int :=
  match v.integer? with
  | some n => .ok n
  | none => .error .wrongType

/-- A whole number that can count. -/
def asIndex (v : Value) : Except Fault Int := do Fault.bounded (Text.asIndex (← v.asInteger))

/-- Elements repeated. -/
def repeatItems {α : Type} (items : List α) (n : Int) : Except Fault (List α) := do
  let n ← Fault.bounded (Text.asIndex n)
  if items.isEmpty then return []
  else if Text.memoryLimit ≤ items.length * n.toNat then throw .outOfMemory
  else return (List.replicate n.toNat items).flatten

/-- A sequence repeated. -/
def repeatSequence (v : Value) (n : Int) : Except Fault Value :=
  match v with
  | .text s => do return .text (← Fault.bounded (s.repeated n))
  | .bytes s => do
    Fault.bounded (Text.checkLength (s.length * n.toNat))
    return .bytes (← repeatItems s n)
  | .list s => do return .list (← repeatItems s n)
  | .tuple s => do return .tuple (← repeatItems s n)
  | .deque s => do return .deque (← repeatItems s n)
  | _ => .error .wrongType

/-- The product of two numbers, or a sequence repeated. -/
def times (v w : Value) : Except Fault Value :=
  match v.number?, w.number? with
  | some m, some n => do return (← m.times n).toValue
  | none, some _ => do v.repeatSequence (← w.asInteger)
  | some _, none => do w.repeatSequence (← v.asInteger)
  | none, none => .error .wrongType

/-- How many elements a value has. -/
def length (v : Value) : Except Fault Nat :=
  match v.items? with
  | some items => .ok items.length
  | none => .error .wrongType

/-! ## Texts as long as a value says -/

/-- A text. -/
def asText (v : Value) : Except Fault Text :=
  match v with
  | .text s => .ok s
  | _ => .error .wrongType

/-- A text of one character. -/
def asCharacter (v : Value) : Except Fault Char :=
  match v with
  | .text [c] => .ok c
  | _ => .error .wrongType

/-- A text repeated. -/
def repeatText (s : Text) (n : Value) : Except Fault Text := do
  Fault.bounded (s.repeated (← n.asInteger))

/-- A text filled on the left up to a width. The width is looked at before what fills. -/
def filledLeft (s : Text) (width fill : Value) : Except Fault Text := do
  let width ← width.asIndex
  let fill ← fill.asCharacter
  Fault.bounded (s.filledLeft width fill)

/-- A text filled on the right up to a width. -/
def filledRight (s : Text) (width : Value) (fill : Char) : Except Fault Text := do
  Fault.bounded (s.filledRight (← width.asInteger) fill)

end Tilde.Value
