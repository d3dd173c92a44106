import Tilde.Binary64

/-!
# Arithmetic on binary numbers

Sums, products and quotients are exact, and then rounded once. The quotient rounded down and its
remainder go together: the remainder has the sign of the divisor.

* `plus`, `minus`, `times`, `quotient`: the operations, with signed zeros and infinities;
* `floorQuotient`, `remainder`: division with remainder, for a divisor that is not zero;
* `hypotenuse`: the length of the vector that two numbers make.
-/

namespace Tilde.Binary64

/-- The exact value of a finite number, zero for the others. -/
def value (x : Binary64) : Rat := x.toRat?.getD 0

/-- The number nearest to an exact value; `negative` is the sign that a zero gets. -/
def ofRat (negative : Bool) (q : Rat) : Binary64 :=
  if q = 0 then finite negative 0 (-1074) else ofRatio (decide (q < 0)) q.num.natAbs q.den

def negate : Binary64 → Binary64
  | nan => nan
  | infinite negative => infinite !negative
  | finite negative m e => finite (!negative) m e

/-- The number is below zero; the negative zero is not. -/
def isBelowZero (x : Binary64) : Bool := x.isSigned && !x.isZero

def plus : Binary64 → Binary64 → Binary64
  | nan, _ | _, nan => nan
  | infinite a, infinite b => if a = b then infinite a else nan
  | infinite a, finite .. => infinite a
  | finite .., infinite b => infinite b
  | x, y => ofRat (x.isSigned && y.isSigned) (x.value + y.value)

def minus (x y : Binary64) : Binary64 := x.plus y.negate

/-- The sign of a product or quotient. -/
def jointSign (x y : Binary64) : Bool := x.isSigned != y.isSigned

def times : Binary64 → Binary64 → Binary64
  | nan, _ | _, nan => nan
  | x, y =>
    if x.isFinite ∧ y.isFinite then ofRat (jointSign x y) (x.value * y.value)
    else if x.isZero ∨ y.isZero then nan
    else infinite (jointSign x y)

/-- The quotient by a number that is not zero. -/
def quotient : Binary64 → Binary64 → Binary64
  | nan, _ | _, nan => nan
  | infinite _, infinite _ => nan
  | infinite a, finite negative _ _ => infinite (a != negative)
  | x, y =>
    if y.isFinite then ofRat (jointSign x y) (x.value / y.value)
    else finite (jointSign x y) 0 (-1074)

/-- What is left of the first number after taking the second away as often as possible without a
change of sign. -/
def truncatedRemainder : Binary64 → Binary64 → Binary64
  | nan, _ | _, nan | infinite _, _ => nan
  | x, infinite _ => x
  | x, y =>
    let q := x.value / y.value
    ofRat x.isSigned (x.value - y.value * (q.num.tdiv q.den : Int))

/-- The truncated remainder has the wrong sign to be that of a division rounded down. -/
def crosses (y r : Binary64) : Bool := !r.isZero && r.isBelowZero != y.isBelowZero

/-- The remainder of a division rounded down; it has the sign of the divisor, even if it is zero. -/
def remainder (x y : Binary64) : Binary64 :=
  let r := truncatedRemainder x y
  if r.isZero then finite y.isSigned 0 (-1074)
  else if crosses y r then r.plus y
  else r

/-- The greatest whole number that is not above. -/
def floor (x : Binary64) : Binary64 :=
  if x.isFinite then ofRat x.isSigned x.value.floor else x

/-- The number is more than a half. -/
def isAboveHalf (x : Binary64) : Bool :=
  match x with
  | finite .. => decide (1 / 2 < x.value)
  | infinite negative => !negative
  | nan => false

/-- The quotient rounded down. The remainder is taken away first, so that the division is nearly
exact. -/
def floorQuotient (x y : Binary64) : Binary64 :=
  let r := truncatedRemainder x y
  let q := (x.minus r).quotient y
  let q := if crosses y r then q.minus (ofRatio false 1 1) else q
  if q.isZero then finite (jointSign x y) 0 (-1074)
  else
    let whole := floor q
    if isAboveHalf (q.minus whole) then whole.plus (ofRatio false 1 1) else whole

/-- The square root of the sum of two squares, which is taken with 64 more bits and one behind them
that tells whether something is left over. -/
def hypotenuse : Binary64 → Binary64 → Binary64
  | infinite _, _ | _, infinite _ => infinite false
  | nan, _ | _, nan => nan
  | finite _ m e, finite _ n f =>
    let low := min e f
    let a := m * Nat.pow 2 (e - low).toNat
    let b := n * Nat.pow 2 (f - low).toNat
    let square := (a * a + b * b) * Nat.pow 4 64
    let root := Nat.sqrt square
    let (num, den) :=
      scaleDown (if root * root = square then 2 * root else 2 * root + 1) 1 (65 - low)
    ofRatio false num den

end Tilde.Binary64
