import Tilde.Binary64.Arithmetic
import Tilde.Number.Order

/-!
# Arithmetic on numbers

Two numbers are brought to one kind first: integers become ratios beside ratios, both become binary
numbers beside these, and all three become complex beside complex numbers. Decimal numbers go with
integers only.

* `plus`, `minus`, `times`, `negated`, `magnitude`: the operations;
* `floorQuotient`, `remainder`: division with remainder, rounded down, or toward zero for decimal
  numbers.
-/

namespace Tilde.Number

/-- Two numbers of one kind. -/
inductive Pair
  | integers (m n : Int)
  | ratios (p q : Rat)
  | binaries (x y : Binary64)
  | decimals (d e : Decimal)
  | complexes (re im re' im' : Binary64)

/-- The binary number nearest to a ratio, if there is one. -/
def binaryOf (q : Rat) : Except Fault Binary64 :=
  match Binary64.ofRatio (decide (q < 0)) q.num.natAbs q.den with
  | .infinite _ => .error .tooLarge
  | x => .ok x

def decimalOf (n : Int) : Decimal := .finite (decide (n < 0)) n.natAbs 0

/-- The binary zero. -/
def noImaginary : Binary64 := .finite false 0 (-1074)

/-- A real number as the real part of a complex one. -/
def realPart : Number → Except Fault Binary64
  | integer n => binaryOf n
  | ratio q => binaryOf q
  | binary x => .ok x
  | decimal _ | complex .. => .error .wrongType

/-- The two numbers brought to one kind. -/
def pair : Number → Number → Except Fault Pair
  | integer m, integer n => .ok (.integers m n)
  | integer m, ratio q => .ok (.ratios m q)
  | ratio p, integer n => .ok (.ratios p n)
  | ratio p, ratio q => .ok (.ratios p q)
  | decimal d, decimal e => .ok (.decimals d e)
  | decimal d, integer n => .ok (.decimals d (decimalOf n))
  | integer m, decimal e => .ok (.decimals (decimalOf m) e)
  | complex re im, complex re' im' => .ok (.complexes re im re' im')
  | complex re im, n => do return .complexes re im (← n.realPart) noImaginary
  | m, complex re im => do return .complexes (← m.realPart) noImaginary re im
  | m, n => do return .binaries (← m.realPart) (← n.realPart)

def plus (m n : Number) : Except Fault Number := do
  match ← pair m n with
  | .integers m n => return integer (m + n)
  | .ratios p q => return ratio (p + q)
  | .binaries x y => return binary (x.plus y)
  | .decimals d e => return decimal (← d.plus e)
  | .complexes re im re' im' => return complex (re.plus re') (im.plus im')

def minus (m n : Number) : Except Fault Number := do
  match ← pair m n with
  | .integers m n => return integer (m - n)
  | .ratios p q => return ratio (p - q)
  | .binaries x y => return binary (x.minus y)
  | .decimals d e => return decimal (← d.minus e)
  | .complexes re im re' im' => return complex (re.minus re') (im.minus im')

def times (m n : Number) : Except Fault Number := do
  match ← pair m n with
  | .integers m n => return integer (m * n)
  | .ratios p q => return ratio (p * q)
  | .binaries x y => return binary (x.times y)
  | .decimals d e => return decimal (← d.times e)
  | .complexes re im re' im' =>
    return complex ((re.times re').minus (im.times im')) ((re.times im').plus (im.times re'))

def negated : Number → Except Fault Number
  | integer n => .ok (integer (-n))
  | ratio q => .ok (ratio (-q))
  | binary x => .ok (binary x.negate)
  | decimal d => do return decimal (← d.negated)
  | complex re im => .ok (complex re.negate im.negate)

/-- The absolute value; that of a complex number is a binary number. -/
def magnitude : Number → Except Fault Number
  | integer n => .ok (integer n.natAbs)
  | ratio q => .ok (ratio (if q < 0 then -q else q))
  | binary x => .ok (binary x.abs)
  | decimal d => do return decimal (← d.magnitude)
  | complex re im =>
    let length := re.hypotenuse im
    if re.isFinite && im.isFinite && !length.isFinite then .error .tooLarge
    else .ok (binary length)

/-- The two numbers brought to one kind, unless they are complex. -/
def realPair (m n : Number) : Except Fault Pair :=
  match m, n with
  | complex .., _ | _, complex .. => .error .wrongType
  | m, n => pair m n

/-- The quotient rounded down to a whole number, that of decimal numbers toward zero. -/
def floorQuotient (m n : Number) : Except Fault Number := do
  match ← realPair m n with
  | .integers m n => if n = 0 then throw .divisionByZero else return integer (m.fdiv n)
  | .ratios p q => if q = 0 then throw .divisionByZero else return integer (p / q).floor
  | .binaries x y =>
    if y.isZero then throw .divisionByZero else return binary (x.floorQuotient y)
  | .decimals d e => return decimal (← d.floorQuotient e)
  | .complexes .. => throw .wrongType

/-- What the quotient leaves over. -/
def remainder (m n : Number) : Except Fault Number := do
  match ← realPair m n with
  | .integers m n => if n = 0 then throw .divisionByZero else return integer (m.fmod n)
  | .ratios p q =>
    if q = 0 then throw .divisionByZero else return ratio (p - q * (p / q).floor)
  | .binaries x y => if y.isZero then throw .divisionByZero else return binary (x.remainder y)
  | .decimals d e => return decimal (← d.remainder e)
  | .complexes .. => throw .wrongType

/-- The number is zero. -/
def isZero (n : Number) : Bool := !n.toValue.isTrue

/-- The quotient rounded up. -/
def ceilingQuotient (m n : Number) : Except Fault Number := do
  let q ← m.floorQuotient n
  let r ← m.remainder n
  if r.isZero then return q else q.plus (integer 1)

end Tilde.Number
