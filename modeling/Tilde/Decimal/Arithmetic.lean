import Tilde.Decimal.Basic
import Tilde.Fault

/-!
# Arithmetic on decimal numbers

Results have at most 28 digits, a half going to the even neighbour, and a first digit between
`10 ^ -999999` and `10 ^ 999999`. Below that range they lose digits, down to zero; above it there is
no result.

* `fitted`: a result, made to fit;
* `plus`, `negated`, `minus`, `times`: the exact results, fitted;
* `floorQuotient`, `remainder`: division with remainder toward zero.
-/

namespace Tilde.Decimal

/-- The greatest exponent that the first digit of a result can have. -/
def maxExponent : Int := 999999

/-- The least exponent at which a result keeps all of its digits. -/
def minExponent : Int := -999999

/-- The least exponent that the last digit of a result can have. -/
def tinyExponent : Int := minExponent - (precision - 1)

/-- The coefficient without its last `k` digits, a half going to the even neighbour. -/
def withoutDigits (c k : Nat) : Nat :=
  if digitCount c < k then 0
  else
    let unit := Nat.pow 10 k
    let q := c / unit
    let r := c % unit
    if unit < 2 * r ∨ (2 * r = unit ∧ q % 2 = 1) then q + 1 else q

/-- A result that has at most as many digits as are kept, and an exponent in the range. -/
def fitted (negative : Bool) (c : Nat) (e : Int) : Except Fault Decimal :=
  if c = 0 then .ok (finite negative 0 (max tinyExponent (min maxExponent e)))
  else if adjusted c e < minExponent ∧ e < tinyExponent then
    .ok (finite negative (withoutDigits c (tinyExponent - e).toNat) tinyExponent)
  else if maxExponent < adjusted c e then .error .decimalOverflow
  else
    let (c, e) := rounded c e
    if maxExponent < adjusted c e then .error .decimalOverflow else .ok (finite negative c e)

/-- The result of an operation with a NaN: one that signals is refused, another one goes on. -/
def withNaN? : Decimal → Decimal → Option (Except Fault Decimal)
  | nan _ true _, _ | _, nan _ true _ => some (.error .invalidDecimal)
  | nan negative _ payload, _ | _, nan negative _ payload => some (.ok (nan negative false payload))
  | _, _ => none

/-- The absolute value. -/
def magnitude : Decimal → Except Fault Decimal
  | finite _ c e => fitted false c e
  | infinite _ => .ok (infinite false)
  | nan _ true _ => .error .invalidDecimal
  | nan negative false payload => .ok (nan negative false payload)

/-- The other sign; a zero gets none. -/
def negated : Decimal → Except Fault Decimal
  | finite negative c e => fitted (!negative && c != 0) c e
  | infinite negative => .ok (infinite !negative)
  | nan _ true _ => .error .invalidDecimal
  | nan negative false payload => .ok (nan negative false payload)

/-- The sign, coefficient and exponent of a finite number. -/
structure Term where
  negative : Bool
  coefficient : Nat
  exponent : Int

/-- The coefficient with its sign. -/
def Term.signed (t : Term) : Int := if t.negative then -(t.coefficient : Int) else t.coefficient

/-- The sum of two terms, the first with the greater exponent. A second term far below the digits
that are kept counts as one unit there, whatever it is. -/
def sumOf (big small : Term) : Except Fault Decimal :=
  let floor : Int :=
    big.exponent - 1 + min 0 ((digitCount big.coefficient : Int) - precision - 1)
  let small : Term :=
    if big.coefficient ≠ 0 ∧ adjusted small.coefficient small.exponent < floor then
      { small with coefficient := min 1 small.coefficient, exponent := floor }
    else small
  let big : Term :=
    if big.coefficient = 0 then big
    else { big with
      coefficient := big.coefficient * Nat.pow 10 (big.exponent - small.exponent).toNat }
  let sum := big.signed + small.signed
  let negative := if sum = 0 then big.negative && small.negative else decide (sum < 0)
  fitted negative sum.natAbs small.exponent

def plus (x y : Decimal) : Except Fault Decimal :=
  match withNaN? x y, x, y with
  | some r, _, _ => r
  | none, infinite a, infinite b => if a = b then .ok (infinite a) else .error .invalidDecimal
  | none, infinite a, _ => .ok (infinite a)
  | none, _, infinite b => .ok (infinite b)
  | none, finite a c e, finite b d f =>
    if f ≤ e then sumOf ⟨a, c, e⟩ ⟨b, d, f⟩ else sumOf ⟨b, d, f⟩ ⟨a, c, e⟩
  | none, _, _ => .error .invalidDecimal

/-- The number with its sign turned round, a zero's, too. -/
def opposite : Decimal → Decimal
  | finite negative c e => finite (!negative) c e
  | infinite negative => infinite !negative
  | nan negative signals payload => nan negative signals payload

def minus (x y : Decimal) : Except Fault Decimal := x.plus y.opposite

def isSigned : Decimal → Bool
  | finite negative _ _ | infinite negative | nan negative _ _ => negative

def isZero : Decimal → Bool
  | finite _ c _ => c == 0
  | _ => false

def times (x y : Decimal) : Except Fault Decimal :=
  let negative := x.isSigned != y.isSigned
  match withNaN? x y, x, y with
  | some r, _, _ => r
  | none, finite _ c e, finite _ d f => fitted negative (c * d) (e + f)
  | none, x, y =>
    if x.isZero ∨ y.isZero then .error .invalidDecimal else .ok (infinite negative)

/-! ## Division -/

/-- The quotient of two magnitudes toward zero, and the remainder with its exponent. A quotient of
more digits than are kept is refused. -/
def divided (c : Nat) (e : Int) (d : Nat) (f : Int) : Except Fault (Nat × Nat × Int) :=
  let low := min e f
  if c = 0 then .ok (0, 0, low)
  else if adjusted c e < adjusted d f then .ok (0, c * Nat.pow 10 (e - low).toNat, low)
  else if adjusted d f + precision < adjusted c e then .error .invalidDecimal
  else
    let num := c * Nat.pow 10 (e - low).toNat
    let den := d * Nat.pow 10 (f - low).toNat
    if Nat.pow 10 precision ≤ num / den then .error .invalidDecimal
    else .ok (num / den, num % den, low)

/-- The quotient toward zero. -/
def floorQuotient (x y : Decimal) : Except Fault Decimal := do
  let negative := x.isSigned != y.isSigned
  match withNaN? x y, x, y with
  | some r, _, _ => r
  | none, finite _ c e, finite _ d f =>
    if d = 0 then throw (if c = 0 then .invalidDecimal else .decimalDivisionByZero)
    else
      let (q, _, _) ← divided c e d f
      fitted negative q 0
  | none, infinite _, infinite _ => throw .invalidDecimal
  | none, infinite _, _ => return infinite negative
  | none, _, _ => return finite negative 0 0

/-- The remainder of the division toward zero; it has the sign of the dividend. -/
def remainder (x y : Decimal) : Except Fault Decimal := do
  match withNaN? x y, x, y with
  | some r, _, _ => r
  | none, finite negative c e, finite _ d f =>
    if d = 0 then throw .invalidDecimal
    else
      let (_, r, low) ← divided c e d f
      fitted negative r low
  | none, finite negative c e, _ => fitted negative c e
  | none, _, _ => throw .invalidDecimal

end Tilde.Decimal
