import Tilde.Decimal.Numeral
import Tilde.Radix

/-!
# Decimal numbers

Decimal floating-point numbers of any precision. The exponent is part of the number, so that `2.5`
and `2.50` are two numbers of one value.

* `read?`, `text`: the written form, with an exponent where positional notation would need zeros
  after the digits or more than five zeros after the point;
* `rounded`: a coefficient rounded to 28 digits, a half to the even neighbour;
* `toRat?`: the exact value.
-/

namespace Tilde

/-- A decimal number. A NaN may carry digits, zero standing for none; one that signals is not to be
compared at all. -/
inductive Decimal
  | finite (negative : Bool) (coefficient : Nat) (exponent : Int)
  | infinite (negative : Bool)
  | nan (negative signals : Bool) (payload : Nat)
  deriving DecidableEq, Repr

namespace Decimal

/-! ## The written form -/

/-- The special value that a word in lower case writes. -/
def readSpecial? (negative : Bool) (word : Text) : Option Decimal :=
  if word = "inf".toList ∨ word = "infinity".toList then some (infinite negative)
  else
    let (signals, word) := match word with
      | 's' :: w => (true, w)
      | w => (false, w)
    match word with
    | 'n' :: 'a' :: 'n' :: payload => (Text.readDigits? payload).map (nan negative signals)
    | _ => none

/-- How many digits a coefficient has. -/
def digitCount (c : Nat) : Nat := (Nat.toDigits 10 c).length

/-- The exponent of the first digit. -/
def adjusted (c : Nat) (e : Int) : Int := e + digitCount c - 1

/-- The exponents that a number can have. -/
def inBounds (c : Nat) (e : Int) : Bool :=
  decide (-1999999999999999997 ≤ e) && decide (adjusted c e ≤ 999999999999999999)

/-- The number that the text writes. -/
def read? (s : Text) : Option Decimal :=
  let s := dropBars (trim s)
  match Numeral.read? s with
  | some x =>
    if inBounds x.coefficient x.exponent then some (finite x.negative x.coefficient x.exponent)
    else none
  | none =>
    let (negative, body) := splitSign s
    readSpecial? negative (lowered body)

/-- Digits, point and exponent of a finite number. -/
def plainText (coefficient : Nat) (exponent : Int) : Text :=
  let ds := Radix.magnitude 10 coefficient
  let left : Int := exponent + ds.length
  let point : Int := if exponent ≤ 0 ∧ -6 < left then left else 1
  let body :=
    if point ≤ 0 then '0' :: '.' :: (List.replicate (-point).toNat '0' ++ ds)
    else if ds.length ≤ point then Text.padRight ds point '0'
    else ds.take point.toNat ++ '.' :: ds.drop point.toNat
  if left = point then body
  else
    body ++ 'E' :: (if left - point < 0 then '-' else '+') ::
      Radix.magnitude 10 (left - point).natAbs

/-- The written form. -/
def text : Decimal → Text
  | finite negative c e => (if negative then ['-'] else []) ++ plainText c e
  | infinite negative => (if negative then ['-'] else []) ++ "Infinity".toList
  | nan negative signals payload =>
    (if negative then ['-'] else []) ++ (if signals then ['s'] else []) ++ "NaN".toList ++
      if payload = 0 then [] else Radix.magnitude 10 payload

/-! ## Rounding and value -/

/-- How many digits arithmetic keeps. -/
def precision : Nat := 28

/-- The coefficient and exponent, rounded to the precision; a half goes to the even neighbour. -/
def rounded (coefficient : Nat) (exponent : Int) : Nat × Int :=
  let excess := (Nat.toDigits 10 coefficient).length - precision
  if excess = 0 then (coefficient, exponent)
  else
    let unit := Nat.pow 10 excess
    let q := coefficient / unit
    let r := coefficient % unit
    let q := if 2 * r > unit ∨ (2 * r = unit ∧ q % 2 = 1) then q + 1 else q
    if q = Nat.pow 10 precision then (Nat.pow 10 (precision - 1), exponent + excess + 1)
    else (q, exponent + excess)

/-- The exact value of a finite number. -/
def toRat? : Decimal → Option Rat
  | finite negative c e =>
    let n : Nat := c * Nat.pow 10 e.toNat
    some (mkRat (if negative then -(n : Int) else n) (Nat.pow 10 (-e).toNat))
  | _ => none

def isFinite : Decimal → Bool
  | finite .. => true
  | _ => false

def isNaN : Decimal → Bool
  | nan .. => true
  | _ => false

end Decimal

end Tilde
