import Tilde.Decimal.Numeral

/-!
# Binary floating point

The numbers of the binary64 format, by sign, mantissa and exponent: a finite number is
`± mantissa · 2 ^ exponent` with a mantissa below 2 ^ 53 and an exponent of at least -1074, the
smallest that the mantissa allows. Nothing is computed in hardware; a ratio is rounded to the
nearest number, a tie to the even mantissa.

* `ofRatio`: rounding;
* `read?`: from the text of a decimal numeral;
* `toRat?`: the exact value.
-/

namespace Tilde

/-- A number of the binary64 format. -/
inductive Binary64
  | nan
  | infinite (negative : Bool)
  | finite (negative : Bool) (mantissa : Nat) (exponent : Int)
  deriving DecidableEq, Repr

namespace Binary64

/-- The numerator and denominator of `num / den / 2 ^ e`. -/
def scaleDown (num den : Nat) (e : Int) : Nat × Nat :=
  (num * Nat.pow 2 (-e).toNat, den * Nat.pow 2 e.toNat)

/-- The integer nearest to `num / den`; of two, the even one. -/
def roundRatio (num den : Nat) : Nat :=
  let q := num / den
  let r := num % den
  if 2 * r > den ∨ (2 * r = den ∧ q % 2 = 1) then q + 1 else q

/-- The exponent for which `num / den` has a mantissa of 53 bits. -/
def bitExponent (num den : Nat) : Int :=
  let e : Int := (Nat.log2 num : Int) - Nat.log2 den - 52
  let (n, d) := scaleDown num den e
  if n < d * Nat.pow 2 52 then e - 1 else e

/-- The number nearest to `± num / den`. -/
def ofRatio (negative : Bool) (num den : Nat) : Binary64 :=
  if num = 0 then finite negative 0 (-1074)
  else
    let e := max (bitExponent num den) (-1074)
    let (n, d) := scaleDown num den e
    let m := roundRatio n d
    let (m, e) := if m = Nat.pow 2 53 then (Nat.pow 2 52, e + 1) else (m, e)
    if e > 971 then infinite negative else finite negative m e

/-- The number nearest to a decimal numeral. Numerals beyond the range of the format by far are not
computed. -/
def ofNumeral (x : Decimal.Numeral) : Binary64 :=
  let size := (Nat.toDigits 10 x.coefficient).length + x.exponent
  if x.coefficient = 0 ∨ size < -400 then finite x.negative 0 (-1074)
  else if size > 400 then infinite x.negative
  else
    ofRatio x.negative (x.coefficient * Nat.pow 10 x.exponent.toNat)
      (Nat.pow 10 (-x.exponent).toNat)

/-- The number that the text writes: a numeral, an infinity or a NaN, with white space around it and
bars between digits allowed. -/
def read? (s : Text) : Option Binary64 :=
  let s := Decimal.trimWhere Decimal.surrounds s
  let (negative, body) := Decimal.splitSign s
  let word := Decimal.lowered body
  if word = "inf".toList ∨ word = "infinity".toList then some (infinite negative)
  else if word = "nan".toList then some nan
  else if Decimal.barsDivideDigits none s then
    (Decimal.Numeral.read? (Decimal.dropBars s)).map ofNumeral
  else none

/-- The exact value of a finite number. -/
def toRat? : Binary64 → Option Rat
  | finite negative m e =>
    let (num, den) := scaleDown m 1 (-e)
    some (mkRat (if negative then -(num : Int) else num) den)
  | _ => none

def isFinite : Binary64 → Bool
  | finite .. => true
  | _ => false

/-- The sign is a minus; so it is for the negative zero. -/
def isSigned : Binary64 → Bool
  | nan => false
  | infinite negative => negative
  | finite negative _ _ => negative

def isZero : Binary64 → Bool
  | finite _ m _ => m == 0
  | _ => false

def abs : Binary64 → Binary64
  | nan => nan
  | infinite _ => infinite false
  | finite _ m e => finite false m e

example : ofRatio false 1 1 = finite false (Nat.pow 2 52) (-52) := by decide

example : ofRatio false 1 10 = finite false 7205759403792794 (-56) := by
  decide +kernel

end Binary64

end Tilde
