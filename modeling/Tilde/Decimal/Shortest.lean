import Tilde.Binary64
import Tilde.Radix

/-!
# The shortest decimal text of a binary number

A finite binary number is written with the fewest digits that read back as the same number; of
several such decimals, the nearest to it.

* `shortest`: the decimal, found on the grids of one, two, … seventeen digits: on each, only the two
  neighbours of the number have to be tried;
* `Binary64.text`: the written form, positional from 10 ^ -4 up to below 10 ^ 16.
-/

namespace Tilde.Decimal

/-- The factors that bring `c · 10 ^ k` and `x · 2 ^ e` to a common scale. -/
def commonScale (k e : Int) : Nat × Nat :=
  (Nat.pow 10 k.toNat * Nat.pow 2 (-e).toNat, Nat.pow 2 e.toNat * Nat.pow 10 (-k).toNat)

/-- The exponent of the first digit of `num / den`. -/
def leadingExponent (num den : Nat) : Int :=
  let d : Int := (Nat.toDigits 10 num).length - (Nat.toDigits 10 den).length
  if den * Nat.pow 10 d.toNat ≤ num * Nat.pow 10 (-d).toNat then d else d - 1

/-- The multiple of `10 ^ k` that reads back as `m · 2 ^ e`, if there is one; the nearer of two, and
of two equally near the even one. The numbers between `lo` and `hi`, in quarters of the last
place, read back as this one; the ends do if the mantissa is even. -/
def onGrid? (m : Nat) (e k : Int) : Option Nat :=
  let (p, q) := commonScale k (e - 2)
  let exact := 4 * m * q
  let lo := (if m = Nat.pow 2 52 ∧ -1074 < e then 4 * m - 1 else 4 * m - 2) * q
  let hi := (4 * m + 2) * q
  let readsBack (c : Nat) : Bool :=
    if m % 2 = 0 then lo ≤ c * p && c * p ≤ hi else lo < c * p && c * p < hi
  let a := exact / p
  match readsBack a, readsBack (a + 1) with
  | true, true =>
    let below := exact - a * p
    let above := (a + 1) * p - exact
    some (if below < above ∨ (below = above ∧ a % 2 = 0) then a else a + 1)
  | true, false => some a
  | false, true => some (a + 1)
  | false, false => none

/-- Drops the zeros at the end of a coefficient. -/
def stripZeros (c : Nat) (k : Int) : Nat × Int :=
  if h : 0 < c ∧ c % 10 = 0 then stripZeros (c / 10) (k + 1) else (c, k)
termination_by c
decreasing_by omega

/-- The shortest decimal `c · 10 ^ k` that reads back as `m · 2 ^ e`. -/
def shortest (m : Nat) (e : Int) : Nat × Int :=
  if m = 0 then (0, 0)
  else
    let (num, den) := Binary64.scaleDown m 1 (-e)
    let first := leadingExponent num den
    let found := (List.range 17).findSome? fun (n : Nat) =>
      let k := first - n
      (onGrid? m e k).map (·, k)
    let (c, k) := found.getD (0, 0)
    stripZeros c k

/-- At least two digits, and the sign always. -/
def exponentText (n : Int) : Text :=
  (if n < 0 then '-' else '+') :: Text.padLeft (Radix.magnitude 10 n.natAbs) 2 '0'

/-- How a binary number is written: positional if the first digit's exponent is from -4 to 15, a
decimal with an exponent otherwise. A positional whole number ends in `whole`. -/
def floatText (whole : Text) : Binary64 → Text
  | .nan => "nan".toList
  | .infinite negative => (if negative then ['-'] else []) ++ "inf".toList
  | .finite negative m e =>
    let (c, k) := shortest m e
    let ds := Radix.magnitude 10 c
    let point : Int := ds.length + k
    let body :=
      if -4 < point ∧ point ≤ 16 then
        if point ≤ 0 then '0' :: '.' :: (List.replicate (-point).toNat '0' ++ ds)
        else if ds.length ≤ point then Text.padRight ds point '0' ++ whole
        else ds.take point.toNat ++ '.' :: ds.drop point.toNat
      else
        ds.take 1 ++ (if ds.length = 1 then [] else '.' :: ds.drop 1) ++
          'e' :: exponentText (point - 1)
    (if negative then ['-'] else []) ++ body

end Tilde.Decimal

namespace Tilde.Binary64

/-- The written form of a binary number; a whole number shows that it is one of these by a zero
after the point. -/
def text (x : Binary64) : Text := Decimal.floatText ['.', '0'] x

/-- A complex number is in parentheses unless its real part is the positive zero; its parts do not
show the zero after the point. -/
def complexText (re im : Binary64) : Text :=
  let imaginary := Decimal.floatText [] im
  if re.isZero ∧ re.isSigned = false then imaginary ++ ['j']
  else
    '(' :: Decimal.floatText [] re ++ (if im.isSigned then [] else ['+']) ++ imaginary ++
      ['j', ')']

end Tilde.Binary64
