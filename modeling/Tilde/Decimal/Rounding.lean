import Tilde.Decimal.Parts

/-!
# Rounding a digit string

Numbers are rounded half-up on their decimal digits. A carry out of the first digit is reported to
the caller, who has to raise the exponent: `99` becomes `10` with the carry flag, one digit short.

* `increment`: the digit string of the next number;
* `roundTo`: rounding to a number of leading digits;
* `Parts.round`: rounding to places after the point, or to what fits a width.
-/

namespace Tilde.Decimal

/-- The next character. -/
def successor (c : Char) : Char := Char.ofNat (c.toNat + 1)

/-- Adds one to the number that a digit string writes. -/
def increment (s : Text) : Text :=
  let nines := s.reverse.takeWhile (· == '9')
  match s.reverse.dropWhile (· == '9') with
  | [] => '1' :: List.replicate s.length '0'
  | c :: r => r.reverse ++ successor c :: List.replicate nines.length '0'

example : increment ['9', '9'] = ['1', '0', '0'] := by decide

/-- A rounded digit string, the exponent of its first digit before the carry, and the carry. -/
structure Rounded where
  digits : Text
  exponent : Int
  carried : Bool
  deriving DecidableEq, Repr

/-- The exponent of the first digit. -/
def Rounded.leading (r : Rounded) : Int := if r.carried then r.exponent + 1 else r.exponent

/-- Keeps the first `count` digits, rounding half-up by the first digit that goes. -/
def cutAt (digits : Text) (exponent : Int) (count : Nat) : Rounded :=
  let kept := digits.take count
  match digits.drop count with
  | next :: _ =>
    if '5' ≤ next then
      let up := increment kept
      if kept.length < up.length then ⟨up.dropLast, exponent, true⟩ else ⟨up, exponent, false⟩
    else ⟨kept, exponent, false⟩
  | [] => ⟨kept, exponent, false⟩

/-- Keeps a number of digits, counted from the first one. With none to keep, the digit before the
first decides; with less than none, nothing is left but zero. -/
def roundTo (p : Parts) (count : Int) : Rounded :=
  if count < 0 then ⟨['0'], 0, false⟩
  else if count = 0 then
    if p.digits.isEmpty then ⟨p.digits, p.exponent, false⟩
    else cutAt ('0' :: p.digits) (p.exponent + 1) 1
  else if p.digits.length ≤ count then ⟨p.digits, p.exponent, false⟩
  else cutAt p.digits p.exponent count.toNat

/-- How many digits to keep for `places` after the point, or for a field of `width` columns. -/
def keptDigits (exponent : Int) : Option Int → Int → Int
  | some places, _ => exponent + places + 1
  | none, width =>
    let width := max 2 width
    if 0 ≤ exponent then max (exponent + 1) (width - 1) else width + exponent

/-- Rounds to places after the point; without these, to fit a width; without both, not at all. -/
def Parts.round (p : Parts) (places width : Option Int) : Rounded :=
  if places.isNone ∧ width.isNone then ⟨p.digits, p.exponent, false⟩
  else roundTo p (keptDigits p.exponent places (width.getD 0))

end Tilde.Decimal
