import Tilde.Text.Blank
import Tilde.Text.DecimalDigit

/-!
# Reading decimal numerals

A numeral is an optional sign, digits with at most one point among them, and an optional exponent.
What it denotes is kept exactly, as a coefficient and a power of ten: the places after the point
count, so `2.50` is 250 hundredths.

* `Numeral.read?`: reads a whole text;
* `readWhole?`: the same for integers;
* `trim`, `dropBars`: what may surround or divide a numeral.
-/

namespace Tilde.Decimal

/-- The number `± coefficient · 10 ^ exponent` as written. -/
structure Numeral where
  negative : Bool
  coefficient : Nat
  exponent : Int
  deriving DecidableEq, Repr

def isDecimalDigit (c : Char) : Bool := (Text.digitValue? c).isSome

/-- A leading sign, and what follows it. -/
def splitSign : Text → Bool × Text
  | '-' :: s => (true, s)
  | '+' :: s => (false, s)
  | s => (false, s)

/-- The integer that a text with an optional sign and at least one digit writes. -/
def readInteger? (s : Text) : Option Int :=
  let (negative, ds) := splitSign s
  if ds.isEmpty then none
  else (Text.readDigits? ds).map fun n => if negative then -(n : Int) else n

/-- The number that the text writes, if it is a numeral from end to end. -/
def Numeral.read? (s : Text) : Option Numeral :=
  let (negative, s) := splitSign s
  let whole := s.takeWhile isDecimalDigit
  let (places, rest) := match s.dropWhile isDecimalDigit with
    | '.' :: r => (r.takeWhile isDecimalDigit, r.dropWhile isDecimalDigit)
    | r => ([], r)
  if whole.isEmpty && places.isEmpty then none
  else do
    let coefficient ← Text.readDigits? (whole ++ places)
    let exponent ← match rest with
      | [] => some 0
      | c :: r => if c = 'e' ∨ c = 'E' then readInteger? r else none
    return ⟨negative, coefficient, exponent - places.length⟩

/-- The text without the characters of a kind around it. -/
def trimWhere (blank : Char → Bool) (s : Text) : Text :=
  ((s.dropWhile blank).reverse.dropWhile blank).reverse

/-- The text without the white space around it. -/
def trim (s : Text) : Text := trimWhere Text.isBlank s

/-- White space that may surround a binary number or an integer: all but the separators of files,
groups, records and units. -/
def surrounds (c : Char) : Bool := Text.isBlank c && !(0x1C ≤ c.toNat && c.toNat ≤ 0x1F)

/-- Every bar stands between two digits. -/
def barsDivideDigits : Option Char → Text → Bool
  | _, [] => true
  | before, c :: rest =>
    (c != '_' || (before.any isDecimalDigit && rest.head?.any isDecimalDigit)) &&
      barsDivideDigits (some c) rest

/-- The text without the bars that divide long numerals. -/
def dropBars (s : Text) : Text := s.filter (· != '_')

/-- The text with ASCII letters in lower case. -/
def lowered (s : Text) : Text := s.map Char.toLower

/-- The integer that a text writes, with white space around it and bars between digits allowed, if
it has not too many digits. -/
def readWhole? (s : Text) : Option Int := do
  let s := trimWhere surrounds s
  let (negative, ds) := splitSign s
  if ds.isEmpty || !barsDivideDigits none ds then none
  else (Text.readNatural? (dropBars ds)).map fun n => if negative then -(n : Int) else n

example :
    Numeral.read? ['-', '2', '.', '5', '0'] = some ⟨true, 250, -2⟩ := by decide

end Tilde.Decimal
