import Tilde.Text.Printable
import Tilde.Text.Basic

/-!
# Quoted texts

A text is written between single quotes, or between double quotes if it has single ones and no
double ones. The quote in use and the backslash are escaped by a backslash; tab, newline and return
have letters of their own; other characters that do not print are written by their codes in two,
four or eight hexadecimal digits.

* `quoted`: a text;
* `quotedBytes`: a byte string, where every byte above ASCII is written by its code.
-/

namespace Tilde.Text

/-- The last `width` hexadecimal digits of a number. -/
def hexDigits : Nat → Nat → Text
  | 0, _ => []
  | width + 1, n => hexDigits width (n / 16) ++ [Nat.digitChar (n % 16)]

/-- The quote that needs the fewest escapes. -/
def chooseQuote (hasSingle hasDouble : Bool) : Char :=
  if hasSingle && !hasDouble then '"' else '\''

/-- A character that does not print, by its code. -/
def escapedCode (c : Char) : Text :=
  if c.toNat < 0x100 then '\\' :: 'x' :: hexDigits 2 c.toNat
  else if c.toNat < 0x10000 then '\\' :: 'u' :: hexDigits 4 c.toNat
  else '\\' :: 'U' :: hexDigits 8 c.toNat

/-- A character as it is written between the quotes. -/
def escaped (quote c : Char) : Text :=
  if c = quote ∨ c = '\\' then ['\\', c]
  else if c = '\n' then ['\\', 'n']
  else if c = '\r' then ['\\', 'r']
  else if c = '\t' then ['\\', 't']
  else if isPrintable c then [c]
  else escapedCode c

/-- The text between quotes. -/
def quoted (s : Text) : Text :=
  let quote := chooseQuote (s.contains '\'') (s.contains '"')
  quote :: s.flatMap (escaped quote) ++ [quote]

example : quoted ['\''] = ['"', '\'', '"'] := by decide

/-- A byte as it is written between the quotes. -/
def escapedByte (quote : Char) (b : UInt8) : Text :=
  let c := Char.ofNat b.toNat
  if b.toNat < 127 then escaped quote c else escapedCode c

/-- The byte string between quotes, after a `b`. -/
def quotedBytes (bs : List UInt8) : Text :=
  let quote := chooseQuote (bs.contains 39) (bs.contains 34)
  'b' :: quote :: bs.flatMap (escapedByte quote) ++ [quote]

end Tilde.Text
