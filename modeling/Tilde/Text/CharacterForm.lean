import Tilde.Radix
import Tilde.Text.CharacterName
import Tilde.Text.Quoted

/-!
# Single characters

A character on its own can be spelled out, with names for those that do not show, or be written as a
program would write it.

* `spelled`: the spelled form;
* `readable`, `readableText?`: the form for programs.
-/

namespace Tilde.Text

/-- The names of characters below 128 that have one. -/
def keyName? : Nat → Option String
  | 8 => some "Backspace"
  | 9 => some "Tab"
  | 10 => some "Newline"
  | 13 => some "Return"
  | 32 => some "Space"
  | 127 => some "Rubout"
  | _ => none

/-- A key: its name, or the character that is pressed with the control key, or itself. -/
def keyText (code : Nat) : Text :=
  match keyName? code with
  | some name => name.toList
  | none =>
    if code < 32 then "Control-".toList ++ [Char.ofNat (code + 64)] else [Char.ofNat code]

/-- The code of a character in at least four hexadecimal digits. -/
def codeText (code : Nat) : Text :=
  'U' :: '+' :: padLeft (Radix.magnitude 16 code) 4 '0'

/-- The spelled form: up to 159 as a key, with the meta key from 128 on; above that, characters that
print stand for themselves, and the others are named. -/
def spelled (c : Char) : Text :=
  if c.toNat < 128 then keyText c.toNat
  else if c.toNat < 160 then "Meta-".toList ++ keyText (c.toNat - 128)
  else if isPrintable c then [c]
  else (unprintableName? c).getD (codeText c.toNat)

/-- The letter that stands for a character behind a backslash. -/
def escapeLetter? (c : Char) : Option Char :=
  match c.toNat with
  | 7 => some 'a'
  | 8 => some 'b'
  | 9 => some 't'
  | 10 => some 'n'
  | 11 => some 'v'
  | 12 => some 'f'
  | 13 => some 'r'
  | 39 => some '\''
  | 92 => some '\\'
  | _ => none

/-- The form for programs: an escape if there is one, the character between quotes if it prints,
else its name, if it has one. -/
def readable (c : Char) : Text :=
  match escapeLetter? c with
  | some letter => ['\'', '\\', letter, '\'']
  | none =>
    if isPrintable c then quoted [c]
    else match unprintableName? c with
      | some name => ['\'', '\\', 'N', '{'] ++ name ++ ['}', '\'']
      | none => quoted [c]

/-- The form for programs of a surrogate, which has no name. -/
def readableSurrogate (code : Nat) : Text := ['\'', '\\', 'u'] ++ hexDigits 4 code ++ ['\'']

/-- The form for programs of a text, if it is a single character or prints as a whole. -/
def readableText? : Text → Option Text
  | [c] => some (readable c)
  | s => if s.all isPrintable then some (quoted s) else none

end Tilde.Text
