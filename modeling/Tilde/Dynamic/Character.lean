import Tilde.Text.CharacterForm
import Tilde.Value.Arithmetic

/-!
# Characters that are values

* `Value.spelledCharacter`: the spelled form of a character, given as a text or a byte string;
* `Value.readableCharacter`: the form for programs.
-/

namespace Tilde.Value

/-- The spelled form of a single character. A byte stands for the character with its code, if that
character is a key. -/
def spelledCharacter (v : Value) : Except Fault Text :=
  match v with
  | .text [c] => .ok (Text.spelled c)
  | .bytes [b] => if b < 160 then .ok (Text.spelled (Char.ofNat b.toNat)) else .error .unsupported
  | _ => .error .wrongType

/-- The form for programs of a single character, or of a text that prints as a whole. -/
def readableCharacter (v : Value) : Except Fault Text :=
  match v with
  | .text s =>
    match Text.readableText? s with
    | some t => .ok t
    | none => .error .wrongType
  | v => .error (if v.isHashable then .unsupported else .wrongType)

end Tilde.Value
