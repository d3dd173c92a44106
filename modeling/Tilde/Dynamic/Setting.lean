import Tilde.Value.Arithmetic

/-!
# Settings

The settings of a field are values, since a parameter can be taken from the arguments. Most settings
are whole numbers of ordinary size and texts; fields with such settings are laid out on integers.
Only the others have to be computed with by the rules for values.

* `ordinary?`, `ordinaryOrNothing?`: the ordinary settings.
-/

namespace Tilde.Value

/-- Whole numbers of ordinary size are below this one: no text gets too long by one of them. -/
def ordinaryLimit : Nat := 0x40000000

/-- The whole number of ordinary size that a value is. -/
def ordinary? (v : Value) : Option Int :=
  match v.integer? with
  | some n => if n.natAbs < ordinaryLimit then some n else none
  | none => none

/-- The same for a setting that may be missing. -/
def ordinaryOrNothing? (v : Value) : Option (Option Int) :=
  match v with
  | .nothing => some none
  | v => v.ordinary?.map some

/-- The text that a value is. -/
def text? (v : Value) : Option Text :=
  match v with
  | .text s => some s
  | _ => none

/-- The character that a value is. -/
def character? (v : Value) : Option Char :=
  match v with
  | .text [c] => some c
  | _ => none

/-- The value is missing. -/
def isNothing (v : Value) : Bool :=
  match v with
  | .nothing => true
  | _ => false

end Tilde.Value
