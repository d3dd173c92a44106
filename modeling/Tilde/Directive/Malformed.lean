import Tilde.Directive.Signature
import Tilde.Text.Size

/-!
# What can be wrong with a control string

* `Complaint`: the causes;
* `Malformed`: a complaint and the place it is about, or a failure that has no place;
* `Permission.check`, `checkParameters`: the checks on a single directive.
-/

namespace Tilde

/-- Why a control string is refused. -/
inductive Complaint
  | invalidNumber
  | missingCharacter
  | tooManyColons
  | tooManyAtSigns
  | unterminated
  | unknownDirective
  | noModifiers
  | notBothModifiers
  | noColon
  | noAtSign
  | noParameters
  | tooManyParameters (limit : Nat)
  | wrongParameter (name : String) (wantsInteger : Bool)
  | noOpening
  | noClosing
  | mismatchedClosing
  | separatorNotPermitted
  | escapeOutsideSublists
  | twoSections
  | oneSection
  | conditionalAtSign
  | conditionalColon
  | blockColon
  | blockAtSign
  | blockText
  | blockSegments
  | justificationClosing
  | justificationAtSign
  | justificationColon
  deriving DecidableEq, Repr

/-- Why reading a control string failed: a complaint about the character at an offset, digits that
do not make an integer, a text that cannot be made, or groups that are nested too deeply. -/
inductive Malformed
  | located (offset : Nat) (complaint : Complaint)
  | unreadableInteger
  | excessive (e : Excess)
  | tooDeep
  deriving DecidableEq, Repr

/-- The complaint, if the modifiers given are not permitted. -/
def Permission.check (p : Permission) (colon atSign : Bool) : Option Complaint :=
  match p, colon, atSign with
  | _, false, false => none
  | .neither, _, _ => some .noModifiers
  | .all, _, _ => none
  | _, true, true => some .notBothModifiers
  | .atSign, true, false => some .noColon
  | .colon, false, true => some .noAtSign
  | _, _, _ => none

/-- The parameter may stand where one of the kind is wanted. -/
def ParameterKind.accepts : ParameterKind → Parameter → Bool
  | .integer, .character _ => false
  | .character, .number _ => false
  | _, _ => true

/-- Checks the parameters given, each with its offset, against those that a directive takes. -/
def checkKinds : List (String × ParameterKind) → List (Parameter × Nat) → Except Malformed Unit
  | (name, kind) :: wanted, (p, offset) :: given =>
    if kind.accepts p then checkKinds wanted given
    else .error (.located offset (.wrongParameter name (kind == .integer)))
  | _, _ => .ok ()

/-- Checks number and kinds of the parameters given to the directive at `start`. -/
def checkParameters (wanted : List (String × ParameterKind)) (given : List (Parameter × Nat))
    (start : Nat) : Except Malformed Unit :=
  if wanted.length < given.length then
    .error (.located start (.tooManyParameters wanted.length))
  else checkKinds wanted given

end Tilde
