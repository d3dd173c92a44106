import Tilde.Value.Arithmetic

/-!
# Formatting errors made by callers

A caller can make a formatting error of each family from a message and its arguments. They are
values of any kind, and are looked at when the message is rendered.

* `Fault.ofMessage?`, `Fault.ofUnderflow`, `Fault.ofNoProgress`: errors without a place;
* `Fault.ofLocated?`: errors about a place in a control string.
-/

namespace Tilde.Fault

/-- A formatting error from a message and its arguments. -/
def ofMessage? : List Value → Except Fault Fault
  | message :: arguments => .ok (.custom .plain ⟨message, arguments⟩)
  | [] => .error .wrongType

/-- An error about missing arguments; the message may be left out. -/
def ofUnderflow : List Value → Fault
  | message :: arguments => .custom .underflow ⟨message, arguments⟩
  | [] => .noMoreArguments

/-- An error about an endless iteration; the message may be left out. -/
def ofNoProgress : List Value → Fault
  | message :: arguments => .custom .noProgress ⟨message, arguments⟩
  | [] => .noProgress

/-- An error about a place in a control string, from the control string, the offset, the message and
its arguments. -/
def ofLocated? (aboutParameter : Bool) : List Value → Except Fault Fault
  | control :: offset :: message :: arguments => do
    let caret ← (← offset.plus (.int controlIndent)).plus (.int 1)
    return .custom (if aboutParameter then .wrongParameter offset else .malformed offset)
      (locatedReport control caret ⟨message, arguments⟩)
  | _ => .error .wrongType

end Tilde.Fault
