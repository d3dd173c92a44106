import Tilde.Directive.Malformed
import Tilde.Text.Size
import Tilde.Value.Basic

/-!
# What can go wrong

Everything that stops an operation is a value of one type. Errors of formatting have messages that
are control strings themselves, with arguments, and are rendered when somebody asks for the message.

* `Fault`: the causes;
* `Fault.report?`: the message of a formatting error and its arguments;
* `Complaint.report`: the message of a complaint about a control string.
-/

namespace Tilde

/-- A message: a control string and the arguments it is formatted with. -/
structure Report where
  message : Value
  arguments : List Value

/-- The kinds of formatting errors. Those about a control string have an offset in it. -/
inductive FaultFamily
  | plain
  | underflow
  | noProgress
  | malformed (offset : Value)
  | wrongParameter (offset : Value)

/-- Why an operation stopped. -/
inductive Fault
  /-- There is no argument left. -/
  | noMoreArguments
  /-- An argument position is outside the list. -/
  | argumentOutOfBounds (position : Value)
  /-- An iteration without a limit consumed nothing in a pass. -/
  | noProgress
  /-- A column increment is below one. -/
  | incrementNotPositive
  /-- The selector of a conditional is no integer. -/
  | selectorNotInteger (v : Value)
  /-- A control string is refused. -/
  | malformed (control : Text) (offset : Nat) (complaint : Complaint)
  /-- A formatting error made by a caller. -/
  | custom (family : FaultFamily) (report : Report)
  /-- A logical block would be nested too deeply. -/
  | levelExceeded (depth : Nat)
  /-- An operation does not apply to values of this type. -/
  | wrongType
  /-- A value is of the right type and still not usable. -/
  | wrongValue
  | notOneCharacter
  | notAControl
  | controlNotText
  | radixOutOfRange
  | marginNotPositive
  | notRoman
  /-- The stream or printer is closed. -/
  | closedStream
  /-- The text sink below a stream is closed. -/
  | closedSink
  | noOpenBlock
  | unclosedBlock
  | divisionByZero
  /-- A number is too large for what it is asked to be. -/
  | tooLarge
  /-- A sequence has no element at the index. -/
  | indexOutOfRange
  /-- A dictionary has no such key. -/
  | keyMissing
  /-- The receiver has no such operation. -/
  | unsupported
  /-- A list has no elements left. -/
  | exhausted
  /-- There is no memory for a result. -/
  | outOfMemory
  /-- An operation on decimal numbers has no result: a NaN takes part in it, or a quotient has more
  digits than are kept. -/
  | invalidDecimal
  /-- A decimal number is too large to be kept. -/
  | decimalOverflow
  /-- A decimal number is divided by zero. -/
  | decimalDivisionByZero
  /-- Control strings call each other too deeply, or an iteration goes on for too long. -/
  | tooDeep

/-- A text cannot be made. -/
def Fault.ofExcess : Excess → Fault
  | .index => .tooLarge
  | .memory => .outOfMemory

/-- What a bounded operation on texts gives. -/
def Fault.bounded {α : Type} : Except Excess α → Except Fault α
  | .ok x => .ok x
  | .error e => .error (.ofExcess e)

/-! ## Messages -/

/-- The message of a complaint. -/
def Complaint.message : Complaint → String
  | .invalidNumber => "invalid numeric parameter"
  | .missingCharacter => "missing character parameter"
  | .tooManyColons => "too many colons"
  | .tooManyAtSigns => "too many at-signs"
  | .unterminated => "unterminated directive"
  | .unknownDirective => "unknown format directive"
  | .noModifiers => "neither colon nor at-sign allowed for this directive"
  | .notBothModifiers => "cannot specify both colon and at-sign"
  | .noColon => "colon not allowed for this directive"
  | .noAtSign => "at-sign not allowed for this directive"
  | .noParameters => "no parameters allowed for this directive"
  | .tooManyParameters _ => "no~@[ more than ~D~] parameter~:P allowed for this directive"
  | .wrongParameter _ _ => "~A parameter must be ~:[a character~;an integer~]"
  | .noOpening => "no matching opening directive"
  | .noClosing => "no closing bracket found"
  | .mismatchedClosing => "mismatched closing directive"
  | .separatorNotPermitted => "~~; not permitted here"
  | .escapeOutsideSublists => "can't have ~~:^ outside of a ~~:\x7b...~~\x7d construct"
  | .twoSections => "must specify exactly two sections"
  | .oneSection => "can only specify one section"
  | .conditionalAtSign => "~~@; not permitted in ~~[...~~]"
  | .conditionalColon => "only the last ~~; may have a colon"
  | .blockColon => "~~:; not permitted in ~~<...~~:>"
  | .blockAtSign => "only the first ~~; may have an at-sign"
  | .blockText => "prefix and suffix of ~~<...~~:> must be plain text"
  | .blockSegments => "too many segments for ~~<...~~:>"
  | .justificationClosing => "~~@> is only allowed with ~~<...~~:@>"
  | .justificationAtSign => "~~@; not permitted in ~~<...~~>"
  | .justificationColon => "only the first ~~; may have a colon"

/-- The arguments of a complaint's message. -/
def Complaint.arguments : Complaint → List Value
  | .tooManyParameters limit => [.int limit]
  | .wrongParameter name wantsInteger => [.text name.toList, .bool wantsInteger]
  | _ => []

/-- The complaint was about the kind of a parameter. -/
def Complaint.isAboutParameter : Complaint → Bool
  | .wrongParameter _ _ => true
  | _ => false

/-- The columns by which the control string is indented under a message. -/
def controlIndent : Nat := 2

/-- The message about a place in a control string: the message proper, the control string in quotes,
and a caret under the place. `caret` is the column of the caret. -/
def locatedReport (control caret : Value) (report : Report) : Report :=
  ⟨.text "~?~%~V@T\"~A\"~%~V@T^".toList,
    [report.message, .tuple report.arguments, .int controlIndent, control, caret]⟩

def Complaint.report (c : Complaint) (control : Text) (offset : Nat) : Report :=
  locatedReport (.text control) (.int (offset + controlIndent + 1))
    ⟨.text c.message.toList, c.arguments⟩

private def plainReport (message : String) (arguments : List Value) : Report :=
  ⟨.text message.toList, arguments⟩

/-- The message of a formatting error. -/
def Fault.report? : Fault → Option Report
  | .noMoreArguments => some (plainReport "no more arguments" [])
  | .argumentOutOfBounds v => some (plainReport "argument index ~D is out of bounds" [v])
  | .noProgress =>
    some (plainReport
      "~~\x7b...~~\x7d construct not consuming any arguments: infinite loop" [])
  | .incrementNotPositive => some (plainReport "colinc parameter must be positive" [])
  | .selectorNotInteger v =>
    some (plainReport "argument to ~~[ must be an integer, not ~S" [v])
  | .malformed control offset complaint => some (complaint.report control offset)
  | .custom _ report => some report
  | _ => none

end Tilde
