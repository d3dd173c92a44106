import Tilde.Format.Run

/-!
# Formatters

A formatter is a compiled control string. It runs on any stream; where its nodes lay text out and
the stream is none that can do so, a pretty printer is put in between.

* `Formatter.ofSource`, `Formatter.ofValue`: a formatter from a control string, from a sequence of
  literal texts, or from a value that holds one;
* `Formatter.apply`: runs it on the current stream;
* `Formatter.format`: runs it into a text;
* `Fault.message`: the message of a fault.
-/

namespace Tilde

/-- A compiled control string. -/
structure Formatter where
  nodes : List Node

namespace Formatter

/-- Running the formatter takes a pretty printer. -/
def needsPrinter (f : Formatter) : Bool := Node.anyNeedsPrinter f.nodes

/-- An element of a control sequence: texts are literal. -/
def elementNode : Value → Node
  | .text s => .text s
  | _ => .foreign

/-- The formatter of a control string, or of a list or tuple of literal texts. -/
def ofSource (v : Value) : Except Fault Formatter :=
  match v with
  | .text s => do return ⟨← compile s⟩
  | .list vs | .tuple vs => .ok ⟨vs.map elementNode⟩
  | _ => .error .notAControl

/-- The formatter that a value is, or that can be made from it. -/
def ofValue (v : Value) : Except Fault Formatter :=
  match v with
  | .control nodes => .ok ⟨nodes⟩
  | v => ofSource v

/-- Runs nodes on a pretty printer, which is flushed if the run succeeds: the outcome, and what has
been output. -/
def runFlushed (limits : Limits) (p : Printer) (nodes : List Node) (c : Cursor) :
    Except Fault Outcome × Text :=
  match Action.perform (Action.run limits {} nodes c) { device := .printer p } with
  | (.ok outcome, s) =>
    match Action.perform (Action.flush {}) s with
    | (.ok (), s) => (.ok outcome, s.device.output)
    | (.error e, s) => (.error e, s.device.output)
  | (.error e, s) => (.error e, s.device.output)

/-- Runs the formatter on the current stream along a route. On a column stream, nodes that lay text
out get a pretty printer, which starts in the current column. -/
def apply (f : Formatter) (limits : Limits) (route : Route) (c : Cursor) : Action Outcome := do
  match ← Action.device with
  | .column below =>
    if f.needsPrinter then
      let p ← Action.lift (Printer.create below.options none below.column)
      let (outcome, text) := runFlushed limits p f.nodes c
      Action.put route.room text
      Action.lift outcome
    else Action.run limits route f.nodes c
  | .printer _ => Action.run limits route f.nodes c

/-- A stream over an empty sink. -/
def sinkStream (o : Options) : Stream :=
  { device := .column { maxColumn := o.rightMargin, options := o } }

/-- Runs the formatter on an empty sink: the outcome, and the text that reached the sink. -/
def toSink (f : Formatter) (limits : Limits) (o : Options) (c : Cursor) :
    Except Fault Outcome × Text :=
  let (r, s) := Action.perform (f.apply limits {} c) (sinkStream o)
  (r, s.device.output)

/-- Formats arguments by a control string, or by a formatter. -/
def format (limits : Limits) (control : Value) (arguments : List Value) (o : Options) :
    Except Fault Text := do
  let f ← ofValue control
  match f.toSink limits o (.ofList arguments) with
  | (.ok _, text) => return text
  | (.error e, _) => throw e

end Formatter

/-- The rendered message. -/
def Report.render (r : Report) : Except Fault Text :=
  Formatter.format .standard r.message r.arguments {}

/-- The message shows no number that has too many digits to be written. -/
def Fault.isReportable : Fault → Bool
  | .argumentOutOfBounds v | .selectorNotInteger v => v.isWritable
  | _ => true

/-- The message of a fault that needs no rendering. -/
def Fault.text? : Fault → Option String
  | .levelExceeded depth => some (toString depth)
  | .notOneCharacter => some "expected single character"
  | .notAControl => some "control must be a string or a sequence of directives"
  | .controlNotText => some "control string must be a string"
  | .radixOutOfRange => some "radix out of range"
  | .marginNotPositive => some "margin must be positive"
  | .notRoman => some "integer cannot be expressed as Roman numerals"
  | .closedStream => some "I/O operation on closed stream"
  | .noOpenBlock => some "no logical block to end"
  | .unclosedBlock => some "unclosed logical block"
  | _ => none

/-- The message of a fault: rendered for formatting errors, which may fail in turn; none for faults
that have no words of their own. -/
def Fault.message (e : Fault) : Option (Except Fault Text) :=
  match e.report? with
  | some r => some (if e.isReportable then r.render else .error .wrongValue)
  | none => e.text?.map fun s => .ok s.toList

end Tilde
