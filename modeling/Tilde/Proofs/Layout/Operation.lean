import Tilde.Layout.Printer

/-!
# Operations and strokes

A printer is driven by operations, which may be refused. An operation that is carried out is a
series of strokes: total steps, each of which issues at most one token.

* `Operation.run`, `Printer.runAll`: operations and series of them;
* `Stroke`, `Printer.stroke`: the steps;
* `Strokes`: runs of strokes in which nothing goes wrong. How deeply sections may be broken up can
  be set anew before every stroke.
-/

namespace Tilde

/-- A call of the printer. -/
inductive Operation
  | begin (opening perLine closing : Text) (level : Option Int)
  | finish
  | write (s : Text)
  | newline (kind : NewlineKind)
  | indent (offset : Option Number) (relative : Bool)
  | endLine
  | freshLine
  | flush
  deriving DecidableEq, Repr

/-- Carries an operation out. -/
def Operation.run (p : Printer) : Operation → Except Printer.Stop Printer
  | begin opening perLine closing level => p.begin opening perLine closing level
  | finish => p.finish
  | write s => p.write s
  | newline kind => p.newline kind
  | indent offset relative => p.indent offset relative
  | endLine => p.write ['\n']
  | freshLine => p.freshLine.map (·.2)
  | flush => p.flush

/-- Carries operations out until one of them fails. -/
def Printer.runAll (p : Printer) : List Operation → Except Printer.Stop Printer
  | [] => .ok p
  | op :: ops => (op.run p).bind fun p => p.runAll ops

/-- A step of the printer: the start or the end of a block, a text without line breaks, a newline,
an indentation, or the output of all that is buffered. -/
inductive Stroke
  | begin (opening perLine closing : Text)
  | finish
  | text (s : Text)
  | newline (kind : NewlineKind)
  | indent (offset : Option Number) (relative : Bool)
  | flush
  deriving DecidableEq, Repr

/-- The strokes that write a text, whose line breaks are literal. -/
def Stroke.ofText : Text → Text → List Stroke
  | acc, [] => [.text acc.reverse]
  | acc, c :: s =>
    if c = '\n' then .text acc.reverse :: .newline .literal :: ofText [] s
    else ofText (c :: acc) s

/-- The strokes of an operation. -/
def Operation.strokes (p : Printer) : Operation → List Stroke
  | begin opening perLine closing _ => [.begin opening perLine closing]
  | finish => [.finish]
  | write s => Stroke.ofText [] s
  | newline kind => [.newline kind]
  | indent offset relative => [.indent offset relative]
  | endLine => Stroke.ofText [] ['\n']
  | freshLine => if 0 < p.column then Stroke.ofText [] ['\n'] else []
  | flush => [.flush]

namespace Printer

/-- Takes a step. -/
def stroke (p : Printer) : Stroke → Printer
  | .begin opening perLine closing => p.openBlock opening perLine closing
  | .finish => p.closeBlock
  | .text s => p.writeText s
  | .newline kind => p.conditionalNewline kind
  | .indent offset relative =>
    if p.buffering then p.append 0 (.indent p.path offset relative)
    else p.setIndent p.path offset relative
  | .flush => p.writeBuffered.putHeld

/-- Only an open block can end. -/
def Allows (p : Printer) : Stroke → Prop
  | .finish => 1 < p.path.length
  | _ => True

/-- Strokes lead from one printer to another, and nothing goes wrong. -/
inductive Strokes : Printer → List Stroke → Printer → Prop
  | nil (p : Printer) : Strokes p [] p
  | cons {p q : Printer} {s : Stroke} {ss : List Stroke} (room : Option Nat) (allowed : p.Allows s)
      (unharmed : ({ p with room := room }.stroke s).stopped = none)
      (rest : Strokes ({ p with room := room }.stroke s) ss q) : Strokes p (s :: ss) q

end Printer

end Tilde
