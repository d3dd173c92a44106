import Tilde.Text.Basic

/-!
# Directives

A control string is a list of nodes: literal text, simple directives, and groups that enclose
clauses of nodes between an opening and a closing directive.

* `Parameter`, `Head`: what every directive has in common;
* `Atom`, `Group`: the kinds of directives;
* `Node`: the tree;
* `needsPrinter`: whether running the nodes takes a pretty printer.
-/

namespace Tilde

/-- A parameter as it is written: left out, a number, a quoted character, `V` for the next argument,
or `#` for the number of arguments that remain. -/
inductive Parameter
  | absent
  | number (n : Int)
  | character (c : Char)
  | next
  | remaining
  deriving DecidableEq, Repr

/-- What every directive has: its parameters and where each begins, its modifiers, and the span of
the control string from its tilde to its last character. -/
structure Head where
  parameters : List Parameter
  offsets : List Nat
  colon : Bool
  atSign : Bool
  start : Nat
  stop : Nat
  deriving DecidableEq, Repr

/-- The directives that enclose nothing. -/
inductive Atom
  | character
  | freshLine
  | newline
  | page
  | tilde
  | radix
  | decimal
  | binary
  | octal
  | hexadecimal
  | fixed
  | exponential
  | general
  | monetary
  | aesthetic
  | standard
  | write
  | conditionalNewline
  | indentation
  | tabulate
  | goTo
  | recursive
  | plural
  | escape
  deriving DecidableEq, Repr

/-- The directives that enclose clauses. -/
inductive Group
  | conditional
  | iteration
  | caseConversion
  | justification
  | logicalBlock
  deriving DecidableEq, Repr

/-- A part of a control string. Copies of a character are text, too, which is made only when it is
written. A group has one separator less than it has clauses. A foreign node is an element of a
control sequence that is neither text nor a directive. -/
inductive Node
  | text (s : Text)
  | copies (c : Char) (count : Nat)
  | atom (kind : Atom) (head : Head)
  | group (kind : Group) (head : Head) (clauses : List (List Node)) (separators : List Head)
      (closing : Head)
  | foreign

namespace Node

/-! ## The stream that nodes ask for -/

/-- The simple directive lays text out. -/
def atomNeedsPrinter (kind : Atom) (head : Head) : Bool :=
  match kind with
  | .aesthetic | .standard | .write | .conditionalNewline | .indentation | .recursive => true
  | .tabulate => head.colon
  | _ => false

mutual

/-- Running the node takes a pretty printer: it lays text out, or encloses a node that does. An
iteration with an empty body takes its nodes from the arguments, so it may do anything. -/
def needsPrinter : Node → Bool
  | .text _ => false
  | .copies .. => false
  | .foreign => false
  | .atom kind head => atomNeedsPrinter kind head
  | .group kind _ clauses _ _ =>
    match kind, clauses with
    | .logicalBlock, _ => true
    | .iteration, [[]] => true
    | _, clauses => anyClauseNeedsPrinter clauses

/-- One of the clauses has a node that takes a pretty printer. -/
def anyClauseNeedsPrinter : List (List Node) → Bool
  | [] => false
  | c :: cs => anyNeedsPrinter c || anyClauseNeedsPrinter cs

/-- One of the nodes takes a pretty printer. -/
def anyNeedsPrinter : List Node → Bool
  | [] => false
  | n :: ns => needsPrinter n || anyNeedsPrinter ns

end

end Node

end Tilde
