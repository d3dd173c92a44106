import Tilde.Directive.Basic

/-!
# What each directive allows

The character after the parameters and modifiers names the command. Each command has the modifiers
it permits and the parameters it takes.

* `Command.ofChar?`: the commands by their characters, letters in either case;
* `Command.permission`, `Command.parameters`: what a command allows.
-/

namespace Tilde

/-- The brackets that open a group. -/
inductive Bracket
  | conditional
  | iteration
  | caseConversion
  | justification
  deriving DecidableEq, Repr

/-- What a directive character stands for. A continuation is a tilde at the end of a line. -/
inductive Command
  | atom (kind : Atom)
  | continuation
  | opening (bracket : Bracket)
  | closing (bracket : Bracket)
  | separator
  deriving DecidableEq, Repr

/-- The modifiers that a directive permits. -/
inductive Permission
  | neither
  | colon
  | atSign
  | either
  | all
  deriving DecidableEq, Repr

/-- What a parameter has to be. -/
inductive ParameterKind
  | integer
  | character
  | anything
  deriving DecidableEq, Repr

/-- The command of a directive character. -/
def Command.ofChar? (c : Char) : Option Command :=
  match c.toLower with
  | 'c' => some (.atom .character)
  | '%' => some (.atom .newline)
  | '&' => some (.atom .freshLine)
  | '|' => some (.atom .page)
  | '~' => some (.atom .tilde)
  | '\n' => some .continuation
  | 'r' => some (.atom .radix)
  | 'd' => some (.atom .decimal)
  | 'b' => some (.atom .binary)
  | 'o' => some (.atom .octal)
  | 'x' => some (.atom .hexadecimal)
  | 'f' => some (.atom .fixed)
  | 'e' => some (.atom .exponential)
  | 'g' => some (.atom .general)
  | '$' => some (.atom .monetary)
  | 'a' => some (.atom .aesthetic)
  | 's' => some (.atom .standard)
  | 'w' => some (.atom .write)
  | '_' => some (.atom .conditionalNewline)
  | 'i' => some (.atom .indentation)
  | 't' => some (.atom .tabulate)
  | '*' => some (.atom .goTo)
  | '?' => some (.atom .recursive)
  | 'p' => some (.atom .plural)
  | '^' => some (.atom .escape)
  | '[' => some (.opening .conditional)
  | ']' => some (.closing .conditional)
  | '{' => some (.opening .iteration)
  | '}' => some (.closing .iteration)
  | '(' => some (.opening .caseConversion)
  | ')' => some (.closing .caseConversion)
  | '<' => some (.opening .justification)
  | '>' => some (.closing .justification)
  | ';' => some .separator
  | _ => none

/-- The modifiers that the command permits. -/
def Command.permission : Command → Permission
  | .atom .newline | .atom .page | .atom .tilde | .atom .freshLine => .neither
  | .atom .fixed | .atom .exponential | .atom .general | .atom .recursive => .atSign
  | .atom .indentation | .atom .escape => .colon
  | .atom .goTo => .either
  | .atom _ => .all
  | .continuation => .either
  | .opening .conditional => .either
  | .opening _ => .all
  | .closing .justification => .all
  | .closing .iteration => .colon
  | .closing _ => .neither
  | .separator => .either

/-- The parameters of an integer field, after the radix. -/
def integerParameters : List (String × ParameterKind) :=
  [("mincol", .integer), ("padchar", .character), ("commachar", .character),
    ("commainterval", .integer)]

/-- The parameters of a padded field. -/
def paddedParameters : List (String × ParameterKind) :=
  [("mincol", .integer), ("colinc", .integer), ("minpad", .integer), ("padchar", .character)]

/-- The parameters of an exponential or general field. -/
def exponentialParameters : List (String × ParameterKind) :=
  [("w", .integer), ("d", .integer), ("e", .integer), ("k", .integer),
    ("overflowchar", .character), ("padchar", .character), ("exptchar", .character)]

/-- The parameters that the command takes, by name. -/
def Command.parameters : Command → List (String × ParameterKind)
  | .atom .newline | .atom .page | .atom .tilde | .atom .freshLine => [("count", .integer)]
  | .atom .radix => ("radix", .integer) :: integerParameters
  | .atom .decimal | .atom .binary | .atom .octal | .atom .hexadecimal => integerParameters
  | .atom .fixed =>
    [("w", .integer), ("d", .integer), ("k", .integer), ("overflowchar", .character),
      ("padchar", .character)]
  | .atom .exponential | .atom .general => exponentialParameters
  | .atom .monetary =>
    [("d", .integer), ("n", .integer), ("w", .integer), ("padchar", .character)]
  | .atom .aesthetic | .atom .standard => paddedParameters
  | .atom .indentation | .atom .goTo => [("n", .integer)]
  | .atom .tabulate => [("colnum", .integer), ("colinc", .integer)]
  | .atom .escape => [("arg1", .anything), ("arg2", .anything), ("arg3", .anything)]
  | .opening .justification => paddedParameters
  | .opening .conditional => [("selector", .integer)]
  | .opening .iteration => [("max", .integer)]
  | .separator => [("spare", .integer), ("width", .integer)]
  | _ => []

/-- Groups of this bracket may have several clauses. -/
def Bracket.hasClauses : Bracket → Bool
  | .conditional | .justification => true
  | .iteration | .caseConversion => false

end Tilde
