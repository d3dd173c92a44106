import Tilde.Number.Basic

/-!
# Buffered output

While a conditional newline is undecided, output is held back as tokens. A token knows the stretch
of output positions that it takes if no line is broken, and the block it belongs to by its path: the
block itself, then the blocks around it.

* `Token`, `extent`: tokens and the room that a run of them takes;
* `sectionOf`, `subsectionOf`: what has to fit behind a newline for it not to break.
-/

namespace Tilde

/-- A block and the blocks around it, innermost first, as indices into the printer's table. -/
abbrev Path := List Nat

/-- What a token does when it is output. An indentation that is no number is refused only then. -/
inductive TokenKind
  | text (body trailing : Text)
  | blockStart (path : Path)
  | blockEnd (path : Path)
  | newline (kind : NewlineKind) (path : Path)
  | indent (path : Path) (offset : Option Number) (relative : Bool)
  deriving DecidableEq, Repr

/-- A piece of buffered output and the positions it extends over. -/
structure Token where
  start : Nat
  stop : Nat
  kind : TokenKind
  deriving DecidableEq, Repr

namespace Token

/-- The path of a newline. -/
def newlinePath? (t : Token) : Option Path :=
  match t.kind with
  | .newline _ path => some path
  | _ => none

def isNewline (t : Token) : Bool := t.newlinePath?.isSome

/-- The token is a newline of a block around the one whose path is given. -/
def breaksOutside (path : Path) (t : Token) : Bool :=
  match t.newlinePath? with
  | some (block :: _) => path.tail.contains block
  | _ => false

/-- The token is a newline of the block whose path is given, or of one around it. -/
def breaksAround (path : Path) (t : Token) : Bool :=
  match t.newlinePath? with
  | some (block :: _) => path.contains block
  | _ => false

/-- The room that a run of tokens takes on one line. -/
def extent (tokens : List Token) : Int :=
  match tokens.head?, tokens.getLast? with
  | some first, some last => (last.stop : Int) - first.start
  | _, _ => 0

/-- The tokens behind a newline up to the next newline of a block around it. -/
def sectionOf (path : Path) (following : List Token) : List Token :=
  following.takeWhile fun t => !t.breaksOutside path

/-- The tokens from the next newline of a block around on. -/
def afterSection (path : Path) (following : List Token) : List Token :=
  following.dropWhile fun t => !t.breaksOutside path

/-- The tokens behind a newline up to the next newline of its block or a block around it. -/
def subsectionOf (path : Path) (following : List Token) : List Token :=
  following.takeWhile fun t => !t.breaksAround path

theorem sectionOf_append_afterSection (path : Path) (following : List Token) :
    Token.sectionOf path following ++ afterSection path following = following :=
  List.takeWhile_append_dropWhile

theorem length_sectionOf_le (path : Path) (following : List Token) :
    (Token.sectionOf path following).length ≤ following.length :=
  (List.takeWhile_prefix _).length_le

end Token

end Tilde
