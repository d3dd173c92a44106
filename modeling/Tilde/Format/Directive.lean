import Tilde.Dynamic.Integer
import Tilde.Dynamic.Padded
import Tilde.Dynamic.Real
import Tilde.Format.Settings
import Tilde.Stream.Value
import Tilde.Text.CharacterForm

/-!
# Simple directives

What the directives that enclose nothing write and where they leave the cursor.

* `numberValue`: the fields for numbers;
* `runAtom`: all simple directives but the one that runs another control string.
-/

namespace Tilde

/-- The signal with which a list of nodes ends early: leave the enclosing construct, or the one
around it, too. -/
inductive Exit
  | upAndOut
  | upUpAndOut
  deriving DecidableEq, Repr

/-- Where the cursor is after running nodes, and whether they ended early. -/
abbrev Outcome := Cursor × Option Exit

/-! ## Numbers -/

/-- The settings of an integer field from the `i`-th on. -/
def integerSettings (head : Head) (s : List Value) (i : Nat) : IntegerSettings where
  width := setting s i
  pad := setting s (i + 1)
  separator := setting s (i + 2)
  interval := setting s (i + 3)
  colon := head.colon
  atSign := head.atSign

/-- An integer in a radix, or, without one, as a Roman numeral or in words. -/
def radixText (head : Head) (s : List Value) (room : Nat) (o : Options) (v : Value) :
    Except Fault Text :=
  match setting s 0 with
  | .nothing =>
    if head.atSign then v.romanNumeral head.colon else v.englishName head.colon
  | radix => integerField (integerSettings head s 1) room o v radix

/-- A value that is no real number, printed for readers and right-justified. -/
def unrealText (width : Value) (room : Nat) (o : Options) (v : Value) : Except Fault Text := do
  let printed ← v.toText room { o with base := 10, escape := false }
  Value.filledLeft printed width (.text [' '])

/-- The settings of an exponential or general field. -/
def exponentialSettings (head : Head) (s : List Value) : RealSettings where
  width := setting s 0
  places := setting s 1
  exponentDigits := setting s 2
  scale := setting s 3
  overflow := setting s 4
  pad := setting s 5
  mark := setting s 6
  plus := head.atSign

/-- A real number in the field of the directive. -/
def realValue (kind : Atom) (head : Head) (s : List Value) (v : Value) : Except Fault Value :=
  match kind with
  | .exponential => exponentialField (exponentialSettings head s) v
  | .general => generalField (exponentialSettings head s) v
  | _ =>
    fixedField {
      width := setting s 0
      places := setting s 1
      scale := setting s 2
      overflow := setting s 3
      pad := setting s 4
      plus := head.atSign } v

/-- A real number in the field of the monetary directive. -/
def moneyText (head : Head) (s : List Value) (v : Value) : Except Fault Text :=
  monetaryField {
    places := setting s 0
    wholeDigits := setting s 1
    width := setting s 2
    pad := setting s 3
    signFirst := head.colon
    plus := head.atSign } v

/-- What a number directive writes for an argument: a text, unless a real number does not fit and
the field is filled with another value. -/
def numberValue (kind : Atom) (head : Head) (s : List Value) (room : Nat) (o : Options)
    (v : Value) : Except Fault Value :=
  match kind with
  | .radix => .text <$> radixText head s room o v
  | .binary => .text <$> integerField (integerSettings head s 0) room o v (.int 2)
  | .octal => .text <$> integerField (integerSettings head s 0) room o v (.int 8)
  | .hexadecimal => .text <$> integerField (integerSettings head s 0) room o v (.int 16)
  | .monetary =>
    if v.isReal then .text <$> moneyText head s v
    else .text <$> unrealText (setting s 2) room o v
  | .fixed | .exponential | .general =>
    if v.isReal then realValue kind head s v
    else
      let width := if (setting s 0).isTrue then setting s 0 else .int 0
      .text <$> unrealText width room o v
  | _ => .text <$> integerField (integerSettings head s 0) room o v (.int 10)

/-! ## Characters and repetition -/

/-- The code of the character that a value is: a text of one character, or the number of its
code. -/
def characterCode (v : Value) : Except Fault Nat :=
  match v.integer? with
  | some n =>
    if n < -0x80000000 ∨ 0x80000000 ≤ n then .error .tooLarge
    else if n < 0 ∨ 0x110000 ≤ n then .error .wrongValue
    else .ok n.toNat
  | none =>
    match v with
    | .text [c] => .ok c.toNat
    | _ => .error .notOneCharacter

/-- A character as it is, spelled out, or for programs. The codes of surrogates can be written in
the latter ways only. -/
def characterText (head : Head) (code : Nat) : Text :=
  if 0xD800 ≤ code ∧ code < 0xE000 then
    if head.atSign then Text.readableSurrogate code
    else if head.colon then Text.codeText code
    else [Char.ofNat 0xFFFD]
  else
    let c := Char.ofNat code
    if head.atSign then Text.readable c else if head.colon then Text.spelled c else [c]

/-- How often one can be taken away from a number before nothing is left: the number rounded up.
There is no memory for what an endless count would write. -/
def countdown (n : Number) : Except Fault Nat := do
  let steps ← match n with
    | .integer n => pure n.toNat
    | .ratio q => pure q.ceil.toNat
    | .binary (.infinite false) | .decimal (.infinite false) => throw .outOfMemory
    | .binary x => pure ((x.toRat?.map Rat.ceil).getD 0).toNat
    | .decimal d => pure ((d.toRat?.map Rat.ceil).getD 0).toNat
    | .complex .. => throw .wrongType
  if Text.memoryLimit ≤ steps then throw .outOfMemory else return steps

/-- The ending of a noun for a number of things. -/
def pluralText (atSign one : Bool) : Text :=
  match atSign, one with
  | true, true => ['y']
  | true, false => ['i', 'e', 's']
  | false, true => []
  | false, false => ['s']

/-! ## Moving and leaving -/

/-- The cursor after a go-to directive. -/
def moveCursor (head : Head) (s : List Value) (c : Cursor) : Except Fault Cursor := do
  match head.atSign, setting s 0 with
  | true, .nothing => c.goto (.int 0)
  | true, n => c.goto n
  | false, n =>
    let n := if n.isNothing then .int 1 else n
    c.relative (← if head.colon then n.negated else pure n)

/-- Whether an escape leaves: three settings have to be in order, two equal, one zero; without any,
there must be no arguments left, or no more sublists. -/
def escapes (head : Head) (s : List Value) (c : Cursor) : Except Fault Bool :=
  match setting s 0, setting s 1, setting s 2 with
  | .nothing, .nothing, .nothing =>
    if head.colon then
      match c.outer with
      | some outer => .ok outer.isEmpty
      | none => .error .unsupported
    else .ok c.isEmpty
  | a, .nothing, .nothing => a.equal (.int 0)
  | a, b, .nothing => a.equal b
  | a, b, z => do if ← a.atMost b then b.atMost z else return false

/-! ## Running -/

namespace Action

def currentOptions : Action Options := do return (← device).options

/-- Prints an argument as the padded directives do: to the stream, or, with any parameter given, as
a text with its padding. -/
def printPadded (route : Route) (head : Head) (s : List Value) (escape : Bool) (v : Value) :
    Action Unit := do
  let o := { ← currentOptions with escape := escape }
  let v := match v with
    | .nothing => if head.colon then .list [] else .nothing
    | v => v
  if head.parameters.isEmpty then print route o v
  else
    let printed ← lift (v.toText route.room o)
    let field : PaddedSettings := {
      width := setting s 0
      step := setting s 1
      least := setting s 2
      pad := setting s 3
      left := head.atSign }
    write route (← lift (paddedField field printed))

/-- The kind of newline that the modifiers ask for. -/
def newlineKind (head : Head) : NewlineKind :=
  match head.colon, head.atSign with
  | true, true => .mandatory
  | true, false => .fill
  | false, true => .miser
  | false, false => .linear

/-- Moves to a tabulator stop, counted from the start of the line or of the current block. -/
def tabulate (route : Route) (head : Head) (s : List Value) : Action Unit := do
  let origin ← if head.colon then blockStart else pure 0
  let column := (← device).currentColumn - origin
  match ← lift (tabText? head.atSign column (setting s 0) (setting s 1)) with
  | some spaces => write route spaces
  | none => return ()

/-- Writes a character as often as the setting says. -/
def repeatCharacter (route : Route) (c : Char) (s : List Value) : Action Unit := do
  write route (← lift (Value.repeatText [c] (setting s 0)))

/-- Runs a simple directive whose settings are known, and returns the cursor after it. -/
def runSettled (route : Route) (kind : Atom) (head : Head) (s : List Value) (c : Cursor) :
    Action Cursor := do
  match kind with
  | .character =>
    let (v, c) ← lift c.next
    write route (characterText head (← lift (characterCode v)))
    return c
  | .freshLine =>
    let count ← lift (setting s 0).asNumber
    if ← lift ((Number.integer 0).below count) then
      discard (freshLine route)
      endLines route (← lift (do countdown (← count.minus (.integer 1))))
    return c
  | .newline =>
    repeatCharacter route '\n' s
    return c
  | .page =>
    repeatCharacter route (Char.ofNat 12) s
    return c
  | .tilde =>
    repeatCharacter route '~' s
    return c
  | .radix | .decimal | .binary | .octal | .hexadecimal | .fixed | .exponential | .general
  | .monetary =>
    let (v, c) ← lift c.next
    writeValue route (← lift (numberValue kind head s route.room (← currentOptions) v))
    return c
  | .aesthetic =>
    let (v, c) ← lift c.next
    printPadded route head s false v
    return c
  | .standard =>
    let (v, c) ← lift c.next
    printPadded route head s true v
    return c
  | .write =>
    let (v, c) ← lift c.next
    let o ← currentOptions
    let o := if head.colon then { o with pretty := true } else o
    let o := if head.atSign then { o with level := none, length := none } else o
    print route o v
    return c
  | .conditionalNewline =>
    newline route (newlineKind head)
    return c
  | .indentation =>
    indent route (setting s 0) head.colon
    return c
  | .tabulate =>
    tabulate route head s
    return c
  | .goTo => lift (moveCursor head s c)
  | .plural =>
    let c ← if head.colon then lift (c.relative (.int (-1))) else pure c
    let (v, c) ← lift c.next
    write route (pluralText head.atSign (← lift (v.equal (.int 1))))
    return c
  | .recursive | .escape => return c

/-- Runs a simple directive. -/
def runAtom (route : Route) (kind : Atom) (head : Head) (c : Cursor) : Action Outcome := do
  let (s, c) ← lift (head.settle kind.defaults c)
  match kind with
  | .escape =>
    if ← lift (escapes head s c) then
      return (c, some (if head.colon then .upUpAndOut else .upAndOut))
    else return (c, none)
  | kind => return (← runSettled route kind head s c, none)

end Action

end Tilde
