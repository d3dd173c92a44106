import Tilde.Cursor

/-!
# The settings of a directive

Before a directive runs, each of its parameters gets a value: as written, from the arguments, from
their number, or by default.

* `Atom.defaults`, `Group.defaults`, `separatorDefaults`: the values of missing parameters;
* `settle`: the values, and the cursor after the arguments that they took.
-/

namespace Tilde

/-- The values of an integer field's parameters where they are missing. -/
def integerDefaults : List Value := [.int 0, .text [' '], .text [','], .int 3]

/-- The values of a padded field's parameters where they are missing. -/
def paddedDefaults : List Value := [.int 0, .int 1, .int 0, .text [' ']]

/-- The values of a simple directive's parameters where they are missing. -/
def Atom.defaults : Atom → List Value
  | .freshLine | .newline | .page | .tilde => [.int 1]
  | .radix => .nothing :: integerDefaults
  | .decimal | .binary | .octal | .hexadecimal => integerDefaults
  | .fixed => [.nothing, .nothing, .int 0, .nothing, .text [' ']]
  | .exponential | .general =>
    [.nothing, .nothing, .nothing, .int 1, .nothing, .text [' '], .nothing]
  | .monetary => [.int 2, .int 1, .int 0, .text [' ']]
  | .aesthetic | .standard => paddedDefaults
  | .indentation => [.int 0]
  | .goTo => [.nothing]
  | .tabulate => [.int 1, .int 1]
  | .escape => [.nothing, .nothing, .nothing]
  | .character | .write | .conditionalNewline | .recursive | .plural => []

/-- The values of a group's parameters where they are missing. -/
def Group.defaults : Group → List Value
  | .conditional | .iteration => [.nothing]
  | .justification | .logicalBlock => paddedDefaults
  | .caseConversion => []

/-- The values of a separator's parameters where they are missing. -/
def separatorDefaults : List Value := [.int 0, .nothing]

/-- The value of one parameter, and the cursor after the argument that it may have taken. A missing
argument value stands for the default, too. -/
def Parameter.settle (p : Parameter) (default : Value) (c : Cursor) :
    Except Fault (Value × Cursor) :=
  match p with
  | .absent => .ok (default, c)
  | .number n => .ok (.int n, c)
  | .character x => .ok (.text [x], c)
  | .remaining => c.remaining.map (·, c)
  | .next =>
    match c.next with
    | .ok (.nothing, c) => .ok (default, c)
    | r => r

/-- The values of all parameters, from left to right. -/
def settleAll : List Parameter → List Value → Cursor → Except Fault (List Value × Cursor)
  | _, [], c => .ok ([], c)
  | ps, default :: defaults, c => do
    let (v, c) ← (ps.headD .absent).settle default c
    let (vs, c) ← settleAll ps.tail defaults c
    return (v :: vs, c)

/-- The values of a directive's parameters. -/
def Head.settle (h : Head) (defaults : List Value) (c : Cursor) :
    Except Fault (List Value × Cursor) := settleAll h.parameters defaults c

/-- The `i`-th setting. -/
def setting (settings : List Value) (i : Nat) : Value := settings.getD i .nothing

end Tilde
