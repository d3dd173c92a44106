import Tilde.Stream
import Tilde.Value.Written

/-!
# Printing values

Containers are printed as logical blocks, with a comma and a space between their elements and, if
the options say so, a fill-style newline after it; other values by their written forms. Limits on
depth and length cut values short.

* `Action.print`: prints a value to a stream;
* `Value.toText`: the printed form as a text;
* `Printer.display`: a value on a line of its own.
-/

namespace Tilde

/-- What shows the radix of an integer. -/
def radixMark (base : Int) : Text :=
  if base = 2 then ['0', 'b']
  else if base = 8 then ['0', 'o']
  else if base = 10 then []
  else if base = 16 then ['0', 'x']
  else '#' :: Radix.decimal base ++ ['r']

/-- An integer in the radix of the options. -/
def integerText (n : Int) (o : Options) : Except Fault Text :=
  match Radix.numeral? n.natAbs o.base with
  | none => .error .radixOutOfRange
  | some s => .ok (Radix.sign n ++ (if o.showRadix then radixMark o.base else []) ++ s)

/-- The written form that the options ask for. -/
def writtenText (v : Value) (o : Options) : Text := if o.escape then v.written else v.shown

namespace Action

/-- How many calls it takes to come to the parts of a value: with an enclosure every value is looked
at once more, and objects that lay themselves out are called. -/
def printCalls (o : Options) (v : Value) : Nat :=
  match v with
  | .layoutObject .. => 2 + (if o.enclosure.isSome then 1 else 0) + if o.pretty then 1 else 0
  | _ => 2 + if o.enclosure.isSome then 1 else 0

/-- What stands between two elements. -/
def printSeparator (route : Route) (o : Options) : Action Unit := do
  write route [',', ' ']
  if o.pretty then newline route .fill

/-- The length limit has been reached. -/
def reachesLength (o : Options) (i : Nat) : Bool := o.length == some (i : Int)

mutual

/-- Prints a value. -/
def print (route : Route) (o : Options) (v : Value) : Action Unit := do
  let route ← descend route (printCalls o v)
  match v with
  | .text s =>
    match o.enclosure with
    | some (front, back) => write route (front ++ s ++ back)
    | none => write route (writtenText (.text s) o)
  | .int n => write route (← lift (integerText n o))
  | .list vs => within route o.level ['['] [] [']'] (printItems route o 0 vs)
  | .set vs => within route o.level "set([".toList [] [']', ')'] (printItems route o 0 vs)
  | .frozenSet vs =>
    within route o.level "frozenset([".toList [] [']', ')'] (printItems route o 0 vs)
  | .deque vs => within route o.level "deque([".toList [] [']', ')'] (printItems route o 0 vs)
  | .tuple vs => within route o.level ['('] [] [')'] (printTuple route o vs)
  | .dict es => within route o.level ['{'] [] ['}'] (printEntries route o 0 es)
  | .layoutObject written shown layout vs =>
    if o.pretty then
      within route o.level layout.opening [] layout.closing
        (printLayout route o layout.newline 0 vs)
    else write route (if o.escape then written else shown)
  | v => write route (writtenText v o)

/-- Prints the elements from the `i`-th on. -/
def printItems (route : Route) (o : Options) (i : Nat) : List Value → Action Unit
  | [] => return ()
  | v :: vs =>
    if reachesLength o i then write route ['.', '.', '.']
    else do
      print route o v
      if !vs.isEmpty then
        printSeparator route o
        printItems route o (i + 1) vs

/-- Prints the elements of a tuple; the first one has a comma in any case. -/
def printTuple (route : Route) (o : Options) : List Value → Action Unit
  | [] => return ()
  | v :: vs =>
    if reachesLength o 0 then write route ['.', '.', '.']
    else do
      print route o v
      write route [',']
      if !vs.isEmpty then
        write route [' ']
        if o.pretty then newline route .fill
        printItems route o 1 vs

/-- Prints the entries of a dictionary from the `i`-th on. -/
def printEntries (route : Route) (o : Options) (i : Nat) : List (Value × Value) → Action Unit
  | [] => return ()
  | (k, v) :: es =>
    if reachesLength o i then write route ['.', '.', '.']
    else do
      print route o k
      write route [':', ' ']
      print route o v
      if !es.isEmpty then
        printSeparator route o
        printEntries route o (i + 1) es

/-- Prints the items of an object that lays itself out, from the `i`-th on. -/
def printLayout (route : Route) (o : Options) (kind : NewlineKind) (i : Nat) :
    List Value → Action Unit
  | [] => return ()
  | v :: vs =>
    if reachesLength o i then write route ['.', '.', '.']
    else do
      print route o v
      if !vs.isEmpty then
        write route [' ']
        newline route kind
        printLayout route o kind (i + 1) vs

end

end Action

/-- What a printer has output when it is flushed at the end of an action. -/
def Stream.flushedOutput (s : Stream) : Except Fault Text :=
  match s.device with
  | .column c => .ok c.output
  | .printer p =>
    match p.flush with
    | .ok p => .ok p.base.output
    | .error stop => .error stop.fault

/-- The printed form of a value, with so much room for calls. -/
def Value.toText (v : Value) (room : Nat) (o : Options) : Except Fault Text := do
  let p ← Printer.create o none 0
  match Action.perform (Action.print { room := room - 2 } o v) { device := .printer p } with
  | (.ok (), s) => s.flushedOutput
  | (.error e, _) => throw e

/-- Prints a value and ends the line, with so much room for calls; everything is output if nothing
goes wrong. -/
def Printer.display (p : Printer) (v : Value) (room : Nat := standardRoom) :
    Except Stop Printer :=
  let run : Action Unit := do
    Action.print { room := room } p.options v
    Action.endLine { room := room }
  match Action.perform run { device := .printer p } with
  | (.ok (), ⟨.printer p, _⟩) => p.close
  | (.error e, ⟨.printer p, _⟩) => .error ⟨e, p⟩
  | (.ok (), _) => .ok p
  | (.error e, _) => .error ⟨e, p⟩

end Tilde
