import Tilde.Fold
import Tilde.Layout.Printer

/-!
# Streams

Directives write to a stream: a device, which is a column stream or a pretty printer, and the folds
through which text may pass on its way. A route says which ones it passes, outermost first. Only
written text and the texts of blocks pass the folds; all else goes to the device at once.

* `Route`: the folds, and how deeply operations may still call each other;
* `Action`: what changes a stream and may fail, keeping the changes made until then;
* `write`, `begin`, `finish`: operations along a route;
* `within`: a logical block around an action.
-/

namespace Tilde

/-- Where text goes. -/
inductive Device
  | column (c : Column)
  | printer (p : Printer)

/-- A device and the folds in use, which keep what they remember. -/
structure Stream where
  device : Device
  folds : Array Fold := #[]

/-- How deeply operations may call each other. -/
def standardRoom : Nat := 990

/-- The indices of the folds that text passes, first one first, and how deeply operations may still
call each other. Every fold that a text passes is a call. -/
structure Route where
  folds : List Nat := []
  room : Nat := standardRoom
  deriving DecidableEq, Repr

/-- What changes a stream and gives a result or fails; the changes stay in either case. -/
abbrev Action := EStateM Fault Stream

namespace Device

def options : Device → Options
  | .column c => c.options
  | .printer p => p.options

/-- The column in which the next character will stand. -/
def currentColumn : Device → Int
  | .column c => c.column
  | .printer p => p.column

def maxColumn : Device → Option Int
  | .column c => c.maxColumn
  | .printer p => p.base.maxColumn

/-- The text that has reached the sink. -/
def output : Device → Text
  | .column c => c.output
  | .printer p => p.base.output

end Device

namespace Action

/-- The outcome and the stream afterwards. -/
def perform {α : Type} (a : Action α) (s : Stream) : Except Fault α × Stream :=
  match a s with
  | .ok x s => (.ok x, s)
  | .error e s => (.error e, s)

/-- The result of a computation that does not touch the stream. -/
def lift {α : Type} : Except Fault α → Action α
  | .ok x => pure x
  | .error e => throw e

def device : Action Device := do return (← get).device

def setDevice (d : Device) : Action Unit := modify fun s => { s with device := d }

/-- How many calls breaking lines takes besides one for every section. -/
def layoutCalls : Nat := 8

/-- An operation that only a pretty printer has, with so many calls left. The printer is kept as the
operation leaves it. -/
def onPrinter (room : Nat) (f : Printer → Except Printer.Stop Printer) : Action Unit
  | { device := .printer p, folds } =>
    match f { p with room := some (room - layoutCalls) } with
    | .ok p => .ok () { device := .printer p, folds }
    | .error stop => .error stop.fault { device := .printer stop.printer, folds }
  | s => .error .unsupported s

/-- Refuses an operation on a closed printer, and on a stream that is none. -/
def checkOpen : Action Unit := do
  match ← device with
  | .printer p => if p.closed then throw .closedStream
  | .column _ => throw .unsupported

/-! ## Depth -/

/-- Takes so many calls from the room that a route has left. -/
def descend (route : Route) (calls : Nat) : Action Route :=
  if route.room < calls then throw .tooDeep
  else return { route with room := route.room - calls }

/-- Refuses what would take so many calls besides one for every fold. -/
def checkRoom (route : Route) (calls : Nat) : Action Unit :=
  if route.room < route.folds.length + calls then throw .tooDeep else return ()

/-- An operation that reaches the device past the folds, which takes a call for each of them,
too. -/
def pastFolds {α : Type} (route : Route) (a : Action α) : Action α := do
  checkRoom route 2
  a

/-! ## Folds -/

/-- Adds a fold and gives its index. -/
def newFold (mode : FoldMode) : Action Nat :=
  modifyGet fun s => (s.folds.size, { s with folds := s.folds.push { mode := mode } })

/-- Passes a text through one fold. -/
def foldOnce (i : Nat) (text : Text) : Action Text := do
  let s ← get
  match s.folds[i]? with
  | none => return text
  | some f =>
    let (f', folded) := f.apply text
    set { s with folds := s.folds.set! i f' }
    return folded

/-- Passes a text through the folds of a route. -/
def fold (route : Route) (text : Text) : Action Text :=
  route.folds.foldlM (fun text i => foldOnce i text) text

/-! ## Text -/

/-- Writes a text to the device, with so many calls left. -/
def put (room : Nat) (text : Text) : Action Unit := do
  match ← device with
  | .printer _ => onPrinter room (·.write text)
  | .column c =>
    setDevice (.column (c.write text))
    if c.closed then throw .closedSink

/-- Writes a text along a route. -/
def write (route : Route) (text : Text) : Action Unit := do
  checkRoom route 4
  put (route.room - route.folds.length) (← fold route text)

/-- Ends the line; the line break passes no fold. -/
def endLine (route : Route) : Action Unit := pastFolds route (put route.room ['\n'])

/-- Ends so many lines. -/
def endLines (route : Route) : Nat → Action Unit
  | 0 => return ()
  | n + 1 => do
    endLine route
    endLines route n

/-- Ends the line unless it is empty; tells whether it did. -/
def freshLine (route : Route) : Action Bool := pastFolds route do
  if 0 < (← device).currentColumn then
    endLine route
    return true
  else return false

/-- Outputs what is held back; a closed sink cannot be flushed. -/
def flush (route : Route) : Action Unit := do
  match ← device with
  | .printer _ => onPrinter route.room (·.flush)
  | .column c => if c.closed then throw .closedSink

/-- The text in the sink, after everything held back has been output. -/
def contents (route : Route) : Action Text := do
  flush route
  return (← device).output

/-- Closes the stream. -/
def close (route : Route) : Action Unit := do
  match ← device with
  | .printer _ => onPrinter route.room (·.close)
  | .column c => setDevice (.column { c with closed := true })

/-! ## Layout -/

/-- Takes a newline of the current block. -/
def newline (route : Route) (kind : NewlineKind) : Action Unit :=
  pastFolds route (onPrinter route.room (·.newline kind))

/-- Sets the indentation of the current block. -/
def indent (route : Route) (offset : Value) (relative : Bool) : Action Unit :=
  pastFolds route (onPrinter route.room (·.indent offset.number? relative))

/-- The column where the current block starts. -/
def blockStart : Action Int := do
  match ← device with
  | .printer p => return (p.block p.current).startColumn
  | .column _ => throw .unsupported

/-- Begins a logical block. The texts at its start are folded at once, the closing text when the
block ends. -/
def begin (route : Route) (opening perLine closing : Text) (level : Option Int) : Action Unit := do
  checkRoom route 5
  let (perLine, opening) ← route.folds.foldlM (fun (perLine, opening) i => do
    let perLine ← foldOnce i perLine
    let opening ← foldOnce i opening
    return (perLine, opening)) (perLine, opening)
  onPrinter (route.room - route.folds.length) (·.begin opening perLine closing level)

/-- Folds the closing text of the current block. -/
def foldClosing (i : Nat) : Action Unit := do
  match ← device with
  | .printer p =>
    let closing ← foldOnce i (p.block p.current).closing
    setDevice (.printer (p.modifyBlock p.current fun b => { b with closing := closing }))
  | .column _ => throw .unsupported

/-- Ends the current logical block. -/
def finish (route : Route) : Action Unit := do
  checkRoom route 4
  route.folds.forM foldClosing
  onPrinter (route.room - route.folds.length) (·.finish)

/-- Begins a logical block, or, if blocks are nested too deeply already, writes a number sign in its
place. Tells whether a block has begun. -/
def enter (route : Route) (level : Option Int) (opening perLine closing : Text) : Action Bool := do
  checkOpen
  try
    begin route opening perLine closing level
    return true
  catch
    | .levelExceeded _ => do
      write route ['#']
      return false
    | e => throw e

/-- Ends the block that has begun, whatever happened inside; that a list ran out is no fault. -/
def leave (route : Route) (begun : Bool) (fault? : Option Fault) : Action Unit := do
  if begun then finish route
  match fault? with
  | none | some .exhausted => return ()
  | some e => throw e

/-- The fault of an action, if it fails. -/
def fault? (a : Action Unit) : Action (Option Fault) := do
  try
    a
    return none
  catch e => return some e

/-- Puts a logical block around an action, which is left out if blocks are nested too deeply. -/
def within (route : Route) (level : Option Int) (opening perLine closing : Text)
    (body : Action Unit) : Action Unit := do
  let begun ← enter route level opening perLine closing
  let fault ← if begun then fault? body else pure none
  leave route begun fault

end Action

end Tilde
