import Tilde.Directive.Parse
import Tilde.Format.Directive

/-!
# Running control strings

Nodes are run from left to right; each leaves the cursor for the next one, or ends the list early.
Groups run their clauses, and some directives run control strings that they find among the
arguments. A run is bounded in depth and, within one iteration, in passes, so that it ends even
when the arguments make a control string call itself.

* `Limits`: the bounds;
* `nodesOf`: the nodes of a control string that is a value;
* `render`: nodes run into a text of its own;
* `runNode`, `run`: the runs.
-/

namespace Tilde

/-- How deeply operations may call each other, nested nodes taking two calls each, and how many
passes an iteration may make. -/
structure Limits where
  depth : Nat
  passes : Nat
  deriving DecidableEq, Repr

/-- The bounds of a run for which none are asked. -/
def Limits.standard : Limits := ⟨standardRoom, 1000000000⟩

/-- Runs nodes along a route from a cursor on. -/
abbrev Runner := Route → List Node → Cursor → Action Outcome

/-- Reads a control string; what is wrong with it is a fault. -/
def compile (control : Text) : Except Fault (List Node) :=
  match parse control with
  | .ok nodes => .ok nodes
  | .error (.located offset complaint) => .error (.malformed control offset complaint)
  | .error .unreadableInteger => .error .wrongValue
  | .error (.excessive e) => .error (.ofExcess e)
  | .error .tooDeep => .error .tooDeep

/-- The nodes of a control string among the arguments. -/
def nodesOf (v : Value) : Except Fault (List Node) :=
  match v with
  | .control nodes => .ok nodes
  | .text s => compile s
  | v => if v.isHashable then .error .controlNotText else .error .wrongType

/-- A stream that starts an output of its own: with a pretty printer if the nodes ask for one. -/
def freshStream (o : Options) (nodes : List Node) : Except Fault Stream :=
  if Node.anyNeedsPrinter nodes then
    (Printer.create o none 0).map fun p => { device := .printer p }
  else .ok { device := .column { maxColumn := o.rightMargin, options := o } }

namespace Action

/-! ## Groups -/

/-- Runs nodes into a text, with so much room for calls. -/
def render (run : Runner) (room : Nat) (o : Options) (nodes : List Node) (c : Cursor) :
    Except Fault (Text × Outcome) := do
  let s ← freshStream o nodes
  match perform (run { room := room - 2 } nodes c) s with
  | (.ok outcome, s) => return (← s.flushedOutput, outcome)
  | (.error e, _) => throw e

/-- Runs one clause of a conditional: by truth, by the presence of a true argument, or by number. -/
def runConditional (run : Runner) (route : Route) (head : Head) (clauses : List (List Node))
    (separators : List Head) (c : Cursor) : Action Outcome := do
  if head.colon then
    let (v, c) ← lift c.next
    run route (clauses.getD (if v.isTrue then 1 else 0) []) c
  else if head.atSign then
    if (← lift (c.peek (.int 0))).isTrue then run route (clauses.headD []) c
    else
      let (_, c) ← lift c.next
      return (c, none)
  else
    let (s, c) ← lift (head.settle Group.conditional.defaults c)
    let (v, c) ← match setting s 0 with
      | .nothing => lift c.next
      | v => pure (v, c)
    match v with
    | .int n =>
      let options := choices clauses separators
      if 0 ≤ n ∧ n < options.length then run route (options.getD n.toNat []) c
      else match fallback? clauses separators with
        | some clause => run route clause c
        | none => return (c, none)
    | v => throw (.selectorNotInteger v)

/-- What an iteration is told: its nodes, whether every pass has a sublist of its own, whether the
first pass is made in any case, and how many there may be. -/
structure Loop where
  body : List Node
  sublists : Bool
  force : Bool
  limit : Value

/-- Another pass is allowed after `i` of them. -/
def Loop.allows (l : Loop) (i : Nat) : Except Fault Bool :=
  match l.limit with
  | .nothing => .ok true
  | limit => (Value.int i).less limit

/-- The list of a pass that goes over sublists; a missing one is empty. -/
def sublistCursor (v : Value) (outer : Cursor) : Except Fault Cursor :=
  match v with
  | .nothing => .ok (.ofList [] (some outer))
  | v => Cursor.ofValue v (some outer)

/-- The cursors stand at the same position. -/
def samePosition (a b : Cursor) : Bool := ((a.position.equal b.position).toOption).getD false

/-- Makes passes over the arguments, `i` of them having been made, until there are no arguments
left, the limit is reached, or a pass is left. A pass that consumes nothing is a fault where there
is no limit. -/
def iterate (run : Runner) (route : Route) (l : Loop) : Nat → Nat → Cursor → Action Cursor
  | 0, _, _ => throw .tooDeep
  | passes + 1, i, items => do
    if !(← lift (l.allows i)) then return items
    else if items.isEmpty && !(l.force && i == 0) then return items
    else if l.sublists then
      let (v, items) ← lift items.nextOrNothing
      let (_, exit) ← run route l.body (← lift (sublistCursor v items))
      if exit = some .upUpAndOut then return items
      else iterate run route l passes (i + 1) items
    else
      let (after, exit) ← run route l.body items
      if exit.isSome then return after
      else if l.limit.isNothing ∧ !after.isEmpty ∧ samePosition after items then
        throw .noProgress
      else iterate run route l passes (i + 1) after

/-- Runs an iteration over a list, or over the arguments themselves. -/
def runIteration (passes : Nat) (run : Runner) (route : Route) (head : Head)
    (clauses : List (List Node)) (closing : Head) (c : Cursor) : Action Outcome := do
  let (s, c) ← lift (head.settle Group.iteration.defaults c)
  let (body, c) ← match clauses.headD [] with
    | [] => do
      let (v, c) ← lift c.next
      pure (← lift (nodesOf v), c)
    | body => pure (body, c)
  let l : Loop := ⟨body, head.colon, closing.colon, setting s 0⟩
  if head.atSign then
    return (← iterate run route l passes 0 c, none)
  else
    let (v, c) ← lift c.next
    let items ← lift (Cursor.ofValue v none)
    discard (iterate run route l passes 0 items)
    return (c, none)

/-- How the modifiers fold case. -/
def foldMode (head : Head) : FoldMode :=
  match head.colon, head.atSign with
  | true, true => .upcase
  | true, false => .capitalize
  | false, true => .capitalizeFirst
  | false, false => .downcase

/-- Runs nodes whose text is folded. -/
def runCaseConversion (run : Runner) (route : Route) (head : Head) (clauses : List (List Node))
    (c : Cursor) : Action Outcome := do
  let i ← newFold (foldMode head)
  run { route with folds := i :: route.folds } (clauses.headD []) c

/-- Renders the clauses of a justification one after the other; a clause that ends early is dropped
together with those after it. -/
def renderSegments (run : Runner) (room : Nat) (o : Options) :
    List (List Node) → Cursor → Except Fault (List Text × Cursor)
  | [], c => .ok ([], c)
  | clause :: clauses, c => do
    let (text, c, exit) ← render run room o clause c
    if exit.isSome then return ([], c)
    else
      let (texts, c) ← renderSegments run room o clauses c
      return (text :: texts, c)

/-- The text of the overflow clause of a justification, with the settings of the separator after
it. -/
def renderOverflow (run : Runner) (room : Nat) (o : Options) (clauses : List (List Node))
    (separators : List Head) (c : Cursor) :
    Except Fault (Option (Text × Value × Value) × Cursor) := do
  match overflow? clauses separators, overflowSeparator? separators with
  | some clause, some separator =>
    let (text, c, _) ← render run room o clause c
    let (s, c) ← separator.settle separatorDefaults c
    return (some (text, setting s 0, setting s 1), c)
  | _, _ => return (none, c)

/-- A field of so many columns does not fit on the line, with some columns to spare; the width of
the line is given or that of the stream. -/
def overflows (d : Device) (spare width columns : Value) : Except Fault Bool := do
  let limit ← match width, d.maxColumn with
    | .nothing, none => return false
    | .nothing, some limit => pure (Value.int limit)
    | width, _ => pure width
  limit.less (← (← (Value.int d.currentColumn).plus spare).plus columns)

/-- Lays a justification out: its columns, and what makes its text. -/
def layOut (s : JustificationSettings) (texts : List Text) :
    Except Fault (Value × Except Fault Text) := do
  match s.style? with
  | some j => return (.int (j.columns texts), .ok (j.text texts))
  | none =>
    let plan ← s.plan texts
    return (plan.columns, s.text plan texts)

/-- Runs a justification. -/
def runJustification (run : Runner) (route : Route) (head : Head) (clauses : List (List Node))
    (separators : List Head) (c : Cursor) : Action Outcome := do
  let (s, c) ← lift (head.settle Group.justification.defaults c)
  if ← lift ((setting s 1).less (.int 1)) then throw .incrementNotPositive
  let o ← currentOptions
  let (overflow, c) ← lift (renderOverflow run route.room o clauses separators c)
  let (texts, c) ← lift (renderSegments run route.room o (segments clauses separators) c)
  let (columns, text) ← lift (layOut {
    width := setting s 0
    step := setting s 1
    least := setting s 2
    pad := setting s 3
    before := head.colon
    after := head.atSign } texts)
  match overflow with
  | none => pure ()
  | some (clause, spare, width) =>
    if ← lift (overflows (← device) spare width columns) then write route clause
  write route (← lift text)
  return (c, none)

/-- Runs a logical block over a list, or over the arguments that are left; what is no list is
printed. -/
def runBlock (run : Runner) (route : Route) (head : Head) (clauses : List (List Node))
    (separators : List Head) (closing : Head) (c : Cursor) : Action Outcome := do
  let o ← currentOptions
  let around (items c : Cursor) : Action Outcome := do
    match Block.ofClauses head clauses separators closing with
    | .error _ => throw .unsupported
    | .ok block =>
      within route o.level block.opening (block.perLine.getD []) block.closing do
        discard (run route block.body items)
      return (c, none)
  if head.atSign then around c (← lift (c.goto (.int c.length)))
  else
    let (v, c) ← lift c.next
    match v with
    | .list items => around (.ofList items) c
    | .tuple items => around (.ofList items) c
    | v =>
      print route o v
      return (c, none)

/-! ## Nodes -/

/-- Runs the control string that is the next argument, on the arguments after it or on the list that
follows. -/
def runRecursive (run : Runner) (route : Route) (head : Head) (c : Cursor) : Action Outcome := do
  let (v, c) ← lift c.next
  let nodes ← lift (nodesOf v)
  if head.atSign then run route nodes c
  else
    let (v, c) ← lift c.next
    discard (run route nodes (← lift (Cursor.ofValue v none)))
    return (c, none)

/-- Runs one node, with a runner for the nodes inside. -/
def runNode (passes : Nat) (run : Runner) (route : Route) (node : Node) (c : Cursor) :
    Action Outcome :=
  match node with
  | .text s => do
    write route s
    return (c, none)
  | .copies x count => do
    write route (List.replicate count x)
    return (c, none)
  | .foreign => throw .unsupported
  | .atom .recursive head => runRecursive run route head c
  | .atom kind head => runAtom route kind head c
  | .group .conditional head clauses separators _ =>
    runConditional run route head clauses separators c
  | .group .iteration head clauses _ closing =>
    runIteration passes run route head clauses closing c
  | .group .caseConversion head clauses _ _ => runCaseConversion run route head clauses c
  | .group .justification head clauses separators _ =>
    runJustification run route head clauses separators c
  | .group .logicalBlock head clauses separators closing =>
    runBlock run route head clauses separators closing c

/-- Runs nodes from left to right, with a runner for the nodes inside. -/
def runNodes (passes : Nat) (run : Runner) (route : Route) : List Node → Cursor → Action Outcome
  | [], c => return (c, none)
  | n :: ns, c => do
    match ← runNode passes run route n c with
    | (c, none) => runNodes passes run route ns c
    | (c, some exit) => return (c, some exit)

/-- Runs nodes that are nested at most so deep, on a route with room enough. -/
def runWithin (passes : Nat) : Nat → Runner
  | 0 => fun _ _ _ => throw .tooDeep
  | depth + 1 => fun route nodes c => do
    runNodes passes (runWithin passes depth) (← descend route 2) nodes c

/-- Runs nodes within the limits. -/
def run (limits : Limits) : Runner := fun route nodes c =>
  runWithin limits.passes limits.depth { route with room := limits.depth } nodes c

end Action

end Tilde
