import Tilde.Stream

/-!
# Walks

A walk goes through the elements of a list inside a logical block. It ends at the end of the list or
at the length limit, where it writes an ellipsis; if the block is refused, a number sign stands for
it and the walk has no elements.

* `Walk.create`, `Walk.enter`, `Walk.next`, `Walk.leave`: the steps of a walk.
-/

namespace Tilde

/-- A walk: the elements, how many of them there are to be seen, and how many have been. -/
structure Walk where
  route : Route
  options : Options
  opening : Text
  perLine : Text
  closing : Text
  items : List Value
  count : Nat
  index : Nat := 0
  refused : Bool := false

namespace Walk

/-- A walk through the elements of a value, or through nothing; the options are those of the stream
if none are given. -/
def create (route : Route) (list? : Option Value) (options? : Option Options)
    (opening perLine closing : Text) : Action Walk := do
  Action.checkOpen
  let items ← match list? with
    | none => pure []
    | some v =>
      match v.items? with
      | some items => pure items
      | none => throw .wrongType
  let current := (← Action.device).options
  return {
    route := route, options := options?.getD current
    opening := opening, perLine := perLine, closing := closing
    items := items, count := items.length }

/-- Begins the block. -/
def enter (w : Walk) : Action Walk := do
  let begun ← Action.enter w.route w.options.level w.opening w.perLine w.closing
  return if begun then w else { w with refused := true, count := 0 }

/-- The next element. At the end of the list and at the length limit the walk is exhausted. -/
def next (w : Walk) : Action (Value × Walk) := do
  if w.index = w.count then throw .exhausted
  else if w.options.length = some (w.index : Int) then
    Action.write w.route ['.', '.', '.']
    throw .exhausted
  else
    match w.items[w.index]? with
    | some v => return (v, { w with index := w.index + 1 })
    | none => throw .indexOutOfRange

/-- The walk is exhausted if all elements have been seen. -/
def checkExhausted (w : Walk) : Action Unit :=
  if w.index = w.count then throw .exhausted else return ()

/-- Ends the block; tells whether the fault that led here is no fault outside. -/
def leave (w : Walk) (fault? : Option Fault) : Action Bool := do
  if !w.refused then Action.finish w.route
  return fault? matches some .exhausted

end Walk

end Tilde
