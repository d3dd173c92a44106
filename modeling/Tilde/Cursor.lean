import Tilde.Value.Arithmetic

/-!
# Argument cursors

A cursor stands at a position in a list of arguments. It is never changed: moving it gives a new
cursor, so that a directive can come back to an old one. The cursor over a sublist knows the cursor
over the list of sublists.

* `ofList`, `ofValue`: cursors at the start of a list;
* `next`, `nextOrNothing`, `peek`: reading;
* `goto`, `relative`: moving, within the list and to its end;
* `rest`, `remaining`, `isEmpty`: what is left.

A position below zero, which only a caller can set, counts from the end. A cursor can be moved to a
position that is no integer, but there is nothing to be read there.
-/

namespace Tilde

/-- A position in a list of arguments, with the cursor over the enclosing list if there is one. -/
structure Cursor where
  arguments : Array Value
  position : Value := .int 0
  outer : Option Cursor := none

namespace Cursor

/-- The cursor at the start of a list. -/
def ofList (arguments : List Value) (outer : Option Cursor := none) : Cursor :=
  { arguments := arguments.toArray, outer := outer }

/-- How many arguments the list has. -/
def length (c : Cursor) : Nat := c.arguments.size

/-- How many arguments are left. -/
def remaining (c : Cursor) : Except Fault Value := (Value.int c.length).minus c.position

/-- No argument is left. -/
def isEmpty (c : Cursor) : Bool :=
  match c.position with
  | .int n => decide ((c.length : Int) ≤ n)
  | v => (((Value.int c.length).numberAtMost v).toOption).getD false

/-- The place of an index that may count from the end. -/
def place (c : Cursor) (i : Int) : Int := if i < 0 then i + c.length else i

/-- The arguments left. -/
def rest (c : Cursor) : Except Fault (List Value) := do
  return c.arguments.toList.drop (c.place (← c.position.asInteger)).toNat

/-- The cursor at another position. -/
def moved (c : Cursor) (position : Value) : Cursor := { c with position := position }

/-- The argument at the position and the cursor after it. -/
def next (c : Cursor) : Except Fault (Value × Cursor) := do
  if c.isEmpty then throw .noMoreArguments
  else
    let i := c.place (← c.position.asInteger)
    match if i < 0 then none else c.arguments[i.toNat]? with
    | some v => return (v, c.moved (← c.position.plus (.int 1)))
    | none => throw .indexOutOfRange

/-- The argument at the position and the cursor after it; nothing, and the cursor as it is, at the
end. -/
def nextOrNothing (c : Cursor) : Except Fault (Value × Cursor) :=
  if c.isEmpty then .ok (.nothing, c) else c.next

/-- The argument so many places further, without moving. -/
def peek (c : Cursor) (n : Value) : Except Fault Value := do
  let i ← c.position.plus n
  if (← i.isBelowZero) || (← (Value.int c.length).numberAtMost i) then throw .noMoreArguments
  else
    match c.arguments[(← i.asInteger).toNat]? with
    | some v => return v
    | none => throw .noMoreArguments

/-- The cursor at a position of the list or at its end. -/
def goto (c : Cursor) (position : Value) : Except Fault Cursor := do
  if (← position.isBelowZero) || (← (Value.int c.length).less position) then
    throw (.argumentOutOfBounds position)
  else return c.moved position

/-- The cursor so many places further. -/
def relative (c : Cursor) (n : Value) : Except Fault Cursor := do
  c.goto (← c.position.plus n)

/-- A cursor over the elements of a value. -/
def ofValue (v : Value) (outer : Option Cursor) : Except Fault Cursor :=
  match v.items? with
  | some items => .ok (ofList items outer)
  | none => .error .wrongType

@[simp] theorem length_ofList (vs : List Value) (outer : Option Cursor) :
    (ofList vs outer).length = vs.length := by simp [ofList, length]

@[simp] theorem arguments_moved (c : Cursor) (v : Value) : (c.moved v).arguments = c.arguments :=
  rfl

@[simp] theorem position_moved (c : Cursor) (v : Value) : (c.moved v).position = v := rfl

@[simp] theorem outer_moved (c : Cursor) (v : Value) : (c.moved v).outer = c.outer := rfl

end Cursor

end Tilde
