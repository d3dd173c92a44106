import Tilde.Text.Basic

/-!
# Padding, justification and tabulation

* `padded`: a text and enough padding on one side;
* `Justification.text`: texts spread over a field;
* `tabSpaces`: the way to the next tabulator stop.
-/

namespace Tilde

/-- The width of a padded text: at least `least` columns of padding, and then `step` columns at a
time up to the width asked for. -/
def paddedWidth (length : Nat) (width step least : Int) : Int :=
  let w := length + least
  if w < width then w + step * ((width - w - 1) / step + 1) else w

/-- A text with its padding. -/
def padded (s : Text) (width step least : Int) (pad : Text) (left : Bool) : Text :=
  let padding := Text.times pad (paddedWidth s.length width step least - s.length)
  if left then padding ++ s else s ++ padding

/-! ## Justification -/

/-- How texts are spread: the least width of the field, by which steps it grows, the least padding,
what to pad with, and whether to pad before the first and after the last text. -/
structure Justification where
  width : Int := 0
  step : Int := 1
  least : Int := 0
  pad : Text := [' ']
  before : Bool := false
  after : Bool := false
  deriving DecidableEq, Repr

namespace Justification

/-- A single text is padded on the left unless padding is asked for on the right. -/
def padsBefore (j : Justification) (parts : List Text) : Bool :=
  j.before || (parts.length == 1 && !j.after)

/-- How many places there are to pad. -/
def slots (j : Justification) (parts : List Text) : Int :=
  max 1 ((parts.length : Int) - 1 + (if j.before then 1 else 0) + (if j.after then 1 else 0))

/-- The characters of the texts. -/
def characters (parts : List Text) : Int := parts.flatten.length

/-- The width of the field. -/
def columns (j : Justification) (parts : List Text) : Int :=
  let needed := characters parts + j.slots parts * j.least
  if needed ≤ j.width then j.width
  else j.width + j.step * (1 + (needed - j.width - 1) / j.step)

/-- The padding of every slot. -/
def share (j : Justification) (parts : List Text) : Int :=
  max j.least ((j.columns parts - characters parts) / j.slots parts)

/-- How many slots get one more. -/
def extra (j : Justification) (parts : List Text) : Int :=
  j.columns parts - characters parts - j.share parts * j.slots parts

/-- The padding of the `i`-th slot; what is left over goes to the first slots. -/
def slot (j : Justification) (share extra : Int) (i : Nat) : Text :=
  Text.times j.pad share ++ if i < extra then j.pad else []

/-- The texts from the one before slot `i` on, each with its slot. -/
def spread (j : Justification) (share extra : Int) (i : Nat) : List Text → Text
  | [] => []
  | [last] => last ++ if j.after then j.slot share extra i else []
  | part :: rest => part ++ j.slot share extra i ++ j.spread share extra (i + 1) rest

/-- The justified texts; no texts, no padding. -/
def text (j : Justification) (parts : List Text) : Text :=
  let share := j.share parts
  let extra := j.extra parts
  if parts.isEmpty then []
  else if j.padsBefore parts then j.slot share extra 0 ++ j.spread share extra 1 parts
  else j.spread share extra 0 parts

end Justification

/-! ## Tabulation -/

/-- How many spaces lead from a column to a tabulator stop. In the relative form the stops are the
multiples of the step, and the first one at least `target` columns away is taken; otherwise it is
the column `target`, or, past it, the next one a multiple of the step away. -/
def tabSpaces (relative : Bool) (column target step : Int) : Int :=
  if relative then
    if 0 < step then step * (-(-(column + target) / step)) - column else target
  else if column < target then target - column
  else if 0 < step then step - (column - target) % step
  else 0

end Tilde
