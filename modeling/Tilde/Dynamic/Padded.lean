import Tilde.Dynamic.Setting
import Tilde.Field.Padded

/-!
# Padding, justification and tabulation with settings of any kind

* `paddedField`: a sequence and its padding;
* `JustificationSettings`: how texts are spread;
* `tabText?`: the spaces to the next tabulator stop.
-/

namespace Tilde

/-! ## Padding -/

/-- The settings of a padded field. -/
structure PaddedSettings where
  width : Value
  step : Value
  least : Value
  pad : Value
  left : Bool

/-- The width of a padded sequence. -/
def PaddedSettings.total (s : PaddedSettings) (length : Nat) : Except Fault Value := do
  let width ← (Value.int length).plus s.least
  if ← width.less s.width then
    let missing ← (← s.width.minus width).minus (.int 1)
    let steps ← (← missing.floorQuotient s.step).plus (.int 1)
    width.plus (← s.step.times steps)
  else return width

/-- A sequence with its padding. -/
def paddedValue (s : PaddedSettings) (v : Value) : Except Fault Value := do
  if ← s.step.less (.int 1) then throw .incrementNotPositive
  let length ← v.length
  let padding ← s.pad.times (← (← s.total length).minus (.int length))
  if s.left then padding.plus v else v.plus padding

/-- A text with its padding. -/
def paddedField (s : PaddedSettings) (text : Text) : Except Fault Text := do
  match s.width.ordinary?, s.step.ordinary?, s.least.ordinary?, s.pad.text? with
  | some width, some step, some least, some pad =>
    if step < 1 then throw .incrementNotPositive
    else return padded text width step least pad s.left
  | _, _, _, _ => (← paddedValue s (.text text)).asText

/-! ## Justification -/

/-- The settings of a justification. -/
structure JustificationSettings where
  width : Value
  step : Value
  least : Value
  pad : Value
  before : Bool
  after : Bool

/-- How a justification is laid out: the width of the field, the padding of every slot, and how many
slots get one more. -/
structure JustificationPlan where
  columns : Value
  share : Value
  extra : Value

namespace JustificationSettings

/-- The justification on integers that the settings make, if they are ordinary. -/
def style? (s : JustificationSettings) : Option Justification := do
  some {
    width := ← s.width.ordinary?
    step := ← s.step.ordinary?
    least := ← s.least.ordinary?
    pad := ← s.pad.text?
    before := s.before
    after := s.after }

/-- The justification that differs from this one in numbers only. -/
def shape (s : JustificationSettings) : Justification := { before := s.before, after := s.after }

/-- The plan for texts. -/
def plan (s : JustificationSettings) (parts : List Text) : Except Fault JustificationPlan := do
  let slots := Value.int (s.shape.slots parts)
  let characters := Value.int (Justification.characters parts)
  let needed ← characters.plus (← slots.times s.least)
  let columns ←
    if ← needed.numberAtMost s.width then pure s.width
    else do
      let missing ← (← needed.minus s.width).minus (.int 1)
      let steps ← (Value.int 1).plus (← missing.floorQuotient s.step)
      s.width.plus (← s.step.times steps)
  let total ← columns.minus characters
  let share ← s.least.larger (← total.floorQuotient slots)
  return ⟨columns, share, ← total.minus (← share.times slots)⟩

/-- A text that the padding is, or an empty one beside the fact that it is none. -/
def padding (v : Value) : Text × Bool :=
  match v with
  | .text s => (s, true)
  | _ => ([], false)

/-- The padding of a slot, and whether all of it is text; what is left of the extra padding. -/
def slot (s : JustificationSettings) (share extra : Value) (wanted : Bool) :
    Except Fault (Text × Bool × Value) := do
  let (front, isText) ← if wanted then padding <$> s.pad.times share else pure ([], true)
  let (back, isText') ← if ← (Value.int 0).less extra then pure (padding s.pad)
    else pure ([], true)
  return (front ++ back, isText && isText', ← extra.minus (.int 1))

/-- The texts, each with the slot behind it. -/
def spread (s : JustificationSettings) (share : Value) :
    Value → List Text → Except Fault (Text × Bool)
  | _, [] => .ok ([], true)
  | extra, part :: rest => do
    let (padding, isText, extra) ← s.slot share extra (!rest.isEmpty || s.after)
    let (text, allText) ← s.spread share extra rest
    return (part ++ padding ++ text, isText && allText)

/-- The justified texts. Padding that is no text is refused after everything has been computed. -/
def text (s : JustificationSettings) (plan : JustificationPlan) (parts : List Text) :
    Except Fault Text := do
  let (front, isText, extra) ←
    if s.shape.padsBefore parts && !parts.isEmpty then s.slot plan.share plan.extra true
    else pure ([], true, plan.extra)
  let (text, allText) ← s.spread plan.share extra parts
  if isText && allText then return front ++ text else throw .wrongType

end JustificationSettings

/-! ## Tabulation -/

/-- How many spaces lead from a column to a tabulator stop. -/
def tabCount (relative : Bool) (column : Int) (target step : Value) : Except Fault Value := do
  let here := Value.int column
  if relative then
    if ← (Value.int 0).less step then
      (← step.times (← (← here.plus target).ceilingQuotient step)).minus here
    else return target
  else if ← here.less target then target.minus here
  else step.minus (← (← here.minus target).remainder step)

/-- There is no further stop: the column is past the only one. -/
def isPastStops (relative : Bool) (column : Int) (target step : Value) : Except Fault Bool := do
  if relative then return false
  else if ← (Value.int column).less target then return false
  else return !(← (Value.int 0).less step)

/-- The spaces that lead to a tabulator stop, if there is one ahead. -/
def tabText? (relative : Bool) (column : Int) (target step : Value) :
    Except Fault (Option Text) := do
  if ← isPastStops relative column target step then return none
  else match target.ordinary?, step.ordinary? with
    | some target, some step => return some (Text.blanks (tabSpaces relative column target step))
    | _, _ => return some (← Value.repeatText [' '] (← tabCount relative column target step))

end Tilde
