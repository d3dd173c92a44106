import Tilde.Stream
import Tilde.Value.Arithmetic

/-!
# Writing values

A field can turn out to be a value that is no text. Folds that look at single characters take the
elements of a sequence for these, and make a text of them if they are texts themselves. Nothing else
can be written in the end.

* `Action.foldValue`: passes a value through one fold;
* `Action.writeValue`: writes a value along a route.
-/

namespace Tilde

/-- The byte of an ASCII letter in lower case. -/
def lowerByte (b : UInt8) : UInt8 := if 65 ≤ b ∧ b ≤ 90 then b + 32 else b

/-- The byte of an ASCII letter in upper case. -/
def upperByte (b : UInt8) : UInt8 := if 97 ≤ b ∧ b ≤ 122 then b - 32 else b

/-- The byte of an ASCII letter or digit. -/
def isAlphanumericByte (b : UInt8) : Bool :=
  (48 ≤ b && b ≤ 57) || (65 ≤ b && b ≤ 90) || (97 ≤ b && b ≤ 122)

namespace Fold

/-- Folds a text as if it were one character. -/
def stepWhole (f : Fold) (alphanumeric : Bool) (s : Text) : Fold × Text :=
  match f.mode with
  | .capitalize =>
    if alphanumeric then
      ({ f with inWord := true }, if f.inWord then Text.downcase s else Text.upcase s)
    else ({ f with inWord := false }, s)
  | _ =>
    if alphanumeric ∧ !f.started then ({ f with started := true }, Text.upcase s)
    else (f, Text.downcase s)

/-- Folds an element of a sequence; a byte string gives no text. -/
def stepValue (f : Fold) : Value → Except Fault (Fold × Option Text)
  | .text s =>
    let (f, t) := f.stepWhole (!s.isEmpty && s.all Text.isAlphanumeric) s
    .ok (f, some t)
  | .bytes bs => .ok ((f.stepWhole (!bs.isEmpty && bs.all isAlphanumericByte) []).1, none)
  | _ => .error .unsupported

end Fold

namespace Action

/-- Folds an element of a sequence, and keeps what the fold remembers. -/
def foldElement (i : Nat) (v : Value) : Action (Option Text) := do
  let s ← get
  match s.folds[i]? with
  | none => throw .unsupported
  | some f =>
    let (f, t) ← lift (f.stepValue v)
    set { s with folds := s.folds.set! i f }
    return t

/-- Passes a value that is no text through a fold of the mode. -/
def foldForeign (i : Nat) (mode : FoldMode) (v : Value) : Action Value := do
  match mode, v with
  | .downcase, .bytes bs => return .bytes (bs.map lowerByte)
  | .upcase, .bytes bs => return .bytes (bs.map upperByte)
  | .downcase, _ | .upcase, _ => throw .unsupported
  | _, v =>
    match v.items? with
    | none => throw .wrongType
    | some items =>
      let texts ← items.mapM (foldElement i)
      if texts.all Option.isSome then return .text (texts.map (·.getD [])).flatten
      else throw .wrongType

/-- Passes a value through one fold. -/
def foldValue (i : Nat) (v : Value) : Action Value := do
  match v, (← get).folds[i]? with
  | .text s, _ => return .text (← foldOnce i s)
  | v, some f => foldForeign i f.mode v
  | v, none => return v

/-- Writes what has passed all folds, with so many calls left. -/
def putValue (room : Nat) (v : Value) : Action Unit := do
  match v with
  | .text s => put room s
  | v =>
    if (← device) matches .printer _ then checkOpen
    throw (match v with
      | .bytes _ => .wrongType
      | _ => .unsupported)

/-- Writes a value along a route. -/
def writeValue (route : Route) (v : Value) : Action Unit := do
  match v with
  | .text s => write route s
  | v =>
    checkRoom route 4
    putValue (route.room - route.folds.length)
      (← route.folds.foldlM (fun v i => foldValue i v) v)

end Action

end Tilde
