import Tilde.Text.Alphanumeric
import Tilde.Text.LetterCase

/-!
# Folding case

Text can be folded on its way to a stream. The folds that capitalize words remember from one piece
of text to the next whether they stand inside a word.

* `Fold.apply`: folds a piece of text.
-/

namespace Tilde

/-- How letters are folded: all down, all up, every word capitalized, or only the first word. -/
inductive FoldMode
  | downcase
  | upcase
  | capitalize
  | capitalizeFirst
  deriving DecidableEq, Repr

/-- A fold and what it remembers: whether the last character was in a word, and whether there has
been a word at all. -/
structure Fold where
  mode : FoldMode
  inWord : Bool := false
  started : Bool := false
  deriving DecidableEq, Repr

namespace Fold

/-- Folds one character by the modes that look at words. -/
def step (f : Fold) (c : Char) : Fold × Text :=
  match f.mode with
  | .capitalize =>
    if Text.isAlphanumeric c then
      ({ f with inWord := true }, if f.inWord then Text.downcaseChar c else Text.upcaseChar c)
    else ({ f with inWord := false }, [c])
  | .capitalizeFirst =>
    if Text.isAlphanumeric c ∧ !f.started then ({ f with started := true }, Text.upcaseChar c)
    else (f, Text.downcaseChar c)
  | _ => (f, [c])

/-- Folds a piece of text character by character. -/
def steps (f : Fold) : Text → Fold × Text
  | [] => (f, [])
  | c :: s =>
    let (f1, t) := f.step c
    let (f2, u) := f1.steps s
    (f2, t ++ u)

theorem steps_append (f : Fold) (s t : Text) :
    f.steps (s ++ t) = (((f.steps s).1.steps t).1, (f.steps s).2 ++ ((f.steps s).1.steps t).2) := by
  induction s generalizing f with
  | nil => simp [steps]
  | cons c s ih => simp [steps, ih]

/-- Folds a piece of text. -/
def apply (f : Fold) (s : Text) : Fold × Text :=
  match f.mode with
  | .downcase => (f, Text.downcase s)
  | .upcase => (f, Text.upcase s)
  | _ => f.steps s

theorem mode_step (f : Fold) (c : Char) : (f.step c).1.mode = f.mode := by
  unfold step
  split
  · split <;> rfl
  · split <;> rfl
  · rfl

end Fold

end Tilde
