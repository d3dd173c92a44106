import Tilde.Proofs.Layout.Operation

/-!
# Layout with the blocks to break given

If it is known beforehand in which blocks the newlines break the line, nothing has to be buffered:
`Printer.direct` takes each stroke at once. A text in which all linear newlines of a block break or
none of them does is one that can be laid out in this way (`Printer.AllOrNone`).

* `Operation.IsLinear`: operations that say nothing of newlines but that they are linear;
* `Gaps`: how much white space stands before the first newline of each block, and before the current
  position; `Gaps.Steady`: it is related to the white space before the newlines that follow in it.
-/

namespace Tilde

/-- The operation begins or ends a block, writes a text, or takes a linear newline. No text has a
line break. -/
def Operation.IsLinear : Operation → Prop
  | begin opening perLine closing _ => '\n' ∉ opening ∧ '\n' ∉ perLine ∧ '\n' ∉ closing
  | finish => True
  | write s => '\n' ∉ s
  | newline kind => kind = .linear
  | _ => False

/-- The stroke is the start or the end of a block, or a text that is not empty, without line
breaks. -/
def Stroke.IsPlain : Stroke → Prop
  | .begin opening perLine closing => '\n' ∉ opening ∧ '\n' ∉ perLine ∧ '\n' ∉ closing
  | .finish => True
  | .text s => s ≠ [] ∧ '\n' ∉ s
  | _ => False

/-! ## Direct layout -/

namespace Printer

/-- Takes a step without buffering; `broken` says in which blocks the newlines break the line. -/
def direct (broken : Nat → Bool) (p : Printer) (s : Stroke) : Printer :=
  match s with
  | .newline _ => if broken p.current then p.breakLine p.path else p
  | s => p.stroke s

/-- The strokes of operations, if they do not depend on what the printer has done so far. -/
def strokesOf (p : Printer) (ops : List Operation) : List Stroke :=
  ops.flatMap fun op => op.strokes p

/-- What the printer has output after the operations if the newlines of some blocks break the line,
and no others. -/
def directOutput (broken : Nat → Bool) (p : Printer) (ops : List Operation) : Text :=
  ((p.strokesOf ops).foldl (direct broken) p).putHeld.base.output

/-- In every block, the newlines that the operations take in it all break the line, or none of them
does. -/
def AllOrNone (p : Printer) (ops : List Operation) (output : Text) : Prop :=
  ∃ broken, p.directOutput broken ops = output

end Printer

/-! ## White space before newlines -/

/-- The number of blocks so far, the current block and those around it, how much white space has
stood before the first newline of each block, and how much stands before the current position. -/
structure Gaps where
  size : Nat := 1
  path : Path := [0]
  first : Nat → Option Nat := fun _ => none
  trailing : Nat := 0

namespace Gaps

/-- Goes on to the next stroke. -/
def step (g : Gaps) : Stroke → Gaps
  | .begin .. => { g with size := g.size + 1, path := g.size :: g.path, trailing := 0 }
  | .finish => { g with path := g.path.tail, trailing := 0 }
  | .text s => if s = [] then g else { g with trailing := (Text.splitTrailing s).2.length }
  | .newline _ =>
    { g with first := fun i =>
        if i = g.path.headD 0 then some ((g.first i).getD g.trailing) else g.first i }
  | .indent .. | .flush => g

/-- The white space before a newline is related to that before the first newline of its block and of
each block around it. -/
def Suits (ρ : Nat → Nat → Prop) (g : Gaps) : Stroke → Prop
  | .newline _ => ∀ i ∈ g.path, ∀ a ∈ g.first i, ρ a g.trailing
  | _ => True

/-- This holds of all newlines of a series of strokes. -/
def Steady (ρ : Nat → Nat → Prop) : Gaps → List Stroke → Prop
  | _, [] => True
  | g, s :: ss => g.Suits ρ s ∧ (g.step s).Steady ρ ss

/-- The gaps after strokes. -/
def after (ss : List Stroke) : Gaps := ss.foldl step {}

variable {ρ : Nat → Nat → Prop} {g : Gaps} {s : Stroke} {ss : List Stroke}

theorem after_concat (ss : List Stroke) (s : Stroke) : after (ss ++ [s]) = (after ss).step s := by
  simp [after]

theorem steady_concat : g.Steady ρ (ss ++ [s]) ↔ g.Steady ρ ss ∧ (ss.foldl step g).Suits ρ s := by
  induction ss generalizing g with
  | nil => simp [Steady]
  | cons s' ss ih => simp only [List.cons_append, Steady, ih, List.foldl_cons, and_assoc]

theorem Steady.mono {ρ' : Nat → Nat → Prop} (hρ : ∀ a b, ρ a b → ρ' a b) (h : g.Steady ρ ss) :
    g.Steady ρ' ss := by
  induction ss generalizing g with
  | nil => trivial
  | cons s ss ih =>
    refine ⟨?_, ih h.2⟩
    have hsuits := h.1
    cases s with
    | newline kind => exact fun i hi a ha => hρ a _ (hsuits i hi a ha)
    | _ => trivial

theorem first_step (hs : s.IsPlain) : (g.step s).first = g.first := by
  cases s with
  | text s =>
    rw [step, if_neg hs.1]
  | newline => exact hs.elim
  | _ => rfl

end Gaps

end Tilde
