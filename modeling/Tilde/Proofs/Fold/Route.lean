import Mathlib.Data.List.Induction
import Tilde.Stream

/-!
# Single steps along a route

What the steps do of which operations along a route are made, and what the folds remember then.

* `Fold.Overlooks`: a text of which a fold remembers nothing (`Fold.apply_of_overlooks`);
* `Stream.Like`: streams that no operation can tell apart;
* `pass`: a text passes one of the folds (`Action.foldOnce_eq`).
-/

namespace Tilde

namespace Fold

variable {f : Fold} {s : Text}

theorem apply_nil (f : Fold) : f.apply [] = (f, []) := by
  unfold apply
  split <;> rfl

/-! ## What folds remember -/

/-- A fold that capitalizes words remembers whether the last character was in one. -/
theorem steps_capitalize (hmode : f.mode = .capitalize) (s : Text) :
    (f.steps s).1 = { f with inWord := s.getLast?.elim f.inWord Text.isAlphanumeric } := by
  induction s using List.reverseRecOn with
  | nil => rfl
  | append_singleton s c ih =>
    rw [steps_append, ih]
    by_cases hc : Text.isAlphanumeric c <;> simp [steps, step, hmode, hc]

/-- A fold that capitalizes one word remembers whether there has been one. -/
theorem steps_capitalizeFirst (hmode : f.mode = .capitalizeFirst) (s : Text) :
    (f.steps s).1 = { f with started := f.started || s.any Text.isAlphanumeric } := by
  induction s generalizing f with
  | nil => simp [steps]
  | cons c s ih =>
    have hstep : (f.step c).1 = { f with started := f.started || Text.isAlphanumeric c } := by
      obtain ⟨mode, inWord, started⟩ := f
      obtain rfl : mode = .capitalizeFirst := hmode
      cases hc : Text.isAlphanumeric c <;> cases started <;> simp [step, hc]
    rw [steps, ih ((mode_step f c).trans hmode), hstep, List.any_cons, Bool.or_assoc]

/-- The fold remembers nothing of the text: it looks at no words, or the text ends inside or outside
of a word just as the one before it, or there has been a word already, or the text has none. -/
def Overlooks (f : Fold) (s : Text) : Prop :=
  match f.mode with
  | .downcase | .upcase => True
  | .capitalize => ∀ c ∈ s.getLast?, Text.isAlphanumeric c = f.inWord
  | .capitalizeFirst => f.started = true ∨ ∀ c ∈ s, Text.isAlphanumeric c = false

theorem overlooks_iff : f.Overlooks s ↔ (f.apply s).1 = f := by
  obtain ⟨mode, inWord, started⟩ := f
  cases mode with
  | downcase | upcase => simp [Overlooks, apply]
  | capitalize =>
    have happly : (apply ⟨.capitalize, inWord, started⟩ s).1 = _ := steps_capitalize rfl s
    rw [happly]
    cases hlast : s.getLast? <;> simp [Overlooks, hlast]
  | capitalizeFirst =>
    have happly : (apply ⟨.capitalizeFirst, inWord, started⟩ s).1 = _ := steps_capitalizeFirst rfl s
    rw [happly]
    cases started <;> simp [Overlooks]

end Fold

/-- A text passes one of the folds, if there is one. -/
def pass (folds : Array Fold) (i : Nat) (text : Text) : Array Fold × Text :=
  match folds[i]? with
  | none => (folds, text)
  | some f => (folds.setIfInBounds i (f.apply text).1, (f.apply text).2)

/-- The streams are the same but for the bound on how many sections may be broken up inside each
other, which every operation sets. -/
inductive Stream.Like : Stream → Stream → Prop
  | same (s : Stream) : Like s s
  | room (p : Printer) (folds : Array Fold) (room : Option Nat) :
      Like ⟨.printer p, folds⟩ ⟨.printer { p with room := room }, folds⟩

/-! ## Folds along a route -/

variable {i : Nat} {f : Fold} {folds : Array Fold} {text : Text}

theorem pass_of_some (hf : folds[i]? = some f) :
    pass folds i text = (folds.setIfInBounds i (f.apply text).1, (f.apply text).2) := by
  rw [pass, hf]

theorem size_pass (folds : Array Fold) (i : Nat) (text : Text) :
    (pass folds i text).1.size = folds.size := by
  unfold pass
  split
  · rfl
  · exact Array.size_setIfInBounds

/-- What a fold remembers nothing of leaves all folds as they are. -/
theorem pass_fst (h : ∀ f, folds[i]? = some f → f.Overlooks text) :
    (pass folds i text).1 = folds := by
  cases hf : folds[i]? with
  | none => rw [pass, hf]
  | some f =>
    rw [pass_of_some hf, Fold.overlooks_iff.mp (h f hf)]
    obtain ⟨hlt, rfl⟩ := Array.getElem?_eq_some_iff.mp hf
    simp [Array.setIfInBounds_def, hlt]

theorem pass_nil (folds : Array Fold) (i : Nat) : pass folds i [] = (folds, []) := by
  refine Prod.ext (pass_fst fun f hf => ?_) ?_
  · rw [Fold.overlooks_iff, Fold.apply_nil]
  · cases hf : folds[i]? with
    | none => rw [pass, hf]
    | some f => rw [pass_of_some hf, Fold.apply_nil]

namespace Action

variable {s : Stream} {route : Route}

theorem bind_of_ok {α β : Type} {a : Action α} {k : α → Action β} {x : α} {s' : Stream}
    (h : a s = .ok x s') : (a >>= k) s = k x s' := by
  simp only [bind, EStateM.bind, h]

theorem checkRoom_of_le {calls : Nat} (h : route.folds.length + calls ≤ route.room) :
    checkRoom route calls s = .ok () s := by
  rw [checkRoom, if_neg (Nat.not_lt.mpr h)]
  rfl

theorem foldOnce_eq (i : Nat) (text : Text) (s : Stream) :
    foldOnce i text s =
      .ok (pass s.folds i text).2 { s with folds := (pass s.folds i text).1 } := by
  unfold pass foldOnce
  refine (bind_of_ok rfl).trans ?_
  cases s.folds[i]? <;> rfl

theorem foldOnce_nil (i : Nat) (s : Stream) : foldOnce i [] s = .ok [] s := by
  rw [foldOnce_eq, pass_nil]

theorem put_column {c : Column} (hc : c.closed = false) (room : Nat) (text : Text)
    (folds : Array Fold) :
    put room text ⟨.column c, folds⟩ = .ok () ⟨.column (c.write text), folds⟩ := by
  show (if c.closed then throw .closedSink else pure () : Action Unit)
    ⟨.column (c.write text), folds⟩ = _
  rw [hc]
  rfl

end Action

end Tilde
