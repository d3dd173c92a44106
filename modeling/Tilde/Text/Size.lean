import Tilde.Text.Basic

/-!
# How long a text can get

Counts are indices of 64 bits with a sign, and there is memory for texts of a certain length only.

* `Excess`: why a text cannot be made;
* `asIndex`, `asCount`: the counts that are indices, and those that texts can have;
* `repeated`, `filledLeft`, `filledRight`: `times`, `padLeft` and `padRight` within these bounds.
-/

namespace Tilde

/-- Why a text cannot be made: a count is no index, or there is no memory for the text. -/
inductive Excess
  | index
  | memory
  deriving DecidableEq, Repr

namespace Text

/-- All indices are below this number. -/
def indexLimit : Nat := 0x8000000000000000

/-- There is no memory for texts of this length. -/
def memoryLimit : Nat := 0x80000000

/-- A count that is an index. -/
def asIndex (n : Int) : Except Excess Int :=
  if -(indexLimit : Int) ≤ n ∧ n < indexLimit then .ok n else .error .index

/-- Whether there is an index for the end of a text of so many characters, and memory for it. -/
def checkLength (n : Nat) : Except Excess Unit :=
  if indexLimit ≤ n then .error .index
  else if memoryLimit ≤ n then .error .memory
  else .ok ()

/-- How often a character is repeated; less than never is never. -/
def asCount (n : Int) : Except Excess Nat := do
  let n ← asIndex n
  checkLength n.toNat
  return n.toNat

/-- The text so many times over. -/
def repeated (s : Text) (n : Int) : Except Excess Text := do
  let n ← asIndex n
  checkLength (s.length * n.toNat)
  return times s n

/-- The text filled on the left up to a width. -/
def filledLeft (s : Text) (width : Int) (fill : Char) : Except Excess Text := do
  let width ← asIndex width
  checkLength width.toNat
  return padLeft s width fill

/-- The text filled on the right up to a width. -/
def filledRight (s : Text) (width : Int) (fill : Char) : Except Excess Text := do
  let width ← asIndex width
  checkLength width.toNat
  return padRight s width fill

theorem eq_of_asIndex {n m : Int} (h : asIndex n = .ok m) : m = n := by
  unfold asIndex at h
  split at h
  · exact (Except.ok.inj h).symm
  · simp at h

theorem eq_times_of_repeated {s t : Text} {n : Int} (h : repeated s n = .ok t) : t = times s n := by
  unfold repeated at h
  cases hn : asIndex n with
  | error e => simp [hn, bind, Except.bind] at h
  | ok m =>
    cases hl : checkLength (s.length * m.toNat) with
    | error e => simp [hn, hl, bind, Except.bind] at h
    | ok u =>
      simp only [hn, hl, bind, Except.bind, pure, Except.pure, Except.ok.injEq] at h
      rw [← h, eq_of_asIndex hn]

end Text

end Tilde
