import Tilde.Options
import Tilde.Text.Basic

/-!
# Column streams

A stream that knows in which column the next character will stand and how many lines it has ended.

* `Column.write`: writes a text, all at once or in pieces (`write_append`);
* `columnAfter`: where a text ends.
-/

namespace Tilde

/-- The column in which a text that begins in a column ends. -/
def columnAfter (start : Int) (s : Text) : Int :=
  if s.contains '\n' then ((s.reverse.takeWhile (· != '\n')).length : Int)
  else start + s.length

theorem columnAfter_append (start : Int) (s t : Text) :
    columnAfter start (s ++ t) = columnAfter (columnAfter start s) t := by
  unfold columnAfter
  by_cases ht : '\n' ∈ t
  · have hne : (t.reverse.takeWhile (· != '\n')).length ≠ t.reverse.length := by
      intro h
      have hall : t.reverse.takeWhile (· != '\n') = t.reverse :=
        (List.takeWhile_prefix _).eq_of_length h
      have := List.all_eq_true.mp List.all_takeWhile _ (hall ▸ List.mem_reverse.mpr ht)
      simp at this
    simp only [List.contains_eq_mem, List.mem_append, ht, or_true, decide_true, if_true,
      List.reverse_append, List.takeWhile_append, if_neg hne]
  · have ha : ∀ c ∈ t.reverse, (c != '\n') = true := by
      intro c hc
      simp only [bne_iff_ne, ne_eq]
      rintro rfl
      exact ht (List.mem_reverse.mp hc)
    by_cases hs : '\n' ∈ s
    · simp [ht, hs, List.takeWhile_append_of_pos ha]; omega
    · simp [ht, hs]; omega

/-- A column stream: the text that has reached its sink, the last character first, and whether the
sink is closed. A closed sink takes no text, but the columns are still counted. -/
structure Column where
  column : Int := 0
  line : Nat := 0
  maxColumn : Option Int := none
  options : Options := {}
  taken : Text := []
  closed : Bool := false

namespace Column

/-- The text that has reached the sink. -/
def output (c : Column) : Text := c.taken.reverse

/-- Writes a text. -/
def write (c : Column) (s : Text) : Column :=
  { c with
    column := columnAfter c.column s
    line := c.line + s.count '\n'
    taken := if c.closed then c.taken else s.reverseAux c.taken }

@[simp] theorem output_write (c : Column) (s : Text) (h : c.closed = false) :
    (c.write s).output = c.output ++ s := by
  simp [write, output, h, List.reverseAux_eq]

theorem write_append (c : Column) (s t : Text) : c.write (s ++ t) = (c.write s).write t := by
  simp only [write, columnAfter_append, List.count_append, Nat.add_assoc]
  by_cases h : c.closed <;> simp [h, List.reverseAux_eq]

@[simp] theorem closed_write (c : Column) (s : Text) : (c.write s).closed = c.closed := rfl

@[simp] theorem maxColumn_write (c : Column) (s : Text) : (c.write s).maxColumn = c.maxColumn := rfl

end Column

end Tilde
