import Tilde.Column

/-!
# Columns

Where a text ends that has no line break (`columnAfter_eq`), or only one at its start
(`columnAfter_newline`). No text ends to the left of the margin (`columnAfter_nonneg`), and no text
at all changes nothing (`Column.write_nil`).
-/

namespace Tilde

theorem columnAfter_eq {start : Int} {s : Text} (h : '\n' ∉ s) :
    columnAfter start s = start + s.length := by
  simp [columnAfter, h]

theorem columnAfter_newline (start : Int) {s : Text} (h : '\n' ∉ s) :
    columnAfter start ('\n' :: s) = s.length := by
  have hall : ∀ c ∈ s.reverse, (c != '\n') = true := by
    intro c hc
    simp only [bne_iff_ne, ne_eq]
    rintro rfl
    exact h (List.mem_reverse.mp hc)
  simp [columnAfter, List.takeWhile_append_of_pos hall]

@[simp] theorem Column.write_nil (c : Column) : c.write [] = c := by
  simp [write, columnAfter]

theorem columnAfter_nonneg {start : Int} (h : 0 ≤ start) (s : Text) : 0 ≤ columnAfter start s := by
  unfold columnAfter
  split <;> omega

end Tilde
