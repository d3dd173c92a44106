import Tilde.Text.Basic

/-!
# White space

The white space that may be dropped before a line break: the controls from tab to return and from
the file separator to the unit separator, the next-line control, and the Unicode spaces.

* `isBlank`: membership; core's white space is in it (`isBlank_of_isWhitespace`);
* `splitTrailing`: a text and the white space at its end, apart (`splitTrailing_append`).
-/

namespace Tilde.Text

/-- The character is white space. -/
def isBlank (c : Char) : Bool :=
  let n := c.toNat
  (9 ≤ n && n ≤ 13) || (0x1C ≤ n && n ≤ 0x20) || n == 0x85 || n == 0xA0 || n == 0x1680 ||
    (0x2000 ≤ n && n ≤ 0x200A) || n == 0x2028 || n == 0x2029 || n == 0x202F || n == 0x205F ||
    n == 0x3000

theorem isBlank_space : isBlank ' ' = true := by decide

theorem isBlank_newline : isBlank '\n' = true := by decide

theorem isBlank_of_isWhitespace {c : Char} (h : c.isWhitespace = true) : isBlank c = true := by
  simp only [Char.isWhitespace, Bool.or_eq_true, decide_eq_true_eq] at h
  rcases h with ((rfl | rfl) | rfl) | rfl <;> decide

/-- The text without the white space at its end, and that white space. -/
def splitTrailing (s : Text) : Text × Text :=
  ((s.reverse.dropWhile isBlank).reverse, (s.reverse.takeWhile isBlank).reverse)

theorem splitTrailing_append (s : Text) : (splitTrailing s).1 ++ (splitTrailing s).2 = s := by
  rw [splitTrailing, ← List.reverse_append, List.takeWhile_append_dropWhile, List.reverse_reverse]

theorem isBlank_of_mem_trailing {s : Text} {c : Char} (h : c ∈ (splitTrailing s).2) :
    isBlank c = true := by
  simp only [splitTrailing, List.mem_reverse] at h
  exact List.all_eq_true.mp List.all_takeWhile _ h

end Tilde.Text
