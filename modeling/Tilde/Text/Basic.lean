/-!
# Text

The library computes on text as a list of characters, so that lengths, columns and offsets count
characters. Widths are integers, since a field may be asked to have less than no room: a negative
count repeats nothing.

* `blanks`, `times`: repetition;
* `padLeft`, `padRight`: filling up to a width.
-/

namespace Tilde

/-- A text is the list of its characters. -/
abbrev Text := List Char

namespace Text

/-- So many spaces. -/
def blanks (n : Int) : Text := List.replicate n.toNat ' '

/-- The text so many times over. However often it is repeated, the empty text takes no time. -/
def times (s : Text) (n : Int) : Text :=
  if s.isEmpty then [] else (List.replicate n.toNat s).flatten

/-- Fills the text on the left up to a width. -/
def padLeft (s : Text) (width : Int) (fill : Char) : Text :=
  List.replicate (width - s.length).toNat fill ++ s

/-- Fills the text on the right up to a width. -/
def padRight (s : Text) (width : Int) (fill : Char) : Text :=
  s ++ List.replicate (width - s.length).toNat fill

/-- Puts a separator between the texts. -/
def join (separator : Text) (parts : List Text) : Text := (parts.intersperse separator).flatten

@[simp] theorem length_blanks (n : Int) : (blanks n).length = n.toNat := by simp [blanks]

@[simp] theorem length_times (s : Text) (n : Int) : (times s n).length = n.toNat * s.length := by
  unfold times
  split
  · rename_i h
    simp [List.isEmpty_iff.mp h]
  · simp

theorem length_padLeft (s : Text) (width : Int) (fill : Char) :
    (padLeft s width fill).length = max width.toNat s.length := by
  simp [padLeft]; omega

theorem length_padRight (s : Text) (width : Int) (fill : Char) :
    (padRight s width fill).length = max width.toNat s.length := by
  simp [padRight]; omega

end Text

end Tilde
