import Tilde.Number.Arithmetic
import Tilde.Proofs.Layout.Operation

/-!
# The rules of layout

What strokes put on a sheet, where it is left open which of the newlines break the line. Nothing is
buffered here: each stroke is carried out at once, and all columns are those of the text that stands
on the sheet already.

* `Carries`: a text at the start of a line, in which the per-line texts of a block and of those
  around it stand in the columns where they have stood before, and nothing else;
* `Level`, `Sheet`: the open blocks, and what has been written;
* `Sheet.Step`, `Sheet.Run`: the rules, and what comes of a series of strokes.
-/

namespace Tilde

/-- A per-line text, and the column in which it begins. -/
structure Mark where
  column : Int
  text : Text
  deriving DecidableEq, Repr

/-- The columns that a mark takes. -/
def Mark.Covers (m : Mark) (k : Int) : Prop := m.column ≤ k ∧ k < m.column + m.text.length

/-- The text has each mark in its columns, is blank in all others, and ends with a mark. -/
structure Carries (marks : List Mark) (s : Text) : Prop where
  marked : ∀ m ∈ marks, ∃ before after,
    s = before ++ m.text ++ after ∧ (before.length : Int) = m.column
  blank : ∀ (k : Nat) (c : Char), s[k]? = some c → (∀ m ∈ marks, ¬m.Covers k) → c = ' '
  ends : s = [] ∨ ∃ m ∈ marks, (s.length : Int) = m.column + m.text.length

/-- An open block: the per-line texts on its lines, the column in which its contents have begun, its
indentation, and the text at its end. -/
structure Level where
  marks : List Mark := []
  start : Int := 0
  indent : Number := .integer 0
  closing : Text := []

/-- What has been written, the white space held back behind it, and the open blocks, innermost
first. The outermost level, which no stroke begins, is at the left margin. -/
structure Sheet where
  text : Text := []
  held : Text := []
  levels : List Level := [{}]

namespace Sheet

/-- The innermost block. -/
def level (S : Sheet) : Level := S.levels.headD {}

/-- Writes a text behind the white space held. -/
def put (S : Sheet) (s : Text) : Sheet := { S with text := S.text ++ S.held ++ s, held := [] }

/-- Goes to a new line that begins with a text; the white space held is dropped. -/
def turn (S : Sheet) (s : Text) : Sheet := { S with text := S.text ++ '\n' :: s, held := [] }

/-- The column in which the next character is written, on a sheet that begins in a column. -/
def column (start : Int) (S : Sheet) : Int := columnAfter start S.text

/-- The block that begins with these texts: its per-line text is a mark in the column where it is
written first, and behind it the contents begin. -/
def inner (start : Int) (S : Sheet) (opening perLine closing : Text) : Level where
  marks :=
    if perLine = [] then S.level.marks
    else S.level.marks ++ [⟨(S.put opening).column start, perLine⟩]
  start := (S.put (opening ++ perLine)).column start
  indent := .integer ((S.put (opening ++ perLine)).column start)
  closing := closing

/-- The column from which an indentation counts: the current one, with the white space held, or that
where the contents of the block have begun. -/
def origin (start : Int) (S : Sheet) (relative : Bool) : Int :=
  if relative then S.column start + S.held.length else S.level.start

/-- What a stroke does to a sheet that begins in the column `start`. A conditional newline may stay,
be it that the white space before it is written now or later, or break the line. -/
inductive Step (start : Int) (S : Sheet) : Stroke → Sheet → Prop
  | nothing : Step start S (.text []) S
  | text {s : Text} (hs : s ≠ []) :
    Step start S (.text s)
      { S.put (Text.splitTrailing s).1 with held := (Text.splitTrailing s).2 }
  | begin (opening perLine closing : Text) :
    Step start S (.begin opening perLine closing)
      { S.put (opening ++ perLine) with
        levels := S.inner start opening perLine closing :: S.levels }
  | finish : Step start S .finish { S.put S.level.closing with levels := S.levels.tail }
  | indent {offset n : Number} {relative : Bool}
    (hn : (Number.integer (S.origin start relative)).plus offset = .ok n) :
    Step start S (.indent (some offset) relative)
      { S with levels := S.levels.modifyHead fun l => { l with indent := n } }
  | stays {kind : NewlineKind} (hkind : kind ≠ .literal) : Step start S (.newline kind) S
  | written {kind : NewlineKind} (hkind : kind ≠ .literal) :
    Step start S (.newline kind) (S.put [])
  | breaks {kind : NewlineKind} {lead : Text} {n : Int} (hkind : kind ≠ .literal)
    (hlead : Carries S.level.marks lead) (hindent : S.level.indent = .integer n) :
    Step start S (.newline kind) (S.turn (lead ++ Text.blanks (n - lead.length)))
  | literal {lead : Text} (hlead : Carries S.level.marks lead) :
    Step start S (.newline .literal) ((S.put []).turn lead)
  | flush : Step start S .flush (S.put [])

/-- What comes of strokes. -/
inductive Run (start : Int) : Sheet → List Stroke → Sheet → Prop
  | nil (S : Sheet) : Run start S [] S
  | cons {S T U : Sheet} {s : Stroke} {ss : List Stroke} (first : Step start S s T)
    (rest : Run start T ss U) : Run start S (s :: ss) U

variable {start : Int} {S T U : Sheet} {s : Stroke} {ss ss' : List Stroke}

theorem Run.append (h : Run start S ss T) (h' : Run start T ss' U) : Run start S (ss ++ ss') U := by
  induction h with
  | nil => exact h'
  | cons first rest ih => exact .cons first (ih h')

theorem Run.concat (h : Run start S ss T) (h' : Step start T s U) : Run start S (ss ++ [s]) U :=
  h.append (.cons h' (.nil U))

theorem run_append : Run start S (ss ++ ss') U ↔ ∃ T, Run start S ss T ∧ Run start T ss' U := by
  refine ⟨fun h => ?_, fun ⟨T, h, h'⟩ => h.append h'⟩
  induction ss generalizing S with
  | nil => exact ⟨S, .nil S, h⟩
  | cons s ss ih =>
    cases h with
    | cons first rest =>
      obtain ⟨T, h, h'⟩ := ih rest
      exact ⟨T, .cons first h, h'⟩

end Sheet

/-! ## Marks -/

namespace Carries

variable {marks : List Mark} {s : Text}

theorem nil : Carries [] [] := ⟨by simp, by simp, Or.inl rfl⟩

/-- A text without marks is empty. -/
theorem eq_nil (h : Carries [] s) : s = [] := h.ends.resolve_right (by simp)

/-- **One mark more**, behind the others. -/
theorem concat (h : Carries marks s) {m : Mark} (hle : (s.length : Int) ≤ m.column) :
    Carries (marks ++ [m]) (s ++ Text.blanks (m.column - s.length) ++ m.text) := by
  have hlength : ((s ++ Text.blanks (m.column - s.length)).length : Int) = m.column := by
    rw [List.length_append, Text.length_blanks]
    omega
  have hspace : ∀ c ∈ Text.blanks (m.column - s.length), c = ' ' := fun c =>
    List.eq_of_mem_replicate
  generalize Text.blanks (m.column - s.length) = gap at *
  refine ⟨fun m' hm' => ?_, fun k c hc hout => ?_, Or.inr ⟨m, by simp, ?_⟩⟩
  · rcases List.mem_append.mp hm' with hm' | hm'
    · obtain ⟨before, after, rfl, hbefore⟩ := h.marked m' hm'
      refine ⟨before, after ++ (gap ++ m.text), ?_, hbefore⟩
      simp only [List.append_assoc]
    · obtain rfl := List.mem_singleton.mp hm'
      exact ⟨_, [], by rw [List.append_nil], hlength⟩
  · by_cases hk : (k : Int) < m.column
    · rw [List.getElem?_append_left (by omega)] at hc
      by_cases hks : k < s.length
      · rw [List.getElem?_append_left hks] at hc
        exact h.blank k c hc fun m' hm' => hout m' (List.mem_append_left _ hm')
      · rw [List.getElem?_append_right (by omega)] at hc
        exact hspace c (List.mem_of_getElem? hc)
    · -- behind the other marks there is only the last one
      refine absurd ⟨Int.not_lt.mp hk, ?_⟩ (hout m (by simp))
      have := (List.getElem?_eq_some_iff.mp hc).1
      rw [List.length_append] at this
      omega
  · rw [List.length_append]
    omega

end Carries

end Tilde
