import Mathlib.Data.List.TakeWhile
import Tilde.Proofs.Print.Line

/-!
# Line breaks as spaces

A text whose line breaks stand for single spaces is read as if there were none
(`respaced`). **`respaced_append`**: so are its parts, unless they are divided among the spaces behind
a line break.

* `Firm`, `Word`: texts that do not end, or neither begin nor end, in such a place.
-/

namespace Tilde

/-- The text with one space in place of each line break and the spaces behind it. -/
def respaced : Text → Text
  | [] => []
  | c :: s => if c = '\n' then ' ' :: respaced (s.dropWhile (· = ' ')) else c :: respaced s
termination_by s => s.length
decreasing_by
  · exact Nat.lt_succ_of_le (List.dropWhile_suffix _).length_le
  · exact Nat.lt_succ_self _

/-- The text does not end with a space or a line break. -/
def Firm (s : Text) : Prop := ∀ c ∈ s.getLast?, c ≠ ' ' ∧ c ≠ '\n'

theorem Firm.of_suffix {s t : Text} (h : Firm t) (hs : s <:+ t) : Firm s := by
  obtain ⟨u, rfl⟩ := hs
  intro c hc
  refine h c ?_
  simp_all [List.getLast?_append]

@[simp] theorem respaced_nil : respaced [] = [] := by rw [respaced]

theorem respaced_newline (s : Text) :
    respaced ('\n' :: s) = ' ' :: respaced (s.dropWhile (· = ' ')) := by
  rw [respaced, if_pos rfl]

theorem respaced_cons {c : Char} (hc : c ≠ '\n') (s : Text) :
    respaced (c :: s) = c :: respaced s := by
  rw [respaced, if_neg hc]

/-- A text without line breaks is read as it is. -/
theorem respaced_of_flat {s : Text} (h : '\n' ∉ s) : respaced s = s := by
  induction s with
  | nil => exact respaced_nil
  | cons c s ih =>
    rw [List.mem_cons, not_or] at h
    rw [respaced_cons (Ne.symm h.1), ih h.2]

/-- What follows the spaces behind a line break is not among them. -/
theorem dropWhile_append_of_firm {s t : Text} (h : t.head? ≠ some ' ' ∨ Firm ('\n' :: s)) :
    (s ++ t).dropWhile (· = ' ') = s.dropWhile (· = ' ') ++ t := by
  rw [List.dropWhile_append]
  split_ifs with hnil
  · rw [List.isEmpty_iff] at hnil
    have hall : ∀ c ∈ s, c = ' ' := by simpa using List.dropWhile_eq_nil_iff.mp hnil
    have hhead : t.head? ≠ some ' ' := by
      refine h.resolve_right fun hfirm => ?_
      cases hlast : s.getLast? with
      | none =>
        obtain rfl := List.getLast?_eq_none_iff.mp hlast
        exact (hfirm '\n' rfl).2 rfl
      | some c =>
        refine (hfirm c ?_).1 (hall c (List.mem_of_getLast? hlast))
        simp [List.getLast?_cons, hlast]
    rw [hnil, List.nil_append]
    cases t with
    | nil => rfl
    | cons c t => rw [List.dropWhile_cons_of_neg (by simpa using hhead)]
  · rfl

/-- **Parts of a text** are read on their own, unless both of them are among the spaces behind a line
break. -/
theorem respaced_append {s t : Text} (h : t.head? ≠ some ' ' ∨ Firm s) :
    respaced (s ++ t) = respaced s ++ respaced t := by
  fun_induction respaced s with
  | case1 => rfl
  | case2 s ih =>
    rw [List.cons_append, respaced_newline, dropWhile_append_of_firm h, List.cons_append,
      ih (h.imp_right fun hfirm => ?_)]
    exact hfirm.of_suffix ((List.dropWhile_suffix _).trans (List.suffix_cons _ _))
  | case3 c s hc ih =>
    rw [List.cons_append, respaced_cons hc, List.cons_append,
      ih (h.imp_right fun hfirm => hfirm.of_suffix (List.suffix_cons _ _))]

/-- A line that is broken is read as one with a space. -/
theorem respaced_append_break (s : Text) (n : Int) :
    respaced (s ++ '\n' :: Text.blanks n) = respaced s ++ [' '] := by
  have hblank : (Text.blanks n).dropWhile (· = ' ') = [] := by
    simp [Text.blanks]
  rw [respaced_append (Or.inl (by simp)), respaced_newline, hblank, respaced_nil]

/-! ## Words -/

/-- A text without line breaks that does not begin with a space and does not end with white space. -/
structure Word (w : Text) : Prop where
  ne_nil : w ≠ []
  flat : '\n' ∉ w
  head : w.head? ≠ some ' '
  last : ∀ c ∈ w.getLast?, Text.isBlank c = false

namespace Word

variable {w : Text}

theorem of_solid (hw : Solid w) (hne : w ≠ []) : Word w where
  ne_nil := hne
  flat := hw.newline_notMem
  head h := hw.space_notMem (List.mem_of_head? h)
  last c hc := hw c (List.mem_of_getLast? hc)

/-- A text that ends with a word. -/
theorem firm_append (hw : Word w) (s : Text) : Firm (s ++ w) := by
  intro c hc
  have hc' : c ∈ w.getLast? := by
    rw [List.getLast?_append] at hc
    cases hlast : w.getLast? with
    | none => exact absurd (List.getLast?_eq_none_iff.mp hlast) hw.ne_nil
    | some d => simpa [hlast] using hc
  have hblank := hw.last c hc'
  refine ⟨?_, ?_⟩
  · rintro rfl
    simp [Text.isBlank_space] at hblank
  · rintro rfl
    simp [Text.isBlank_newline] at hblank

/-- The white space at the end of a text that a word comes before. -/
theorem splitTrailing_append (hw : Word w) {gap : Text} (hgap : ∀ c ∈ gap, Text.isBlank c = true) :
    Text.splitTrailing (w ++ gap) = (w, gap) := by
  have hhead : ∀ c ∈ w.reverse.head?, Text.isBlank c = false := by
    simpa using hw.last
  have hall : ∀ c ∈ gap.reverse, Text.isBlank c = true := fun c hc =>
    hgap c (List.mem_reverse.mp hc)
  have hword : w.reverse.dropWhile Text.isBlank = w.reverse ∧
      w.reverse.takeWhile Text.isBlank = [] := by
    cases hw' : w.reverse with
    | nil => exact ⟨rfl, rfl⟩
    | cons c s =>
      have hc : ¬Text.isBlank c = true := by simp [hhead c (by simp [hw'])]
      exact ⟨List.dropWhile_cons_of_neg hc, List.takeWhile_cons_of_neg hc⟩
  rw [Text.splitTrailing, List.reverse_append, List.dropWhile_append_of_pos hall, hword.1,
    List.takeWhile_append_of_pos hall, hword.2, List.append_nil, List.reverse_reverse,
    List.reverse_reverse]

end Word

end Tilde
