import Mathlib.Data.List.Induction
import Tilde.Text.Blank

/-!
# Lines with separators

A comma and a space that stand on one line separate two elements between which the line could have
been broken. **`Finished.all`**: if no line is written that has a separator and is longer than the
margin allows, there is none in the output.

* `Lawful`: a line within the margin, or without separators;
* `separator_infix_append`: a separator comes about only by a space that is written behind a comma.
-/

namespace Tilde

/-- A text without white space. -/
def Solid (s : Text) : Prop := ∀ c ∈ s, Text.isBlank c = false

instance (s : Text) : Decidable (Solid s) :=
  decidable_of_iff (s.all (fun c => !Text.isBlank c) = true) (by simp [Solid])

theorem Solid.append {s t : Text} (hs : Solid s) (ht : Solid t) : Solid (s ++ t) := fun c hc =>
  (List.mem_append.mp hc).elim (hs c) (ht c)

theorem Solid.space_notMem {s : Text} (h : Solid s) : ' ' ∉ s := fun hc => by
  have := h ' ' hc
  rw [Text.isBlank_space] at this
  exact Bool.noConfusion this

theorem Solid.newline_notMem {s : Text} (h : Solid s) : '\n' ∉ s := fun hc => by
  have := h '\n' hc
  rw [Text.isBlank_newline] at this
  exact Bool.noConfusion this

theorem Solid.splitTrailing {s : Text} (h : Solid s) : Text.splitTrailing s = (s, []) := by
  have happend := Text.splitTrailing_append s
  have hnil : (Text.splitTrailing s).2 = [] := by
    refine List.eq_nil_iff_forall_not_mem.mpr fun c hc => ?_
    have hsolid := h c (happend ▸ List.mem_append_right _ hc)
    rw [Text.isBlank_of_mem_trailing hc] at hsolid
    exact Bool.noConfusion hsolid
  rw [hnil, List.append_nil] at happend
  exact Prod.ext happend hnil

/-! ## Separators -/

/-- What stands between two elements on one line. -/
def separator : Text := [',', ' ']

theorem separator_infix_concat {s : Text} {c : Char} (h : separator <:+: s ++ [c]) :
    separator <:+: s ∨ (c = ' ' ∧ s.getLast? = some ',') := by
  rcases List.infix_concat_iff.mp h with ⟨t, ht⟩ | h
  · right
    have hlast : t ++ [','] ++ [' '] = s ++ [c] := by simpa [separator] using ht
    obtain ⟨rfl, hc⟩ := List.append_inj' hlast rfl
    exact ⟨(List.cons.inj hc).1.symm, by simp⟩
  · exact Or.inl h

theorem separator_infix_of_append {s t : Text} (ht : ' ' ∉ t) (h : separator <:+: s ++ t) :
    separator <:+: s := by
  induction t using List.reverseRecOn with
  | nil => simpa using h
  | append_singleton t c ih =>
    rw [← List.append_assoc] at h
    rw [List.mem_append, not_or] at ht
    rcases separator_infix_concat h with h | ⟨rfl, -⟩
    · exact ih ht.1 h
    · exact absurd (List.mem_singleton_self _) ht.2

/-- **A separator comes about only by a space that is written behind a comma.** -/
theorem separator_infix_append {s held t : Text} (hheld : held = [] ∨ held = [' ']) (ht : ' ' ∉ t)
    (h : separator <:+: s ++ (held ++ t)) :
    separator <:+: s ∨ (held = [' '] ∧ s.getLast? = some ',') := by
  rw [← List.append_assoc] at h
  have h' := separator_infix_of_append ht h
  rcases hheld with rfl | rfl
  · exact Or.inl (by simpa using h')
  · exact (separator_infix_concat h').imp_right fun hc => ⟨rfl, hc.2⟩

/-! ## Lines -/

/-- The line is no longer than the margin allows, or it has no separator. -/
def Lawful (w : Int) (line : Text) : Prop := separator <:+: line → (line.length : Int) ≤ w

/-- The text ends with this line, and all lines before it are lawful. -/
def Finished (w : Int) (s line : Text) : Prop :=
  '\n' ∉ line ∧
    (s = line ∨ ∃ done, s = done ++ '\n' :: line ∧ ∀ l ∈ done.splitOn '\n', Lawful w l)

namespace Finished

variable {w : Int} {s t line : Text}

theorem append (h : Finished w s line) (ht : '\n' ∉ t) : Finished w (s ++ t) (line ++ t) := by
  refine ⟨by simp [h.1, ht], ?_⟩
  rcases h.2 with rfl | ⟨done, rfl, hdone⟩
  · exact Or.inl rfl
  · exact Or.inr ⟨done, by simp, hdone⟩

/-- **All lines are lawful** if the last one is, too. -/
theorem all (h : Finished w s line) (hline : Lawful w line) : ∀ l ∈ s.splitOn '\n', Lawful w l := by
  have hlast : line.splitOn '\n' = [line] := List.splitOn_eq_singleton h.1
  rcases h.2 with rfl | ⟨done, rfl, hdone⟩
  · simpa [hlast] using hline
  · rw [List.splitOn_append_cons_self, hlast]
    intro l hl
    rcases List.mem_append.mp hl with hl | hl
    · exact hdone l hl
    · exact List.mem_singleton.mp hl ▸ hline

theorem newline (h : Finished w s line) (hline : Lawful w line) (ht : '\n' ∉ t) :
    Finished w (s ++ '\n' :: t) t :=
  ⟨ht, Or.inr ⟨s, rfl, h.all hline⟩⟩

end Finished

end Tilde
