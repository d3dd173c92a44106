import Tilde.Proofs.Layout.Ink
import Tilde.Proofs.Print.Respaced
import Tilde.Proofs.Sheet.Rules

/-!
# Words on a sheet

Words with single spaces between them stand on a sheet as they have been said, but for the spaces
that line breaks take the place of (**`Spells.run`**), and nothing on the sheet is further to the
right than it would be on a single line.

* `Ending`, `Ending.Step`: strokes that say words;
* `Spells`, `Spells.step`: what stands on the sheet after each of them.
-/

namespace Tilde

/-- What has been said last: a word, a space behind a word, or it is not known. -/
inductive Ending
  | word
  | space
  | unknown

/-- A stroke that says words with single spaces between them. A line can be broken where a space has
been said, if lines are broken at all. -/
inductive Ending.Step (pretty : Bool) : Ending → Stroke → Ending → Prop
  | word {φ : Ending} {w : Text} (hw : Word w) : Step pretty φ (.text w) word
  | spaced {φ : Ending} {w : Text} (hw : Word w) : Step pretty φ (.text (w ++ [' '])) space
  | space : Step pretty word (.text [' ']) space
  | begin {φ : Ending} {opening closing : Text} (hopening : Word opening) (hclosing : Word closing) :
    Step pretty φ (.begin opening [] closing) word
  | finish {φ : Ending} : Step pretty φ .finish unknown
  | fill (hpretty : pretty = true) : Step pretty space (.newline .fill) unknown
  | flush {φ : Ending} : Step pretty φ .flush unknown

/-- A series of strokes that say words. -/
inductive Ending.Steps (pretty : Bool) : Ending → List Stroke → Ending → Prop
  | nil (φ : Ending) : Steps pretty φ [] φ
  | cons {φ ψ χ : Ending} {s : Stroke} {ss : List Stroke} (first : Step pretty φ s ψ)
    (rest : Steps pretty ψ ss χ) : Steps pretty φ (s :: ss) χ

theorem Ending.Steps.append {pretty : Bool} {φ ψ χ : Ending} {ss ss' : List Stroke}
    (h : Steps pretty φ ss ψ) (h' : Steps pretty ψ ss' χ) : Steps pretty φ (ss ++ ss') χ := by
  induction h with
  | nil φ => exact h'
  | cons first rest ih => exact .cons first (ih h')

theorem Ending.Steps.of_append {pretty : Bool} {φ χ : Ending} {ss ss' : List Stroke}
    (h : Steps pretty φ (ss ++ ss') χ) : ∃ ψ, Steps pretty φ ss ψ ∧ Steps pretty ψ ss' χ := by
  induction ss generalizing φ with
  | nil => exact ⟨φ, .nil φ, h⟩
  | cons s ss ih =>
    cases h with
    | cons first rest =>
      obtain ⟨ψ, hss, hss'⟩ := ih rest
      exact ⟨ψ, .cons first hss, hss'⟩

namespace Sheet

/-- The sheet ends like this. -/
def EndsIn (S : Sheet) : Ending → Prop
  | .word => S.held = [] ∧ Firm S.text
  | .space => S.held = [' '] ∧ Firm S.text
  | .unknown => S.held = [] ∨ S.held = [' '] ∧ Firm S.text

theorem EndsIn.unknown {S : Sheet} {φ : Ending} (h : S.EndsIn φ) : S.EndsIn .unknown := by
  cases φ with
  | word => exact Or.inl h.1
  | space => exact Or.inr h
  | unknown => exact h

/-- What has been said stands on the sheet, with line breaks for some of its spaces, and where the
sheet ends and its blocks begin is at most as far to the right as on a single line. -/
structure Spells (pretty : Bool) (φ : Ending) (a : Account) (S : Sheet) : Prop where
  text : respaced S.text ++ S.held = a.text
  unbroken : pretty = false → '\n' ∉ S.text
  ending : S.EndsIn φ
  closings : ∃ base, S.levels.map (·.closing) = a.closings ++ base ∧ ∀ c ∈ base, c = []
  words : ∀ c ∈ a.closings, Word c
  column : S.column 0 + S.held.length ≤ a.text.length
  levels : ∀ l ∈ S.levels, l.marks = [] ∧ ∃ n : Nat, l.indent = .integer n ∧ n ≤ a.text.length

namespace Spells

variable {pretty : Bool} {φ ψ : Ending} {a : Account} {S T : Sheet} {s : Stroke} {w : Text}

theorem held (h : Spells pretty φ a S) : S.held = [] ∨ S.held = [' '] :=
  h.ending.unknown.imp_right And.left

theorem column_put (hflat : '\n' ∉ S.held ++ w) :
    (S.put w).column 0 = S.column 0 + S.held.length + w.length := by
  show columnAfter 0 (S.text ++ S.held ++ w) = _
  rw [List.append_assoc, columnAfter_append, columnAfter_eq hflat, List.length_append, Sheet.column]
  omega

theorem level (h : Spells pretty φ a S) :
    S.level.marks = [] ∧ ∃ n : Nat, S.level.indent = .integer n ∧ n ≤ a.text.length := by
  have hlevels := h.levels
  rw [Sheet.level]
  cases hls : S.levels with
  | nil => exact ⟨rfl, 0, rfl, Nat.zero_le _⟩
  | cons l ls => exact hlevels l (by simp [hls])

/-- The text at the end of the innermost block is the one that has been said when it began. -/
theorem closing (h : Spells pretty φ a S) : S.level.closing = a.closings.headD [] := by
  obtain ⟨base, hclosings, hbase⟩ := h.closings
  have hlevel : S.level.closing = (S.levels.map (·.closing)).headD [] := by
    rw [Sheet.level]
    cases S.levels <;> rfl
  rw [hlevel, hclosings]
  cases a.closings with
  | cons c cs => rfl
  | nil =>
    cases base with
    | nil => rfl
    | cons c cs => exact hbase c List.mem_cons_self

/-- A word, or nothing, is put behind what is on the sheet. -/
theorem put (h : Spells pretty φ a S) (hw : w = [] ∨ Word w) :
    Spells pretty .unknown { a with text := a.text ++ w } (S.put w) := by
  have hflat : '\n' ∉ S.held ++ w := by
    rw [List.mem_append, not_or]
    refine ⟨?_, ?_⟩
    · rcases h.held with hheld | hheld <;> simp [hheld]
    · rcases hw with rfl | hw
      · simp
      · exact hw.flat
  have hcut : (S.held ++ w).head? ≠ some ' ' ∨ Firm S.text := by
    rcases h.ending.unknown with hheld | ⟨-, hfirm⟩
    · rcases hw with rfl | hw
      · exact Or.inl (by simp [hheld])
      · exact Or.inl (by simpa [hheld] using hw.head)
    · exact Or.inr hfirm
  have hcolumn := h.column
  refine ⟨?_, fun hpretty => ?_, Or.inl rfl, h.closings, h.words, ?_, fun l hl => ?_⟩
  · show respaced (S.text ++ S.held ++ w) ++ [] = _
    rw [List.append_nil, List.append_assoc, respaced_append hcut, respaced_of_flat hflat,
      ← List.append_assoc, h.text]
  · show '\n' ∉ S.text ++ S.held ++ w
    rw [List.append_assoc, List.mem_append, not_or]
    exact ⟨h.unbroken hpretty, hflat⟩
  · rw [column_put hflat, List.length_append]
    show _ + (0 : Int) ≤ _
    omega
  · obtain ⟨hmarks, n, hindent, hn⟩ := h.levels l hl
    exact ⟨hmarks, n, hindent, by rw [List.length_append]; omega⟩

/-- **A word** is put behind what is on the sheet. -/
theorem putWord (h : Spells pretty φ a S) (hw : Word w) :
    Spells pretty .word { a with text := a.text ++ w } (S.put w) :=
  { h.put (Or.inr hw) with ending := ⟨rfl, hw.firm_append _⟩ }

/-- A space is held behind a word. -/
theorem hold (h : Spells pretty .word a S) :
    Spells pretty .space { a with text := a.text ++ [' '] } { S with held := [' '] } := by
  have htext := h.text
  have hcolumn := h.column
  rw [h.ending.1, List.append_nil] at htext
  rw [h.ending.1] at hcolumn
  refine ⟨by rw [← htext], h.unbroken, ⟨rfl, h.ending.2⟩, h.closings, h.words, ?_, fun l hl => ?_⟩
  · rw [List.length_append]
    show S.column 0 + (1 : Int) ≤ _
    simp only [List.length_nil, List.length_singleton] at hcolumn ⊢
    omega
  · obtain ⟨hmarks, n, hindent, hn⟩ := h.levels l hl
    exact ⟨hmarks, n, hindent, by rw [List.length_append]; omega⟩

/-- A block begins with a word. -/
theorem begin {opening closing : Text} (h : Spells pretty φ a S) (hopening : Word opening)
    (hclosing : Word closing) :
    Spells pretty .word (a.stroke (.begin opening [] closing))
      { S.put opening with levels := S.inner 0 opening [] closing :: S.levels } := by
  have hput := h.putWord hopening
  obtain ⟨base, hclosings, hbase⟩ := hput.closings
  refine ⟨hput.text, hput.unbroken, hput.ending, ⟨base, ?_, hbase⟩, ?_, hput.column, ?_⟩
  · exact congrArg (closing :: ·) hclosings
  · exact List.forall_mem_cons.mpr ⟨hclosing, hput.words⟩
  · refine List.forall_mem_cons.mpr ⟨?_, hput.levels⟩
    have hcolumn := hput.column
    have hnonneg : 0 ≤ (S.put opening).column 0 := columnAfter_nonneg (Int.le_refl 0) _
    refine ⟨h.level.1, ((S.put opening).column 0).toNat, ?_, ?_⟩
    · show Number.integer ((S.put (opening ++ [])).column 0) = _
      rw [List.append_nil, Int.toNat_of_nonneg hnonneg]
    · show _ ≤ (a.text ++ opening).length
      simp only at hcolumn
      omega

/-- The innermost block ends. -/
theorem finish (h : Spells pretty φ a S) :
    Spells pretty .unknown (a.stroke .finish)
      { S.put S.level.closing with levels := S.levels.tail } := by
  have hclosing : S.level.closing = [] ∨ Word S.level.closing := by
    rw [h.closing]
    cases hcs : a.closings with
    | nil => exact Or.inl rfl
    | cons c cs => exact Or.inr (h.words c (by simp [hcs]))
  have hput := h.put hclosing
  rw [h.closing] at hput ⊢
  obtain ⟨base, hclosings, hbase⟩ := hput.closings
  refine ⟨hput.text, hput.unbroken, hput.ending, ?_,
    fun c hc => hput.words c (List.mem_of_mem_tail hc), hput.column,
    fun l hl => hput.levels l (List.mem_of_mem_tail hl)⟩
  have htail : S.levels.tail.map (·.closing) = (a.closings ++ base).tail := by
    rw [List.map_tail]
    exact congrArg List.tail hclosings
  show ∃ base, S.levels.tail.map (·.closing) = a.closings.tail ++ base ∧ ∀ c ∈ base, c = []
  rw [htail]
  cases a.closings with
  | nil => exact ⟨base.tail, rfl, fun c hc => hbase c (List.mem_of_mem_tail hc)⟩
  | cons c cs => exact ⟨base, rfl, hbase⟩

/-- A line is broken where a space has been said. -/
theorem turn (h : Spells true .space a S) {n : Int} (hindent : S.level.indent = .integer n) :
    Spells true .unknown a (S.turn (Text.blanks n)) := by
  have htext := h.text
  rw [h.ending.1] at htext
  obtain ⟨-, m, hm, hle⟩ := h.level
  obtain rfl : n = m := Number.integer.inj (hindent.symm.trans hm)
  refine ⟨?_, by simp, Or.inl rfl, h.closings, h.words, ?_, h.levels⟩
  · show respaced (S.text ++ '\n' :: Text.blanks m) ++ [] = _
    rw [List.append_nil, respaced_append_break, htext]
  · have hblanks : '\n' ∉ Text.blanks m := fun hc => by simpa using List.eq_of_mem_replicate hc
    show columnAfter 0 (S.text ++ '\n' :: Text.blanks m) + (0 : Int) ≤ _
    rw [columnAfter_append, columnAfter_newline _ hblanks, Text.length_blanks]
    omega

theorem step_text {start : Int} {t : Text} (ht : t ≠ []) (h : Step start S (.text t) T) :
    T = { S.put (Text.splitTrailing t).1 with held := (Text.splitTrailing t).2 } := by
  cases h with
  | nothing => exact absurd rfl ht
  | text => rfl

theorem put_nil (h : Spells pretty φ a S) : Spells pretty .unknown a (S.put []) := by
  have hput := h.put (Or.inl rfl)
  rwa [List.append_nil] at hput

/-- **What is said is put on the sheet.** -/
theorem step (h : Spells pretty φ a S) (hφ : φ.Step pretty s ψ) (hS : Step 0 S s T) :
    Spells pretty ψ (a.stroke s) T := by
  cases hφ with
  | word hw =>
    have hsplit : Text.splitTrailing (_ ++ []) = _ := hw.splitTrailing_append (by simp)
    rw [List.append_nil] at hsplit
    rw [step_text hw.ne_nil hS, hsplit]
    exact h.putWord hw
  | spaced hw =>
    have hheld := (h.putWord hw).hold
    rw [step_text (by simp) hS, hw.splitTrailing_append (by simp [Text.isBlank_space])]
    rwa [List.append_assoc] at hheld
  | space =>
    have hput : { S.put (Text.splitTrailing [' ']).1 with held := (Text.splitTrailing [' ']).2 } =
        { S with held := [' '] } := by
      rw [show Text.splitTrailing [' '] = ([], [' ']) by decide, Sheet.put, h.ending.1]
      simp
    rw [step_text (by simp) hS, hput]
    exact h.hold
  | begin hopening hclosing =>
    cases hS with
    | begin =>
      simp only [List.append_nil]
      exact h.begin hopening hclosing
  | finish =>
    cases hS with
    | finish => exact h.finish
  | fill hpretty =>
    subst hpretty
    cases hS with
    | stays => exact { h with ending := h.ending.unknown }
    | written => exact h.put_nil
    | breaks _ hlead hindent =>
      rw [h.level.1] at hlead
      rw [hlead.eq_nil, List.nil_append, List.length_nil, Int.natCast_zero, Int.sub_zero]
      exact h.turn hindent
  | flush =>
    cases hS with
    | flush => exact h.put_nil

/-- **A series of strokes** puts what it says on the sheet. -/
theorem run {ss : List Stroke} (h : Spells pretty φ a S) (hss : Ending.Steps pretty φ ss ψ)
    (hrun : Run 0 S ss T) : Spells pretty ψ (ss.foldl Account.stroke a) T := by
  induction hss generalizing a S with
  | nil φ =>
    cases hrun
    exact h
  | cons first rest ih =>
    cases hrun with
    | cons hfirst hrest => exact ih (h.step first hfirst) hrest

end Spells

end Sheet

end Tilde
