import Tilde.Proofs.Fold.Pieces
import Tilde.Proofs.Fold.Refused

/-!
# Pieces along a route

A text that is cut where no word can be comes to the same as its pieces, whatever the folds that it
passes remember, and whichever come next.

* `Text.Cut`: there is a bracket, a comma or a space at the cut; `Separates`: what brings such cuts;
* `passAll`: a text passes folds one after the other;
* **`passAll_append`**: it may be cut, if no fold comes twice;
* `Text.Ascii`: texts that stay on one line whatever folds they pass.
-/

namespace Tilde

namespace Text

/-- What stands around values and between them. -/
def marks : Text := ['[', ']', '(', ')', '{', '}', ',', ' ']

/-- No word goes on where the second text follows the first one. -/
inductive Cut : Text → Text → Prop
  | behind (s : Text) {b : Char} (hb : b ∈ marks) (t : Text) : Cut (s ++ [b]) t
  | before (s : Text) {b : Char} (hb : b ∈ marks) (t : Text) : Cut s (b :: t)
  | colon (s t : Text) : Cut s (':' :: ' ' :: t)

variable {s t : Text} {b : Char}

theorem not_cased_of_mark (hb : b ∈ marks) : isSkipped b = false ∧ isCased b = false := by
  have hmarks : marks.all (fun b => !isSkipped b && !isCased b) = true := by decide +kernel
  simpa using List.all_eq_true.mp hmarks b hb

theorem Cut.not_meetsCased (h : Cut s t) : ¬(meetsCased s.reverse = true ∧ meetsCased t = true) := by
  cases h with
  | behind s hb t =>
    obtain ⟨hskipped, hcased⟩ := not_cased_of_mark hb
    simp [meetsCased_cons, hskipped, hcased]
  | before s hb t =>
    obtain ⟨hskipped, hcased⟩ := not_cased_of_mark hb
    simp [meetsCased_cons, hskipped, hcased]
  | colon s t =>
    have hcolon : isSkipped ':' = true ∧ isSkipped ' ' = false ∧ isCased ' ' = false := by decide +kernel
    simp [meetsCased_cons, hcolon]

/-- No word goes on across the text, which comes between others. -/
structure Separates (m : Text) : Prop where
  before : ∀ s t, Cut s (m ++ t)
  behind : ∀ t, Cut m t

theorem separates_mark (hb : b ∈ marks) : Separates [b] := ⟨fun s t => .before s hb t, fun t => .behind [] hb t⟩

theorem separates_comma : Separates [',', ' '] where
  before s t := .before s (by decide) (' ' :: t)
  behind t := .behind [','] (by decide) t

theorem separates_colon : Separates [':', ' '] where
  before s t := .colon s t
  behind t := .behind [':'] (by decide) t

end Text

/-! ## One fold -/

namespace Fold

open Text (Cut marks)

variable {s t : Text} {b : Char}

/-- **A fold may get a text in pieces.** -/
theorem apply_append (f : Fold) (h : ¬(Text.meetsCased s.reverse = true ∧ Text.meetsCased t = true)) :
    f.apply (s ++ t) =
      (((f.apply s).1.apply t).1, (f.apply s).2 ++ ((f.apply s).1.apply t).2) := by
  obtain ⟨mode, inWord, started⟩ := f
  cases mode with
  | downcase => exact Prod.ext rfl (Text.downcase_append h)
  | upcase => exact Prod.ext rfl (Text.upcase_append s t)
  | capitalize =>
    have hmode (u : Text) := mode_steps ⟨.capitalize, inWord, started⟩ u
    exact (steps_append _ s t).trans (by rw [← apply_of_word (.inl (hmode s))]; rfl)
  | capitalizeFirst =>
    have hmode (u : Text) := mode_steps ⟨.capitalizeFirst, inWord, started⟩ u
    exact (steps_append _ s t).trans (by rw [← apply_of_word (.inr (hmode s))]; rfl)

/-- What stands around values stays as it is. -/
theorem apply_mark (f : Fold) (hb : b ∈ marks) : (f.apply [b]).2 = [b] := by
  have hmarks : marks.all (fun b => decide (Text.isAlphanumeric b = false ∧ Text.downcase [b] = [b] ∧
      Text.upcase [b] = [b] ∧ Text.downcaseChar b = [b])) = true := by decide +kernel
  obtain ⟨halphanumeric, hdown, hup, hchar⟩ := of_decide_eq_true (List.all_eq_true.mp hmarks b hb)
  obtain ⟨mode, inWord, started⟩ := f
  cases mode <;> simp [apply, steps, step, halphanumeric, hdown, hup, hchar]

theorem apply_colon (f : Fold) : (f.apply [':', ' ']).2 = [':', ' '] := by
  have hchars : Text.isAlphanumeric ':' = false ∧ Text.isAlphanumeric ' ' = false ∧
      Text.downcase [':', ' '] = [':', ' '] ∧ Text.upcase [':', ' '] = [':', ' '] ∧
      Text.downcaseChar ':' = [':'] ∧ Text.downcaseChar ' ' = [' '] := by decide +kernel
  obtain ⟨mode, inWord, started⟩ := f
  cases mode <;> simp [apply, steps, step, hchars]

/-- Behind a fold, there is the same at the cut. -/
theorem cut_apply (f : Fold) (h : Cut s t) : Cut (f.apply s).2 ((f.apply s).1.apply t).2 := by
  cases h with
  | behind s hb t =>
    rw [f.apply_append (Cut.before s hb []).not_meetsCased, apply_mark _ hb]
    exact .behind _ hb _
  | @before s b hb t =>
    have hcut : Cut [b] t := .behind [] hb t
    rw [show b :: t = [b] ++ t from rfl, apply_append _ hcut.not_meetsCased, apply_mark _ hb]
    exact .before _ hb _
  | colon s t =>
    have hcut : Cut [':', ' '] t := .behind [':'] (b := ' ') (by decide) t
    rw [show ':' :: ' ' :: t = [':', ' '] ++ t from rfl, apply_append _ hcut.not_meetsCased, apply_colon]
    exact .colon _ _

end Fold

/-! ## Texts on one line -/

namespace Text

/-- There are no line breaks, and no letters that turn into more than one. -/
def Ascii (s : Text) : Prop := ∀ c ∈ s, c.toNat < 128 ∧ c ≠ '\n'

instance (s : Text) : Decidable s.Ascii := List.decidableBAll _ s

theorem Ascii.flat (h : Ascii s) : '\n' ∉ s := fun hmem => (h _ hmem).2 rfl

theorem Ascii.append (hs : Ascii s) (ht : Ascii t) : Ascii (s ++ t) := fun c hc =>
  (List.mem_append.mp hc).elim (hs c) (ht c)

theorem Ascii.letterCase {c : Char} (h : Ascii [c]) : Ascii (downcaseChar c) ∧ Ascii (upcaseChar c) := by
  have hcodes : ∀ n < 128, Char.ofNat n ≠ '\n' →
      Ascii [(Char.ofNat n).toLower] ∧ Ascii [(Char.ofNat n).toUpper] := by decide +kernel
  obtain ⟨hlt, hne⟩ := List.forall_mem_singleton.mp h
  unfold downcaseChar upcaseChar
  rw [if_pos hlt, if_pos hlt]
  rw [← Char.ofNat_toNat c] at hne ⊢
  exact hcodes c.toNat hlt hne

theorem Ascii.flatMap {f : Char → Text} (hf : ∀ c, Ascii [c] → Ascii (f c)) (h : Ascii s) :
    Ascii (s.flatMap f) := by
  intro x hx
  obtain ⟨c, hc, hx⟩ := List.mem_flatMap.mp hx
  exact hf c (List.forall_mem_singleton.mpr (h c hc)) x hx

theorem Ascii.downcaseAfter (h : Ascii s) (before : Text) : Ascii (downcaseAfter before s) := by
  induction s generalizing before with
  | nil => exact h
  | cons c s ih =>
    obtain ⟨hc, hs⟩ := List.forall_mem_cons.mp h
    have hsigma : ¬(c.toNat == 0x3A3) = true := by
      rw [beq_iff_eq]
      omega
    rw [Text.downcaseAfter, if_neg hsigma]
    exact (letterCase (List.forall_mem_singleton.mpr hc)).1.append (ih hs _)

/-- The texts are on one line, and no word goes on where they meet what stands between them. -/
def Encloses (opening closing : Text) : Prop :=
  opening.Ascii ∧ closing.Ascii ∧ opening.getLast?.any marks.contains = true ∧
    closing.head?.any marks.contains = true

instance (opening closing : Text) : Decidable (Encloses opening closing) :=
  inferInstanceAs (Decidable (_ ∧ _))

theorem Encloses.front {opening closing : Text} (h : Encloses opening closing) (t : Text) :
    Cut opening t := by
  obtain ⟨b, hlast, hb⟩ := Option.any_eq_true _ _ |>.mp h.2.2.1
  rw [← List.dropLast_append_getLast? b hlast]
  exact .behind _ (List.contains_iff_mem.mp hb) t

theorem Encloses.back {opening closing : Text} (h : Encloses opening closing) (t : Text) :
    Cut t closing := by
  obtain ⟨b, hhead, hb⟩ := Option.any_eq_true _ _ |>.mp h.2.2.2
  obtain ⟨rest, rfl⟩ := List.head?_eq_some_iff.mp hhead
  exact .before t (List.contains_iff_mem.mp hb) rest

end Text

namespace Fold

open Text (Ascii)

theorem ascii_step (f : Fold) {c : Char} (h : Ascii [c]) : Ascii (f.step c).2 := by
  obtain ⟨hdown, hup⟩ := h.letterCase
  unfold step
  split
  · split_ifs <;> assumption
  · split_ifs <;> assumption
  · exact h

theorem ascii_steps (f : Fold) (h : Ascii s) : Ascii (f.steps s).2 := by
  induction s generalizing f with
  | nil => exact h
  | cons c s ih =>
    obtain ⟨hc, hs⟩ := List.forall_mem_cons.mp h
    exact (f.ascii_step (List.forall_mem_singleton.mpr hc)).append (ih _ hs)

/-- A text on one line stays on one line. -/
theorem ascii_apply (f : Fold) (h : Ascii s) : Ascii (f.apply s).2 := by
  unfold apply
  split
  · exact h.downcaseAfter []
  · exact h.flatMap fun c hc => hc.letterCase.2
  · exact f.ascii_steps h

end Fold

/-! ## All folds of a route -/

/-- A text passes folds one after the other. -/
def passAll (folds : Array Fold) : List Nat → Text → Array Fold × Text
  | [], text => (folds, text)
  | i :: is, text => passAll (pass folds i text).1 is (pass folds i text).2

variable {folds : Array Fold} {is : List Nat} {i : Nat} {f : Fold} {s t : Text}

theorem passAll_cons (folds : Array Fold) (i : Nat) (is : List Nat) (text : Text) :
    passAll folds (i :: is) text = passAll (pass folds i text).1 is (pass folds i text).2 := rfl

theorem size_passAll (folds : Array Fold) (is : List Nat) (text : Text) :
    (passAll folds is text).1.size = folds.size := by
  induction is generalizing folds text with
  | nil => rfl
  | cons i is ih => exact (ih _ _).trans (size_pass folds i text)

theorem pass_setIfInBounds {j : Nat} (hij : i ≠ j) (folds : Array Fold) (f : Fold) (text : Text) :
    pass (folds.setIfInBounds i f) j text =
      ((pass folds j text).1.setIfInBounds i f, (pass folds j text).2) := by
  unfold pass
  rw [Array.getElem?_setIfInBounds_ne hij]
  split
  · rfl
  · rw [Array.setIfInBounds_comm _ _ hij]

/-- A fold that is not passed stays as it is. -/
theorem passAll_setIfInBounds (h : i ∉ is) (folds : Array Fold) (f : Fold) (text : Text) :
    passAll (folds.setIfInBounds i f) is text =
      ((passAll folds is text).1.setIfInBounds i f, (passAll folds is text).2) := by
  induction is generalizing folds text with
  | nil => rfl
  | cons j is ih =>
    obtain ⟨hij, his⟩ := List.ne_and_not_mem_of_not_mem_cons h
    rw [passAll_cons, passAll_cons, pass_setIfInBounds hij, ih his]

/-- **A text may pass the folds in pieces**, if no fold comes twice. -/
theorem passAll_append (hnodup : is.Nodup) (h : Text.Cut s t) (folds : Array Fold) :
    passAll folds is (s ++ t) =
      ((passAll (passAll folds is s).1 is t).1,
        (passAll folds is s).2 ++ (passAll (passAll folds is s).1 is t).2) := by
  induction is generalizing folds s t with
  | nil => rfl
  | cons i is ih =>
    obtain ⟨hi, hnodup⟩ := List.nodup_cons.mp hnodup
    cases hf : folds[i]? with
    | none =>
      have hpass {others : Array Fold} (hother : others[i]? = none) (u : Text) : pass others i u = (others, u) := by
        rw [pass, hother]
      have hlater : (passAll folds is s).1[i]? = none := by
        rw [Array.getElem?_eq_none_iff] at hf ⊢
        rwa [size_passAll]
      simp only [passAll_cons, hpass hf, hpass hlater, ih hnodup h]
    | some f =>
      set u := (f.apply s).2 with hu
      have hsize : i < folds.size := (Array.getElem?_eq_some_iff.mp hf).1
      -- what the other folds remember does not depend on this one
      have hother (g : Fold) (v : Text) := passAll_setIfInBounds hi folds g v
      have hlater : (passAll (folds.setIfInBounds i (f.apply s).1) is u).1[i]? = some (f.apply s).1 := by
        rw [hother, Array.getElem?_setIfInBounds_self_of_lt (by rwa [size_passAll])]
      simp only [passAll_cons, pass_of_some hf, pass_of_some hlater, f.apply_append h.not_meetsCased,
        ← hu]
      simp only [hother, Array.setIfInBounds_setIfInBounds]
      rw [passAll_setIfInBounds hi, hu, ih hnodup (f.cut_apply h)]

theorem ascii_passAll (folds : Array Fold) (is : List Nat) (h : s.Ascii) : (passAll folds is s).2.Ascii := by
  induction is generalizing folds s with
  | nil => exact h
  | cons i is ih =>
    refine ih _ ?_
    cases hf : folds[i]? with
    | none =>
      rw [pass, hf]
      exact h
    | some f =>
      rw [pass_of_some hf]
      exact f.ascii_apply h

theorem passAll_nil (folds : Array Fold) (is : List Nat) : passAll folds is [] = (folds, []) := by
  induction is with
  | nil => rfl
  | cons i is ih => rw [passAll_cons, pass_nil, ih]

namespace Action

variable {route : Route}

/-- **A text passes the folds of a route** whatever the device is. -/
theorem fold_eq (route : Route) (text : Text) (d : Device) (folds : Array Fold) :
    fold route text ⟨d, folds⟩ =
      .ok (passAll folds route.folds text).2 ⟨d, (passAll folds route.folds text).1⟩ := by
  unfold fold
  induction route.folds generalizing text folds with
  | nil => rfl
  | cons i is ih =>
    rw [List.foldlM_cons]
    exact (bind_of_ok (foldOnce_eq i text _)).trans (ih _ _)

/-- Without a text for all lines of a block, the text at its start passes them in the same way. -/
theorem foldStart_eq (is : List Nat) (opening : Text) (d : Device) (folds : Array Fold) :
    (is.foldlM (fun (perLine, opening) i => do
        let perLine ← foldOnce i perLine
        let opening ← foldOnce i opening
        return (perLine, opening)) ([], opening) : Action (Text × Text)) ⟨d, folds⟩ =
      .ok ([], (passAll folds is opening).2) ⟨d, (passAll folds is opening).1⟩ := by
  induction is generalizing opening folds with
  | nil => rfl
  | cons i is ih =>
    rw [List.foldlM_cons]
    refine (bind_of_ok ?_).trans (ih _ _)
    refine (bind_of_ok (foldOnce_nil i _)).trans ?_
    exact (bind_of_ok (foldOnce_eq i opening _)).trans rfl

end Action

end Tilde
