import Tilde.Dynamic.Setting
import Tilde.Proofs.Run.Position

/-!
# Whole numbers among the values

On whole numbers the operations on values are those on integers, and texts can be made as long as
they say as long as there is memory for them.

* `plus_integer`, `floorQuotient_integer`, `less_integer` and so on: arithmetic and comparison;
* `Value.optional`: a whole number that may be missing, as settings are;
* `repeatText_of_fits`, `filledLeft_of_fits`, `filledRight_of_fits`: texts of a length;
* `eq_padLeft_of_filledLeft`: a text that is filled at all is filled up to the width.
-/

namespace Tilde

theorem ok_bind {ε α β : Type} (x : α) (k : α → Except ε β) : (Except.ok x >>= k) = k x := rfl

namespace Value

/-! ## Arithmetic -/

section

variable (a b : ℤ)

theorem plus_integer : (Value.int a).plus (.int b) = .ok (.int (a + b)) := rfl

theorem minus_integer : (Value.int a).minus (.int b) = .ok (.int (a - b)) := rfl

theorem times_integer : (Value.int a).times (.int b) = .ok (.int (a * b)) := rfl

theorem negated_integer : (Value.int a).negated = .ok (.int (-a)) := rfl

theorem less_integer : (Value.int a).less (.int b) = .ok (decide (a < b)) := less_of_integer rfl rfl

theorem atMost_integer : (Value.int a).numberAtMost (.int b) = .ok (decide (a ≤ b)) :=
  atMost_of_integer rfl rfl

theorem equal_integer : (Value.int a).equal (.int b) = .ok (decide (a = b)) :=
  equal_of_integer rfl rfl

theorem isBelowZero_integer : (Value.int a).isBelowZero = .ok (decide (a < 0)) := less_integer a 0

theorem larger_integer : (Value.int a).larger (.int b) = .ok (.int (max a b)) := by
  simp only [larger, less_integer, bind, Except.bind, pure, Except.pure, decide_eq_true_eq]
  split_ifs
  · rw [max_eq_right (by omega)]
  · rw [max_eq_left (by omega)]

theorem asInteger_integer : (Value.int a).asInteger = .ok a := rfl

variable {b}

theorem floorQuotient_integer (hb : 0 < b) :
    (Value.int a).floorQuotient (.int b) = .ok (.int (a / b)) := by
  have hquotient : (Number.integer a).floorQuotient (.integer b) = .ok (.integer (a.fdiv b)) := by
    show (if b = 0 then throw Fault.divisionByZero else Except.ok (Number.integer (a.fdiv b))) = _
    rw [if_neg hb.ne']
  show Except.map Number.toValue (Number.floorQuotient (.integer a) (.integer b)) = _
  rw [hquotient, Int.fdiv_eq_ediv_of_nonneg a hb.le]
  rfl

theorem remainder_integer (hb : 0 < b) :
    (Value.int a).remainder (.int b) = .ok (.int (a % b)) := by
  have hremainder : (Number.integer a).remainder (.integer b) = .ok (.integer (a.fmod b)) := by
    show (if b = 0 then throw Fault.divisionByZero else Except.ok (Number.integer (a.fmod b))) = _
    rw [if_neg hb.ne']
  show Except.map Number.toValue (Number.remainder (.integer a) (.integer b)) = _
  rw [hremainder, Int.fmod_eq_emod_of_nonneg a hb.le]
  rfl

end

/-! ## Settings -/

/-- A whole number that may be missing. -/
def optional : Option ℤ → Value
  | none => .nothing
  | some n => .int n

theorem isNothing_optional (n : Option ℤ) : (optional n).isNothing = n.isNone := by
  cases n <;> rfl

theorem ordinary?_eq {n m : ℤ} (h : (Value.int n).ordinary? = some m) : m = n := by
  unfold ordinary? integer? at h
  simp only at h
  split_ifs at h
  exact (Option.some.inj h).symm

theorem natAbs_lt_of_ordinary? {n m : ℤ} (h : (Value.int n).ordinary? = some m) :
    n.natAbs < ordinaryLimit := by
  unfold ordinary? integer? at h
  simp only at h
  split_ifs at h with hordinary
  exact hordinary

theorem ordinaryOrNothing?_eq {n m : Option ℤ}
    (h : (optional n).ordinaryOrNothing? = some m) : m = n := by
  cases n with
  | none => exact (Option.some.inj h).symm
  | some n =>
    obtain ⟨k, hk, rfl⟩ := Option.map_eq_some_iff.mp
      (show (Value.int n).ordinary?.map some = some m from h)
    rw [ordinary?_eq hk]

theorem natAbs_lt_of_ordinaryOrNothing? {n : ℤ} {m : Option ℤ}
    (h : (Value.int n).ordinaryOrNothing? = some m) : n.natAbs < ordinaryLimit := by
  obtain ⟨k, hk, -⟩ := Option.map_eq_some_iff.mp h
  exact natAbs_lt_of_ordinary? hk

/-- A character that may be missing. -/
def optionalCharacter : Option Char → Value
  | none => .nothing
  | some c => .text [c]

end Value

/-! ## Texts of a length -/

namespace Text

theorem asIndex_of_fits {n : ℤ} (hlow : -(indexLimit : ℤ) ≤ n) (hhigh : n < memoryLimit) :
    asIndex n = .ok n := by
  have hlimits : memoryLimit ≤ indexLimit := by decide
  exact if_pos ⟨hlow, by omega⟩

theorem checkLength_of_fits {n : ℕ} (h : n < memoryLimit) : checkLength n = .ok () := by
  have hlimits : memoryLimit ≤ indexLimit := by decide
  unfold checkLength
  rw [if_neg (by omega), if_neg (by omega)]

theorem lt_of_checkLength {n : ℕ} (h : checkLength n = .ok ()) : n < memoryLimit := by
  unfold checkLength at h
  split_ifs at h
  omega

/-- There is memory for a character repeated so often, or less often than never. -/
theorem repeated_of_index (c : Char) {n : ℤ} (hlow : -(indexLimit : ℤ) ≤ n)
    (hhigh : n < memoryLimit) : repeated [c] n = .ok (List.replicate n.toNat c) := by
  have hlimits : 0 < memoryLimit := by decide
  have hindex := asIndex_of_fits hlow hhigh
  have hlength := checkLength_of_fits (n := n.toNat) (by omega)
  simp [repeated, hindex, hlength, times, bind, Except.bind, pure, Except.pure]

theorem filledLeft_of_fits (s : Text) (c : Char) {width : ℤ} (hlow : -(indexLimit : ℤ) ≤ width)
    (hhigh : width < memoryLimit) : filledLeft s width c = .ok (padLeft s width c) := by
  have hlimits : 0 < memoryLimit := by decide
  have hlength := checkLength_of_fits (n := width.toNat) (by omega)
  simp only [filledLeft, asIndex_of_fits hlow hhigh, hlength, bind, Except.bind, pure, Except.pure]

theorem filledRight_of_fits (s : Text) (c : Char) {width : ℤ} (hlow : -(indexLimit : ℤ) ≤ width)
    (hhigh : width < memoryLimit) : filledRight s width c = .ok (padRight s width c) := by
  have hlimits : 0 < memoryLimit := by decide
  have hlength := checkLength_of_fits (n := width.toNat) (by omega)
  simp only [filledRight, asIndex_of_fits hlow hhigh, hlength, bind, Except.bind, pure, Except.pure]

end Text

namespace Value

theorem repeatText_of_index (c : Char) {n : ℤ} (hlow : -(Text.indexLimit : ℤ) ≤ n)
    (hhigh : n < Text.memoryLimit) : repeatText [c] (.int n) = .ok (List.replicate n.toNat c) := by
  have h := Text.repeated_of_index c hlow hhigh
  simp only [repeatText, asInteger_integer, h, bind, Except.bind, Fault.bounded]

theorem repeatText_of_fits (c : Char) {n : ℤ} (hlow : 0 ≤ n) (hhigh : n < Text.memoryLimit) :
    repeatText [c] (.int n) = .ok (List.replicate n.toNat c) :=
  repeatText_of_index c (by omega) hhigh

theorem filledLeft_of_fits (s : Text) (c : Char) {width : ℤ}
    (hlow : -(Text.indexLimit : ℤ) ≤ width) (hhigh : width < Text.memoryLimit) :
    filledLeft s (.int width) (.text [c]) = .ok (Text.padLeft s width c) := by
  simp only [filledLeft, asIndex, asInteger_integer, Text.asIndex_of_fits hlow hhigh,
    Text.filledLeft_of_fits s c hlow hhigh, asCharacter, Fault.bounded, ok_bind]

theorem eq_of_bounded {α : Type} {x : Except Excess α} {y : α} (h : Fault.bounded x = .ok y) :
    x = .ok y := by
  cases x with
  | error e => cases h
  | ok z => exact congrArg Except.ok (Except.ok.inj h)

/-- A character that is repeated at all is repeated so often, and there was memory for that. -/
theorem eq_of_repeatText {c : Char} {n : ℤ} {t : Text} (h : repeatText [c] (.int n) = .ok t) :
    t = List.replicate n.toNat c ∧ n < Text.memoryLimit := by
  have hrepeated : Text.repeated [c] n = .ok t := by
    rw [repeatText, asInteger_integer, ok_bind] at h
    exact eq_of_bounded h
  have htimes := Text.eq_times_of_repeated hrepeated
  obtain ⟨m, hm, hrest⟩ := exists_of_bind_ok hrepeated
  obtain ⟨u, hu, -⟩ := exists_of_bind_ok hrest
  have hlength := Text.lt_of_checkLength hu
  rw [Text.eq_of_asIndex hm, List.length_singleton, Nat.one_mul] at hlength
  refine ⟨?_, by omega⟩
  simpa [Text.times] using htimes

theorem eq_padLeft_of_filledLeft {s t : Text} {c : Char} {width : ℤ}
    (h : filledLeft s (.int width) (.text [c]) = .ok t) : t = Text.padLeft s width c := by
  obtain ⟨w, hw, h⟩ := exists_of_bind_ok h
  obtain ⟨u, hu, h⟩ := exists_of_bind_ok (eq_of_bounded h)
  obtain ⟨-, -, h⟩ := exists_of_bind_ok h
  rw [← Text.eq_of_asIndex (eq_of_bounded hw), ← Text.eq_of_asIndex hu]
  exact (Except.ok.inj h).symm

/-- A text that is repeated at all is repeated so often. -/
theorem eq_times_of_times {s : Text} {n : ℤ} {v : Value}
    (h : (Value.text s).times (.int n) = .ok v) : v = .text (Text.times s n) := by
  obtain ⟨m, hm, h⟩ := exists_of_bind_ok h
  obtain rfl := Except.ok.inj hm
  obtain ⟨t, ht, h⟩ := exists_of_bind_ok h
  rw [← Except.ok.inj h, Text.eq_times_of_repeated (eq_of_bounded ht)]

theorem times_of_index (c : Char) {n : ℤ} (hlow : -(Text.indexLimit : ℤ) ≤ n)
    (hhigh : n < Text.memoryLimit) :
    (Value.text [c]).times (.int n) = .ok (.text (Text.times [c] n)) := by
  have hrepeated := Text.repeated_of_index c hlow hhigh
  have htimes : Text.times [c] n = List.replicate n.toNat c := by simp [Text.times]
  show (do (Value.text [c]).repeatSequence (← (Value.int n).asInteger)) = _
  simp only [asInteger_integer, ok_bind, repeatSequence, hrepeated, Fault.bounded, htimes, pure,
    Except.pure]

theorem times_of_fits (c : Char) {n : ℤ} (hlow : -(Text.memoryLimit : ℤ) ≤ n)
    (hhigh : n < Text.memoryLimit) :
    (Value.text [c]).times (.int n) = .ok (.text (Text.times [c] n)) := by
  have hlimits : Text.memoryLimit ≤ Text.indexLimit := by decide
  exact times_of_index c (by omega) hhigh

theorem filledRight_of_fits (s : Text) (c : Char) {w : ℤ}
    (hlow : -(Text.indexLimit : ℤ) ≤ w) (hhigh : w < Text.memoryLimit) :
    filledRight s (.int w) c = .ok (Text.padRight s w c) := by
  simp only [filledRight, asInteger_integer, Text.filledRight_of_fits s c hlow hhigh,
    Fault.bounded, ok_bind]

end Value

end Tilde
