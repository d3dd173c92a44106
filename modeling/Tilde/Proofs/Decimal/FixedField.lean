import Tilde.Proofs.Decimal.Agreement
import Tilde.Proofs.Radix.Digits

/-!
# Fixed-point fields round half-up

A fixed-point field shows the sign of a real value and a numeral for its digits, scaled by a power
of ten and rounded half-up: to the places that are asked for, or to those that fit the width, or not
at all. In front of it is padding up to the width. Only a field for which there is no memory is not
shown.

* `exists_isNegative`: every real value has a sign;
* **`fixedField_halfUp`**: the field of a real value.
-/

namespace Tilde

open Decimal RealSettings

namespace Value

/-- Every real value has a sign, or none is to be shown. -/
theorem exists_isNegative {v : Value} (hv : v.IsFiniteReal) (plus : Bool) :
    ∃ negative, v.isNegative plus = .ok negative := by
  have hbelow : ∃ b, v.isBelowZero = .ok b := by
    rcases hv with hreal | ⟨b, rfl⟩
    · cases v with
      | int n => exact ⟨_, isBelowZero_integer n⟩
      | float x =>
        cases x with
        | finite s m e => exact ⟨_, rfl⟩
        | nan => cases hreal
        | infinite _ => cases hreal
      | decimal d =>
        cases d with
        | finite s c e => exact ⟨_, rfl⟩
        | infinite _ => cases hreal
        | nan _ _ _ => cases hreal
      | fraction q => exact ⟨_, rfl⟩
      | _ => cases hreal
    · exact ⟨_, less_of_integer rfl rfl⟩
  obtain ⟨b, hb⟩ := hbelow
  cases b with
  | true => exact ⟨true, by simp [isNegative, hb, bind, Except.bind, pure, Except.pure]⟩
  | false =>
    cases v <;> exact ⟨_, by simp [isNegative, hb, bind, Except.bind, pure, Except.pure]; rfl⟩

end Value

/-! ## Padding -/

namespace Decimal

/-- The character is none of those that a numeral and its sign consist of. -/
def IsPadding (c : Char) : Prop := c.isDigit = false ∧ c ≠ '.' ∧ c ≠ '+' ∧ c ≠ '-'

instance (c : Char) : Decidable (IsPadding c) := by unfold IsPadding; infer_instance

/-- A numeral with its sign does not begin with padding. -/
theorem IsNumeral.head_ne {s : Text} {places : ℕ} {q : ℚ} (h : IsNumeral s places q) {c : Char}
    (hc : IsPadding c) (plus negative : Bool) :
    ∀ d ∈ (signText plus negative ++ s).head?, d ≠ c := by
  obtain ⟨hdigit, hpoint, hplus, hminus⟩ := hc
  obtain ⟨d, t, rfl, hd⟩ := h.head
  have hfirst : d ≠ c := by
    rintro rfl
    rcases hd with hd | rfl
    · rw [hdigit] at hd
      cases hd
    · exact hpoint rfl
  cases negative <;> cases plus <;> simp [signText, hfirst, hplus.symm, hminus.symm]

end Decimal

/-- Without an overflow text a field is padding and what it shows. -/
theorem framed_styleOf (width places : Option ℤ) (scale : ℤ) (pad : Char) (plus : Bool) {s : Text} :
    (styleOf width places scale pad plus).framed s =
      List.replicate (width.getD 0 - s.length).toNat pad ++ s := by
  cases width with
  | none => simp [FloatStyle.framed, styleOf]
  | some w => simp [FloatStyle.framed, styleOf, Text.times]

/-! ## The field -/

/-- A real value with the digits `p` in a fixed-point field: the sign and a numeral, padded up to
the width. With `V` the number that the digits stand for, scaled, the numeral writes `V` rounded
half-up to the places asked for or to those that fit the width, and has the places asked for. -/
theorem fixedField_halfUp {v : Value} (hv : v.IsFiniteReal) {p : Parts}
    (hp : v.magnitudeParts = .ok p) {width places : Option ℤ} (hwidth : ∀ w ∈ width, 0 ≤ w)
    (hplaces : ∀ d ∈ places, 0 ≤ d) (scale : ℤ) {pad : Char} (hpad : IsPadding pad) (plus : Bool) :
    ∃ (negative : Bool) (text sign numeral : Text) (n : ℕ),
      v.isNegative plus = .ok negative ∧ sign = signText plus negative ∧
      IsNumeral numeral n
        (halfUpTo (valueOf p.digits * 10 ^ (p.exponent - p.digits.length + 1 + scale))
          (keptPlaces? (p.exponent + scale) places (width.map (· - sign.length)))) ∧
      (∀ d ∈ places, n = d) ∧
      text.dropWhile (· == pad) = sign ++ numeral ∧
      (text.length : ℤ) = max (width.getD 0) (sign ++ numeral).length ∧
      (text.length < Text.memoryLimit →
        fixedField (ofIntegers width places scale pad plus) v = .ok (.text text)) := by
  obtain ⟨negative, hnegative⟩ := v.exists_isNegative hv plus
  obtain ⟨hdigits, hne⟩ := Value.isDigits_of_parts hv hp
  obtain ⟨numeral, n, hnumeral, hn, htext⟩ :=
    @exists_fixedText (styleOf width places scale pad plus) p negative hdigits hne hplaces
  refine ⟨negative, fixedText (styleOf width places scale pad plus) negative p,
    signText plus negative, numeral, n, hnegative, rfl, ?_, hn, ?_, ?_, fun hfits =>
      fixedField_integer hv hnegative hp hwidth hfits⟩
  · have hscaled : Parts.worth ⟨p.digits, p.exponent + scale⟩ =
        valueOf p.digits * 10 ^ (p.exponent - p.digits.length + 1 + scale) := by
      rw [Parts.worth]
      congr 2
      ring
    rw [← hscaled]
    exact hnumeral
  · rw [htext, framed_styleOf]
    exact Text.dropWhile_replicate_append (hnumeral.head_ne hpad plus negative) _
  · have hlength : ∀ w : ℤ, ((w - (signText plus negative ++ numeral).length).toNat : ℤ) +
        (signText plus negative ++ numeral).length =
          max w (signText plus negative ++ numeral).length := by
      intro w
      omega
    rw [htext, framed_styleOf, List.length_append, List.length_replicate, Nat.cast_add]
    exact hlength _

/-- A negative decimal number, rounded to hundredths in a field of eight columns. -/
theorem fixedField_halfUp_hundredths :
    ∃ (negative : Bool) (text sign numeral : Text) (n : ℕ),
      (Value.decimal (.finite true 1255 (-3))).isNegative false = .ok negative ∧
      sign = signText false negative ∧
      IsNumeral numeral n (halfUpTo (valueOf ['1', '2', '5', '5'] * 10 ^ ((0 : ℤ) - 4 + 1 + 0))
        (keptPlaces? (0 + 0) (some 2) ((some 8 : Option ℤ).map (· - sign.length)))) ∧
      (∀ d ∈ (some 2 : Option ℤ), n = d) ∧
      text.dropWhile (· == ' ') = sign ++ numeral ∧
      (text.length : ℤ) = max 8 ((sign ++ numeral).length : ℤ) ∧
      (text.length < Text.memoryLimit →
        fixedField (ofIntegers (some 8) (some 2) 0 ' ' false) (.decimal (.finite true 1255 (-3))) =
          .ok (.text text)) :=
  fixedField_halfUp (v := .decimal (.finite true 1255 (-3))) (p := ⟨['1', '2', '5', '5'], 0⟩)
    (.inl rfl) rfl (show ∀ w ∈ (some 8 : Option ℤ), 0 ≤ w by decide)
    (show ∀ d ∈ (some 2 : Option ℤ), 0 ≤ d by decide) 0 (show IsPadding ' ' by decide) false

/-- A field that is scaled beyond all indices is refused. -/
theorem fixedField_refused :
    fixedField (ofIntegers none none 9223372036854775808 ' ' false) (.int 0) =
      .error .tooLarge := by
  have hpower : ∀ n, (0 : ℤ).natAbs < Nat.pow 10 n := fun _ => Nat.pow_pos (by decide)
  have hwritable : Value.isWritableInteger 0 = true := decide_eq_true (hpower _)
  have hparts : (Value.int 0).parts = .ok ⟨['0'], 0⟩ := by
    rw [Value.parts, if_pos hwritable]
    rfl
  have habsolute : (Value.int 0).absolute = .ok (.int 0) := rfl
  have hnegative : (Value.int 0).isNegative false = .ok false := rfl
  simp only [fixedField, field, ofIntegers, hnegative, habsolute, hparts, bind, Except.bind]
  rfl

end Tilde
