import Tilde.Proofs.Decimal.Concord
import Tilde.Proofs.Decimal.FixedField
import Tilde.Proofs.Decimal.Range

/-!
# Rounding in exponential fields

An exponential field with so many places shows the number rounded half-up to significant digits,
with the point where the scale wants it and the exponent that belongs to this place.

* `isWritable_shownExponent`: the exponent of a real value can be written;
* `exponentialField_eq`: the field of a real value, as long as there is memory for it;
* `Scientific.IsScaled`: the point stands where the scale and the places want it;
* **`exponentialField_halfUp`**: the number that the field shows.
-/

namespace Tilde

open Decimal

/-! ## The exponent of a real value -/

theorem Value.isWritableInteger_of_lt {n : ℤ} (h : n.natAbs < 10 ^ 11) :
    isWritableInteger n = true := by
  obtain ⟨k, hk⟩ : ∃ k, k = Text.greatestDigitCount := ⟨_, rfl⟩
  have hmany : 11 ≤ k := hk ▸ (by decide : 11 ≤ Text.greatestDigitCount)
  rw [isWritableInteger, ← hk, Nat.pow_eq]
  exact decide_eq_true (h.trans_le (Nat.pow_le_pow_right (by decide) hmany))

namespace Decimal

theorem le_length_placeDigits (style : FloatStyle) (s : Text) :
    (-style.scale).toNat ≤ (placeDigits style s).length := by
  obtain ⟨z, hz⟩ := exists_mantissa style s
  have hlength := congrArg List.length hz
  simp only [List.length_append, List.length_replicate, length_wholeDigits] at hlength
  omega

end Decimal

namespace PlainSettings

variable {t : PlainSettings} {p : Parts} {negative : Bool}

/-- A field that fits the memory does not move the point by more. -/
theorem natAbs_scale_lt
    (hfits : (exponentialText t.style.free negative p).length < Text.memoryLimit) :
    t.scale.natAbs < Text.memoryLimit := by
  obtain ⟨hparts, -⟩ := parts_le_length t negative p
  dsimp only at hparts
  have hwhole := length_wholeDigits t.style
    (roundedMantissa t.style (signText t.plus negative).length p).digits
  have hplaces := le_length_placeDigits t.style
    (roundedMantissa t.style (signText t.plus negative).length p).digits
  have hscale : t.style.scale = t.scale := rfl
  omega

theorem isWritable_shownExponent (hscale : t.scale.natAbs < Text.memoryLimit) {e : ℤ}
    (he : e.natAbs ≤ 10 ^ 7) : Value.isWritableInteger (shownExponent t.style e) = true := by
  have hlimit : Text.memoryLimit = 2147483648 := rfl
  refine Value.isWritableInteger_of_lt ?_
  show (e - (t.scale - 1)).natAbs < _
  omega

section

variable {v : Value} (hv : v.IsFiniteReal) (hformat : v.InFormat) (hp : v.magnitudeParts = .ok p)
  (hwidth : ∀ w ∈ t.width, 0 ≤ w) (hplaces : ∀ d ∈ t.places, 0 ≤ d)
  (hdigits : ∀ e ∈ t.exponentDigits, -(Text.indexLimit : ℤ) ≤ e)
  (hfits : (exponentialText t.style.free negative p).length < Text.memoryLimit)

include hv hformat hp hwidth hplaces hdigits hfits

/-- The digits of a real value in an exponential field, if there is memory to write them out. -/
theorem exponential_of_parts :
    t.settings.exponential negative p = .ok (.text (exponentialText t.style negative p)) := by
  have hexponent := Value.natAbs_exponent_lt hv hformat hp
  have hscale := natAbs_scale_lt hfits
  exact exponential_integer negative hwidth hplaces hdigits
    (fun e _ _ => isWritable_shownExponent hscale (by omega)) hfits

theorem exponentialField_eq (hnegative : v.isNegative t.plus = .ok negative) :
    exponentialField t.settings v = .ok (.text (exponentialText t.style negative p)) := by
  rw [← exponential_eq]
  refine field_integer hnegative hp ?_
  rw [exponential_eq]
  exact exponential_of_parts hv hformat hp hwidth hplaces hdigits hfits

end

end PlainSettings

/-! ## The place of the point -/

/-- With a positive scale `k` there are `k` digits in front of the point, and the places behind it
make up for all but one of them. Otherwise there is a zero in front of the point, and `-k` of the
places behind it are zeros. -/
def Decimal.Scientific.IsScaled (x : Scientific) (k d : ℤ) : Prop :=
  if 0 < k then (x.whole.length : ℤ) = k ∧ (x.frac.length : ℤ) = d - k + 1
  else x.whole = ['0'] ∧ (x.frac.length : ℤ) = d ∧ List.replicate (-k).toNat '0' <+: x.frac

/-- The number of significant digits of a field with so many places. -/
def Decimal.significantDigits (k d : ℤ) : ℤ := if 0 < k then d + 1 else d + k

namespace Decimal

variable {style : FloatStyle} {q : Parts} {d : ℤ}

theorem mantissaDigits?_places (hplaces : style.places = some d)
    (hsome : 0 < significantDigits style.scale d) (signWidth : ℕ) (e : ℤ) :
    mantissaDigits? style signWidth e = some (significantDigits style.scale d).toNat := by
  unfold mantissaDigits?
  simp only [hplaces, Option.map_some]
  change some (max (significantDigits style.scale d) 1).toNat = _
  congr 2
  omega

/-- Without a width the places that are asked for are all that is shown. -/
theorem exponentialText_places (hwidth : style.width = none) (hplaces : style.places = some d)
    (negative : Bool) (p : Parts) :
    exponentialText style negative p =
      (let sign := signText style.plus negative
      let q := roundedMantissa style sign.length p
      sign ++ (scientific style (wholeDigits style q.digits).isEmpty false q).text style.mark) := by
  rw [exponentialText_free hwidth, hplaces]
  rfl

/-- As many digits as the field has fill its places. -/
theorem isScaled_scientific (hplaces : style.places = some d) (hscale : style.scale ≤ d + 1)
    (hdigits : q.digits.length ≤ (significantDigits style.scale d).toNat)
    (hsome : 0 < significantDigits style.scale d) :
    (scientific style (wholeDigits style q.digits).isEmpty false q).IsScaled style.scale d := by
  have hwhole := length_wholeDigits style q.digits
  have hfrac : (scientific style (wholeDigits style q.digits).isEmpty false q).frac =
      placeDigits style q.digits := by
    simp [scientific, orZero]
  unfold significantDigits at hdigits hsome
  unfold Scientific.IsScaled
  rw [hfrac]
  by_cases hpos : 0 < style.scale
  · rw [if_pos hpos] at hdigits ⊢
    have hfront : (wholeDigits style q.digits).isEmpty = false := by
      rw [List.isEmpty_eq_false_iff, ← List.length_pos_iff]
      omega
    constructor
    · rw [hfront]
      show ((wholeDigits style q.digits).length : ℤ) = _
      omega
    · simp only [placeDigits, if_pos hpos, hplaces, Text.length_padRight, List.length_drop]
      omega
  · rw [if_neg hpos] at hdigits hsome ⊢
    have hnone : wholeDigits style q.digits = [] := if_neg hpos
    refine ⟨by simp [scientific, hnone], ?_, ?_⟩
    · simp only [placeDigits, if_neg hpos, hplaces, Text.length_padRight, List.length_append,
        List.length_replicate]
      omega
    · simp only [placeDigits, if_neg hpos, hplaces, Text.padRight, List.append_assoc]
      exact List.prefix_append _ _

end Decimal

/-! ## The field -/

/-- A real value with the digits `p` in an exponential field with `d` places: the sign and a number
in exponential notation. With `V` the number that the digits stand for, it writes `V` rounded
half-up to significant digits, with the point where the scale wants it and at least as many digits
in the exponent as are asked for. Rounding comes to an end, and the exponent is that of the first
digit of what it ends with, less what the point is moved. -/
theorem exponentialField_halfUp {t : PlainSettings} {v : Value} {p : Parts} {d : ℤ}
    (hv : v.IsFiniteReal) (hformat : v.InFormat) (hp : v.magnitudeParts = .ok p)
    (hwidth : t.width = none) (hplaces : t.places = some d) (hd : 0 ≤ d)
    (hscale : 1 ≤ t.scale ∧ t.scale ≤ d + 1 ∨ t.scale ≤ 0 ∧ 1 ≤ d + t.scale)
    (hdigits : ∀ e ∈ t.exponentDigits, -(Text.indexLimit : ℤ) ≤ e) :
    ∃ (negative : Bool) (text sign : Text) (q : Parts) (x : Scientific),
      v.isNegative t.plus = .ok negative ∧ sign = signText t.plus negative ∧
      text = sign ++ x.text [t.mark.getD 'E'] ∧
      x.Writes (halfUpDigits (valueOf p.digits * 10 ^ (p.exponent - p.digits.length + 1))
        (significantDigits t.scale d)) ∧
      x.IsScaled t.scale d ∧
      (∀ e ∈ t.exponentDigits, e ≤ x.digits.length) ∧
      Renormalises t.style sign.length p q ∧ x.exponent = q.exponent - (t.scale - 1) ∧
      (text.length < Text.memoryLimit → exponentialField t.settings v = .ok (.text text)) := by
  obtain ⟨negative, hnegative⟩ := v.exists_isNegative hv t.plus
  obtain ⟨hp_digits, hne⟩ := Value.isDigits_of_parts hv hp
  have hsome : 0 < significantDigits t.scale d := by
    unfold significantDigits
    split_ifs <;> omega
  obtain ⟨q, hq⟩ : ∃ q, q = roundedMantissa t.style (signText t.plus negative).length p := ⟨_, rfl⟩
  obtain ⟨hq_digits, hq_ne, -, hrounded⟩ := worth_roundedMantissa t.style
    (signText t.plus negative).length hp_digits hne (Value.isNormal_of_magnitudeParts hp)
  rw [mantissaDigits?_places (show t.style.places = some d from hplaces) hsome] at hrounded
  rw [← hq] at hq_digits hq_ne hrounded
  obtain ⟨-, hlength, hworth⟩ := hrounded
  obtain ⟨x, hx⟩ : ∃ x, x = scientific t.style (wholeDigits t.style q.digits).isEmpty false q :=
    ⟨_, rfl⟩
  have htext : exponentialText t.style negative p =
      signText t.plus negative ++ x.text [t.mark.getD 'E'] := by
    rw [exponentialText_places (show t.style.width = none from hwidth) hplaces, hx, hq]
    rfl
  -- there are no columns that the overflow character could fill
  have hfree : exponentialText t.style.free negative p = exponentialText t.style negative p := by
    rw [exponentialText_places (show t.style.width = none from hwidth) hplaces,
      exponentialText_places (show t.style.free.width = none from hwidth) hplaces]
    rfl
  have hwrites : x.Writes (halfUpDigits p.worth (significantDigits t.scale d)) := by
    have hcount : ((significantDigits t.scale d).toNat : ℤ) = significantDigits t.scale d := by
      omega
    rw [← hcount, hx, show significantDigits t.scale d = significantDigits t.style.scale d from rfl,
      ← hworth]
    exact writes_scientific t.style _ false hq_digits hq_ne
  obtain ⟨-, -, -, hmany⟩ := exponentDigitsOf_spec t.style (shownExponent t.style q.exponent)
  refine ⟨negative, exponentialText t.style negative p, signText t.plus negative, q, x, hnegative,
    rfl, htext, ?_, ?_, ?_, ?_, ?_, fun hfits => ?_⟩
  · exact hwrites
  · rw [hx]
    exact isScaled_scientific hplaces (by show t.scale ≤ d + 1; omega) hlength hsome
  · rw [hx]
    exact hmany
  · rw [hq]
    exact renormalises_roundedMantissa _ _ _
  · rw [hx]
    rfl
  · refine PlainSettings.exponentialField_eq hv hformat hp (by simp [hwidth]) ?_ hdigits
      (hfree ▸ hfits) hnegative
    intro d' hd'
    obtain rfl := Option.some.inj (hplaces.symm.trans hd')
    exact hd

/-- A negative decimal number that becomes a power of ten. -/
theorem exponentialField_halfUp_carried :
    ∃ (negative : Bool) (text sign : Text) (q : Parts) (x : Scientific),
      (Value.decimal (.finite true 996 (-2))).isNegative false = .ok negative ∧
      sign = signText false negative ∧
      text = sign ++ x.text ['E'] ∧
      x.Writes (halfUpDigits (valueOf ['9', '9', '6'] * 10 ^ ((0 : ℤ) - 3 + 1))
        (significantDigits 1 1)) ∧
      x.IsScaled 1 1 ∧
      (∀ e ∈ (some 2 : Option ℤ), e ≤ x.digits.length) ∧
      Renormalises { places := some 1, exponentDigits := some 2, scale := 1 } sign.length
        ⟨['9', '9', '6'], 0⟩ q ∧
      x.exponent = q.exponent - (1 - 1) ∧
      (text.length < Text.memoryLimit →
        exponentialField (PlainSettings.settings
            { places := some 1, exponentDigits := some 2, scale := 1 })
          (.decimal (.finite true 996 (-2))) = .ok (.text text)) :=
  exponentialField_halfUp (t := { places := some 1, exponentDigits := some 2, scale := 1 })
    (v := .decimal (.finite true 996 (-2))) (p := ⟨['9', '9', '6'], 0⟩) (d := 1)
    (.inl rfl) trivial rfl rfl rfl (by decide) (.inl (by decide))
    (show ∀ e ∈ (some 2 : Option ℤ), -(Text.indexLimit : ℤ) ≤ e by decide)

example : exponentialText { places := some 1, exponentDigits := some 2, scale := 1 } true
    ⟨['9', '9', '6'], 0⟩ = "-1.0E+01".toList := by decide

/-- A field that is asked for a number of digits beyond all indices is refused. -/
theorem exponentialField_refused :
    exponentialField (PlainSettings.settings
      { places := some 1, exponentDigits := some (-9223372036854775809), scale := 1 }) (.int 1) =
        .error .tooLarge := by
  generalize hs : PlainSettings.settings _ = s
  have hone : Value.isWritableInteger 1 = true := Value.isWritableInteger_of_lt (by decide)
  have hzero : (Value.int 0).isWritable = true := Value.isWritableInteger_of_lt (by decide)
  have hparts : (Value.int 1).magnitudeParts = .ok ⟨['1'], 0⟩ := by
    have habsolute : (Value.int 1).absolute = .ok (.int 1) := rfl
    rw [Value.magnitudeParts, habsolute, ok_bind, Value.parts, if_pos hone]
    rfl
  have hshown : RealSettings.shownNumber (.int 0) = .ok ['0'] := if_pos hzero
  have hpower : s.power 0 = .error .tooLarge := by
    have hexponent : (Value.int 0).minus (.int 0) = .ok (.int 0) := rfl
    have habsolute : (Value.int 0).absolute = .ok (.int 0) := rfl
    have hscale : s.scale.minus (.int 1) = .ok (.int 0) := by rw [← hs]; rfl
    unfold RealSettings.power
    simp only [hscale, hexponent, habsolute, hshown, ok_bind]
    rw [← hs]
    rfl
  have hexponential : s.exponential false ⟨['1'], 0⟩ = .error .tooLarge := by
    unfold RealSettings.exponential RealSettings.mantissa
    rw [hpower]
    rfl
  have hstyle : s.style? = none := by rw [← hs]; rfl
  have hnegative : (Value.int 1).isNegative s.plus = .ok false := by rw [← hs]; rfl
  unfold exponentialField
  rw [RealSettings.field_eq, hnegative, hparts, hstyle]
  exact hexponential

end Tilde
