import Tilde.Decimal.Arithmetic
import Tilde.Proofs.Decimal.Digits

/-!
# What decimal arithmetic keeps

A result of decimal arithmetic is the exact number if this has a form with at most 28 digits whose
exponents are in the range, and another number or none otherwise.

* `IsKept`: the numbers with such a form;
* **`fitted_exact_iff`**: these are the numbers that `fitted` leaves as they are.
-/

namespace Tilde.Decimal

/-! ## Counting digits -/

theorem digitCount_pos (c : ℕ) : 0 < digitCount c := Nat.length_toDigits_pos

theorem lt_pow_digitCount (c : ℕ) : c < 10 ^ digitCount c :=
  (Nat.length_toDigits_le_iff (by decide) (digitCount_pos c)).mp le_rfl

theorem digitCount_le_iff {c k : ℕ} (hk : 0 < k) : digitCount c ≤ k ↔ c < 10 ^ k :=
  Nat.length_toDigits_le_iff (by decide) hk

theorem pow_le_of_pos {c : ℕ} (hc : 0 < c) : 10 ^ (digitCount c - 1) ≤ c := by
  have hpos := digitCount_pos c
  by_contra hless
  by_cases hone : digitCount c - 1 = 0
  · rw [hone] at hless
    omega
  · have := (digitCount_le_iff (Nat.pos_of_ne_zero hone)).mpr (Nat.lt_of_not_le hless)
    omega

/-- Zeros behind the digits are counted. -/
theorem digitCount_mul_pow {c : ℕ} (hc : 0 < c) (k : ℕ) :
    digitCount (c * 10 ^ k) = digitCount c + k := by
  have hpos := digitCount_pos c
  have hpow : 0 < 10 ^ k := Nat.pow_pos (by decide)
  refine Nat.le_antisymm ?_ ?_
  · rw [digitCount_le_iff (by omega), Nat.pow_add]
    exact Nat.mul_lt_mul_of_pos_right (lt_pow_digitCount c) hpow
  · by_contra hless
    have hfew := (digitCount_le_iff (c := c * 10 ^ k) (k := digitCount c - 1 + k)
      (by have := digitCount_pos (c * 10 ^ k); omega)).mp (by omega)
    rw [Nat.pow_add] at hfew
    exact absurd (Nat.lt_of_mul_lt_mul_right hfew) (Nat.not_lt.mpr (pow_le_of_pos hc))

/-- Of two forms of a number, the one with the smaller exponent has zeros behind its digits. -/
theorem eq_mul_pow {c d : ℕ} {e f : ℤ} (h : (c : ℚ) * 10 ^ e = d * 10 ^ f) (hef : e ≤ f) :
    c = d * 10 ^ (f - e).toNat := by
  have hexact : ((f - e).toNat : ℤ) = f - e := by omega
  have hten : (10 : ℚ) ≠ 0 := by norm_num
  have hcast : (c : ℚ) = ((d * 10 ^ (f - e).toNat : ℕ) : ℚ) := by
    push_cast
    rw [← zpow_natCast, hexact, zpow_sub₀ hten, ← mul_div_assoc, ← h]
    field_simp
  exact_mod_cast hcast

theorem pow_dvd {c d k : ℕ} {e f : ℤ} (h : (c : ℚ) * 10 ^ e = d * 10 ^ f) (hk : e + k ≤ f) :
    10 ^ k ∣ c := by
  rw [eq_mul_pow h (by omega)]
  exact Dvd.dvd.mul_left (pow_dvd_pow 10 (by omega)) d

/-- Both have their first digit at the same place. -/
theorem adjusted_eq {c d : ℕ} {e f : ℤ} (h : (c : ℚ) * 10 ^ e = d * 10 ^ f) (hc : 0 < c)
    (hd : 0 < d) : adjusted c e = adjusted d f := by
  rcases le_total e f with hef | hfe
  · rw [eq_mul_pow h hef, adjusted, adjusted, digitCount_mul_pow hd]
    omega
  · rw [eq_mul_pow h.symm hfe, adjusted, adjusted, digitCount_mul_pow hc]
    omega

/-- Both are positive or none is. -/
theorem pos_of_pos {c d : ℕ} {e f : ℤ} (h : (c : ℚ) * 10 ^ e = d * 10 ^ f) (hc : 0 < c) :
    0 < d := by
  refine Nat.pos_of_ne_zero fun hnone => ?_
  rw [hnone] at h
  simp [hc.ne', (zpow_pos (show (0 : ℚ) < 10 by norm_num) e).ne'] at h

/-! ## The numbers that are kept -/

/-- The number has a form with few enough digits and with exponents in the range. -/
def IsKept (c : ℕ) (e : ℤ) : Prop :=
  ∃ (d : ℕ) (f : ℤ), d < 10 ^ precision ∧ tinyExponent ≤ f ∧ adjusted d f ≤ maxExponent ∧
    (c : ℚ) * 10 ^ e = d * 10 ^ f

/-! ## Rounding to the digits that are kept -/

theorem div_pow_lt {c k n : ℕ} (h : digitCount c ≤ n + k) : c / 10 ^ k < 10 ^ n := by
  rw [Nat.div_lt_iff_lt_mul (Nat.pow_pos (by decide)), ← Nat.pow_add]
  exact (lt_pow_digitCount c).trans_le (Nat.pow_le_pow_right (by decide) h)

/-- Without a remainder nothing is rounded. -/
theorem not_up (k q : ℕ) : ¬(10 ^ k < 2 * 0 ∨ (2 * 0 = 10 ^ k ∧ q % 2 = 1)) := by
  have := Nat.pow_pos (n := k) (show 0 < 10 by decide)
  omega

theorem rounded_of_le {c : ℕ} (e : ℤ) (h : digitCount c ≤ precision) : rounded c e = (c, e) := by
  have hexcess : (Nat.toDigits 10 c).length - precision = 0 := Nat.sub_eq_zero_of_le h
  rw [rounded]
  simp [hexcess]

/-- Only zeros are dropped. -/
theorem rounded_of_dvd {c : ℕ} (e : ℤ) (h : 10 ^ (digitCount c - precision) ∣ c) :
    rounded c e =
      (c / 10 ^ (digitCount c - precision), e + ((digitCount c - precision : ℕ) : ℤ)) := by
  by_cases hfew : digitCount c ≤ precision
  · simp [rounded_of_le e hfew, Nat.sub_eq_zero_of_le hfew]
  · have hexcess : (Nat.toDigits 10 c).length - precision = digitCount c - precision := rfl
    have hmany : digitCount c - precision ≠ 0 := by omega
    have hless : c / 10 ^ (digitCount c - precision) < 10 ^ precision :=
      div_pow_lt (by omega)
    simp only [rounded, hexcess, if_neg hmany, Nat.pow_eq, Nat.mod_eq_zero_of_dvd h, gt_iff_lt,
      if_neg (not_up _ _), if_neg hless.ne]

/-- A rounded number has few enough digits. -/
theorem rounded_bounds (c : ℕ) (e : ℤ) :
    (rounded c e).1 < 10 ^ precision ∧
      e + ((digitCount c - precision : ℕ) : ℤ) ≤ (rounded c e).2 := by
  by_cases hfew : digitCount c ≤ precision
  · rw [rounded_of_le e hfew, Nat.sub_eq_zero_of_le hfew]
    exact ⟨(digitCount_le_iff (by decide)).mp hfew, by simp⟩
  · have hexcess : (Nat.toDigits 10 c).length - precision = digitCount c - precision := rfl
    have hmany : digitCount c - precision ≠ 0 := by omega
    have hless : c / 10 ^ (digitCount c - precision) < 10 ^ precision :=
      div_pow_lt (by omega)
    simp only [rounded, hexcess, if_neg hmany, Nat.pow_eq]
    split_ifs with hup hcarry hcarry
    · exact ⟨Nat.pow_lt_pow_right (by decide) (by decide), by omega⟩
    · exact ⟨lt_of_le_of_ne hless hcarry, le_rfl⟩
    · exact absurd hcarry hless.ne
    · exact ⟨hless, le_rfl⟩

theorem withoutDigits_of_dvd {c k : ℕ} (h : 10 ^ k ∣ c) (hk : k ≤ digitCount c) :
    withoutDigits c k = c / 10 ^ k := by
  simp only [withoutDigits, if_neg (Nat.not_lt.mpr hk), Nat.pow_eq, Nat.mod_eq_zero_of_dvd h]
  exact if_neg (not_up k _)

theorem withoutDigits_le {c k n : ℕ} (h : digitCount c ≤ n + k) :
    withoutDigits c k ≤ 10 ^ n := by
  have hless := div_pow_lt h
  simp only [withoutDigits, Nat.pow_eq]
  split_ifs
  · exact Nat.zero_le _
  · exact hless
  · exact hless.le

/-- Dropping the zeros behind the digits does not change the number. -/
theorem div_mul_zpow {c k : ℕ} (h : 10 ^ k ∣ c) (e : ℤ) :
    ((c / 10 ^ k : ℕ) : ℚ) * 10 ^ (e + k) = c * 10 ^ e := by
  have hten : (10 : ℚ) ≠ 0 := by norm_num
  obtain ⟨d, rfl⟩ := h
  rw [Nat.mul_div_cancel_left d (Nat.pow_pos (by decide)), zpow_add₀ hten, zpow_natCast]
  push_cast
  ring

/-! ## What a result is -/

/-- A result that is not refused has few enough digits and exponents in the range. -/
theorem bounds_of_fitted {negative : Bool} {c c' : ℕ} {e e' : ℤ}
    (h : fitted negative c e = .ok (.finite negative c' e')) :
    c' < 10 ^ precision ∧ tinyExponent ≤ e' ∧ adjusted c' e' ≤ maxExponent := by
  have hpos := digitCount_pos c
  have htiny : tinyExponent = -1000026 := rfl
  have hmin : minExponent = -999999 := rfl
  have hmax : maxExponent = 999999 := rfl
  have hprecision : precision = 28 := rfl
  unfold fitted at h
  simp only at h
  split_ifs at h with hzero hsmall hbig hbig'
  · obtain ⟨rfl, rfl⟩ : 0 = c' ∧ max tinyExponent (min maxExponent e) = e' := by simpa using h
    have hone : adjusted 0 (max tinyExponent (min maxExponent e)) =
        max tinyExponent (min maxExponent e) := by
      change _ + ((1 : ℕ) : ℤ) - 1 = _
      omega
    exact ⟨by decide, by omega, by rw [hone]; omega⟩
  · obtain ⟨rfl, rfl⟩ : withoutDigits c (tinyExponent - e).toNat = c' ∧ tinyExponent = e' := by
      simpa using h
    have hle : withoutDigits c (tinyExponent - e).toNat ≤ 10 ^ (precision - 1) :=
      withoutDigits_le (by unfold adjusted at hsmall; omega)
    have hless : withoutDigits c (tinyExponent - e).toNat < 10 ^ precision :=
      hle.trans_lt (Nat.pow_lt_pow_right (by decide) (by decide))
    have hcount := (digitCount_le_iff (by decide)).mpr hless
    exact ⟨hless, le_rfl, by unfold adjusted; omega⟩
  · obtain ⟨hless, hexponent⟩ := rounded_bounds c e
    obtain ⟨rfl, rfl⟩ : (rounded c e).1 = c' ∧ (rounded c e).2 = e' := by simpa using h
    exact ⟨hless, by unfold adjusted at hsmall; omega, Int.not_lt.mp hbig'⟩

/-- A number with a kept form stays what it is. -/
theorem exists_fitted_of_isKept (negative : Bool) {c : ℕ} {e : ℤ} (h : IsKept c e) :
    ∃ c' e', fitted negative c e = .ok (.finite negative c' e') ∧
      (c' : ℚ) * 10 ^ e' = c * 10 ^ e := by
  obtain ⟨d, f, hd, hf, hadjusted, hvalue⟩ := h
  by_cases hzero : c = 0
  · exact ⟨0, _, if_pos hzero, by simp [hzero]⟩
  have hc : 0 < c := Nat.pos_of_ne_zero hzero
  have hdigits := (digitCount_le_iff (by decide)).mpr hd
  have hpos := digitCount_pos d
  have hsame := adjusted_eq hvalue hc (pos_of_pos hvalue hc)
  unfold adjusted at hsame hadjusted
  unfold fitted
  rw [if_neg hzero]
  -- With an exponent up to that of the kept form, the coefficient ends in zeros.
  by_cases hsmall : adjusted c e < minExponent ∧ e < tinyExponent
  · have hexact : ((tinyExponent - e).toNat : ℤ) = tinyExponent - e := by omega
    have hzeros : 10 ^ (tinyExponent - e).toNat ∣ c := pow_dvd hvalue (by omega)
    refine ⟨_, _, if_pos hsmall, ?_⟩
    rw [withoutDigits_of_dvd hzeros (by omega), ← div_mul_zpow hzeros e, hexact]
    congr 2
    omega
  · have hzeros : 10 ^ (digitCount c - precision) ∣ c := by
      rcases Nat.eq_zero_or_pos (digitCount c - precision) with hfew | hmany
      · simp [hfew]
      · exact pow_dvd hvalue (by omega)
    have hkept := div_mul_zpow hzeros e
    have hfirst := adjusted_eq hkept (pos_of_pos hkept.symm hc) hc
    unfold adjusted at hfirst
    rw [if_neg hsmall, if_neg (by unfold adjusted; omega), rounded_of_dvd e hzeros]
    exact ⟨_, _, if_neg (by unfold adjusted; omega), hkept⟩

/-- Exactly the numbers with a kept form are left as they are. -/
theorem fitted_exact_iff (negative : Bool) (c : ℕ) (e : ℤ) :
    (∃ c' e', fitted negative c e = .ok (.finite negative c' e') ∧
      (c' : ℚ) * 10 ^ e' = c * 10 ^ e) ↔ IsKept c e := by
  refine ⟨fun ⟨c', e', hfitted, hvalue⟩ => ?_, exists_fitted_of_isKept negative⟩
  obtain ⟨hfew, htiny, hmax⟩ := bounds_of_fitted hfitted
  exact ⟨c', e', hfew, htiny, hmax, hvalue.symm⟩

end Tilde.Decimal
