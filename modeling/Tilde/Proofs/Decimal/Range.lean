import Tilde.Proofs.Decimal.Fitted
import Tilde.Proofs.Decimal.Leading
import Tilde.Proofs.Decimal.Parts

/-!
# The range of exponents

However large or small a real value is, its first digit is not far from the point: binary and
decimal numbers have bounded exponents, and an integer that has a written form has at most so many
digits.

* `Value.InFormat`: a binary number is one of its format;
* `exponent_bounds`: the exponent of the first digit of a coefficient with an exponent;
* `shortest_bounds`, `ofRatio_bounds`: the shortest decimal of a binary number, and the binary
  number nearest to a ratio;
* **`natAbs_exponent_lt`**: the exponent of the first digit of a real value.
-/

namespace Tilde

open Decimal

/-- The mantissa has at most 53 bits, and the exponent is in the range. -/
def Binary64.InFormat : Binary64 → Prop
  | .finite _ m e => m < 2 ^ 53 ∧ -1074 ≤ e ∧ e ≤ 971
  | _ => True

/-- If the value is a binary number, it is one of the format. -/
def Value.InFormat : Value → Prop
  | .float x => x.InFormat
  | _ => True

namespace Decimal

/-! ## The first digit -/

/-- The first digit of a coefficient with so many digits and an exponent. -/
theorem Parts.exponent_bounds {p : Parts} (hdigits : IsDigits p.digits) (h : p.IsNormal) {c k : ℕ}
    {e : ℤ} (hworth : p.worth = c * 10 ^ e) (hc : c < 10 ^ k) :
    p.exponent = 0 ∨ e ≤ p.exponent ∧ p.exponent < e + k := by
  rw [← Parts.log_worth hdigits h, hworth]
  rcases Nat.eq_zero_or_pos c with rfl | hpos
  · left
    simp
  · right
    have hone : (1 : ℚ) ≤ c := by exact_mod_cast hpos
    have hless : (c : ℚ) < 10 ^ (k : ℤ) := by
      rw [zpow_natCast]
      exact_mod_cast hc
    have hpower : (0 : ℚ) < 10 ^ e := by positivity
    have hworth : (0 : ℚ) < c * 10 ^ e := by positivity
    constructor
    · refine (Int.zpow_le_iff_le_log (by norm_num) hworth).mp ?_
      push_cast
      nlinarith
    · refine (Int.lt_zpow_iff_log_lt (by norm_num) hworth).mp ?_
      push_cast
      rw [add_comm, zpow_add₀ (by norm_num)]
      exact mul_lt_mul_of_pos_right hless hpower

/-! ## The shortest decimal -/

theorem value_stripZeros (c : ℕ) (k : ℤ) :
    ((stripZeros c k).1 : ℚ) * 10 ^ (stripZeros c k).2 = c * 10 ^ k := by
  fun_induction stripZeros c k with
  | case1 c k h ih =>
    have hten : c = c / 10 * 10 := by omega
    rw [ih, zpow_add₀ (by norm_num), zpow_one]
    conv_rhs => rw [hten]
    push_cast
    ring
  | case2 c k h => rfl

theorem two_pow_le_ten_pow {m n : ℕ} (h : m ≤ n) : 2 ^ m ≤ 10 ^ n :=
  (Nat.pow_le_pow_left (by decide) m).trans (Nat.pow_le_pow_right (by decide) h)

theorem leadingExponent_bounds {num den a b : ℕ} (ha : 0 < a) (hb : 0 < b) (hnum : num < 10 ^ a)
    (hden : den < 10 ^ b) : -(b : ℤ) ≤ leadingExponent num den ∧ leadingExponent num den < a := by
  have hnum' : (Nat.toDigits 10 num).length ≤ a := (digitCount_le_iff ha).mpr hnum
  have hden' : (Nat.toDigits 10 den).length ≤ b := (digitCount_le_iff hb).mpr hden
  have hnumpos : 0 < (Nat.toDigits 10 num).length := digitCount_pos num
  have hdenpos : 0 < (Nat.toDigits 10 den).length := digitCount_pos den
  unfold leadingExponent
  dsimp only
  split_ifs <;> omega

/-- What is found on a grid is next to the number. -/
theorem onGrid?_le {m c : ℕ} {e k : ℤ} (h : onGrid? m e k = some c) :
    c ≤ 4 * m * (commonScale k (e - 2)).2 + 1 := by
  unfold onGrid? at h
  rcases hscale : commonScale k (e - 2) with ⟨p, q⟩
  simp only [hscale] at h
  show c ≤ 4 * m * q + 1
  have hle : 4 * m * q / p ≤ 4 * m * q := Nat.div_le_self _ _
  generalize 4 * m * q / p = below at h hle
  split at h
  · split_ifs at h <;> obtain rfl := Option.some.inj h <;> omega
  · obtain rfl := Option.some.inj h
    omega
  · obtain rfl := Option.some.inj h
    omega
  · cases h

/-- The shortest decimal of a binary number has neither too many digits nor too large an
exponent. -/
theorem shortest_bounds {m : ℕ} {e : ℤ} (hm : m ≤ 2 ^ 53) (hlow : -1074 ≤ e) (hhigh : e ≤ 971) :
    ∃ (c j : ℕ) (k : ℤ), ((shortest m e).1 : ℚ) * 10 ^ (shortest m e).2 = c * 10 ^ k ∧
      c < 10 ^ j ∧ j ≤ 2200 ∧ -1100 ≤ k ∧ k ≤ 1100 := by
  have hm' : m ≤ 10 ^ 53 := hm.trans (two_pow_le_ten_pow le_rfl)
  unfold shortest
  split_ifs with hzero
  · exact ⟨0, 0, 0, rfl, by decide, by decide, by decide, by decide⟩
  · rcases hscale : Binary64.scaleDown m 1 (-e) with ⟨num, den⟩
    obtain ⟨rfl, rfl⟩ : m * 2 ^ (- -e).toNat = num ∧ 1 * 2 ^ (-e).toNat = den := by
      simpa [Binary64.scaleDown] using hscale
    have hnum : m * 2 ^ (- -e).toNat < 10 ^ (54 + (- -e).toNat) := by
      have := Nat.mul_le_mul hm' (two_pow_le_ten_pow (le_refl (- -e).toNat))
      rw [← Nat.pow_add] at this
      exact this.trans_lt (Nat.pow_lt_pow_right (by decide) (by omega))
    have hden : 1 * 2 ^ (-e).toNat < 10 ^ ((-e).toNat + 1) := by
      rw [Nat.one_mul]
      exact (two_pow_le_ten_pow le_rfl).trans_lt (Nat.pow_lt_pow_right (by decide) (by omega))
    have hfirst := leadingExponent_bounds (by omega) (by omega) hnum hden
    dsimp only
    rw [value_stripZeros]
    generalize leadingExponent (m * 2 ^ (- -e).toNat) (1 * 2 ^ (-e).toNat) = first at hfirst ⊢
    generalize hfound : (List.range 17).findSome? _ = found
    cases found with
    | none => exact ⟨0, 0, 0, rfl, by decide, by decide, by decide, by decide⟩
    | some ck =>
      obtain ⟨n, hn, hgrid⟩ := List.exists_of_findSome?_eq_some hfound
      obtain ⟨c, hc, rfl⟩ := Option.map_eq_some_iff.mp hgrid
      -- a grid that is too fine only makes the coefficient longer by as much
      have hfew := List.mem_range.mp hn
      have hle : c ≤ 4 * m * (2 ^ (e - 2).toNat * 10 ^ (-(first - n)).toNat) + 1 := onGrid?_le hc
      refine ⟨c, 54 + (e - 2).toNat + (-(first - n)).toNat, first - n, rfl, ?_, by omega, by omega,
        by omega⟩
      generalize (e - 2).toNat = a at hle ⊢
      generalize (-(first - n)).toNat = b at hle ⊢
      have hmost : m * (2 ^ a * 10 ^ b) ≤ 10 ^ 53 * (10 ^ a * 10 ^ b) :=
        Nat.mul_le_mul hm' (Nat.mul_le_mul_right _ (two_pow_le_ten_pow le_rfl))
      have hpower : 10 ^ (54 + a + b) = 10 * (10 ^ 53 * (10 ^ a * 10 ^ b)) := by ring
      have hpos : 0 < 10 ^ 53 * (10 ^ a * 10 ^ b) := by positivity
      rw [Nat.mul_assoc] at hle
      omega

/-! ## The nearest binary number -/

theorem roundRatio_le (num den : ℕ) : Binary64.roundRatio num den ≤ num / den + 1 := by
  unfold Binary64.roundRatio
  dsimp only
  split_ifs <;> omega

end Decimal

namespace Binary64

theorem scaleDown_lt_iff (num den : ℕ) (e : ℤ) (k : ℕ) :
    (scaleDown num den e).1 < (scaleDown num den e).2 * 2 ^ k ↔
      (num : ℚ) < den * 2 ^ (e + k) := by
  have htwo : (2 : ℚ) ≠ 0 := by norm_num
  have hsplit : (2 : ℚ) ^ (e + k) = 2 ^ e.toNat * 2 ^ k / 2 ^ (-e).toNat := by
    rw [zpow_add₀ htwo, zpow_eq_div htwo e, zpow_natCast, div_mul_eq_mul_div]
  have hpos : (0 : ℚ) < 2 ^ (-e).toNat := by positivity
  rw [hsplit, ← mul_div_assoc, lt_div_iff₀ hpos, ← mul_assoc]
  simp only [scaleDown, Nat.pow_eq]
  exact_mod_cast Iff.rfl

/-- With its exponent a ratio has a mantissa of at most 53 bits. -/
theorem lt_bitExponent {num den : ℕ} (hden : 0 < den) :
    (num : ℚ) < den * 2 ^ (bitExponent num den + 53) := by
  unfold bitExponent
  generalize he : (Nat.log2 num : ℤ) - Nat.log2 den - 52 = e
  have hscaled := scaleDown_lt_iff num den e 52
  dsimp only
  split_ifs with hless
  · have h := hscaled.mp hless
    rwa [show e - 1 + 53 = e + (52 : ℕ) by push_cast; ring]
  · have hnum : (num : ℚ) < 2 ^ ((Nat.log2 num : ℤ) + 1) := by
      have := Nat.lt_log2_self (n := num)
      exact_mod_cast this
    have hlow : (2 : ℚ) ^ (Nat.log2 den : ℤ) ≤ den := by
      have := Nat.log2_self_le hden.ne'
      exact_mod_cast this
    calc (num : ℚ) < 2 ^ ((Nat.log2 num : ℤ) + 1) := hnum
      _ = 2 ^ (Nat.log2 den : ℤ) * 2 ^ (e + 53) := by
          rw [← zpow_add₀ (by norm_num)]
          congr 1
          omega
      _ ≤ den * 2 ^ (e + 53) := by gcongr

/-- Rounded at its exponent or at a larger one, a ratio has a mantissa of at most 53 bits, or the
power of two above them. -/
theorem roundRatio_scaleDown_le {num den : ℕ} {e : ℤ} (hden : 0 < den)
    (he : bitExponent num den ≤ e) :
    roundRatio (scaleDown num den e).1 (scaleDown num den e).2 ≤ 2 ^ 53 := by
  have hexponent : bitExponent num den + 53 ≤ e + (53 : ℕ) := by omega
  have hpower : (2 : ℚ) ^ (bitExponent num den + 53) ≤ 2 ^ (e + (53 : ℕ)) :=
    zpow_le_zpow_right₀ (by norm_num) hexponent
  have hfew : (num : ℚ) < den * 2 ^ (e + (53 : ℕ)) :=
    (lt_bitExponent hden).trans_le (mul_le_mul_of_nonneg_left hpower (Nat.cast_nonneg den))
  have hless := (scaleDown_lt_iff num den e 53).mpr hfew
  exact (roundRatio_le _ _).trans (Nat.div_lt_of_lt_mul hless)

/-- Rounding, the carry into one more bit and the test of the exponent, for any way to scale and to
round: with the binary ones in place the kernel would evaluate their divisions. -/
theorem bounds_of_carried (scale : ℤ → ℕ × ℕ) {round : ℕ → ℕ → ℕ} {negative negative' : Bool}
    {half full most m : ℕ} {e₀ e : ℤ} (hhalf : half ≤ most)
    (hround : round (scale e₀).1 (scale e₀).2 ≤ most) (hlow : -1074 ≤ e₀)
    (h : (let e := e₀
      let (n, d) := scale e
      let m := round n d
      let (m, e) := if m = full then (half, e + 1) else (m, e)
      if e > 971 then infinite negative else finite negative m e) = finite negative' m e) :
    m ≤ most ∧ -1074 ≤ e ∧ e ≤ 971 := by
  dsimp only at h
  generalize round (scale e₀).1 (scale e₀).2 = m₀ at h hround
  split_ifs at h with hcarry hbig hbig
  · obtain ⟨-, rfl, rfl⟩ := (Binary64.finite.injEq ..).mp h
    exact ⟨hhalf, by omega, by omega⟩
  · obtain ⟨-, rfl, rfl⟩ := (Binary64.finite.injEq ..).mp h
    exact ⟨hround, hlow, by omega⟩

/-- The number nearest to a ratio has a mantissa of at most 53 bits, or the power of two above
them, and an exponent in the range. -/
theorem ofRatio_bounds {negative negative' : Bool} {num den m : ℕ} {e : ℤ} (hden : 0 < den)
    (h : ofRatio negative num den = .finite negative' m e) :
    m ≤ 2 ^ 53 ∧ -1074 ≤ e ∧ e ≤ 971 := by
  have hhalf : Nat.pow 2 52 ≤ 2 ^ 53 := Nat.pow_le_pow_right (by decide) (by decide)
  have hmantissa := roundRatio_scaleDown_le hden (le_max_left (bitExponent num den) (-1074))
  have hlow : -1074 ≤ max (bitExponent num den) (-1074) := le_max_right _ _
  unfold ofRatio at h
  split_ifs at h with hzero
  · obtain ⟨-, rfl, rfl⟩ := (Binary64.finite.injEq ..).mp h
    exact ⟨Nat.zero_le _, by decide, by decide⟩
  · exact bounds_of_carried (scaleDown num den) hhalf hmantissa hlow h

end Binary64

/-! ## Values -/

namespace Value

variable {p : Parts}

theorem binaryOf_bounds {q : ℚ} {negative : Bool} {m : ℕ} {e : ℤ}
    (h : Number.binaryOf q = .ok (.finite negative m e)) :
    m ≤ 2 ^ 53 ∧ -1074 ≤ e ∧ e ≤ 971 := by
  unfold Number.binaryOf at h
  rcases hratio : Binary64.ofRatio (decide (q < 0)) q.num.natAbs q.den with _ | _ | ⟨n, m', e'⟩
  · rw [hratio] at h
    cases h
  · rw [hratio] at h
    cases h
  · rw [hratio] at h
    obtain ⟨rfl, rfl, rfl⟩ := (Binary64.finite.injEq ..).mp (Except.ok.inj h)
    exact Binary64.ofRatio_bounds q.den_pos hratio

theorem natAbs_exponent_integer {n : ℕ} (hp : (Value.int n).parts = .ok p) (h : p.IsNormal) :
    p.exponent.natAbs < 10 ^ 7 := by
  obtain ⟨hdigits, -⟩ := isDigits_of_parts_integer n hp
  cases hwritable : isWritableInteger n with
  | true =>
    obtain ⟨p', hp', -, -, hworth⟩ := parts_integer n hwritable
    obtain rfl : p' = p := Except.ok.inj (hp'.symm.trans hp)
    have hfew : n < Nat.pow 10 Text.greatestDigitCount :=
      Int.natAbs_natCast n ▸ of_decide_eq_true hwritable
    obtain ⟨k, hk⟩ : ∃ k, k = Text.greatestDigitCount := ⟨_, rfl⟩
    rw [← hk, Nat.pow_eq] at hfew
    have := p'.exponent_bounds hdigits h (e := 0) (by rw [hworth, zpow_zero, mul_one]) hfew
    have hlimit : Text.greatestDigitCount = 4300 := rfl
    omega
  | false =>
    rw [parts, hwritable] at hp
    cases hp

theorem natAbs_exponent_binary {m : ℕ} {e : ℤ} (hm : m ≤ 2 ^ 53) (hlow : -1074 ≤ e)
    (hhigh : e ≤ 971) (hp : (Value.float (.finite false m e)).parts = .ok p) (h : p.IsNormal) :
    p.exponent.natAbs < 10 ^ 7 := by
  obtain ⟨p', -, hp', hdigits, -, hworth, -⟩ := parts_binary m e
  obtain rfl : p' = p := Except.ok.inj (hp'.symm.trans hp)
  obtain ⟨c, j, k, hvalue, hc, hj, hk, hk'⟩ := shortest_bounds hm hlow hhigh
  have := p'.exponent_bounds hdigits h (hworth.trans hvalue) hc
  omega

theorem natAbs_exponent_decimal {negative : Bool} {c c' : ℕ} {e e' : ℤ}
    (hfitted : fitted negative c e = .ok (.finite negative c' e'))
    (hp : (Value.decimal (.finite false c' e')).parts = .ok p) (h : p.IsNormal) :
    p.exponent.natAbs < 10 ^ 7 := by
  obtain ⟨p', hp', hdigits, -, hworth⟩ := parts_decimal c' e'
  obtain rfl : p' = p := Except.ok.inj (hp'.symm.trans hp)
  obtain ⟨-, htiny, hmax⟩ := bounds_of_fitted hfitted
  have hlowest : tinyExponent = -1000026 := rfl
  have hhighest : maxExponent = 999999 := rfl
  unfold adjusted at hmax
  have := p'.exponent_bounds hdigits h hworth (lt_pow_digitCount c')
  omega

/-- The exponent of the first digit of a real value is bounded. -/
theorem natAbs_exponent_lt {v : Value} (hv : v.IsFiniteReal) (hformat : v.InFormat)
    (hp : v.magnitudeParts = .ok p) : p.exponent.natAbs < 10 ^ 7 := by
  have h := isNormal_of_magnitudeParts hp
  obtain ⟨n, hp⟩ | ⟨m, e, hp, ⟨negative, rfl⟩ | ⟨q, hq⟩⟩ | ⟨c, c', e, e', hfitted, hp⟩ :=
    exists_parts hv hp
  · exact natAbs_exponent_integer hp h
  · obtain ⟨hm, hlow, hhigh⟩ := hformat
    exact natAbs_exponent_binary hm.le hlow hhigh hp h
  · obtain ⟨hm, hlow, hhigh⟩ := binaryOf_bounds hq
    exact natAbs_exponent_binary hm hlow hhigh hp h
  · exact natAbs_exponent_decimal hfitted hp h

end Value

end Tilde
