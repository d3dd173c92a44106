import Mathlib.Data.Int.Log
import Tilde.Decimal.Exponential
import Tilde.Proofs.Decimal.Parts

/-!
# The first significant digit

Significant digits do not begin with a zero unless the number is zero. So the exponent that goes
with them is that of the number, and stays so when the digits are rounded to fewer of them.

* `Parts.IsNormal`: the digits do not begin with a zero, or are that zero alone;
* `Parts.log_worth`: the exponent is the integral logarithm of the number;
* `halfUpDigits`: rounding to significant digits;
* **`worth_roundedMantissa`**: the mantissa of an exponential field is rounded so.
-/

namespace Tilde

namespace Decimal

/-! ## Digits that do not begin with a zero -/

/-- The digits do not begin with a zero, or the number is zero and they are that zero. -/
def Parts.IsNormal (p : Parts) : Prop :=
  p = ⟨['0'], 0⟩ ∨ ∃ c s, p.digits = c :: s ∧ c ≠ '0'

theorem digitValue_pos {c : Char} (hc : c.isDigit = true) : 0 < digitValue c ↔ c ≠ '0' := by
  simp only [Char.isDigit, Bool.and_eq_true, decide_eq_true_eq] at hc
  have hlow : 48 ≤ c.toNat := hc.1
  simp only [digitValue, Char.reduceToNat]
  constructor
  · rintro hpos rfl
    exact absurd hpos (by decide)
  · intro hne
    by_contra hnone
    exact hne (Char.ext (UInt32.toNat_inj.mp (show c.toNat = 48 by omega)))

/-- A number has as many digits as it is written with if these do not begin with a zero. -/
theorem head_ne_zero_iff {c : Char} {s : Text} (h : IsDigits (c :: s)) :
    c ≠ '0' ↔ 10 ^ s.length ≤ valueOf (c :: s) := by
  have hrest := valueOf_lt (s := s) fun d hd => h d (List.mem_cons_of_mem c hd)
  rw [← digitValue_pos (h c List.mem_cons_self), valueOf_cons]
  constructor
  · intro hpos
    have := Nat.mul_le_mul_right (10 ^ s.length) hpos
    omega
  · intro hle
    by_contra hnone
    rw [Nat.eq_zero_of_not_pos hnone] at hle
    omega

theorem Parts.isNormal_normal (s : Text) (e : ℤ) : (Parts.normal s e).IsNormal := by
  unfold Parts.normal
  dsimp only
  split_ifs with hnone
  · exact .inl rfl
  · have hsome : (dropTrailingZeros s).dropWhile (· == '0') ≠ [] := by simpa using hnone
    obtain ⟨c, t, hct⟩ := List.exists_cons_of_ne_nil hsome
    refine .inr ⟨c, t, hct, ?_⟩
    have hhead := List.head_dropWhile_not (· == '0') hsome
    simpa [hct] using hhead

/-- The exponent of the first digit is the integral logarithm of the number. -/
theorem Parts.log_worth {p : Parts} (hdigits : IsDigits p.digits) (h : p.IsNormal) :
    Int.log 10 p.worth = p.exponent := by
  obtain rfl | ⟨c, s, hcs, hc⟩ := h
  · simp [Parts.worth]
  · have hlow : (10 : ℚ) ^ p.exponent ≤ p.worth := by
      have hvalue : ((10 : ℚ) ^ (s.length : ℤ)) ≤ valueOf p.digits := by
        rw [hcs, zpow_natCast]
        exact_mod_cast (head_ne_zero_iff (hcs ▸ hdigits)).mp hc
      have hexponent : p.exponent - p.digits.length + 1 = p.exponent - s.length := by
        rw [hcs, List.length_cons]
        push_cast
        ring
      calc (10 : ℚ) ^ p.exponent = 10 ^ (s.length : ℤ) * 10 ^ (p.exponent - s.length) := by
            rw [← zpow_add₀ (by norm_num)]
            congr 1
            ring
        _ ≤ p.worth := by
            rw [Parts.worth, hexponent]
            gcongr
    have hpos : 0 < p.worth := lt_of_lt_of_le (by positivity) hlow
    refine le_antisymm ?_ ?_
    · exact Int.lt_add_one_iff.mp
        ((Int.lt_zpow_iff_log_lt (by norm_num) hpos).mp (by exact_mod_cast Parts.worth_lt hdigits))
    · exact (Int.zpow_le_iff_le_log (by norm_num) hpos).mp (by exact_mod_cast hlow)

/-! ## Rounding to significant digits -/

/-- The number rounded to so many significant digits, a half going up. -/
def halfUpDigits (q : ℚ) (n : ℤ) : ℚ := halfUp q (n - 1 - Int.log 10 q)

/-- After a carry the digits are a one and zeros. -/
theorem digits_of_carried {s : Text} {e : ℤ} {n : ℕ} (hn : 0 < n) (hlen : n < s.length)
    (h : (cutAt s e n).carried = true) :
    (cutAt s e n).digits = '1' :: List.replicate (n - 1) '0' := by
  have hkept : (s.take n).length = n := List.length_take_of_le hlen.le
  unfold cutAt at h ⊢
  cases hrest : s.drop n with
  | nil => simp [hrest] at h
  | cons c t =>
    simp only [hrest] at h ⊢
    split_ifs at h ⊢ with hup hmore
    have hones := (length_increment (s.take n)).resolve_left (by omega)
    obtain ⟨m, rfl⟩ := Nat.exists_eq_succ_of_ne_zero hn.ne'
    rw [hones, hkept, List.dropLast_cons_of_ne_nil (by simp), List.dropLast_replicate]

/-- Digits that are cut do not begin with a zero either. -/
theorem isNormal_cutAt {p : Parts} (hdigits : IsDigits p.digits) (h : p.IsNormal) {n : ℕ}
    (hn : 0 < n) (hcarried : (cutAt p.digits p.exponent n).carried = false) :
    Parts.IsNormal ⟨(cutAt p.digits p.exponent n).digits, p.exponent⟩ := by
  obtain ⟨m, rfl⟩ := Nat.exists_eq_succ_of_ne_zero hn.ne'
  obtain rfl | ⟨c, s, hcs, hc⟩ := h
  · left
    cases m <;> rfl
  · right
    have hkept : (p.digits.take (m + 1)) = c :: s.take m := by rw [hcs, List.take_succ_cons]
    have hsome := hdigits.take (m + 1)
    unfold cutAt at hcarried ⊢
    cases hrest : p.digits.drop (m + 1) with
    | nil => exact ⟨c, _, hkept, hc⟩
    | cons d t =>
      simp only [hrest] at hcarried ⊢
      split_ifs at hcarried ⊢ with hup hmore
      · -- the next number has as many digits, so that it does not begin with a zero
        rw [hkept] at hmore hsome ⊢
        obtain ⟨hincreased, hsucc⟩ := valueOf_increment hsome
        have hlength := length_increment (c :: s.take m)
        obtain ⟨c', s', hcs'⟩ := List.exists_cons_of_length_pos
          (show 0 < (increment (c :: s.take m)).length by
            rcases hlength with h | h <;> simp [h])
        refine ⟨c', s', hcs', ?_⟩
        rw [hcs'] at hincreased hsucc
        have hless := (head_ne_zero_iff hsome).mp hc
        have hsame : s'.length = (s.take m).length := by
          rcases hlength with h | h
          · simpa [hcs'] using h
          · rw [h] at hmore
            simp at hmore
        rw [head_ne_zero_iff hincreased, hsame]
        omega
      · exact ⟨c, _, hkept, hc⟩

/-- The mantissa of an exponential field stands for the number rounded half-up to as many
significant digits as it may have, and does not begin with a zero. -/
theorem worth_roundedMantissa (style : FloatStyle) (signWidth : ℕ) {p : Parts}
    (hdigits : IsDigits p.digits) (hne : p.digits ≠ []) (h : p.IsNormal) :
    let q := roundedMantissa style signWidth p
    IsDigits q.digits ∧ q.digits ≠ [] ∧ q.IsNormal ∧
      match mantissaDigits? style signWidth p.exponent with
      | none => q.worth = p.worth
      | some n => 0 < n ∧ q.digits.length ≤ n ∧ q.worth = halfUpDigits p.worth n := by
  unfold roundedMantissa
  cases hcount : mantissaDigits? style signWidth p.exponent with
  | none => exact ⟨hdigits, hne, h, rfl⟩
  | some n =>
    have hn : 0 < n := by
      unfold mantissaDigits? at hcount
      obtain ⟨k, -, rfl⟩ := Option.map_eq_some_iff.mp hcount
      omega
    obtain ⟨hcut, hlength, hworth⟩ := worth_cutAt hdigits p.exponent hn
    have hpos := List.length_pos_iff.mpr hne
    have hsome : (cutAt p.digits p.exponent n).digits ≠ [] :=
      List.ne_nil_of_length_pos (by omega)
    have hround : halfUpDigits p.worth n = halfUp p.worth (n - p.exponent - 1) := by
      rw [halfUpDigits, Parts.log_worth hdigits h]
      congr 1
      ring
    dsimp only
    rw [hround]
    cases hcarried : (cutAt p.digits p.exponent n).carried with
    | false =>
      have hleading : (cutAt p.digits p.exponent n).leading = p.exponent := by
        rw [Rounded.leading, hcarried, exponent_cutAt]
        rfl
      rw [hleading] at hworth
      exact ⟨hcut, hsome, isNormal_cutAt hdigits h hn hcarried, hn, by simp [hlength], hworth⟩
    | true =>
      have hlong : n < p.digits.length := by
        by_contra hshort
        have hall : p.digits.drop n = [] := List.drop_eq_nil_iff.mpr (by omega)
        simp [cutAt, hall] at hcarried
      have hleading : (cutAt p.digits p.exponent n).leading = p.exponent + 1 := by
        rw [Rounded.leading, hcarried, exponent_cutAt]
        rfl
      rw [digits_of_carried hn hlong hcarried, hleading, Parts.worth_one_zeros] at hworth
      have hone := Parts.worth_one_zeros 0 (p.exponent + 1)
      have hdigit : IsDigits ['1'] := by decide
      refine ⟨hdigit, by simp, .inr ⟨'1', [], rfl, by decide⟩, hn, hn, ?_⟩
      rw [← hworth]
      exact hone

end Decimal

/-! ## The digits of values -/

namespace Value

open Decimal

theorem exists_normal_of_readParts {s : Text} {p : Parts} (h : readParts s = .ok p) :
    ∃ digits exponent, p = Parts.normal digits exponent := by
  unfold readParts at h
  split at h
  · rename_i q hread
    rw [Parts.read?_eq] at hread
    obtain ⟨shift, -, hnormal⟩ := Option.map_eq_some_iff.mp hread
    rw [← Except.ok.inj h]
    exact ⟨_, _, hnormal.symm⟩
  · cases h

theorem isNormal_of_readParts {s : Text} {p : Parts} (h : readParts s = .ok p) : p.IsNormal := by
  obtain ⟨digits, exponent, rfl⟩ := exists_normal_of_readParts h
  exact Parts.isNormal_normal digits exponent

/-- The digits of a value are read off a text. -/
theorem exists_readParts {v : Value} {p : Parts} (h : v.parts = .ok p) :
    ∃ s, readParts s = .ok p := by
  have htext : ∀ {s : Text}, textParts s = .ok p → ∃ s, readParts s = .ok p := fun {s} hs => by
    unfold textParts at hs
    split at hs
    · exact ⟨_, hs⟩
    · cases hs
  unfold parts at h
  split at h
  · cases h
  · split_ifs at h
    exact ⟨_, h⟩
  · exact ⟨_, h⟩
  · exact ⟨_, h⟩
  · obtain ⟨x, -, h⟩ := exists_of_bind_ok h
    exact ⟨_, h⟩
  · exact htext h
  · split_ifs at h
    exact htext h
  · cases h

/-- The digits of a value do not begin with a zero. -/
theorem isNormal_of_parts {v : Value} {p : Parts} (h : v.parts = .ok p) : p.IsNormal := by
  obtain ⟨s, hs⟩ := exists_readParts h
  exact isNormal_of_readParts hs

theorem isNormal_of_magnitudeParts {v : Value} {p : Parts} (h : v.magnitudeParts = .ok p) :
    p.IsNormal := by
  obtain ⟨w, -, h⟩ := exists_of_bind_ok h
  exact isNormal_of_parts h

end Value

end Tilde
