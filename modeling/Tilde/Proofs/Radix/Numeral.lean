import Mathlib.Data.List.Induction
import Tilde.Print
import Tilde.Proofs.Field.ZeroFilled

/-!
# Numerals

An integer has one numeral in a radix: a minus sign if it is negative, and digits that write its
magnitude, without zeros in front of them.

* `valueOf`: the number that digits write in a radix;
* `IsCanonical`: digits of the radix, with no zero too many;
* `IsNumeral`: the numeral of an integer;
* **`eq_digits_of_isCanonical`**: digits without zeros in front are those of their number;
* **`Value.digits_isNumeral`**: integers are written by their numerals, in whatever way the digits
  are found.
-/

namespace Tilde

namespace Radix

variable {base n : ℕ} {s : Text} {c : Char}

/-! ## What digits write -/

/-- The number that digits write, the most significant digit first. -/
def valueOf (base : ℕ) (s : Text) : ℕ := s.foldl (fun n c => base * n + digitChars.idxOf c) 0

theorem valueOf_concat (base : ℕ) (s : Text) (c : Char) :
    valueOf base (s ++ [c]) = base * valueOf base s + digitChars.idxOf c := by
  rw [valueOf, List.foldl_append]
  rfl

theorem idxOf_digitChar {d : ℕ} (hd : d < 36) : digitChars.idxOf (digitChar d) = d := by
  have h : ∀ d < 36, digitChars.idxOf (digitChar d) = d := by decide
  exact h d hd

theorem valueOf_significantDigits (hbase : 2 ≤ base ∧ base ≤ 36) (n : ℕ) :
    valueOf base (significantDigits base n) = n := by
  induction n using Nat.strongRecOn with
  | ind n ih =>
    rcases Nat.eq_zero_or_pos n with rfl | hn
    · rw [significantDigits_zero]
      rfl
    have hlast : n % base < base := Nat.mod_lt n (by omega)
    rw [significantDigits_pos hbase.1 hn, valueOf_concat, ih _ (Nat.div_lt_self hn hbase.1),
      idxOf_digitChar (by omega)]
    exact Nat.div_add_mod n base

theorem valueOf_digits (hbase : 2 ≤ base ∧ base ≤ 36) (n : ℕ) : valueOf base (digits base n) = n := by
  unfold digits
  split_ifs with hn
  · rw [hn]
    rfl
  · exact valueOf_significantDigits hbase n

/-! ## Digits without zeros in front -/

/-- Digits of the radix, at least one of them, of which the first is a zero only if it is the only
one. -/
structure IsCanonical (base : ℕ) (s : Text) : Prop where
  digits : ∀ c ∈ s, ∃ d < base, c = digitChar d
  ne_nil : s ≠ []
  head : s.head? = some '0' → s = ['0']

theorem isCanonical_digits (hbase : 2 ≤ base ∧ base ≤ 36) (n : ℕ) :
    IsCanonical base (digits base n) where
  digits c hc := exists_of_mem_digits (by omega) hc
  ne_nil := digits_ne_nil hbase.1 n
  head hzero := by
    by_cases hn : n = 0
    · rw [digits, if_pos hn]
    · rw [digits, if_neg hn] at hzero
      exact absurd rfl (head_significantDigits hbase n '0' hzero)

/-- Digits that do not begin with a zero are the significant ones of the number that they write. -/
theorem eq_significantDigits (hbase : 2 ≤ base ∧ base ≤ 36)
    (hdigits : ∀ c ∈ s, ∃ d < base, c = digitChar d) (hhead : s.head? ≠ some '0') :
    s = significantDigits base (valueOf base s) := by
  induction s using List.reverseRecOn with
  | nil => exact (significantDigits_zero base).symm
  | append_singleton s c ih =>
    obtain ⟨d, hd, rfl⟩ := hdigits c (by simp)
    have hfront : s.head? ≠ some '0' := fun h => hhead (by rw [List.head?_append, h]; rfl)
    have hs := ih (fun c hc => hdigits c (by simp [hc])) hfront
    rw [valueOf_concat, idxOf_digitChar (by omega)]
    -- a number is zero only if it has no digits at all
    have hpos : 0 < base * valueOf base s + d := by
      by_contra hzero
      obtain ⟨hproduct, rfl⟩ : base * valueOf base s = 0 ∧ d = 0 := by omega
      rcases Nat.mul_eq_zero.mp hproduct with h | h
      · omega
      · rw [h, significantDigits_zero] at hs
        subst hs
        exact hhead rfl
    have hquotient : (base * valueOf base s + d) / base = valueOf base s := by
      rw [Nat.mul_add_div (by omega), Nat.div_eq_of_lt hd, Nat.add_zero]
    have hrest : (base * valueOf base s + d) % base = d := by
      rw [Nat.mul_add_mod, Nat.mod_eq_of_lt hd]
    rw [significantDigits_pos hbase.1 hpos, hquotient, hrest, ← hs]

/-- **There is one way to write a number:** digits with no zero too many are those of the number that
they write. -/
theorem eq_digits_of_isCanonical (hbase : 2 ≤ base ∧ base ≤ 36) (h : IsCanonical base s) :
    s = digits base (valueOf base s) := by
  by_cases hzero : s.head? = some '0'
  · rw [h.head hzero]
    rfl
  · have hs := eq_significantDigits hbase h.digits hzero
    unfold digits
    rw [if_neg]
    · exact hs
    · intro hvalue
      rw [hvalue, significantDigits_zero] at hs
      exact h.ne_nil hs

/-! ## Numerals of integers -/

/-- The text is the numeral of the integer: a minus sign for a negative one, and digits that write
its magnitude, with no zero too many. -/
def IsNumeral (base : ℕ) (n : ℤ) (s : Text) : Prop :=
  ∃ ds, s = (if n < 0 then ['-'] else []) ++ ds ∧ IsCanonical base ds ∧ valueOf base ds = n.natAbs

theorem isNumeral_iff (hbase : 2 ≤ base ∧ base ≤ 36) (n : ℤ) (s : Text) :
    IsNumeral base n s ↔ s = sign n ++ digits base n.natAbs := by
  constructor
  · rintro ⟨ds, rfl, hcanonical, hvalue⟩
    rw [← hvalue, ← eq_digits_of_isCanonical hbase hcanonical]
    rfl
  · rintro rfl
    exact ⟨_, rfl, isCanonical_digits hbase _, valueOf_digits hbase _⟩

end Radix

/-! ## Integers among the values -/

namespace Value

variable {radix : ℕ}

theorem digits_integer (hradix : 2 ≤ radix ∧ radix ≤ 36) (n : ℤ) :
    (Value.int n).digits (.int radix) = .ok (Radix.sign n ++ Radix.digits radix n.natAbs) := by
  have hmagnitude : (Number.integer n).magnitude = .ok (.integer n.natAbs) := rfl
  have hnumber : (Value.int n).asNumber = .ok (.integer n) := rfl
  simp only [digits, isBelowZero_integer, hnumber, hmagnitude, magnitudeDigits_integer hradix, ok_bind,
    decide_eq_true_eq]
  rfl

end Value

theorem integerText_integer {o : Options} {radix : ℕ} (hradix : 2 ≤ radix ∧ radix ≤ 36)
    (hbase : o.base = radix) (hplain : o.showRadix = false) (n : ℤ) :
    integerText n o = .ok (Radix.sign n ++ Radix.digits radix n.natAbs) := by
  have hinRange : Radix.InRange radix := ⟨by omega, by omega⟩
  have hsign : Radix.sign (n.natAbs : ℤ) = [] := if_neg (by omega)
  have hnumeral : Radix.numeral? n.natAbs radix = some (Radix.digits radix n.natAbs) := by
    rw [Radix.numeral?, if_pos hinRange, Radix.numeral, hsign, Radix.magnitude_eq_digits]
    rfl
  unfold integerText
  rw [hbase, hplain, hnumeral]
  exact congrArg (Except.ok <| · ++ _) (List.append_nil _)

end Tilde
