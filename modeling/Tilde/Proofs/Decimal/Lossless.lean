import Tilde.Proofs.Decimal.Agreement
import Tilde.Proofs.Decimal.Fitted

/-!
# Fields without settings

Without settings the fixed-point and the exponential field show all the digits of a number. What
gets lost is lost before: decimal numbers are rounded when their absolute value is taken, and
integers with too many digits have no written form.

* `exists_fixed_free`, `exists_exponential_free`: the fields without settings;
* `showsExactly_field_iff`: a field shows what the digits of the absolute value stand for;
* **`showsExactly_iff`**: which numbers are shown exactly.
-/

namespace Tilde

open Decimal

/-! ## Fields that are told nothing -/

namespace Decimal

theorem IsNumeral.spells {s : Text} {places : ℕ} {q : ℚ} (h : IsNumeral s places q) :
    Spells s q := by
  obtain ⟨whole, frac, rfl, hdigits, hne, rfl, rfl⟩ := h
  have h := Spells.intro whole ['.'] frac [] 0 hdigits hne (.inl rfl) .nothing
  rw [zero_sub, zpow_neg, zpow_natCast, ← div_eq_mul_inv] at h
  simpa using h

variable {p : Parts}

/-- Nothing is rounded, and no column is filled. -/
theorem exists_fixed_free (negative : Bool) (hdigits : IsDigits p.digits) (hne : p.digits ≠ []) :
    ∃ s, Spells s p.worth ∧ fixed {} negative p = signText false negative ++ s := by
  obtain ⟨s, n, hs, -, htext⟩ :=
    @exists_fixedText {} p negative hdigits hne (by rintro d ⟨⟩)
  have hexact : FloatStyle.rounds {} (signText false negative).length p = p.worth := by
    change Parts.worth ⟨p.digits, p.exponent + 0⟩ = p.worth
    rw [add_zero]
  rw [fixed_eq, htext]
  exact ⟨s, hexact ▸ hs.spells, rfl⟩

/-- Digits with the point behind the first one. -/
theorem spells_scientific {first : Char} {rest power : Text} {n : ℤ}
    (hdigits : IsDigits (first :: rest)) (hpower : IsPower power n) :
    Spells ([first] ++ ['.'] ++ rest ++ power) (Parts.worth ⟨first :: rest, n⟩) := by
  have h := Spells.intro [first] ['.'] rest power n hdigits (by simp) (.inl rfl) hpower
  have hfirst : n - ((first :: rest).length : ℤ) + 1 = n - rest.length := by
    rw [List.length_cons]
    push_cast
    ring
  rw [Parts.worth, hfirst]
  exact h

/-- The first digit stands in front of the point. -/
theorem exists_exponential_free (negative : Bool) (hdigits : IsDigits p.digits)
    (hne : p.digits ≠ []) :
    ∃ s, Spells s p.worth ∧
      exponential { scale := 1 } negative p = signText false negative ++ s := by
  obtain ⟨digits, e⟩ := p
  cases digits with
  | nil => exact absurd rfl hne
  | cons first rest =>
    have hpower : IsPower ('E' :: (if e < 0 then '-' else '+') :: Nat.toDigits 10 e.natAbs) e :=
      isPower_toDigits (.inr rfl) 0 e
    have htext : exponential { scale := 1 } negative ⟨first :: rest, e⟩ = signText false negative ++
        ([first] ++ ['.'] ++ orZero rest true ++
          'E' :: (if e < 0 then '-' else '+') :: Nat.toDigits 10 e.natAbs) := by
      rw [exponential_eq]
      simp [exponentialText, roundedMantissa, mantissaDigits?, wholeDigits, placeDigits,
        exponentPart, exponentDigitsOf, shownExponent, Text.padRight, magnitude_ten]
    refine ⟨_, ?_, htext⟩
    cases rest with
    | nil =>
      rw [← Parts.worth_append_zeros [first] 1 e]
      exact spells_scientific (hdigits.append (IsDigits.zeros 1)) hpower
    | cons c t => exact spells_scientific hdigits hpower

end Decimal

/-! ## What a field shows -/

/-- The field is a numeral for `q`, with a minus sign if `x` is below zero and only then. -/
def ShowsExactly (field : Except Fault Value) (x q : ℚ) : Prop :=
  ∃ text n, field = .ok (.text text) ∧ Numeral.read? text = some n ∧ n.value = q ∧
    (n.negative = true ↔ x < 0)

namespace RealSettings

variable {s : RealSettings} {plain : FloatStyle → Bool → Parts → Text}
  {lenient : RealSettings → Bool → Parts → Except Fault Value} {v : Value}

/-- A field that shows all the digits it is given shows a number if these digits stand for it. -/
theorem showsExactly_field_iff {style : FloatStyle} (hs : s.style? = some style)
    (hplus : s.plus = false)
    (hplain : ∀ negative (p : Parts), IsDigits p.digits → p.digits ≠ [] →
      ∃ t, Spells t p.worth ∧ plain style negative p = signText false negative ++ t)
    (hv : v.IsFiniteReal) {x : ℚ} (hnegative : v.isNegative false = .ok (decide (x < 0))) (q : ℚ) :
    ShowsExactly (s.field plain lenient v) x q ↔
      ∃ p, v.magnitudeParts = .ok p ∧ (if x < 0 then -p.worth else p.worth) = q := by
  rw [field_eq, hplus, hnegative, hs]
  cases hp : v.magnitudeParts with
  | error f =>
    constructor
    · rintro ⟨text, n, hfield, -⟩
      cases hfield
    · rintro ⟨p, ⟨⟩, -⟩
  | ok p =>
    obtain ⟨hdigits, hne⟩ := Value.isDigits_of_parts hv hp
    obtain ⟨t, ht, htext⟩ := hplain (decide (x < 0)) p hdigits hne
    obtain ⟨n, hread, hsign, hvalue⟩ := ht.read? false (decide (x < 0))
    simp only [decide_eq_true_eq] at hvalue
    constructor
    · rintro ⟨text, n', hfield, hread', rfl, -⟩
      obtain rfl : plain style (decide (x < 0)) p = text := by
        simpa [bind, Except.bind] using hfield
      rw [htext, hread, Option.some.injEq] at hread'
      exact ⟨p, rfl, hread' ▸ hvalue.symm⟩
    · rintro ⟨p', hp', rfl⟩
      obtain rfl : p = p' := Except.ok.inj hp'
      exact ⟨_, n, rfl, htext ▸ hread, hvalue, by rw [hsign, decide_eq_true_eq]⟩

end RealSettings

/-! ## The numbers -/

theorem Binary64.toRat?_finite (negative : Bool) (m : ℕ) (e : ℤ) :
    (Binary64.finite negative m e).toRat? =
      some ((if negative then -1 else 1) * ((m : ℚ) * 2 ^ e)) := by
  have hsplit : (2 : ℚ) ^ e = 2 ^ e.toNat / 2 ^ (-e).toNat := zpow_eq_div (by norm_num) e
  simp only [toRat?, scaleDown, Rat.mkRat_eq_div, hsplit, neg_neg]
  cases negative <;> simp [mul_div_assoc, neg_div]

theorem Decimal.toRat?_finite (negative : Bool) (c : ℕ) (e : ℤ) :
    (Decimal.finite negative c e).toRat? =
      some ((if negative then -1 else 1) * ((c : ℚ) * 10 ^ e)) := by
  have hsplit : (10 : ℚ) ^ e = 10 ^ e.toNat / 10 ^ (-e).toNat := zpow_eq_div (by norm_num) e
  rw [toRat?, Rat.mkRat_eq_div, hsplit]
  cases negative <;> simp [mul_div_assoc, neg_div]

namespace Value

/-- The exact value of a number; truth values and fractions are left out. -/
def exactValue? : Value → Option ℚ
  | .int n => some n
  | .float x => x.toRat?
  | .decimal d => d.toRat?
  | _ => none

/-- The number that the written form of a number stands for. -/
def writtenValue? : Value → Option ℚ
  | .float x => (Numeral.read? x.text).map Numeral.value
  | v => v.exactValue?

/-- The number has a written form, and its absolute value is the exact one. -/
def IsKept : Value → Prop
  | .int n => isWritableInteger n = true
  | .float _ => True
  | .decimal (.finite _ c e) => Decimal.IsKept c e
  | _ => False

/-- Without a sign that is printed anyway, only numbers below zero are negative. -/
theorem isNegative_false {v : Value} {b : Bool} (h : v.isBelowZero = .ok b) :
    v.isNegative false = .ok b := by
  cases b <;> cases v <;> simp [isNegative, h, bind, Except.bind, pure, Except.pure]

theorem signed_eq_iff (x w : ℚ) : (if x < 0 then -w else w) = x ↔ w = |x| := by
  split_ifs with h
  · rw [abs_of_neg h, neg_eq_iff_eq_neg]
  · rw [abs_of_nonneg (not_lt.mp h)]

/-- Exact numbers that are shown in full. -/
theorem exists_parts_integer_iff (n : ℤ) :
    (∃ p, (Value.int n).magnitudeParts = .ok p ∧ (if (n : ℚ) < 0 then -p.worth else p.worth) = n) ↔
      (Value.int n).IsKept := by
  have hsame : isWritableInteger n = isWritableInteger (n.natAbs : ℤ) := by
    rw [isWritableInteger, isWritableInteger, Int.natAbs_natCast]
  have habsolute : (Value.int n).absolute = .ok (.int n.natAbs) := rfl
  have hmagnitude : (Value.int n).magnitudeParts = (Value.int n.natAbs).parts := by
    simp only [magnitudeParts, habsolute, bind, Except.bind]
  rw [hmagnitude, IsKept, hsame]
  constructor
  · rintro ⟨p, hp, -⟩
    by_contra hlong
    rw [parts, if_neg hlong] at hp
    cases hp
  · intro hwritable
    obtain ⟨p, hp, -, -, hworth⟩ := parts_integer n.natAbs hwritable
    refine ⟨p, hp, (signed_eq_iff _ _).mpr ?_⟩
    rw [hworth, Nat.cast_natAbs, Int.cast_abs]

theorem exists_parts_decimal_iff (negative : Bool) (c : ℕ) (e : ℤ) {x : ℚ}
    (hx : (Decimal.finite negative c e).toRat? = some x) :
    (∃ p, (Value.decimal (.finite negative c e)).magnitudeParts = .ok p ∧
      (if x < 0 then -p.worth else p.worth) = x) ↔
        (Value.decimal (.finite negative c e)).IsKept := by
  have habs : |x| = c * 10 ^ e := by
    rw [toRat?_finite, Option.some.injEq] at hx
    have hnonneg : (0 : ℚ) ≤ (c : ℚ) * 10 ^ e := by positivity
    rw [← hx]
    cases negative <;> simp [abs_of_nonneg hnonneg]
  have hmagnitude : (Value.decimal (.finite negative c e)).magnitudeParts =
      fitted false c e >>= fun d => (Value.decimal d).parts := by
    rw [magnitudeParts, absolute_decimal, bind_assoc]
    rfl
  simp only [signed_eq_iff, habs]
  rw [IsKept, ← fitted_exact_iff false]
  constructor
  · rintro ⟨p, hp, hworth⟩
    obtain ⟨d, hd, hp⟩ := exists_of_bind_ok (hmagnitude ▸ hp)
    obtain ⟨c', e', rfl⟩ := exists_fitted hd
    obtain ⟨p', hp', -, -, hworth'⟩ := parts_decimal c' e'
    obtain rfl : p' = p := Except.ok.inj (hp'.symm.trans hp)
    exact ⟨c', e', hd, hworth'.symm.trans hworth⟩
  · rintro ⟨c', e', hd, hvalue⟩
    obtain ⟨p, hp, -, -, hworth⟩ := parts_decimal c' e'
    exact ⟨p, by rw [hmagnitude, hd]; exact hp, hworth.trans hvalue⟩

/-- Zero is written with zeros only. -/
theorem worth_parts_zero {e : ℤ} {p : Parts}
    (hp : (Value.float (.finite false 0 e)).parts = .ok p) : p.worth = 0 := by
  have hzero : (Value.float (.finite false 0 e)).parts = .ok ⟨['0'], 0⟩ := rfl
  obtain rfl : ⟨['0'], 0⟩ = p := Except.ok.inj (hzero.symm.trans hp)
  have hvalue : valueOf ['0'] = 0 := by decide
  simp [Parts.worth, hvalue]

/-- The digits of a binary number are those of its written form. -/
theorem exists_parts_binary (negative : Bool) (m : ℕ) (e : ℤ) {x : ℚ}
    (hx : (Binary64.finite negative m e).toRat? = some x) :
    ∃ p q, (Value.float (.finite negative m e)).magnitudeParts = .ok p ∧
      (Value.float (.finite negative m e)).writtenValue? = some q ∧
      (if x < 0 then -p.worth else p.worth) = q := by
  obtain ⟨p, body, hp, -, -, -, hbody, htext⟩ := parts_binary m e
  obtain ⟨n, hread, -, hvalue⟩ := hbody.read? false negative
  refine ⟨p, n.value, hp, ?_, ?_⟩
  · rw [writtenValue?, htext, hread, Option.map_some]
  rw [hvalue]
  rcases Nat.eq_zero_or_pos m with rfl | hm
  · simp [worth_parts_zero hp]
  · have hmagnitude : (0 : ℚ) < m * 2 ^ e := by positivity
    rw [Binary64.toRat?_finite, Option.some.injEq] at hx
    rw [← hx]
    cases negative
    · simp [hmagnitude.le]
    · simp [hmagnitude]

/-! ## Signs -/

theorem isNegative_integer (n : ℤ) :
    (Value.int n).isNegative false = .ok (decide ((n : ℚ) < 0)) := by
  rw [isNegative_false (isBelowZero_integer n)]
  simp

theorem isNegative_binary (negative : Bool) (m : ℕ) (e : ℤ) {x : ℚ}
    (hx : (Binary64.finite negative m e).toRat? = some x) :
    (Value.float (.finite negative m e)).isNegative false = .ok (decide (x < 0)) := by
  refine isNegative_false ?_
  have hcompare : (Value.float (.finite negative m e)).isBelowZero =
      .ok ((if x < 0 then Ordering.lt else if x = 0 then .eq else .gt) == .lt) := by
    have hextended : (Binary64.finite negative m e).extended = .ratio x := by
      rw [Binary64.extended, hx, Option.getD_some]
    simp only [isBelowZero, less, number?, Number.below, Number.order?, Number.extended?, hextended,
      Extended.compare?, bind, Except.bind]
    rfl
  rw [hcompare]
  split_ifs <;> simp_all

theorem isNegative_decimal (negative : Bool) (c : ℕ) (e : ℤ) {x : ℚ}
    (hx : (Decimal.finite negative c e).toRat? = some x) :
    (Value.decimal (.finite negative c e)).isNegative false = .ok (decide (x < 0)) := by
  refine isNegative_false ?_
  have hcompare : (Value.decimal (.finite negative c e)).isBelowZero =
      .ok (Extended.compareRatio negative c e 0 == .lt) := rfl
  rw [Decimal.toRat?_finite, Option.some.injEq] at hx
  rw [hcompare, ← hx]
  rcases Nat.eq_zero_or_pos c with rfl | hc
  · simp [Extended.compareRatio, Extended.termSign, Extended.signedOrder]
  · have hmagnitude : (0 : ℚ) < c * 10 ^ e := by positivity
    cases negative
    · simp only [Extended.compareRatio, Extended.termSign, if_neg hc.ne', Bool.false_eq_true,
        if_false, one_mul, decide_eq_false hmagnitude.not_gt]
      rfl
    · simp only [Extended.compareRatio, Extended.termSign, if_neg hc.ne', if_true, neg_one_mul,
        decide_eq_true (neg_lt_zero.mpr hmagnitude)]
      rfl

end Value

/-! ## What is shown -/

theorem exists_fixed_style {v : Value} (hv : v.IsFiniteReal) {x : ℚ}
    (hnegative : v.isNegative false = .ok (decide (x < 0))) (q : ℚ) :
    (ShowsExactly (fixedField {} v) x q ↔
      ∃ p, v.magnitudeParts = .ok p ∧ (if x < 0 then -p.worth else p.worth) = q) ∧
    (ShowsExactly (exponentialField { scale := .int 1 } v) x q ↔
      ∃ p, v.magnitudeParts = .ok p ∧ (if x < 0 then -p.worth else p.worth) = q) := by
  have hfixed : RealSettings.style? {} = some {} := rfl
  have hexponential : RealSettings.style? { scale := .int 1 } = some { scale := 1 } := rfl
  exact ⟨RealSettings.showsExactly_field_iff hfixed rfl
      (fun negative _ => exists_fixed_free negative) hv hnegative q,
    RealSettings.showsExactly_field_iff hexponential rfl
      (fun negative _ => exists_exponential_free negative) hv hnegative q⟩

/-- An integer, a finite binary number or a finite decimal number, without settings: both fields
show a numeral for it (for a binary number, for what its written form stands for), with a minus sign
exactly if it is below zero, if and only if it is kept. All finite binary numbers are. -/
theorem showsExactly_iff {v : Value} {x : ℚ} (hx : v.exactValue? = some x) :
    ∃ q, v.writtenValue? = some q ∧
      (ShowsExactly (fixedField {} v) x q ↔ v.IsKept) ∧
      (ShowsExactly (exponentialField { scale := .int 1 } v) x q ↔ v.IsKept) := by
  cases v with
  | int n =>
    obtain rfl : (n : ℚ) = x := Option.some.inj hx
    obtain ⟨hfixed, hexponential⟩ :=
      exists_fixed_style (.inl rfl) (Value.isNegative_integer n) n
    have hkept := Value.exists_parts_integer_iff n
    exact ⟨n, rfl, hfixed.trans hkept, hexponential.trans hkept⟩
  | float y =>
    cases y with
    | finite negative m e =>
      obtain ⟨p, q, hp, hq, hvalue⟩ := Value.exists_parts_binary negative m e hx
      obtain ⟨hfixed, hexponential⟩ :=
        exists_fixed_style (.inl rfl) (Value.isNegative_binary negative m e hx) q
      have hkept : Value.IsKept (.float (.finite negative m e)) := trivial
      exact ⟨q, hq, iff_of_true (hfixed.mpr ⟨p, hp, hvalue⟩) hkept,
        iff_of_true (hexponential.mpr ⟨p, hp, hvalue⟩) hkept⟩
    | infinite _ => cases hx
    | nan => cases hx
  | decimal d =>
    cases d with
    | finite negative c e =>
      obtain ⟨hfixed, hexponential⟩ :=
        exists_fixed_style (.inl rfl) (Value.isNegative_decimal negative c e hx) x
      have hkept := Value.exists_parts_decimal_iff negative c e hx
      exact ⟨x, hx, hfixed.trans hkept, hexponential.trans hkept⟩
    | infinite _ => cases hx
    | nan _ _ _ => cases hx
  | _ => cases hx

/-- A decimal number with one place. -/
theorem showsExactly_iff_halves :
    (Value.decimal (.finite true 125 (-1))).exactValue? = some (-25 / 2) ∧
      ∃ q, (Value.decimal (.finite true 125 (-1))).writtenValue? = some q ∧
        (ShowsExactly (fixedField {} (.decimal (.finite true 125 (-1)))) (-25 / 2) q ↔
          (Value.decimal (.finite true 125 (-1))).IsKept) ∧
        (ShowsExactly (exponentialField { scale := .int 1 } (.decimal (.finite true 125 (-1))))
          (-25 / 2) q ↔ (Value.decimal (.finite true 125 (-1))).IsKept) := by
  have hx : (Value.decimal (.finite true 125 (-1))).exactValue? = some (-25 / 2) := by
    rw [Value.exactValue?, Decimal.toRat?_finite]
    norm_num
  exact ⟨hx, showsExactly_iff hx⟩

/-- A decimal number of thirty digits loses the last of them. -/
theorem exists_not_showsExactly :
    ∃ (v : Value) (x : ℚ), v.exactValue? = some x ∧ v.writtenValue? = some x ∧
      fixedField {} v = .ok (.text ['1', '.', '0']) ∧ ¬ShowsExactly (fixedField {} v) x x := by
  have hx : (Value.decimal (.finite false (10 ^ 29 + 1) (-29))).exactValue? =
      some ((10 ^ 29 + 1) / 10 ^ 29) := by
    rw [Value.exactValue?, Decimal.toRat?_finite]
    norm_num
  have hfield : fixedField {} (.decimal (.finite false (10 ^ 29 + 1) (-29))) =
      .ok (.text ['1', '.', '0']) := by
    rfl
  refine ⟨_, _, hx, hx, hfield, ?_⟩
  rintro ⟨text, n, htext, hread, hvalue, -⟩
  obtain rfl : ['1', '.', '0'] = text := Value.text.inj (Except.ok.inj (hfield.symm.trans htext))
  have hnumeral : Numeral.read? ['1', '.', '0'] = some ⟨false, 10, -1⟩ := by rfl
  obtain rfl : ⟨false, 10, -1⟩ = n := Option.some.inj (hnumeral.symm.trans hread)
  norm_num [Numeral.value] at hvalue

end Tilde
