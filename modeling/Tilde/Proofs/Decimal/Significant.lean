import Tilde.Proofs.Decimal.Lossless
import Tilde.Proofs.Decimal.Range

/-!
# The significant digits of a number

A number is taken apart by its written form: what remains are digits without a zero at either end,
and the exponent of the first of them. These stand for exactly the number that the text writes. Zero
is the one digit that may be a zero; no other binary number is written with zeros only, because
seventeen digits are enough to tell it from all others.

* `exists_onGrid?`: seventeen digits are enough, so that `shortest_pos`;
* `Parts.IsBare`: digits without a zero at either end;
* `length_digits_lt`: how many digits a real value has;
* **`parts_exact`**: the digits of integers, binary and decimal numbers.
-/

namespace Tilde

open Decimal

namespace Decimal

/-! ## Seventeen digits -/

/-- The first digit of a ratio is no further to the left than its leading exponent says. -/
theorem mul_leadingExponent_le {num : ℕ} (den : ℕ) (hnum : 0 < num) :
    (den : ℚ) * 10 ^ leadingExponent num den ≤ num := by
  have hten : (10 : ℚ) ≠ 0 := by norm_num
  unfold leadingExponent
  generalize hd : ((Nat.toDigits 10 num).length : ℤ) - (Nat.toDigits 10 den).length = d
  dsimp only
  split_ifs with hle
  · have hpos : (0 : ℚ) < 10 ^ (-d).toNat := by positivity
    rw [zpow_eq_div hten, ← mul_div_assoc, div_le_iff₀ hpos]
    exact_mod_cast hle
  · have hlow : (10 : ℚ) ^ ((digitCount num : ℤ) - 1) ≤ num := by
      have hcount := digitCount_pos num
      have hexact : ((digitCount num : ℤ) - 1) = ((digitCount num - 1 : ℕ) : ℤ) := by omega
      rw [hexact, zpow_natCast]
      exact_mod_cast pow_le_of_pos hnum
    have hhigh : (den : ℚ) ≤ 10 ^ (digitCount den : ℤ) := by
      rw [zpow_natCast]
      exact_mod_cast (lt_pow_digitCount den).le
    have hexponent : d - 1 = (digitCount num : ℤ) - 1 - digitCount den := by
      rw [← hd]
      unfold digitCount
      omega
    calc (den : ℚ) * 10 ^ (d - 1)
        ≤ 10 ^ (digitCount den : ℤ) * 10 ^ (d - 1) := by gcongr
      _ = 10 ^ ((digitCount num : ℤ) - 1) := by
          rw [← zpow_add₀ hten, hexponent]
          congr 1
          omega
      _ ≤ num := hlow

/-- A grid that is fine enough, on a common scale with the number. -/
theorem commonScale_mul_le {m : ℕ} {e k : ℤ} (hfine : (10 : ℚ) ^ (k + 16) ≤ m * 2 ^ e) :
    (commonScale k (e - 2)).1 * 10 ^ 16 ≤ 4 * m * (commonScale k (e - 2)).2 := by
  have hten : (10 : ℚ) ≠ 0 := by norm_num
  have htwo : (2 : ℚ) ≠ 0 := by norm_num
  have hk : (10 : ℚ) ^ k * 10 ^ (-k).toNat = 10 ^ k.toNat := by
    rw [← zpow_natCast, ← zpow_natCast, ← zpow_add₀ hten]
    congr 1
    omega
  have he : (2 : ℚ) ^ e * 2 ^ (-(e - 2)).toNat = 4 * 2 ^ (e - 2).toNat := by
    rw [← zpow_natCast, ← zpow_natCast, show (4 : ℚ) = 2 ^ (2 : ℤ) by norm_num, ← zpow_add₀ htwo,
      ← zpow_add₀ htwo]
    congr 1
    omega
  have hscale : (0 : ℚ) ≤ 10 ^ (-k).toNat * 2 ^ (-(e - 2)).toNat := by positivity
  have h := mul_le_mul_of_nonneg_right hfine hscale
  rw [zpow_add₀ hten] at h
  have hleft : (10 : ℚ) ^ k * 10 ^ (16 : ℤ) * (10 ^ (-k).toNat * 2 ^ (-(e - 2)).toNat) =
      10 ^ k.toNat * 2 ^ (-(e - 2)).toNat * 10 ^ 16 := by
    rw [← hk]
    norm_num
    ring
  have hright : (m : ℚ) * 2 ^ e * (10 ^ (-k).toNat * 2 ^ (-(e - 2)).toNat) =
      4 * m * (2 ^ (e - 2).toNat * 10 ^ (-k).toNat) := by
    rw [show (m : ℚ) * 2 ^ e * (10 ^ (-k).toNat * 2 ^ (-(e - 2)).toNat) =
      m * 10 ^ (-k).toNat * (2 ^ e * 2 ^ (-(e - 2)).toNat) by ring, he]
    ring
  rw [hleft, hright] at h
  simp only [commonScale, Nat.pow_eq]
  exact_mod_cast h

/-- The numbers that read back as a binary number lie further apart than the points of such a grid,
so that one of the two next to the number is among them. -/
theorem lt_or_lt_of_grid {m q p a lo : ℕ} (hm : m < 2 ^ 53) (hq : 0 < q)
    (hp : p * 10 ^ 16 ≤ 4 * m * q) (hlo : lo ≤ 4 * m - 2 ∨ m ≤ 2 ^ 52 ∧ lo ≤ 4 * m - 1) :
    lo * q < a * p ∨ (a + 1) * p < (4 * m + 2) * q := by
  by_contra hnone
  obtain ⟨hbelow, habove⟩ : a * p ≤ lo * q ∧ (4 * m + 2) * q ≤ (a + 1) * p := by omega
  rw [Nat.add_mul, Nat.add_mul, Nat.one_mul] at habove
  rw [Nat.mul_assoc] at hp habove
  rcases hlo with hlo | ⟨hm, hlo⟩
  · have hwidth := Nat.mul_le_mul_right q hlo
    have hmost : m * q ≤ (2 ^ 53 - 1) * q := Nat.mul_le_mul_right q (by omega)
    rw [Nat.sub_mul, Nat.mul_assoc] at hwidth
    omega
  · have hwidth := Nat.mul_le_mul_right q hlo
    have hmost : m * q ≤ 2 ^ 52 * q := Nat.mul_le_mul_right q hm
    rw [Nat.sub_mul, Nat.mul_assoc] at hwidth
    omega

/-- On a grid of seventeen digits one of the neighbours of a binary number reads back as it. -/
theorem exists_onGrid? {m : ℕ} {e k : ℤ} (hm : m < 2 ^ 53)
    (hfine : (10 : ℚ) ^ (k + 16) ≤ m * 2 ^ e) : ∃ c, onGrid? m e k = some c := by
  have hscaled := commonScale_mul_le hfine
  have hp : 0 < (commonScale k (e - 2)).1 := by
    simp only [commonScale, Nat.pow_eq]
    positivity
  have hq : 0 < (commonScale k (e - 2)).2 := by
    simp only [commonScale, Nat.pow_eq]
    positivity
  unfold onGrid?
  generalize commonScale k (e - 2) = scale at hscaled hp hq ⊢
  obtain ⟨p, q⟩ := scale
  simp only at hscaled hp hq ⊢
  generalize hlo : (if m = Nat.pow 2 52 ∧ -1074 < e then 4 * m - 1 else 4 * m - 2) = lo
  have hlower : lo ≤ 4 * m - 2 ∨ m ≤ 2 ^ 52 ∧ lo ≤ 4 * m - 1 := by
    rw [← hlo, Nat.pow_eq]
    split_ifs with hpower
    · exact .inr ⟨hpower.1.le, le_rfl⟩
    · exact .inl le_rfl
  have hbelow := Nat.div_mul_le_self (4 * m * q) p
  have habove : 4 * m * q < (4 * m * q / p + 1) * p := by
    rw [Nat.mul_comm (4 * m * q / p + 1)]
    exact Nat.lt_mul_div_succ (4 * m * q) hp
  have hwide : 4 * m * q < (4 * m + 2) * q := Nat.mul_lt_mul_of_pos_right (by omega) hq
  have hnarrow : lo * q ≤ 4 * m * q := Nat.mul_le_mul_right q (by omega)
  have hnear := lt_or_lt_of_grid (a := 4 * m * q / p) hm hq hscaled hlower
  split
  · exact ⟨_, rfl⟩
  · exact ⟨_, rfl⟩
  · exact ⟨_, rfl⟩
  · rename_i hleft hright
    exfalso
    split_ifs at hleft hright with heven
    all_goals
      simp only [Bool.and_eq_false_iff, decide_eq_false_iff_not] at hleft hright
      omega

/-- What reads back as a number other than zero is not zero. -/
theorem pos_of_onGrid? {m c : ℕ} {e k : ℤ} (hm : 0 < m) (h : onGrid? m e k = some c) : 0 < c := by
  have hq : 0 < (commonScale k (e - 2)).2 := by
    simp only [commonScale, Nat.pow_eq]
    positivity
  unfold onGrid? at h
  generalize commonScale k (e - 2) = scale at h hq
  obtain ⟨p, q⟩ := scale
  simp only at h hq
  have hlow : 0 < (if m = Nat.pow 2 52 ∧ -1074 < e then 4 * m - 1 else 4 * m - 2) * q := by
    apply Nat.mul_pos _ hq
    split_ifs <;> omega
  generalize (if m = Nat.pow 2 52 ∧ -1074 < e then 4 * m - 1 else 4 * m - 2) * q = lo at h hlow
  generalize 4 * m * q / p = below at h
  have hpos : lo ≤ below * p → 0 < below := by
    intro hle
    by_contra hnone
    rw [Nat.eq_zero_of_not_pos hnone, Nat.zero_mul] at hle
    omega
  have hback : (if m % 2 = 0 then decide (lo ≤ below * p) && decide (below * p ≤ (4 * m + 2) * q)
      else decide (lo < below * p) && decide (below * p < (4 * m + 2) * q)) = true → 0 < below := by
    intro hback
    split_ifs at hback <;> simp only [Bool.and_eq_true, decide_eq_true_eq] at hback
    · exact hpos hback.1
    · exact hpos hback.1.le
  split at h
  · rename_i hbelow _
    have := hback hbelow
    split_ifs at h <;> obtain rfl := Option.some.inj h
    · exact this
    · omega
  · rename_i hbelow _
    obtain rfl := Option.some.inj h
    exact hback hbelow
  · obtain rfl := Option.some.inj h
    omega
  · cases h

/-- The shortest decimal of a binary number other than zero is not zero. -/
theorem shortest_pos {m : ℕ} (e : ℤ) (hm : 0 < m) (hfew : m < 2 ^ 53) :
    (0 : ℚ) < (shortest m e).1 * 10 ^ (shortest m e).2 := by
  unfold shortest
  rw [if_neg hm.ne']
  rcases hscale : Binary64.scaleDown m 1 (-e) with ⟨num, den⟩
  obtain ⟨rfl, rfl⟩ : m * 2 ^ (- -e).toNat = num ∧ 1 * 2 ^ (-e).toNat = den := by
    simpa [Binary64.scaleDown] using hscale
  have hnum : 0 < m * 2 ^ (- -e).toNat := by positivity
  have hfirst := mul_leadingExponent_le (1 * 2 ^ (-e).toNat) hnum
  dsimp only
  generalize leadingExponent (m * 2 ^ (- -e).toNat) (1 * 2 ^ (-e).toNat) = first at hfirst ⊢
  have hfine : (10 : ℚ) ^ (first - (16 : ℕ) + 16) ≤ m * 2 ^ e := by
    have hpos : (0 : ℚ) < 2 ^ (-e).toNat := by positivity
    rw [show first - (16 : ℕ) + 16 = first by omega, zpow_eq_div (by norm_num) e, ← mul_div_assoc,
      le_div_iff₀ hpos, mul_comm]
    rw [Nat.one_mul, neg_neg] at hfirst
    exact_mod_cast hfirst
  obtain ⟨c₀, hgrid⟩ := exists_onGrid? hfew hfine
  generalize hfound : (List.range 17).findSome? _ = found
  cases found with
  | none =>
    have := List.findSome?_eq_none_iff.mp hfound 16 (by decide)
    rw [hgrid] at this
    cases this
  | some ck =>
    obtain ⟨n, -, hn⟩ := List.exists_of_findSome?_eq_some hfound
    obtain ⟨c, hc, rfl⟩ := Option.map_eq_some_iff.mp hn
    have hpos : (0 : ℚ) < c := by exact_mod_cast pos_of_onGrid? hm hc
    rw [Option.getD_some, value_stripZeros]
    positivity

/-! ## Digits without zeros at the ends -/

/-- Neither the first digit nor the last one is a zero. -/
def Parts.IsBare (p : Parts) : Prop := p.digits.head? ≠ some '0' ∧ p.digits.getLast? ≠ some '0'

theorem getLast?_dropTrailingZeros (s : Text) : (dropTrailingZeros s).getLast? ≠ some '0' := by
  unfold dropTrailingZeros
  rw [List.getLast?_reverse]
  intro hzero
  have hnot := List.head?_dropWhile_not (· == '0') s.reverse
  rw [hzero] at hnot
  simp at hnot

theorem Parts.zero_or_isBare_normal (s : Text) (e : ℤ) :
    Parts.normal s e = ⟨['0'], 0⟩ ∨ (Parts.normal s e).IsBare := by
  unfold Parts.normal
  dsimp only
  split_ifs with hnone
  · exact .inl rfl
  · right
    have hsome : (dropTrailingZeros s).dropWhile (· == '0') ≠ [] := by simpa using hnone
    constructor
    · intro hzero
      have hnot := List.head?_dropWhile_not (· == '0') (dropTrailingZeros s)
      rw [hzero] at hnot
      simp at hnot
    · -- dropping zeros in front leaves the last digit where it is
      obtain ⟨front, hfront⟩ := List.dropWhile_suffix (l := dropTrailingZeros s) (· == '0')
      have hlast := getLast?_dropTrailingZeros s
      rw [← hfront, List.getLast?_append_of_ne_nil _ hsome] at hlast
      exact hlast

/-- Only the digit zero stands for zero. -/
theorem Parts.worth_eq_zero_iff {p : Parts} (hdigits : IsDigits p.digits) (hne : p.digits ≠ [])
    (h : p = ⟨['0'], 0⟩ ∨ p.IsBare) : p.worth = 0 ↔ p = ⟨['0'], 0⟩ := by
  constructor
  · intro hzero
    refine h.resolve_right fun hbare => ?_
    obtain ⟨digits, e⟩ := p
    obtain ⟨c, s, rfl⟩ := List.exists_cons_of_ne_nil hne
    have hc : c ≠ '0' := fun hc => hbare.1 (by rw [hc]; rfl)
    have hlow := (head_ne_zero_iff hdigits).mp hc
    have hpos : 0 < 10 ^ s.length := Nat.pow_pos (by decide)
    have hvalue : (0 : ℚ) < valueOf (c :: s) := by exact_mod_cast hpos.trans_le hlow
    have hworth : 0 < Parts.worth ⟨c :: s, e⟩ := by
      unfold Parts.worth
      positivity
    exact hworth.ne' hzero
  · rintro rfl
    simp [Parts.worth]

/-- The last digit stands for the last place of a number. -/
theorem Parts.IsBare.le {p : Parts} (h : p.IsBare) (hdigits : IsDigits p.digits)
    (hne : p.digits ≠ []) {c : ℕ} {e : ℤ} (hworth : p.worth = c * 10 ^ e) :
    e ≤ p.exponent - p.digits.length + 1 := by
  by_contra hlarge
  have hten : (10 : ℚ) ≠ 0 := by norm_num
  obtain ⟨s, d, hs⟩ : ∃ s d, p.digits = s ++ [d] :=
    ⟨_, _, (List.dropLast_append_getLast hne).symm⟩
  have hd : d ≠ '0' := by
    rintro rfl
    apply h.2
    rw [hs, List.getLast?_concat]
  have hdigit : d.isDigit = true := hdigits d (by rw [hs]; simp)
  have hlow := (digitValue_pos hdigit).mpr hd
  have hhigh := digitValue_le hdigit
  have hlast : valueOf p.digits = valueOf s * 10 + digitValue d := by
    rw [hs, valueOf_append]
    simp [valueOf_cons]
  -- otherwise the digits would write a multiple of ten
  rw [Parts.worth] at hworth
  generalize p.exponent - p.digits.length + 1 = u at hworth hlarge
  obtain ⟨k, rfl⟩ : ∃ k : ℕ, e = u + (k + 1 : ℕ) := ⟨(e - u - 1).toNat, by omega⟩
  have hvalue : valueOf p.digits = c * 10 ^ (k + 1) := by
    rw [zpow_add₀ hten, zpow_natCast, mul_left_comm, mul_comm] at hworth
    exact_mod_cast mul_left_cancel₀ (zpow_ne_zero u hten) hworth
  rw [Nat.pow_succ, ← Nat.mul_assoc] at hvalue
  omega

end Decimal

/-! ## The digits of values -/

namespace Value

theorem zero_or_isBare_of_readParts {s : Text} {p : Parts} (h : readParts s = .ok p) :
    p = ⟨['0'], 0⟩ ∨ p.IsBare := by
  obtain ⟨digits, exponent, rfl⟩ := exists_normal_of_readParts h
  exact Parts.zero_or_isBare_normal digits exponent

/-- There are no more digits than between the first digit and the last place of a number. -/
theorem length_digits_le {v : Value} {p : Parts} (hp : v.parts = .ok p)
    (hdigits : IsDigits p.digits) (hne : p.digits ≠ []) {c : ℕ} {e : ℤ}
    (hworth : p.worth = c * 10 ^ e) : p.digits.length ≤ max 1 (p.exponent - e + 1) := by
  obtain ⟨s, hs⟩ := exists_readParts hp
  obtain rfl | hbare := zero_or_isBare_of_readParts hs
  · simp
  · have := hbare.le hdigits hne hworth
    omega

/-- A real value has a bounded number of digits. -/
theorem length_digits_lt {v : Value} (hv : v.IsFiniteReal) (hformat : v.InFormat) {p : Parts}
    (hp : v.magnitudeParts = .ok p) : p.digits.length < 10 ^ 8 := by
  have hexponent := natAbs_exponent_lt hv hformat hp
  have hbinary {m : ℕ} {e : ℤ} (hm : m ≤ 2 ^ 53) (hlow : -1074 ≤ e) (hhigh : e ≤ 971)
      (hp : (Value.float (.finite false m e)).parts = .ok p) : p.digits.length < 10 ^ 8 := by
    obtain ⟨p', -, hp', hdigits, hne, hworth, -⟩ := parts_binary m e
    obtain rfl : p' = p := Except.ok.inj (hp'.symm.trans hp)
    obtain ⟨c, j, k, hvalue, -, -, hk, -⟩ := shortest_bounds hm hlow hhigh
    have := length_digits_le hp hdigits hne (hworth.trans hvalue)
    omega
  obtain ⟨n, hp⟩ | ⟨m, e, hp, ⟨negative, rfl⟩ | ⟨q, hq⟩⟩ | ⟨c, c', e, e', hfitted, hp⟩ :=
    exists_parts hv hp
  · cases hwritable : isWritableInteger n with
    | true =>
      obtain ⟨p', hp', hdigits, hne, hworth⟩ := parts_integer n hwritable
      obtain rfl : p' = p := Except.ok.inj (hp'.symm.trans hp)
      have hplaces : p'.worth = n * 10 ^ (0 : ℤ) := by rw [hworth, zpow_zero, mul_one]
      have := length_digits_le hp hdigits hne hplaces
      omega
    | false =>
      rw [parts, hwritable] at hp
      cases hp
  · obtain ⟨hm, hlow, hhigh⟩ := hformat
    exact hbinary hm.le hlow hhigh hp
  · obtain ⟨hm, hlow, hhigh⟩ := binaryOf_bounds hq
    exact hbinary hm hlow hhigh hp
  · obtain ⟨p', hp', hdigits, hne, hworth⟩ := parts_decimal c' e'
    obtain rfl : p' = p := Except.ok.inj (hp'.symm.trans hp)
    obtain ⟨-, htiny, -⟩ := bounds_of_fitted hfitted
    have hlowest : tinyExponent = -1000026 := rfl
    have := length_digits_le hp hdigits hne hworth
    omega

/-- A text writes one number only. -/
theorem eq_of_spells {s : Text} {q q' : ℚ} (h : Spells s q) (h' : Spells s q') : q = q' := by
  obtain ⟨p, hp, -, -, rfl⟩ := readParts_of_spells h
  obtain ⟨p', hp', -, -, rfl⟩ := readParts_of_spells h'
  rw [Except.ok.inj (hp.symm.trans hp')]

/-- The written form of a number begins with a minus. -/
def showsMinus : Value → Bool
  | .int n => decide (n < 0)
  | .float x => x.isSigned
  | .decimal d => d.isSigned
  | _ => false

variable {v : Value} {x : ℚ}

theorem isWritable_integer (n : ℤ) : (int n).isWritable = isWritableInteger n := rfl

theorem parts_of_isWritable {n : ℤ} (h : isWritableInteger n = true) :
    (int n).parts = readParts (Radix.decimal n) := by
  rw [parts, if_pos h]

/-- The digits come from the form for readers. -/
theorem parts_eq_readParts (hx : v.exactValue? = some x) (hwritable : v.isWritable = true) :
    v.parts = readParts v.shown := by
  cases v with
  | int n => exact parts_of_isWritable ((isWritable_integer n).symm.trans hwritable)
  | float y => rfl
  | decimal d => rfl
  | _ => cases hx

/-- Without a minus the written form is a numeral, and one for zero only if the number is zero. -/
theorem exists_spells (hx : v.exactValue? = some x) (hformat : v.InFormat)
    (hplus : v.showsMinus = false) : ∃ q, Spells v.shown q ∧ (q = 0 ↔ x = 0) := by
  cases v with
  | int n =>
    obtain ⟨k, rfl⟩ := Int.eq_ofNat_of_zero_le (not_lt.mp (of_decide_eq_false hplus))
    obtain rfl : ((k : ℤ) : ℚ) = x := Option.some.inj hx
    refine ⟨k, ?_, by norm_num⟩
    show Spells (Radix.decimal k) k
    rw [decimal_natCast]
    exact spells_toDigits k
  | float y =>
    cases y with
    | finite negative m e =>
      obtain rfl : negative = false := hplus
      obtain ⟨body, hbody, htext⟩ := exists_floatText m e
      refine ⟨(shortest m e).1 * 10 ^ (shortest m e).2, ?_, ?_⟩
      · show Spells (Binary64.text (.finite false m e)) _
        rw [Binary64.text, htext]
        exact hbody
      obtain rfl : 1 * ((m : ℚ) * 2 ^ e) = x :=
        Option.some.inj ((Binary64.toRat?_finite false m e).symm.trans hx)
      obtain rfl | hm := Nat.eq_zero_or_pos m
      · simp [shortest]
      · have hvalue : (0 : ℚ) < 1 * ((m : ℚ) * 2 ^ e) := by positivity
        exact iff_of_false (shortest_pos e hm hformat.1).ne' hvalue.ne'
    | infinite _ => cases hx
    | nan => cases hx
  | decimal d =>
    cases d with
    | finite negative c e =>
      obtain rfl : negative = false := hplus
      obtain rfl : 1 * ((c : ℚ) * 10 ^ e) = x :=
        Option.some.inj ((Decimal.toRat?_finite false c e).symm.trans hx)
      exact ⟨_, spells_plainText c e, by rw [one_mul]⟩
    | infinite _ => cases hx
    | nan _ _ _ => cases hx
  | _ => cases hx

/-- With a minus it is none. -/
theorem not_spells (hx : v.exactValue? = some x) (hminus : v.showsMinus = true) (q : ℚ) :
    ¬Spells v.shown q := by
  have hhead : v.shown.head? = some '-' := by
    cases v with
    | int n =>
      have hsign : Radix.sign n = ['-'] := if_pos (of_decide_eq_true hminus)
      show (Radix.sign n ++ _).head? = _
      rw [hsign]
      rfl
    | float y =>
      cases y with
      | finite negative m e =>
        obtain rfl : negative = true := hminus
        rfl
      | infinite _ => cases hx
      | nan => cases hx
    | decimal d =>
      cases d with
      | finite negative c e =>
        obtain rfl : negative = true := hminus
        rfl
      | infinite _ => cases hx
      | nan _ _ _ => cases hx
    | _ => cases hx
  intro hspells
  obtain ⟨c, t, hct, hc⟩ := hspells.head
  rw [hct] at hhead
  obtain rfl : c = '-' := Option.some.inj hhead
  exact absurd hc (by decide)

end Value

/-- An integer that can be written, a binary number or a finite decimal number. If it shows no
minus, its written form is digits, with a point and an exponent or without. What is read off a text
of this form is the digit zero for zero; otherwise digits with no zero at either end, which with the
exponent of the first of them make exactly the number that the text writes. -/
theorem parts_exact {v : Value} {x : ℚ} (hx : v.exactValue? = some x) (hformat : v.InFormat)
    (hwritable : v.isWritable = true) :
    ((∃ q, Spells v.shown q) ↔ v.showsMinus = false) ∧
    ∀ q, Spells v.shown q → ∃ p : Parts, v.parts = .ok p ∧
      (x = 0 → p = ⟨['0'], 0⟩) ∧
      (x ≠ 0 → IsDigits p.digits ∧ p.digits ≠ [] ∧ p.digits.head? ≠ some '0' ∧
        p.digits.getLast? ≠ some '0' ∧
        (valueOf p.digits : ℚ) * 10 ^ (p.exponent - p.digits.length + 1) = q) := by
  constructor
  · constructor
    · rintro ⟨q, hq⟩
      by_contra hminus
      exact Value.not_spells hx (by simpa using hminus) q hq
    · intro hplus
      obtain ⟨q, hq, -⟩ := Value.exists_spells hx hformat hplus
      exact ⟨q, hq⟩
  · intro q hq
    have hplus : v.showsMinus = false := by
      by_contra hminus
      exact Value.not_spells hx (by simpa using hminus) q hq
    obtain ⟨q', hq', hzero⟩ := Value.exists_spells hx hformat hplus
    obtain rfl := Value.eq_of_spells hq' hq
    obtain ⟨p, hp, hdigits, hne, hworth⟩ := Value.readParts_of_spells hq
    have hbare := Value.zero_or_isBare_of_readParts hp
    have hnone := Parts.worth_eq_zero_iff hdigits hne hbare
    rw [hworth, hzero] at hnone
    refine ⟨p, (Value.parts_eq_readParts hx hwritable).trans hp, hnone.mp, fun hx => ?_⟩
    obtain ⟨hfirst, hlast⟩ := hbare.resolve_left (mt hnone.mpr hx)
    exact ⟨hdigits, hne, hfirst, hlast, hworth⟩

/-- A decimal number with zeros at both ends of its digits. -/
theorem parts_exact_hundredths :
    (Value.decimal (.finite false 1500 (-5))).exactValue? = some (3 / 200) ∧
    (Value.decimal (.finite false 1500 (-5))).InFormat ∧
    (Value.decimal (.finite false 1500 (-5))).isWritable = true ∧
    (Value.decimal (.finite false 1500 (-5))).shown = ['0', '.', '0', '1', '5', '0', '0'] ∧
    ((∃ q, Spells (Value.decimal (.finite false 1500 (-5))).shown q) ↔
      (Value.decimal (.finite false 1500 (-5))).showsMinus = false) ∧
    ∀ q, Spells (Value.decimal (.finite false 1500 (-5))).shown q →
      ∃ p : Parts, (Value.decimal (.finite false 1500 (-5))).parts = .ok p ∧
        ((3 / 200 : ℚ) = 0 → p = ⟨['0'], 0⟩) ∧
        ((3 / 200 : ℚ) ≠ 0 → IsDigits p.digits ∧ p.digits ≠ [] ∧ p.digits.head? ≠ some '0' ∧
          p.digits.getLast? ≠ some '0' ∧
          (valueOf p.digits : ℚ) * 10 ^ (p.exponent - p.digits.length + 1) = q) := by
  have hx : (Value.decimal (.finite false 1500 (-5))).exactValue? = some (3 / 200) := by
    rw [Value.exactValue?, Decimal.toRat?_finite]
    norm_num
  exact ⟨hx, trivial, rfl, by decide, parts_exact hx trivial rfl⟩

end Tilde
