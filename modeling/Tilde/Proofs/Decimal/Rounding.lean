import Tilde.Decimal.Fixed
import Tilde.Proofs.Decimal.Digits

/-!
# Rounding half-up

Rounding a digit string is rounding the number that it stands for: to the nearest multiple of a
power of ten, a half going up. That holds for cuts before the first digit, behind it and behind the
last one, with a carry and without.

* `halfUp`: rounding of rational numbers;
* `worth_cutAt`: the first digits, rounded by the digit behind them;
* **`worth_roundTo`**, **`worth_round`**: rounding to any number of digits, to places after the
  point and to a width.
-/

namespace Tilde.Decimal

/-- The number rounded to so many places after the point, a half going up. -/
def halfUp (q : ℚ) (places : ℤ) : ℚ := (⌊q * 10 ^ places + 1 / 2⌋ : ℚ) / 10 ^ places

/-- A number without further places stays as it is. -/
theorem halfUp_eq_self {q : ℚ} {places : ℤ} {n : ℤ} (h : q * 10 ^ places = n) :
    halfUp q places = q := by
  have hfloor : ⌊(n : ℚ) + 1 / 2⌋ = n := by
    rw [Int.floor_intCast_add]
    norm_num
  rw [halfUp, h, hfloor, ← h]
  field_simp

theorem halfUp_eq_zero {q : ℚ} {places : ℤ} (hq : 0 ≤ q) (h : q * 10 ^ places < 1 / 2) :
    halfUp q places = 0 := by
  have hnonneg : 0 ≤ q * 10 ^ places := by positivity
  have hfloor : ⌊q * 10 ^ places + 1 / 2⌋ = 0 := Int.floor_eq_iff.mpr
    ⟨by push_cast; linarith, by push_cast; linarith⟩
  rw [halfUp, hfloor]
  simp

/-! ## Cutting a digit string -/

/-- Of a number of units and a fraction of one, the fraction decides whether it is rounded up. -/
theorem floor_add_half {a b u : ℕ} (hb : b < u) :
    ⌊((a * u + b : ℕ) : ℚ) / u + 1 / 2⌋ = (a : ℤ) + if u ≤ 2 * b then 1 else 0 := by
  have hu : (0 : ℚ) < u := by exact_mod_cast Nat.zero_lt_of_lt hb
  have hsplit : ((a * u + b : ℕ) : ℚ) / u + 1 / 2 = (a : ℤ) + ((b : ℚ) / u + 1 / 2) := by
    push_cast
    field_simp
    ring
  have hless : (b : ℚ) / u < 1 := (div_lt_one hu).mpr (by exact_mod_cast hb)
  have hnonneg : 0 ≤ (b : ℚ) / u := by positivity
  rw [hsplit, Int.floor_intCast_add]
  congr 1
  split_ifs with hhalf
  · have : 1 / 2 ≤ (b : ℚ) / u := by
      rw [le_div_iff₀ hu]
      have : (u : ℚ) ≤ 2 * b := by exact_mod_cast hhalf
      linarith
    exact Int.floor_eq_iff.mpr ⟨by push_cast; linarith, by push_cast; linarith⟩
  · have : (b : ℚ) / u < 1 / 2 := by
      rw [div_lt_iff₀ hu]
      have : 2 * (b : ℚ) < u := by exact_mod_cast Nat.lt_of_not_le hhalf
      linarith
    exact Int.floor_eq_iff.mpr ⟨by push_cast; linarith, by push_cast; linarith⟩

/-- The first digit tells whether the digits make half a unit of the place in front of them. -/
theorem half_le_iff (c : Char) {s : Text} (hs : IsDigits s) :
    10 ^ (s.length + 1) ≤ 2 * valueOf (c :: s) ↔ '5' ≤ c := by
  have hlt := valueOf_lt hs
  have hdigit : '5' ≤ c ↔ 5 ≤ digitValue c := by
    simp only [digitValue, Char.reduceToNat]
    rw [Char.le_def, UInt32.le_iff_toNat_le]
    show 53 ≤ c.toNat ↔ 5 ≤ c.toNat - 48
    omega
  rw [hdigit, valueOf_cons, Nat.pow_succ]
  constructor
  · intro h
    by_contra hless
    have : digitValue c * 10 ^ s.length ≤ 4 * 10 ^ s.length := Nat.mul_le_mul_right _ (by omega)
    omega
  · intro h
    have : 5 * 10 ^ s.length ≤ digitValue c * 10 ^ s.length := Nat.mul_le_mul_right _ h
    omega

/-- The number that digits stand for, in units of the last of `n` digits. -/
theorem Parts.worth_mul (s : Text) (e n : ℤ) :
    worth ⟨s, e⟩ * 10 ^ (n - e - 1) = valueOf s * 10 ^ (n - s.length) := by
  rw [worth, mul_assoc, ← zpow_add₀ (by norm_num)]
  congr 2
  ring

/-- Digits with a digit behind them that is cut off are raised by one if this is at least a five. -/
theorem halfUp_append {s t : Text} {c : Char} (h : IsDigits (s ++ c :: t)) (e : Int) :
    halfUp (Parts.worth ⟨s ++ c :: t, e⟩) (s.length - e - 1) =
      ((valueOf s + if '5' ≤ c then 1 else 0 : ℕ) : ℚ) * 10 ^ (e - s.length + 1) := by
  have hrest : IsDigits (c :: t) := h.of_subset (by simp)
  have hlast : IsDigits t := h.of_subset (by simp)
  have hunits : Parts.worth ⟨s ++ c :: t, e⟩ * 10 ^ ((s.length : ℤ) - e - 1) =
      ((valueOf s * 10 ^ (t.length + 1) + valueOf (c :: t) : ℕ) : ℚ) /
        ((10 ^ (t.length + 1) : ℕ) : ℚ) := by
    rw [Parts.worth_mul, valueOf_append, div_eq_mul_inv, Nat.cast_pow, ← zpow_natCast,
      ← zpow_neg, List.length_append, List.length_cons]
    congr 2
    push_cast
    ring
  have hfloor := floor_add_half (a := valueOf s) (valueOf_lt hrest)
  have hunit : (10 : ℚ) ^ (e - s.length + 1) = (10 ^ ((s.length : ℤ) - e - 1))⁻¹ := by
    rw [← zpow_neg]
    congr 1
    ring
  rw [List.length_cons] at hfloor
  rw [halfUp, hunits, hfloor, hunit, div_eq_mul_inv]
  simp only [half_le_iff c hlast]
  split_ifs <;> push_cast <;> rfl

theorem valueOf_one_zeros (n : Nat) : valueOf ('1' :: List.replicate n '0') = 10 ^ n := by
  simp [valueOf_cons, digitValue]

/-- A one and zeros are the digits of a power of ten. -/
theorem Parts.worth_one_zeros (n : Nat) (e : Int) :
    worth ⟨'1' :: List.replicate n '0', e⟩ = 10 ^ e := by
  rw [worth, valueOf_one_zeros, List.length_cons, List.length_replicate, Nat.cast_pow,
    ← zpow_natCast, Nat.cast_ofNat, ← zpow_add₀ (by norm_num)]
  congr 1
  push_cast
  ring

/-- The next number, with a digit less and a greater exponent if it has a digit more. -/
def raised (s : Text) (e : Int) : Rounded :=
  if s.length < (increment s).length then ⟨(increment s).dropLast, e, true⟩
  else ⟨increment s, e, false⟩

theorem worth_raised {s : Text} (hs : IsDigits s) (hne : s ≠ []) (e : Int) :
    IsDigits (raised s e).digits ∧ (raised s e).digits.length = s.length ∧
      Parts.worth ⟨(raised s e).digits, (raised s e).leading⟩ =
        ((valueOf s + 1 : ℕ) : ℚ) * 10 ^ (e - s.length + 1) := by
  obtain ⟨hincreased, hsucc⟩ := valueOf_increment hs
  obtain ⟨n, hn⟩ := Nat.exists_eq_succ_of_ne_zero (List.length_pos_iff.mpr hne).ne'
  unfold raised
  split
  · rename_i hcarry
    have hones := (length_increment s).resolve_left (by omega)
    have hcut : (increment s).dropLast = '1' :: List.replicate n '0' := by
      rw [hones, hn, List.dropLast_cons_of_ne_nil (by simp), List.dropLast_replicate]
      rfl
    refine ⟨hcut ▸ .cons rfl (.zeros _), by simp [hcut, hn], ?_⟩
    have hpower : ((10 ^ s.length : ℕ) : ℚ) * 10 ^ (e - s.length + 1) = 10 ^ (e + 1) := by
      rw [Nat.cast_pow, ← zpow_natCast, Nat.cast_ofNat, ← zpow_add₀ (by norm_num)]
      congr 1
      ring
    rw [hcut, ← hsucc, hones, valueOf_one_zeros, hpower]
    exact Parts.worth_one_zeros n (e + 1)
  · rename_i hcarry
    have hsame := (length_increment s).resolve_right fun h => hcarry (by simp [h])
    refine ⟨hincreased, hsame, ?_⟩
    simp only [Parts.worth, Rounded.leading, hsucc, hsame, Bool.false_eq_true, if_false]

/-- The digits that are left stand for the number rounded half-up. -/
theorem worth_cutAt {s : Text} (hs : IsDigits s) (e : Int) {n : Nat} (hn : 0 < n) :
    IsDigits (cutAt s e n).digits ∧ (cutAt s e n).digits.length = min n s.length ∧
      Parts.worth ⟨(cutAt s e n).digits, (cutAt s e n).leading⟩ =
        halfUp (Parts.worth ⟨s, e⟩) (n - e - 1) := by
  unfold cutAt
  cases hrest : s.drop n with
  | nil =>
    -- nothing is cut off
    have hall : s.length ≤ n := List.drop_eq_nil_iff.mp hrest
    have hint : Parts.worth ⟨s, e⟩ * 10 ^ ((n : ℤ) - e - 1) =
        ((valueOf s * 10 ^ (n - s.length) : ℕ) : ℤ) := by
      rw [Parts.worth_mul]
      push_cast
      rw [← zpow_natCast, Nat.cast_sub hall]
    dsimp only
    rw [List.take_of_length_le hall, halfUp_eq_self hint]
    exact ⟨hs, by omega, rfl⟩
  | cons c t =>
    have hsplit : s = s.take n ++ c :: t := by rw [← hrest, List.take_append_drop]
    have hlong : n < s.length := by
      have := congrArg List.length hrest
      simp only [List.length_drop, List.length_cons] at this
      omega
    have hlen : (s.take n).length = n := List.length_take_of_le hlong.le
    have hround := halfUp_append (hsplit ▸ hs) e
    rw [← hsplit, hlen] at hround
    dsimp only
    rw [hround, Nat.min_eq_left hlong.le]
    by_cases hup : '5' ≤ c
    · have h := worth_raised (hs.take n) (List.ne_nil_of_length_pos (by omega)) e
      rw [hlen] at h
      simp only [if_pos hup]
      exact h
    · simp only [if_neg hup, Nat.add_zero]
      refine ⟨hs.take n, hlen, ?_⟩
      simp only [Parts.worth, Rounded.leading, hlen, Bool.false_eq_true, if_false]

/-! ## Rounding to a number of digits -/

/-- A number rounded to fewer digits than none is zero. -/
theorem halfUp_eq_zero_of_neg {p : Parts} (h : IsDigits p.digits) {n : ℤ} (hn : n < 0) :
    halfUp p.worth (n - p.exponent - 1) = 0 := by
  refine halfUp_eq_zero p.worth_nonneg ?_
  calc p.worth * 10 ^ (n - p.exponent - 1)
      < 10 ^ (p.exponent + 1) * 10 ^ (n - p.exponent - 1) := by
        gcongr
        exact Parts.worth_lt h
    _ = 10 ^ n := by
        rw [← zpow_add₀ (by norm_num)]
        congr 1
        ring
    _ ≤ 10 ^ (-1 : ℤ) := zpow_le_zpow_right₀ (by norm_num) (by omega)
    _ < 1 / 2 := by norm_num

/-- Rounding to a number of digits counted from the first one, which may be none or less. -/
theorem worth_roundTo {p : Parts} (h : IsDigits p.digits) (hne : p.digits ≠ []) (n : ℤ) :
    IsDigits (roundTo p n).digits ∧ (roundTo p n).digits ≠ [] ∧
      ((roundTo p n).digits.length : ℤ) - (roundTo p n).leading - 1 ≤
        max (n - p.exponent - 1) 0 ∧
      Parts.worth ⟨(roundTo p n).digits, (roundTo p n).leading⟩ =
        halfUp p.worth (n - p.exponent - 1) := by
  have hpos := List.length_pos_iff.mpr hne
  unfold roundTo
  split_ifs with hneg hzero hempty hall
  · rw [halfUp_eq_zero_of_neg h hneg]
    exact ⟨by decide, by simp, by simp [Rounded.leading], by simp [Parts.worth]⟩
  · exact absurd (List.isEmpty_iff.mp hempty) hne
  · -- the digit before the first one decides
    obtain ⟨hdigits, hlen, hworth⟩ :=
      worth_cutAt (h.cons (c := '0') rfl) (p.exponent + 1) Nat.one_pos
    have hfront : Parts.worth ⟨'0' :: p.digits, p.exponent + 1⟩ = p.worth :=
      Parts.worth_zeros_append 1 p.digits p.exponent
    have hleading := Rounded.exponent_le_leading (cutAt ('0' :: p.digits) (p.exponent + 1) 1)
    rw [exponent_cutAt] at hleading
    simp only [List.length_cons] at hlen
    refine ⟨hdigits, List.ne_nil_of_length_pos (by omega), by omega, ?_⟩
    rw [hworth, hfront, hzero]
    congr 1
    push_cast
    ring
  · have hint : p.worth * 10 ^ (n - p.exponent - 1) =
        ((valueOf p.digits * 10 ^ (n - p.digits.length).toNat : ℕ) : ℤ) := by
      have hunits := Parts.worth_mul p.digits p.exponent n
      have hexact : (((n - p.digits.length).toNat : ℕ) : ℤ) = n - p.digits.length := by omega
      rw [hunits]
      push_cast
      rw [← zpow_natCast, hexact]
    rw [halfUp_eq_self hint]
    refine ⟨h, hne, ?_, by simp [Rounded.leading]⟩
    simp only [Rounded.leading, Bool.false_eq_true, if_false]
    omega
  · have hexact : ((n.toNat : ℕ) : ℤ) = n := by omega
    obtain ⟨hdigits, hlen, hworth⟩ := worth_cutAt h p.exponent (n := n.toNat) (by omega)
    have hleading := Rounded.exponent_le_leading (cutAt p.digits p.exponent n.toNat)
    rw [exponent_cutAt] at hleading
    rw [hexact] at hworth
    exact ⟨hdigits, List.ne_nil_of_length_pos (by omega), by omega, hworth⟩

/-! ## Rounding to places or to a width -/

/-- How many places after the point a number keeps whose first digit has the exponent: as many as it
is told to, or as many as fit a width of at least two columns beside the point and the digits in
front of it. None if it is not rounded. -/
def keptPlaces? (exponent : ℤ) : Option ℤ → Option ℤ → Option ℤ
  | some places, _ => some places
  | none, some width => some (max 0 (max 2 width - 1 - max (exponent + 1) 0))
  | none, none => none

/-- The number rounded half-up, if it is to be rounded. -/
def halfUpTo (q : ℚ) : Option ℤ → ℚ
  | some places => halfUp q places
  | none => q

/-- Rounding to places after the point, or to a width, rounds the number half-up. -/
theorem worth_round {p : Parts} (h : IsDigits p.digits) (hne : p.digits ≠ [])
    (places width : Option ℤ) :
    IsDigits (p.round places width).digits ∧ (p.round places width).digits ≠ [] ∧
      (∀ d ∈ places, ((p.round places width).digits.length : ℤ) -
        (p.round places width).leading - 1 ≤ max d 0) ∧
      Parts.worth ⟨(p.round places width).digits, (p.round places width).leading⟩ =
        halfUpTo p.worth (keptPlaces? p.exponent places width) := by
  by_cases hfree : places.isNone ∧ width.isNone
  · obtain ⟨rfl, rfl⟩ : places = none ∧ width = none := by simpa using hfree
    exact ⟨h, hne, by simp, rfl⟩
  · have hround : p.round places width =
        roundTo p (keptDigits p.exponent places (width.getD 0)) := if_neg hfree
    obtain ⟨hdigits, hsome, hplaces, hworth⟩ :=
      worth_roundTo h hne (keptDigits p.exponent places (width.getD 0))
    have hkept : halfUpTo p.worth (keptPlaces? p.exponent places width) = halfUp p.worth
        (keptDigits p.exponent places (width.getD 0) - p.exponent - 1) := by
      cases places with
      | some d =>
        simp only [keptPlaces?, keptDigits, halfUpTo]
        congr 1
        ring
      | none =>
        cases width with
        | none => simp at hfree
        | some w =>
          simp only [keptPlaces?, keptDigits, halfUpTo, Option.getD_some]
          congr 1
          split_ifs <;> omega
    rw [hround, hkept]
    refine ⟨hdigits, hsome, fun d hd => ?_, hworth⟩
    obtain rfl : places = some d := hd
    refine hplaces.trans ?_
    simp only [keptDigits]
    omega

end Tilde.Decimal
