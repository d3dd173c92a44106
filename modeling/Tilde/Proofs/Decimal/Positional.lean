import Tilde.Decimal.Fixed
import Tilde.Proofs.Decimal.Rounding

/-!
# Positional notation

A digit string in positional notation stands for the same number as with an exponent. The signs, the
padding and the zeros around the point that a field adds leave the number as it is.

* `IsNumeral`: a text of digits and a point, and the number that it writes;
* **`isNumeral_positional`**: `positional` writes the number, with as many places as are asked for;
* **`exists_fixedText`**: the parts of a fixed-point field.
-/

namespace Tilde.Decimal

/-- The text is digits with a point among them, so many of them behind it, and writes the number. -/
def IsNumeral (s : Text) (places : ℕ) (q : ℚ) : Prop :=
  ∃ whole frac : Text, s = whole ++ '.' :: frac ∧ IsDigits (whole ++ frac) ∧ whole ++ frac ≠ [] ∧
    frac.length = places ∧ q = valueOf (whole ++ frac) / 10 ^ places

namespace IsNumeral

variable {s : Text} {places : ℕ} {q : ℚ}

/-- A zero in front changes nothing. -/
theorem zero_cons (h : IsNumeral s places q) : IsNumeral ('0' :: s) places q := by
  obtain ⟨whole, frac, rfl, hdigits, -, hplaces, rfl⟩ := h
  refine ⟨'0' :: whole, frac, rfl, hdigits.cons rfl, by simp, hplaces, ?_⟩
  rw [List.cons_append, valueOf_cons]
  simp [digitValue]

/-- Neither does taking away the only digit in front of the point, if it is a zero. -/
theorem of_zero_cons (h : IsNumeral ('0' :: '.' :: s) places q) (hplaces : 0 < places) :
    IsNumeral ('.' :: s) places q := by
  obtain ⟨whole, frac, hs, hdigits, -, hlen, rfl⟩ := h
  obtain ⟨rfl, rfl⟩ : whole = ['0'] ∧ frac = s := by
    cases whole with
    | nil => simp at hs
    | cons d tail =>
      cases tail with
      | nil => simpa [eq_comm] using hs
      | cons c tail =>
        obtain ⟨-, hpoint, -⟩ : '0' = d ∧ '.' = c ∧ _ := by simpa using hs
        exact absurd (hdigits c (by simp)) (by rw [← hpoint]; decide)
  refine ⟨[], frac, rfl, hdigits.of_subset (by simp), ?_, hlen, ?_⟩
  · exact List.ne_nil_of_length_pos (by simpa [hlen] using hplaces)
  · rw [List.singleton_append, valueOf_cons]
    simp [digitValue]

/-- A zero behind is a place more. -/
theorem append_zero (h : IsNumeral s places q) : IsNumeral (s ++ ['0']) (places + 1) q := by
  obtain ⟨whole, frac, rfl, hdigits, hne, rfl, rfl⟩ := h
  have hvalue : valueOf (whole ++ (frac ++ ['0'])) = valueOf (whole ++ frac) * 10 := by
    rw [← List.append_assoc]
    exact valueOf_append_zeros _ 1
  refine ⟨whole, frac ++ ['0'], by simp, ?_, by simp, by simp, ?_⟩
  · rw [← List.append_assoc]
    exact hdigits.append (by decide)
  · rw [hvalue, pow_succ]
    push_cast
    field_simp

/-- A zero in front and a zero behind. -/
theorem zeros (h : IsNumeral s places q) (front back : Bool) :
    IsNumeral ((if front then ['0'] else []) ++ s ++ if back then ['0'] else [])
      (places + back.toNat) q := by
  have hfront : IsNumeral ((if front then ['0'] else []) ++ s) places q := by
    cases front
    · exact h
    · exact h.zero_cons
  cases back
  · simpa using hfront
  · exact hfront.append_zero

/-- A numeral begins with a digit or the point. -/
theorem head (h : IsNumeral s places q) : ∃ c t, s = c :: t ∧ (c.isDigit = true ∨ c = '.') := by
  obtain ⟨whole, frac, rfl, hdigits, -, -, -⟩ := h
  cases whole with
  | nil => exact ⟨'.', frac, rfl, .inr rfl⟩
  | cons c whole => exact ⟨c, _, rfl, .inl (hdigits c (by simp))⟩

end IsNumeral

/-- A digit string whose last digit stands for `10 ^ -places`. -/
theorem Parts.worth_eq_div (s : Text) (e : ℤ) {places : ℕ} (h : (s.length : ℤ) = e + places + 1) :
    worth ⟨s, e⟩ = valueOf s / 10 ^ places := by
  rw [worth, h, div_eq_mul_inv, ← zpow_natCast, ← zpow_neg]
  congr 2
  ring

theorem length_positional (s : Text) (e : ℤ) (places : Option ℤ) :
    (positional s e places).length = (expanded s e places).length + 1 := by
  unfold positional pointed
  split_ifs
  · rfl
  · simp only [List.length_append, List.length_cons, List.length_take, List.length_drop]
    omega

/-- In positional notation digits stand for the same number, and have no places but those that are
asked for and their own. -/
theorem isNumeral_positional {s : Text} (hs : IsDigits s) (hne : s ≠ []) (e : ℤ)
    {places : Option ℤ} (hplaces : 0 ≤ places.getD 0) :
    IsNumeral (positional s e places) (max (places.getD 0) (s.length - e - 1)).toNat
      (Parts.worth ⟨s, e⟩) := by
  unfold positional pointed expanded Text.padRight
  by_cases he : e < 0
  · simp only [if_pos he]
    generalize hz : (-1 + places.getD 0 + 1 -
      ((List.replicate (-e - 1).toNat '0' ++ s).length : ℤ)).toNat = z
    have hworth : Parts.worth ⟨s, e⟩ =
        Parts.worth ⟨List.replicate (-e - 1).toNat '0' ++ s ++ List.replicate z '0', -1⟩ := by
      have hexact : ((-e - 1).toNat : ℤ) = -e - 1 := by omega
      rw [Parts.worth_append_zeros, ← Parts.worth_zeros_append (-e - 1).toNat s e, hexact]
      congr 2
      ring
    simp only [List.length_append, List.length_replicate] at hz
    refine ⟨[], _, rfl, ((IsDigits.zeros _).append hs).append (.zeros _), by simp [hne], ?_, ?_⟩
    · simp only [List.length_append, List.length_replicate]
      omega
    · rw [hworth, List.nil_append]
      refine Parts.worth_eq_div _ _ ?_
      simp only [List.length_append, List.length_replicate]
      omega
  · simp only [if_neg he]
    generalize hz : (e + places.getD 0 + 1 - (s.length : ℤ)).toNat = z
    have hdigits := hs.append (.zeros z)
    refine ⟨_, _, rfl, ?_, ?_, ?_, ?_⟩
    · rwa [List.take_append_drop]
    · rw [List.take_append_drop]
      simp [hne]
    · simp only [List.length_drop, List.length_append, List.length_replicate]
      omega
    · rw [List.take_append_drop, ← Parts.worth_append_zeros s z e]
      refine Parts.worth_eq_div _ _ ?_
      simp only [List.length_append, List.length_replicate]
      omega

/-! ## Fields -/

/-- The number that a fixed-point field of the style shows: scaled, and rounded to places or to the
width that the sign leaves. -/
def FloatStyle.rounds (style : FloatStyle) (signWidth : ℤ) (p : Parts) : ℚ :=
  halfUpTo (Parts.worth ⟨p.digits, p.exponent + style.scale⟩)
    (keptPlaces? (p.exponent + style.scale) style.places (style.width.map (· - signWidth)))

/-- A text in a field of the style: the overflow text if there is one and the text is too long for
the width, padding in front of it otherwise. -/
def FloatStyle.framed (style : FloatStyle) (s : Text) : Text :=
  match style.width with
  | none => s
  | some w =>
    if w < s.length ∧ !style.overflow.isEmpty then Text.times style.overflow w
    else Text.times style.pad (w - s.length) ++ s

variable {style : FloatStyle} {p : Parts}

theorem isNumeral_fixedBody (signWidth : ℤ) (hdigits : IsDigits p.digits) (hne : p.digits ≠ [])
    (hplaces : ∀ d ∈ style.places, 0 ≤ d) :
    ∃ n : ℕ, IsNumeral (fixedBody style signWidth p) n (style.rounds signWidth p) ∧
      ∀ d ∈ style.places, (n : ℤ) = d := by
  have hnonneg : 0 ≤ style.places.getD 0 := by
    cases hp : style.places with
    | none => exact le_rfl
    | some d => exact hplaces d hp
  obtain ⟨hkept, hsome, hfew, hworth⟩ := worth_round (p := ⟨p.digits, p.exponent + style.scale⟩)
    hdigits hne style.places (style.width.map (· - signWidth))
  unfold fixedBody
  dsimp only
  generalize Parts.round _ _ _ = r at hkept hsome hfew hworth ⊢
  have hbody := isNumeral_positional hkept hsome r.leading hnonneg
  rw [hworth] at hbody
  generalize hn : (max (style.places.getD 0) _).toNat = n at hbody
  have hexact : ∀ d ∈ style.places, (n : ℤ) = d := fun d hd => by
    have := hfew d hd
    have := hplaces d hd
    rw [show style.places = some d from hd, Option.getD_some] at hn
    omega
  refine ⟨n, ?_, hexact⟩
  split
  · rename_i w d hw hd
    split_ifs with hdrop
    · -- there is no room for the zero in front of the point
      obtain ⟨hd1, hzero, -⟩ := hdrop
      obtain ⟨tail, htail⟩ := List.isPrefixOf_iff_prefix.mp hzero
      have := hexact d hd
      rw [← htail] at hbody ⊢
      exact hbody.of_zero_cons (by omega)
    · exact hbody
  · exact hbody

/-- Where all digits stand in front of the point, and none are asked for behind it, there is a digit
in front of the point. -/
theorem not_isPrefixOf_fixedBody (signWidth : ℤ) (hdigits : IsDigits p.digits) (hne : p.digits ≠ [])
    (hplaces : style.places = none) (hall : (p.digits.length : ℤ) - 1 ≤ p.exponent + style.scale) :
    ['.'].isPrefixOf (fixedBody style signWidth p) = false := by
  have hpos := List.length_pos_iff.mpr hne
  have hround : Parts.round ⟨p.digits, p.exponent + style.scale⟩ none
      (style.width.map (· - signWidth)) = ⟨p.digits, p.exponent + style.scale, false⟩ := by
    cases hw : style.width with
    | none => rfl
    | some w =>
      have hcount : (p.digits.length : ℤ) ≤
          keptDigits (p.exponent + style.scale) none (w - signWidth) := by
        simp only [keptDigits]
        split_ifs <;> omega
      simp only [Parts.round, roundTo, Option.map_some, Option.isNone_some,
        Bool.false_eq_true, and_false, if_false, Option.getD_some]
      rw [if_neg (by omega), if_neg (by omega), if_pos hcount]
  obtain ⟨c, t, hct⟩ := List.exists_cons_of_ne_nil hne
  have hpoint : c ≠ '.' := fun h => by
    have := hdigits c (by simp [hct])
    rw [h] at this
    exact absurd this (by decide)
  have hcount : (p.exponent + style.scale + 1).toNat = (p.exponent + style.scale).toNat + 1 := by
    omega
  unfold fixedBody positional pointed expanded
  simp only [hplaces, hround, Rounded.leading, Bool.false_eq_true, if_false]
  rw [if_neg (by omega), if_neg (by omega), hct, hcount, Text.padRight]
  simp [List.isPrefixOf, hpoint.symm]

/-- A zero in front or behind makes a text one character longer. -/
theorem length_zeros (sign body : Text) {front back : Bool} (h : back = true → front = false) :
    (if (front || back) = true then (body.length + sign.length + 1 : ℤ)
      else body.length + sign.length) =
      (sign ++ ((if front then ['0'] else []) ++ body ++ if back then ['0'] else [])).length := by
  simp only [List.length_append]
  cases back <;> cases front <;> simp_all <;> omega

/-- A fixed-point field shows the sign and a numeral for the rounded number. -/
theorem exists_fixedText (negative : Bool) (hdigits : IsDigits p.digits) (hne : p.digits ≠ [])
    (hplaces : ∀ d ∈ style.places, 0 ≤ d) :
    ∃ (s : Text) (n : ℕ),
      IsNumeral s n (style.rounds (signText style.plus negative).length p) ∧
      (∀ d ∈ style.places, (n : ℤ) = d) ∧
      fixedText style negative p = style.framed (signText style.plus negative ++ s) := by
  obtain ⟨n, hbody, hexact⟩ :=
    isNumeral_fixedBody (signText style.plus negative).length hdigits hne hplaces
  have hpoint := @not_isPrefixOf_fixedBody style p (signText style.plus negative).length hdigits hne
  unfold fixedText
  dsimp only
  generalize fixedBody style (signText style.plus negative).length p = body at hbody hpoint ⊢
  generalize hback : (style.places.isNone &&
    decide ((p.digits.length : ℤ) - 1 ≤ p.exponent + style.scale)) = back
  -- a zero goes behind the point only where no places are asked for, and then none goes in front
  have hnone : back = true → style.places = none ∧ ['.'].isPrefixOf body = false := fun h => by
    rw [← hback] at h
    simp only [Bool.and_eq_true, Option.isNone_iff_eq_none, decide_eq_true_eq] at h
    exact ⟨h.1, hpoint h.1 h.2⟩
  have hkept : ∀ b : Bool, (b = true → style.places = none) → ∀ d ∈ style.places,
      ((n + b.toNat : ℕ) : ℤ) = d := fun b hb d hd => by
    cases b
    · exact hexact d hd
    · simp [hb rfl] at hd
  split
  · rename_i hw
    refine ⟨_, _, hbody.zeros (['.'].isPrefixOf body) back, hkept back fun h => (hnone h).1, ?_⟩
    simp only [FloatStyle.framed, hw, List.append_assoc]
  · rename_i w hw
    generalize hroom : decide ((body.length + (signText style.plus negative).length : ℤ) < w) = room
    have hlength := @length_zeros (signText style.plus negative) body (['.'].isPrefixOf body && room)
      (back && room) fun h => by simp [hnone (Bool.and_elim_left h)]
    refine ⟨_, _, hbody.zeros (['.'].isPrefixOf body && room) (back && room),
      hkept _ fun h => (hnone (Bool.and_elim_left h)).1, ?_⟩
    simp only [hlength, FloatStyle.framed, hw, List.append_assoc]

end Tilde.Decimal
