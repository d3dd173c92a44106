import Tilde.Proofs.Decimal.Leading

/-!
# Exponential notation

In exponential notation a number is a mantissa times a power of ten. The scale moves the point of
the mantissa and the exponent makes up for it, so that the number stays the same wherever the point
stands.

* `Scientific`: the mantissa and the exponent, and the number that they write;
* `Renormalises`: rounding a mantissa, over again after a carry out of its first digit;
* **`writes_scientific`**: digits with the point where the scale wants it, and their exponent;
* `exponentialText_free`, `exponentialText_width`: the fields that show them.
-/

namespace Tilde.Decimal

/-! ## Mantissa and exponent -/

/-- A number in exponential notation: the digits of the mantissa in front of the point and behind
it, the exponent, and the digits that the exponent is written with. -/
structure Scientific where
  whole : Text
  frac : Text
  exponent : ℤ
  digits : Text

namespace Scientific

variable (x : Scientific)

def mantissa : Text := x.whole ++ '.' :: x.frac

/-- The mantissa and, behind a mark, the exponent with its sign. -/
def text (mark : Text) : Text :=
  x.mantissa ++ (mark ++ (if x.exponent < 0 then '-' else '+') :: x.digits)

/-- The parts are digits, the exponent is written out, and the mantissa times the power of ten is
the number. -/
structure Writes (q : ℚ) : Prop where
  mantissa : ∃ m, IsNumeral x.mantissa x.frac.length m ∧ m * 10 ^ x.exponent = q
  isDigits : IsDigits x.digits
  digits_ne_nil : x.digits ≠ []
  valueOf_digits : valueOf x.digits = x.exponent.natAbs

end Scientific

/-! ## Rounding the mantissa -/

/-- The digits are rounded to as many as the mantissa may have. If there is a carry out of the first
one, the number becomes a power of ten, and everything starts over. -/
inductive Renormalises (style : FloatStyle) (signWidth : ℕ) : Parts → Parts → Prop
  | unrounded {p : Parts} (hfree : mantissaDigits? style signWidth p.exponent = none) :
      Renormalises style signWidth p p
  | rounded {p : Parts} {n : ℕ} (hcount : mantissaDigits? style signWidth p.exponent = some n)
      (hkept : (cutAt p.digits p.exponent n).carried = false) :
      Renormalises style signWidth p ⟨(cutAt p.digits p.exponent n).digits, p.exponent⟩
  | again {p q : Parts} {n : ℕ} (hcount : mantissaDigits? style signWidth p.exponent = some n)
      (hcarried : (cutAt p.digits p.exponent n).carried = true)
      (hagain : Renormalises style signWidth ⟨['1'], p.exponent + 1⟩ q) :
      Renormalises style signWidth p q

variable {style : FloatStyle} {signWidth : ℕ} {p q : Parts}

theorem pos_of_mantissaDigits? {e : ℤ} {n : ℕ} (h : mantissaDigits? style signWidth e = some n) :
    0 < n := by
  unfold mantissaDigits? at h
  obtain ⟨k, -, rfl⟩ := Option.map_eq_some_iff.mp h
  omega

/-- A single digit is not rounded. -/
theorem cutAt_one {n : ℕ} (hn : 0 < n) (e : ℤ) : cutAt ['1'] e n = ⟨['1'], e, false⟩ := by
  obtain ⟨m, rfl⟩ := Nat.exists_eq_succ_of_ne_zero hn.ne'
  simp [cutAt]

/-- A power of ten is not rounded again, so that nothing starts over twice. -/
theorem renormalises_one (e : ℤ) : Renormalises style signWidth ⟨['1'], e⟩ ⟨['1'], e⟩ := by
  cases hcount : mantissaDigits? style signWidth e with
  | none => exact .unrounded hcount
  | some n =>
    have hcut := cutAt_one (pos_of_mantissaDigits? hcount) e
    have h := Renormalises.rounded (p := ⟨['1'], e⟩) hcount (by rw [hcut])
    rwa [hcut] at h

theorem renormalises_roundedMantissa (style : FloatStyle) (signWidth : ℕ) (p : Parts) :
    Renormalises style signWidth p (roundedMantissa style signWidth p) := by
  unfold roundedMantissa
  cases hcount : mantissaDigits? style signWidth p.exponent with
  | none => exact .unrounded hcount
  | some n =>
    dsimp only
    cases hcarried : (cutAt p.digits p.exponent n).carried with
    | false => exact .rounded hcount hcarried
    | true => exact .again hcount hcarried (renormalises_one _)

/-! ## The point -/

theorem length_wholeDigits (style : FloatStyle) (s : Text) :
    (wholeDigits style s).length = style.scale.toNat := by
  unfold wholeDigits
  split_ifs with hscale
  · rw [Text.length_padRight, List.length_take]
    omega
  · rw [List.length_nil]
    omega

/-- A text that is cut and filled up in front of the cut, and behind it, too. -/
theorem exists_padRight_append (s : Text) (n z : ℕ) :
    ∃ y, Text.padRight (s.take n) n '0' ++ (s.drop n ++ List.replicate z '0') =
      s ++ List.replicate y '0' := by
  unfold Text.padRight
  rcases le_total n s.length with hle | hle
  · refine ⟨z, ?_⟩
    rw [List.length_take_of_le hle]
    simp [← List.append_assoc]
  · refine ⟨n - s.length + z, ?_⟩
    have hcount : ((n : ℤ) - (s.length : ℤ)).toNat = n - s.length := by omega
    rw [List.take_of_length_le hle, List.drop_of_length_le hle, hcount]
    simp [← List.replicate_append_replicate]

/-- The digits of the mantissa: zeros behind the point, the digits, and zeros that fill it up. -/
theorem exists_mantissa (style : FloatStyle) (s : Text) :
    ∃ z, wholeDigits style s ++ placeDigits style s =
      List.replicate (-style.scale).toNat '0' ++ s ++ List.replicate z '0' := by
  unfold wholeDigits placeDigits
  by_cases hscale : 0 < style.scale
  · rw [if_pos hscale, if_pos hscale]
    obtain ⟨n, hn⟩ := Int.eq_ofNat_of_zero_le hscale.le
    have hnone : (-(n : ℤ)).toNat = 0 := by omega
    rw [hn, hnone, Int.toNat_natCast]
    cases style.places with
    | some d => exact exists_padRight_append s n _
    | none => simpa using exists_padRight_append s n 0
  · rw [if_neg hscale, if_neg hscale]
    cases style.places with
    | some d => exact ⟨_, rfl⟩
    | none => exact ⟨0, by simp⟩

/-- The digits with the point where the scale wants it. -/
theorem isNumeral_mantissa (style : FloatStyle) {s : Text} (hs : IsDigits s) (hne : s ≠ []) :
    IsNumeral (wholeDigits style s ++ '.' :: placeDigits style s) (placeDigits style s).length
      (Parts.worth ⟨s, style.scale - 1⟩) := by
  obtain ⟨z, hz⟩ := exists_mantissa style s
  have hzeros : style.scale - 1 + ((-style.scale).toNat : ℤ) = (style.scale.toNat : ℤ) - 1 := by
    omega
  have hworth : Parts.worth ⟨s, style.scale - 1⟩ =
      Parts.worth ⟨wholeDigits style s ++ placeDigits style s, (style.scale.toNat : ℤ) - 1⟩ := by
    rw [hz, Parts.worth_append_zeros, ← hzeros, Parts.worth_zeros_append]
  refine ⟨_, _, rfl, ?_, ?_, rfl, ?_⟩
  · rw [hz]
    exact ((IsDigits.zeros _).append hs).append (.zeros _)
  · rw [hz]
    simp [hne]
  · rw [hworth]
    refine Parts.worth_eq_div _ _ ?_
    rw [List.length_append, length_wholeDigits]
    push_cast
    ring

/-- The exponent is written with at least as many digits as are asked for. -/
theorem exponentDigitsOf_spec (style : FloatStyle) (e : ℤ) :
    IsDigits (exponentDigitsOf style e) ∧ exponentDigitsOf style e ≠ [] ∧
      valueOf (exponentDigitsOf style e) = e.natAbs ∧
      ∀ n ∈ style.exponentDigits, n ≤ (exponentDigitsOf style e).length := by
  have hdigits := isDigits_toDigits e.natAbs
  have hne : Nat.toDigits 10 e.natAbs ≠ [] := Nat.toDigits_ne_nil
  unfold exponentDigitsOf
  rw [magnitude_ten]
  cases style.exponentDigits with
  | none => exact ⟨hdigits, hne, valueOf_toDigits _, by simp⟩
  | some n =>
    refine ⟨(IsDigits.zeros _).append hdigits, by simp [Text.padLeft, hne], ?_, fun m hm => ?_⟩
    · exact (valueOf_zeros_append _ _).trans (valueOf_toDigits _)
    · obtain rfl := Option.some.inj hm
      rw [Text.length_padLeft]
      omega

/-- What an exponential field shows of the digits: with a zero in front of the point or not, and
with one behind it if so wanted and there is nothing else. -/
def scientific (style : FloatStyle) (front back : Bool) (q : Parts) : Scientific where
  whole := (if front then ['0'] else []) ++ wholeDigits style q.digits
  frac := orZero (placeDigits style q.digits) back
  exponent := shownExponent style q.exponent
  digits := exponentDigitsOf style (shownExponent style q.exponent)

theorem writes_scientific (style : FloatStyle) (front back : Bool) (hs : IsDigits q.digits)
    (hne : q.digits ≠ []) : (scientific style front back q).Writes q.worth := by
  obtain ⟨hdigits, hsome, hvalue, -⟩ :=
    exponentDigitsOf_spec style (shownExponent style q.exponent)
  have hback : IsNumeral (wholeDigits style q.digits ++
      '.' :: orZero (placeDigits style q.digits) back)
      (orZero (placeDigits style q.digits) back).length
      (Parts.worth ⟨q.digits, style.scale - 1⟩) := by
    have h := isNumeral_mantissa style hs hne
    unfold orZero
    split_ifs with hzero
    · obtain ⟨hnone, -⟩ := Bool.and_eq_true _ _ ▸ hzero
      rw [List.isEmpty_iff.mp hnone] at h
      simpa using h.append_zero
    · exact h
  refine ⟨⟨Parts.worth ⟨q.digits, style.scale - 1⟩, ?_, ?_⟩, hdigits, hsome, hvalue⟩
  · cases front
    · exact hback
    · exact hback.zero_cons
  · show _ * (10 : ℚ) ^ (q.exponent - (style.scale - 1)) = q.worth
    rw [Parts.worth, Parts.worth, mul_assoc, ← zpow_add₀ (by norm_num)]
    congr 2
    ring

/-! ## Fields -/

theorem text_scientific (style : FloatStyle) (front back : Bool) (q : Parts) :
    (scientific style front back q).text style.mark =
      (if front then ['0'] else []) ++ (wholeDigits style q.digits ++
        '.' :: orZero (placeDigits style q.digits) back) ++ exponentPart style q.exponent := by
  simp only [Scientific.text, Scientific.mantissa, scientific, exponentPart, List.append_assoc,
    List.cons_append]
  rfl

/-- Without a width the field is what it shows. -/
theorem exponentialText_free (hw : style.width = none) (negative : Bool) (p : Parts) :
    exponentialText style negative p =
      (let sign := signText style.plus negative
      let q := roundedMantissa style sign.length p
      sign ++ (scientific style (wholeDigits style q.digits).isEmpty style.places.isNone q).text
        style.mark) := by
  unfold exponentialText
  simp only [hw, text_scientific, Bool.and_true, List.append_assoc]

/-- On a width the field is what it shows, with padding in front of it, unless it is filled with the
overflow text. -/
theorem exponentialText_width {w : ℤ} (hw : style.width = some w) (negative : Bool) (p : Parts) :
    ∃ front back crowded : Bool,
      exponentialText style negative p =
        (let sign := signText style.plus negative
        let q := roundedMantissa style sign.length p
        let shown := sign ++ (scientific style front back q).text style.mark
        if (w < shown.length ∨ crowded) ∧ !style.overflow.isEmpty then Text.times style.overflow w
        else Text.times style.pad (w - shown.length) ++ shown) := by
  unfold exponentialText
  simp only [hw]
  generalize roundedMantissa style (signText style.plus negative).length p = q
  generalize decide (((signText style.plus negative).length : ℤ) +
    (wholeDigits style q.digits).length + 2 + (exponentPart style q.exponent).length ≤ w) = roomy
  generalize hbody : wholeDigits style q.digits ++
    '.' :: orZero (placeDigits style q.digits) (style.places.isNone && roomy) = body
  generalize ((wholeDigits style q.digits).isEmpty && decide
    (((signText style.plus negative).length : ℤ) + body.length +
      (exponentPart style q.exponent).length < w)) = front
  have hlength : (if front = true then ((signText style.plus negative).length : ℤ) + body.length +
      (exponentPart style q.exponent).length + 1
      else (signText style.plus negative).length + body.length +
        (exponentPart style q.exponent).length) =
      (signText style.plus negative ++ ((if front then ['0'] else []) ++ body ++
        exponentPart style q.exponent)).length := by
    simp only [List.length_append]
    cases front <;> simp <;> omega
  refine ⟨front, style.places.isNone && roomy, style.exponentDigits.any fun e : ℤ =>
    decide (e < (exponentDigitsOf style (shownExponent style q.exponent)).length), ?_⟩
  simp only [text_scientific, hbody, hlength, List.append_assoc]
  cases front <;> cases style.exponentDigits <;> rfl

end Tilde.Decimal
