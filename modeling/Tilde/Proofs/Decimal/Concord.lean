import Tilde.Proofs.Decimal.Agreement
import Tilde.Proofs.Decimal.Scientific

/-!
# Exponential fields whose settings are whole numbers

The exponential field for values of any kind agrees with the one on integers where the settings are
integers, too, as long as there is memory for the field and the exponent can be written.

* `power_integer`, `mantissa_integer`, `split_integer`: the parts of the field;
* **`exponential_integer`**: the field.
-/

namespace Tilde

open Decimal

namespace PlainSettings

variable {t : PlainSettings} {p : Parts}

/-! ## The exponent -/

/-- The exponent can be filled up with zeros as is asked for. -/
def FillsExponent (t : PlainSettings) : Prop :=
  ∀ n ∈ t.exponentDigits, -(Text.indexLimit : ℤ) ≤ n ∧ n < Text.memoryLimit

theorem power_integer (hfills : t.FillsExponent) {e : ℤ}
    (hwritable : Value.isWritableInteger (shownExponent t.style e) = true) :
    t.settings.power e =
      .ok (exponentDigitsOf t.style (shownExponent t.style e), exponentPart t.style e) := by
  obtain ⟨n, hn⟩ : ∃ n, n = shownExponent t.style e := ⟨_, rfl⟩
  have hshown : RealSettings.shownNumber (.int n.natAbs) = .ok (Nat.toDigits 10 n.natAbs) := by
    have hdecimal : (Value.int n.natAbs).shown = Nat.toDigits 10 n.natAbs :=
      Value.decimal_natCast n.natAbs
    have hsame : Value.isWritableInteger n = Value.isWritableInteger (n.natAbs : ℤ) := by
      rw [Value.isWritableInteger, Value.isWritableInteger, Int.natAbs_natCast]
    have hmagnitude : (Value.int n.natAbs).isWritable = true := by
      rw [Value.isWritable, ← hsame, hn, hwritable]
    rw [RealSettings.shownNumber, if_pos hmagnitude, hdecimal]
  have hminus : (Value.int e).minus (.int (t.scale - 1)) = .ok (.int n) := by rw [hn]; rfl
  have habsolute : (Value.int n).absolute = .ok (.int n.natAbs) := rfl
  have hscale : t.settings.scale.minus (.int 1) = .ok (.int (t.scale - 1)) := rfl
  unfold RealSettings.power exponentPart exponentDigitsOf
  rw [← hn]
  simp only [hscale, hminus, habsolute, hshown, Value.isBelowZero_integer, ok_bind,
    decide_eq_true_eq, pure, Except.pure]
  cases hcount : t.exponentDigits with
  | none =>
    cases hmark : t.mark <;> simp only [settings, style, hcount, hmark] <;> rfl
  | some m =>
    obtain ⟨hlow, hhigh⟩ := hfills m hcount
    have hfilled := Value.filledLeft_of_fits (Nat.toDigits 10 n.natAbs) '0' hlow hhigh
    cases hmark : t.mark <;> simp only [settings, style, hcount, hmark, Value.optional,
      Value.isNothing, Bool.false_eq_true, if_false, hfilled, ok_bind] <;> rfl

/-! ## The mantissa -/

/-- The number of digits that the mantissa may have. -/
theorem exists_mantissaCount (t : PlainSettings) (signWidth : ℕ) (e : ℤ) :
    ∃ count : Option ℤ,
      t.settings.mantissaCount signWidth (exponentPart t.style e).length = .ok (.optional count) ∧
      mantissaDigits? t.style signWidth e = count.map fun n => (max n 1).toNat := by
  unfold RealSettings.mantissaCount mantissaDigits?
  cases hplaces : t.places with
  | some d =>
    refine ⟨some (if 0 < t.scale then d + 1 else d + t.scale), ?_, ?_⟩
    · simp only [settings, hplaces, Value.optional, Value.isNothing, Value.less_integer, ok_bind,
        Bool.not_false, if_true, decide_eq_true_eq]
      split_ifs <;> rfl
    · simp [style, hplaces]
  | none =>
    cases hwidth : t.width with
    | some w =>
      refine ⟨some (w - signWidth - (exponentPart t.style e).length - 1 - max 0 (-t.scale)), ?_, ?_⟩
      · simp only [settings, hplaces, hwidth, Value.optional, Value.isNothing, Value.minus_integer,
          Value.negated_integer, Value.larger_integer, ok_bind, Bool.not_true, Bool.false_eq_true,
          if_false]
      · simp [style, hplaces, hwidth]
    | none =>
      refine ⟨none, ?_, ?_⟩
      · simp [settings, hplaces, hwidth, Value.optional, Value.isNothing, pure, Except.pure]
      · simp [style, hplaces, hwidth]

theorem cutAt_of_length_le {s : Text} {e : ℤ} {n : ℕ} (h : s.length ≤ n) :
    cutAt s e n = ⟨s, e, false⟩ := by
  simp [cutAt, List.drop_of_length_le h, List.take_of_length_le h]

theorem mantissa_integer (signWidth : ℕ) (hfills : t.FillsExponent)
    (hwritable : ∀ e, p.exponent ≤ e → e ≤ p.exponent + 1 →
      Value.isWritableInteger (shownExponent t.style e) = true) :
    t.settings.mantissa signWidth p =
      (let q := roundedMantissa t.style signWidth p
      .ok (q.digits, exponentDigitsOf t.style (shownExponent t.style q.exponent),
        exponentPart t.style q.exponent)) := by
  have hpower := power_integer hfills (hwritable p.exponent le_rfl (by omega))
  have hagain := power_integer hfills (hwritable (p.exponent + 1) (by omega) le_rfl)
  obtain ⟨count, hcount, hdigits⟩ := exists_mantissaCount t signWidth p.exponent
  obtain ⟨count', hcount', -⟩ := exists_mantissaCount t signWidth (p.exponent + 1)
  unfold RealSettings.mantissa roundedMantissa
  rw [hdigits]
  simp only [hpower, hcount, ok_bind]
  cases count with
  | none => rfl
  | some n =>
    simp only [Value.optional, Value.larger_integer, Value.less_integer, ok_bind,
      Value.asInteger_integer, Option.map_some, decide_eq_true_eq]
    by_cases hless : max n 1 < (p.digits.length : ℤ)
    · rw [if_pos hless]
      cases hcarried : (cutAt p.digits p.exponent (max n 1).toNat).carried with
      | false => rfl
      | true =>
        simp only [if_true, hagain, hcount', ok_bind]
        rfl
    · rw [if_neg hless, cutAt_of_length_le (by omega)]
      rfl

/-- The mantissa in front of the point and behind it. -/
theorem split_integer (digits : Text) (hplaces : ∀ d ∈ t.places, 0 ≤ d)
    (hwhole : (wholeDigits t.style digits).length < Text.memoryLimit)
    (hfrac : (placeDigits t.style digits).length < Text.memoryLimit) :
    t.settings.split digits = .ok (wholeDigits t.style digits, placeDigits t.style digits) := by
  have hlimits : Text.memoryLimit ≤ Text.indexLimit := by decide
  have hscale : t.style.scale = t.scale := rfl
  rw [length_wholeDigits, hscale] at hwhole
  unfold placeDigits at hfrac ⊢
  unfold RealSettings.split wholeDigits
  simp only [show t.settings.scale = .int t.scale from rfl, hscale,
    show t.settings.places = .optional t.places from rfl, show t.style.places = t.places from rfl,
    Value.less_integer, Value.asInteger_integer, Value.negated_integer, ok_bind,
    decide_eq_true_eq] at hfrac ⊢
  by_cases hpos : 0 < t.scale
  · have hfilled := Value.filledRight_of_fits (digits.take t.scale.toNat) '0' (w := t.scale)
      (by omega) (by omega)
    rw [if_pos hpos] at hfrac
    simp only [if_pos hpos, hfilled, ok_bind]
    cases hd : t.places with
    | none => rfl
    | some d =>
      have hd0 := hplaces d hd
      simp only [hd, Text.length_padRight] at hfrac
      have hplace := Value.filledRight_of_fits (digits.drop t.scale.toNat) '0'
        (w := d - t.scale + 1) (by omega) (by omega)
      simp only [Value.optional, Value.isNothing, Bool.false_eq_true, if_false,
        Value.minus_integer, Value.plus_integer, ok_bind, hplace]
      rfl
  · rw [if_neg hpos] at hfrac
    have hzeros : (-t.scale).toNat < Text.memoryLimit := by
      refine lt_of_le_of_lt ?_ hfrac
      cases t.places <;> simp [Text.length_padRight]
    have hrepeated := Value.repeatText_of_fits '0' (n := -t.scale) (by omega) (by omega)
    simp only [if_neg hpos, hrepeated, ok_bind]
    cases hd : t.places with
    | none => rfl
    | some d =>
      have hd0 := hplaces d hd
      simp only [hd, Text.length_padRight] at hfrac
      have hplace := Value.filledRight_of_fits (List.replicate (-t.scale).toNat '0' ++ digits) '0'
        (w := d) (by omega) (by omega)
      simp only [Value.optional, Value.isNothing, Bool.false_eq_true, if_false, ok_bind, hplace]
      rfl

/-! ## The exponential field -/

/-- The rules for values, without a width. -/
theorem exponential_free (hw : t.width = none) {negative : Bool}
    {digits whole places power exponentDigits : Text}
    (hmantissa : t.settings.mantissa (signText t.plus negative).length p =
      .ok (digits, exponentDigits, power))
    (hsplit : t.settings.split digits = .ok (whole, places)) :
    t.settings.exponential negative p =
      .ok (.text (signText t.plus negative ++ (if whole.isEmpty then ['0'] else []) ++
        (whole ++ '.' :: orZero places t.places.isNone) ++ power)) := by
  have hrest : (if places.isEmpty && t.places.isNone then ['0'] else places) =
      orZero places t.places.isNone := rfl
  unfold RealSettings.exponential
  simp only [show t.settings.plus = t.plus from rfl, hmantissa, hsplit, ok_bind,
    show t.settings.width = .optional t.width from rfl, hw, Value.isNothing_optional,
    show t.settings.places = .optional t.places from rfl, Option.isNone_none, if_true]
  rw [← hrest]
  split_ifs <;> rfl

/-- A field that is too narrow is not asked about its exponent. -/
theorem ite_overflowing {α : Type} (narrow : Prop) [Decidable narrow] (crowded fills : Bool)
    (x y : α) :
    (if narrow then if fills = true then x else y
      else if (crowded && fills) = true then x else y) =
      if ((decide narrow || crowded) && fills) = true then x else y := by
  by_cases h : narrow <;> simp [h]

theorem ite_overflowing_false {α : Type} (narrow : Prop) [Decidable narrow] (fills : Bool)
    (x y : α) :
    (if narrow then if fills = true then x else y else y) =
      if ((decide narrow || false) && fills) = true then x else y := by
  by_cases h : narrow <;> simp [h]

/-- The rules for values, on a width. -/
theorem exponential_width {w : ℤ} (hw : t.width = some w) {negative : Bool}
    {digits whole places power exponentDigits : Text}
    (hmantissa : t.settings.mantissa (signText t.plus negative).length p =
      .ok (digits, exponentDigits, power))
    (hsplit : t.settings.split digits = .ok (whole, places)) :
    t.settings.exponential negative p =
      (let sign := signText t.plus negative
      let roomy := decide (((sign.length + whole.length + 2 + power.length : ℕ) : ℤ) ≤ w)
      let body := whole ++ '.' :: orZero places (t.places.isNone && roomy)
      let bare := sign.length + body.length + power.length
      let front := whole.isEmpty && decide ((bare : ℤ) < w)
      let body := if front then '0' :: body else body
      let full : ℕ := if front then bare + 1 else bare
      let crowded := t.exponentDigits.any fun e : ℤ => decide (e < exponentDigits.length)
      if (decide (w < full) || crowded) && t.settings.overflow.isTrue then t.settings.overflowing
      else t.settings.padded (.int full) (sign ++ body ++ power)) := by
  have hwidth : t.settings.width = .int w := by rw [settings, hw]; rfl
  have hplaces : t.settings.places.isNothing = t.places.isNone := Value.isNothing_optional _
  have hless : ∀ n : ℤ, (Value.int n).less t.settings.width = .ok (decide (n < w)) := fun n => by
    rw [hwidth, Value.less_integer]
  have hatMost : ∀ n : ℤ, (Value.int n).numberAtMost t.settings.width = .ok (decide (n ≤ w)) :=
    fun n => by rw [hwidth, Value.atMost_integer]
  have hmore : ∀ n : ℤ, t.settings.width.less (.int n) = .ok (decide (w < n)) := fun n => by
    rw [hwidth, Value.less_integer]
  have hnone : t.settings.exponentDigits.isNothing = t.exponentDigits.isNone :=
    Value.isNothing_optional _
  have hfew : ∀ e ∈ t.exponentDigits, ∀ n : ℤ,
      t.settings.exponentDigits.less (.int n) = .ok (decide (e < n)) := fun e he n => by
    rw [settings, show t.exponentDigits = some e from he]
    exact Value.less_integer e n
  unfold RealSettings.exponential
  simp only [show t.settings.plus = t.plus from rfl, hmantissa, hsplit, ok_bind, hplaces, hless,
    hatMost, hmore, show t.settings.width.isNothing = false by rw [hwidth]; rfl, hnone,
    Bool.false_eq_true, if_false]
  cases hfree : t.places.isNone <;> cases hempty : places.isEmpty <;>
    cases hwhole : whole.isEmpty <;> cases hdigits : t.exponentDigits <;>
    simp only [orZero, hempty, hfew, hdigits, Option.mem_some_iff, Option.isNone_none,
      Option.isNone_some, Bool.and_self, Bool.and_true, Bool.true_and, Bool.and_false,
      Bool.false_and, Bool.false_eq_true, if_false, if_true, pure, Except.pure, ok_bind,
      decide_eq_true_eq]
  all_goals first
    | exact ite_overflowing _ _ _ _ _
    | exact ite_overflowing_false _ _ _ _

/-- The rules for integers, on a width. -/
theorem exponentialText_columns {style : FloatStyle} {w : ℤ} (hw : style.width = some w)
    (negative : Bool) :
    exponentialText style negative p =
      (let sign := signText style.plus negative
      let q := roundedMantissa style sign.length p
      let whole := wholeDigits style q.digits
      let power := exponentPart style q.exponent
      let roomy := decide (((sign.length + whole.length + 2 + power.length : ℕ) : ℤ) ≤ w)
      let body := whole ++ '.' :: orZero (placeDigits style q.digits) (style.places.isNone && roomy)
      let bare := sign.length + body.length + power.length
      let front := whole.isEmpty && decide ((bare : ℤ) < w)
      let body := if front then '0' :: body else body
      let full : ℕ := if front then bare + 1 else bare
      let crowded := style.exponentDigits.any fun e : ℤ =>
        decide (e < (exponentDigitsOf style (shownExponent style q.exponent)).length)
      if (w < full ∨ crowded) ∧ !style.overflow.isEmpty then Text.times style.overflow w
      else Text.times style.pad (w - full) ++ (sign ++ body ++ power)) := by
  unfold exponentialText
  simp only [hw, Nat.cast_add, Nat.cast_ite, Nat.cast_one, Nat.cast_ofNat, List.append_assoc]
  cases style.exponentDigits <;> rfl

theorem length_scientific (style : FloatStyle) (front back : Bool) (q : Parts) :
    (wholeDigits style q.digits).length + (placeDigits style q.digits).length +
      (exponentPart style q.exponent).length <
        ((scientific style front back q).text style.mark).length := by
  have hplaces := length_le_orZero (placeDigits style q.digits) back
  rw [text_scientific]
  simp only [List.length_append, List.length_cons]
  omega

theorem length_orZero (places : Text) (free roomy : Bool) :
    (orZero places (free && roomy)).length = places.length ∨
      roomy = true ∧ (orZero places (free && roomy)).length = 1 := by
  unfold orZero
  cases places <;> cases free <;> cases roomy <;> simp

/-- A zero is added to an exponential field only where there is room for it. -/
theorem columns_le (sign whole places power : Text) (free : Bool) (w : ℤ) :
    let roomy := decide (((sign.length + whole.length + 2 + power.length : ℕ) : ℤ) ≤ w)
    let body := whole ++ '.' :: orZero places (free && roomy)
    let bare := sign.length + body.length + power.length
    let front := whole.isEmpty && decide ((bare : ℤ) < w)
    ((if front then bare + 1 else bare : ℕ) : ℤ) ≤
      max w (sign.length + (whole.length + places.length + power.length) + 1) := by
  intro roomy body bare front
  have hbare : bare = sign.length + (whole.length + 1 + (orZero places (free && roomy)).length) +
      power.length := by
    simp only [bare, body, List.length_append, List.length_cons]
    omega
  by_cases hfront : front = true
  · have hless : (bare : ℤ) < w := of_decide_eq_true (Bool.and_elim_right hfront)
    rw [if_pos hfront]
    omega
  · rw [if_neg hfront]
    rcases length_orZero places free roomy with hsame | ⟨hroom, hone⟩
    · omega
    · have hless := of_decide_eq_true hroom
      omega

/-- All parts of an exponential field are in it, and it is as wide as it is asked to be. -/
theorem parts_le_length (t : PlainSettings) (negative : Bool) (p : Parts) :
    (let q := roundedMantissa t.style (signText t.plus negative).length p
    (signText t.plus negative).length + ((wholeDigits t.style q.digits).length +
      (placeDigits t.style q.digits).length + (exponentPart t.style q.exponent).length) <
        (exponentialText t.style.free negative p).length) ∧
      ∀ w ∈ t.width, w ≤ (exponentialText t.style.free negative p).length := by
  have hlength := fun front back => length_scientific t.style.free front back
    (roundedMantissa t.style.free (signText t.plus negative).length p)
  cases hw : t.width with
  | none =>
    rw [exponentialText_free (show t.style.free.width = none from hw)]
    refine ⟨?_, by simp⟩
    rw [List.length_append]
    exact Nat.add_lt_add_left (hlength _ _) _
  | some w =>
    obtain ⟨front, back, crowded, htext⟩ :=
      exponentialText_width (show t.style.free.width = _ from hw) negative p
    have hmore := hlength front back
    rw [htext]
    have hnone : t.style.free.overflow.isEmpty = true := rfl
    have hpad : t.style.free.pad = [t.pad] := rfl
    simp only [hnone, hpad, Bool.not_true, Bool.false_eq_true, and_false, if_false,
      List.length_append, Text.length_times, List.length_singleton]
    refine ⟨Nat.lt_of_lt_of_le (Nat.add_lt_add_left hmore _) (Nat.le_add_left _ _), ?_⟩
    intro w' hw'
    obtain rfl := Option.some.inj hw'
    omega

/-- The rules for values make the field that the rules for integers make, if there is memory to
write the number out. -/
theorem exponential_integer (negative : Bool) (hwidth : ∀ w ∈ t.width, 0 ≤ w)
    (hplaces : ∀ d ∈ t.places, 0 ≤ d) (hdigits : ∀ e ∈ t.exponentDigits, -(Text.indexLimit : ℤ) ≤ e)
    (hwritable : ∀ e, p.exponent ≤ e → e ≤ p.exponent + 1 →
      Value.isWritableInteger (shownExponent t.style e) = true)
    (hfits : (exponentialText t.style.free negative p).length < Text.memoryLimit) :
    t.settings.exponential negative p = .ok (.text (exponentialText t.style negative p)) := by
  obtain ⟨hparts, hwide⟩ := parts_le_length t negative p
  obtain ⟨q, hq⟩ : ∃ q, q = roundedMantissa t.style (signText t.plus negative).length p := ⟨_, rfl⟩
  rw [← hq] at hparts
  dsimp only at hparts
  obtain ⟨-, -, -, hfew⟩ := exponentDigitsOf_spec t.style (shownExponent t.style q.exponent)
  have hpower : (exponentDigitsOf t.style (shownExponent t.style q.exponent)).length ≤
      (exponentPart t.style q.exponent).length := by
    simp only [exponentPart, List.length_append, List.length_cons]
    omega
  have hfills : t.FillsExponent := fun e he => ⟨hdigits e he, by have := hfew e he; omega⟩
  have hmantissa := mantissa_integer (signText t.plus negative).length hfills hwritable
  rw [← hq] at hmantissa
  have hsplit := split_integer q.digits hplaces (by omega) (by omega)
  have hround : roundedMantissa t.style (signText t.style.plus negative).length p = q := hq.symm
  cases hw : t.width with
  | none =>
    have hstyle : t.style.width = none := hw
    rw [exponential_free hw hmantissa hsplit, Decimal.exponentialText_free hstyle]
    simp only [hround, text_scientific, List.append_assoc]
    rfl
  | some w =>
    have hw0 := hwidth w hw
    have hstyle : t.style.width = some w := hw
    have hwide' := hwide w hw
    rw [exponential_width hw hmantissa hsplit, exponentialText_columns hstyle]
    simp only [← hq, isTrue_overflow, show t.style.plus = t.plus from rfl,
      show t.style.places = t.places from rfl,
      show t.style.exponentDigits = t.exponentDigits from rfl]
    have hmost := columns_le (signText t.plus negative) (wholeDigits t.style q.digits)
      (placeDigits t.style q.digits) (exponentPart t.style q.exponent) t.places.isNone w
    exact filled_integer hw hw0 (by omega) (Int.natCast_nonneg _) (by omega) (by simp) _

end PlainSettings

end Tilde
