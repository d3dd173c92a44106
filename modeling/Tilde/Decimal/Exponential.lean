import Tilde.Decimal.Fixed
import Tilde.Radix

/-!
# Exponential and general fields

A real number as a mantissa and a power of ten. The scale says how many digits stand in front of the
point, or, if it is not positive, how many zeros behind it. The general field is a fixed one as long
as the number has its first digit near the point.

* `exponential`, `general`: the fields; the former is written out only if it may fit
  (`exponential_eq`).
-/

namespace Tilde.Decimal

/-- The digits of the exponent, at least as many as the style asks for. -/
def exponentDigitsOf (style : FloatStyle) (exponent : Int) : Text :=
  let ds := Radix.magnitude 10 exponent.natAbs
  match style.exponentDigits with
  | some e => Text.padLeft ds e '0'
  | none => ds

/-- The exponent to print for a number whose first digit has the exponent. -/
def shownExponent (style : FloatStyle) (exponent : Int) : Int := exponent - (style.scale - 1)

/-- The mark, the sign and the digits of the exponent. -/
def exponentPart (style : FloatStyle) (exponent : Int) : Text :=
  style.mark ++ (if shownExponent style exponent < 0 then '-' else '+') ::
    exponentDigitsOf style (shownExponent style exponent)

/-- How many digits the mantissa may have. -/
def mantissaDigits? (style : FloatStyle) (signWidth : Nat) (exponent : Int) : Option Nat :=
  let count : Option Int := match style.places, style.width with
    | some d, _ => some (if 0 < style.scale then d + 1 else d + style.scale)
    | none, some w =>
      some (w - signWidth - (exponentPart style exponent).length - 1 - max 0 (-style.scale))
    | none, none => none
  count.map fun n => (max n 1).toNat

/-- The number rounded to the digits that its mantissa may have. After a carry out of the first
digit it is a power of ten, to which no rounding applies. -/
def roundedMantissa (style : FloatStyle) (signWidth : Nat) (p : Parts) : Parts :=
  match mantissaDigits? style signWidth p.exponent with
  | none => p
  | some n =>
    let r := cutAt p.digits p.exponent n
    if r.carried then ⟨['1'], p.exponent + 1⟩ else ⟨r.digits, p.exponent⟩

/-- The digits of the mantissa in front of the point. -/
def wholeDigits (style : FloatStyle) (digits : Text) : Text :=
  if 0 < style.scale then Text.padRight (digits.take style.scale.toNat) style.scale '0' else []

/-- The digits of the mantissa behind the point. -/
def placeDigits (style : FloatStyle) (digits : Text) : Text :=
  if 0 < style.scale then
    let rest := digits.drop style.scale.toNat
    match style.places with
    | some d => Text.padRight rest (d - style.scale + 1) '0'
    | none => rest
  else
    let rest := List.replicate (-style.scale).toNat '0' ++ digits
    match style.places with
    | some d => Text.padRight rest d '0'
    | none => rest

/-- No places are shown as a zero if so wanted. -/
def orZero (places : Text) (wanted : Bool) : Text :=
  if places.isEmpty && wanted then ['0'] else places

theorem length_le_orZero (places : Text) (wanted : Bool) :
    places.length ≤ (orZero places wanted).length := by
  unfold orZero
  cases places <;> simp

/-- The exponential field, written out. -/
def exponentialText (style : FloatStyle) (negative : Bool) (p : Parts) : Text :=
  let sign := signText style.plus negative
  let q := roundedMantissa style sign.length p
  let power := exponentPart style q.exponent
  let whole := wholeDigits style q.digits
  let places := placeDigits style q.digits
  let roomy : Bool := match style.width with
    | none => true
    | some w => decide ((sign.length + whole.length + 2 + power.length : Int) ≤ w)
  let places := orZero places (style.places.isNone && roomy)
  let body := whole ++ '.' :: places
  match style.width with
  | none => sign ++ (if whole.isEmpty then ['0'] else []) ++ body ++ power
  | some w =>
    let bare : Int := sign.length + body.length + power.length
    let front := whole.isEmpty && decide (bare < w)
    let body := if front then '0' :: body else body
    let width := if front then bare + 1 else bare
    let crowded : Bool := match style.exponentDigits with
      | some e =>
        decide (e < (exponentDigitsOf style (shownExponent style q.exponent)).length)
      | none => false
    if (w < width ∨ crowded) ∧ !style.overflow.isEmpty then Text.times style.overflow w
    else Text.times style.pad (w - width) ++ sign ++ body ++ power

/-- The exponential field has more columns than this: some for the digits in front of the point or
the zeros behind it, some for the places, and some for the exponent. -/
def fewestColumnsOf (style : FloatStyle) : Int :=
  max (max style.scale (-style.scale)) (max (style.places.getD 0) (style.exponentDigits.getD 0))

/-- The exponential field. -/
def exponential (style : FloatStyle) (negative : Bool) (p : Parts) : Text :=
  let hopeless (w : Int) : Bool := !style.overflow.isEmpty && decide (w < fewestColumnsOf style)
  match style.width.filter hopeless with
  | some w => Text.times style.overflow w
  | none => exponentialText style negative p

theorem fewest_le_length (style : FloatStyle) (digits : Text) (exponent : Int) :
    fewestColumnsOf style ≤ (wholeDigits style digits).length +
      (placeDigits style digits).length + (exponentPart style exponent).length := by
  have he : style.exponentDigits.getD 0 ≤ (exponentPart style exponent).length := by
    unfold exponentPart exponentDigitsOf
    cases style.exponentDigits with
    | none => simp; omega
    | some e => simp [Text.length_padLeft]; omega
  have hd : max (max style.scale (-style.scale)) (style.places.getD 0) ≤
      (wholeDigits style digits).length + (placeDigits style digits).length := by
    unfold wholeDigits placeDigits
    by_cases hk : 0 < style.scale
    · simp only [if_pos hk, Text.length_padRight]
      split
      · rename_i d hp
        simp only [hp, Option.getD_some, Text.length_padRight]
        omega
      · rename_i hp
        simp only [hp, Option.getD_none]
        omega
    · simp only [if_neg hk]
      split
      · rename_i d hp
        simp only [hp, Option.getD_some, Text.length_padRight, List.length_append,
          List.length_replicate, List.length_nil]
        omega
      · rename_i hp
        simp only [hp, Option.getD_none, List.length_append, List.length_replicate,
          List.length_nil]
        omega
  unfold fewestColumnsOf
  omega

theorem exponential_eq (style : FloatStyle) (negative : Bool) (p : Parts) :
    exponential style negative p = exponentialText style negative p := by
  unfold exponential
  dsimp only
  split
  · rename_i w h
    simp only [Option.filter_eq_some_iff, Bool.and_eq_true, decide_eq_true_eq] at h
    obtain ⟨hw, ho, hn⟩ := h
    unfold exponentialText
    simp only [hw]
    rw [if_pos]
    refine ⟨?_, by simpa using ho⟩
    have h := fewest_le_length style
      (roundedMantissa style (signText style.plus negative).length p).digits
      (roundedMantissa style (signText style.plus negative).length p).exponent
    left
    generalize wholeDigits style
      (roundedMantissa style (signText style.plus negative).length p).digits = whole at h ⊢
    generalize placeDigits style
      (roundedMantissa style (signText style.plus negative).length p).digits = places at h ⊢
    generalize hs : orZero places _ = shown
    have hp : places.length ≤ shown.length := hs ▸ length_le_orZero places _
    simp only [List.length_append, List.length_cons]
    split <;> omega
  · rfl

/-- The general field. A number in fixed-point form leaves blank the columns that the exponent would
have taken. -/
def general (style : FloatStyle) (negative : Bool) (p : Parts) : Text :=
  let n := if p.digits = ['0'] then 0 else p.exponent + 1
  let exponentWidth := match style.exponentDigits with
    | some e => e + 2
    | none => 4
  let d := style.places.getD (max p.digits.length (min n 7))
  if 0 ≤ d - n ∧ d - n ≤ d then
    fixed { style with
        width := style.width.map (· - exponentWidth), places := some (d - n), scale := 0 }
      negative p ++ Text.blanks exponentWidth
  else exponential { style with places := some d } negative p

end Tilde.Decimal
