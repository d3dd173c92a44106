import Tilde.Decimal.Rounding

/-!
# Fixed-point fields

A real number in positional notation, right-justified in a field.

* `expanded`, `pointed`, `positional`: digits, zeros and the point;
* `FloatStyle`: what the fields for real numbers can be told;
* `fixed`: the field, which is written out only if it may fit (`fixed_eq`).
-/

namespace Tilde.Decimal

/-! ## Positional notation -/

/-- The digits with the zeros that positional notation needs: in front of a fraction, and behind up
to the unit or to the number of places. -/
def expanded (digits : Text) (exponent : Int) (places : Option Int) : Text :=
  let (digits, exponent) :=
    if exponent < 0 then (List.replicate (-exponent - 1).toNat '0' ++ digits, -1)
    else (digits, exponent)
  Text.padRight digits (exponent + places.getD 0 + 1) '0'

/-- Puts the point behind the digit of exponent zero, or in front. -/
def pointed (digits : Text) (exponent : Int) : Text :=
  if exponent < 0 then '.' :: digits
  else digits.take (exponent + 1).toNat ++ '.' :: digits.drop (exponent + 1).toNat

/-- The digit string in positional notation, without a zero in front of the point. -/
def positional (digits : Text) (exponent : Int) (places : Option Int) : Text :=
  pointed (expanded digits exponent places) exponent

/-! ## Fields -/

/-- What a field for a real number can be told. The `overflow` text, if it is not empty, fills a
field that is too narrow; `mark` stands between mantissa and exponent. -/
structure FloatStyle where
  width : Option Int := none
  places : Option Int := none
  exponentDigits : Option Int := none
  scale : Int := 0
  overflow : Text := []
  pad : Text := [' ']
  mark : Text := ['E']
  plus : Bool := false
  deriving DecidableEq, Repr

/-- The sign to print, given whether the number is negative. -/
def signText (plus negative : Bool) : Text :=
  if negative then ['-'] else if plus then ['+'] else []

/-- The positional text of a number as a field of the style shows it, before signs and padding:
scaled, rounded, and without the zero in front of the point if there is no room for it. -/
def fixedBody (style : FloatStyle) (signWidth : Int) (p : Parts) : Text :=
  let scaled : Parts := ⟨p.digits, p.exponent + style.scale⟩
  let r := scaled.round style.places (style.width.map (· - signWidth))
  let body := positional r.digits r.leading style.places
  match style.width, style.places with
  | some w, some d =>
    if 1 ≤ d ∧ ['0', '.'].isPrefixOf body ∧ w - signWidth < body.length then body.drop 1 else body
  | _, _ => body

/-- The fixed-point field, written out: a zero goes in front of a bare point and behind a final one
where there is room. -/
def fixedText (style : FloatStyle) (negative : Bool) (p : Parts) : Text :=
  let sign := signText style.plus negative
  let body := fixedBody style sign.length p
  let wantsFront := ['.'].isPrefixOf body
  let wantsBack :=
    style.places.isNone && decide ((p.digits.length : Int) - 1 ≤ p.exponent + style.scale)
  match style.width with
  | none =>
    sign ++ (if wantsFront then ['0'] else []) ++ body ++ if wantsBack then ['0'] else []
  | some w =>
    let signed : Int := body.length + sign.length
    let front := wantsFront && decide (signed < w)
    let back := wantsBack && decide (signed < w)
    let full := if front || back then signed + 1 else signed
    if w < full ∧ !style.overflow.isEmpty then Text.times style.overflow w
    else
      Text.times style.pad (w - full) ++ sign ++ (if front then ['0'] else []) ++ body ++
        if back then ['0'] else []

/-- The positional text of a number whose first digit has the exponent has more columns than this:
some for the digits in front of the point, and some for the places behind it. -/
def fewestColumns (exponent : Int) : Option Int → Int
  | none => exponent
  | some d => if 0 ≤ d then max exponent d else 0

/-- The width of a field that is certain to be filled with the overflow text. -/
def tooNarrow? (style : FloatStyle) (exponent : Int) : Option Int :=
  style.width.filter fun w =>
    !style.overflow.isEmpty && decide (w < fewestColumns exponent style.places)

/-- The fixed-point field. -/
def fixed (style : FloatStyle) (negative : Bool) (p : Parts) : Text :=
  match tooNarrow? style (p.exponent + style.scale) with
  | some w => Text.times style.overflow w
  | none => fixedText style negative p

/-! ## What does not fit -/

theorem lt_length_positional (digits : Text) (exponent : Int) (places : Option Int) :
    max (exponent + places.getD 0 + 1) (places.getD 0) <
      (positional digits exponent places).length := by
  unfold positional pointed expanded
  by_cases h : exponent < 0
  · simp only [if_pos h, List.length_cons, Text.length_padRight]
    omega
  · simp only [if_neg h, List.length_append, List.length_cons, List.length_take, List.length_drop,
      Text.length_padRight]
    omega

theorem Rounded.exponent_le_leading (r : Rounded) : r.exponent ≤ r.leading := by
  unfold Rounded.leading
  split <;> omega

theorem exponent_cutAt (digits : Text) (exponent : Int) (count : Nat) :
    (cutAt digits exponent count).exponent = exponent := by
  unfold cutAt
  dsimp only
  repeat' split
  all_goals rfl

theorem le_leading_roundTo (p : Parts) (count : Int) (h : 0 ≤ count) :
    p.exponent ≤ (roundTo p count).leading := by
  refine Int.le_trans ?_ (Rounded.exponent_le_leading _)
  unfold roundTo
  repeat' split
  · omega
  · exact Int.le_refl _
  · have := exponent_cutAt ('0' :: p.digits) (p.exponent + 1) 1
    omega
  · exact Int.le_refl _
  · exact Int.le_of_eq (exponent_cutAt _ _ _).symm

theorem lt_length_fixedBody (style : FloatStyle) (signWidth : Int) (p : Parts) {w : Int}
    (hw : style.width = some w)
    (h : w < fewestColumns (p.exponent + style.scale) style.places) :
    w < (fixedBody style signWidth p).length := by
  unfold fixedBody Parts.round
  simp only [hw, Option.map_some, Option.isNone_some, Bool.false_eq_true, and_false, if_false,
    Option.getD_some]
  generalize hk : keptDigits (p.exponent + style.scale) style.places (w - signWidth) = k
  have hb := lt_length_positional (roundTo ⟨p.digits, p.exponent + style.scale⟩ k).digits
    (roundTo ⟨p.digits, p.exponent + style.scale⟩ k).leading style.places
  have hl := le_leading_roundTo ⟨p.digits, p.exponent + style.scale⟩ k
  dsimp only at hl
  unfold fewestColumns at h
  unfold keptDigits at hk
  split at h
  · rename_i hp
    simp only [hp, Option.getD_none] at hb hk ⊢
    by_cases he : 0 ≤ p.exponent + style.scale
    · rw [if_pos he] at hk
      have := hl (by omega)
      omega
    · omega
  · rename_i d hp
    simp only [hp, Option.getD_some] at hb hk ⊢
    have hd : 0 ≤ p.exponent + style.scale → 0 ≤ d → 0 ≤ k := by omega
    split
    · simp only [List.length_drop]
      split at h <;> omega
    · split at h <;> omega

theorem fixed_eq (style : FloatStyle) (negative : Bool) (p : Parts) :
    fixed style negative p = fixedText style negative p := by
  unfold fixed
  split
  · rename_i w h
    simp only [tooNarrow?, Option.filter_eq_some_iff, Bool.and_eq_true, decide_eq_true_eq] at h
    obtain ⟨hw, ho, hn⟩ := h
    have := lt_length_fixedBody style (signText style.plus negative).length p hw hn
    unfold fixedText
    simp only [hw]
    rw [if_pos]
    refine ⟨?_, by simpa using ho⟩
    split <;> omega
  · rfl

end Tilde.Decimal
