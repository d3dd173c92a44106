import Tilde.Proofs.Decimal.FixedField
import Tilde.Proofs.Decimal.Significant

/-!
# Monetary fields

A monetary field shows what a fixed-point field with as many places shows. It may have more zeros in
front, up to the digits that it has at least in front of the point, and padding up to its width.

* `eq_of_positionalDigits`: digits in positional notation, if there is memory for them;
* `withPlaces`: the digits with places, from which both fields are made by the rules for values
  (`fixedField_eq_withPlaces`, `money_eq_withPlaces`);
* `widened`: a numeral with more zeros and padding;
* **`monetaryField_widened`**: the monetary field of a real value.
-/

namespace Tilde

open Decimal

/-! ## Digits that there is memory for -/

section Made

variable {s : Text} {e d : ℤ}

theorem eq_of_fillTo {t : ℤ} {v : Value} (h : fillTo (.text s) (.int t) = .ok v) :
    v = .text (Text.padRight s t '0') ∧ t < s.length + Text.memoryLimit := by
  have hlimit : 0 < Text.memoryLimit := by decide
  have hlength : (Value.text s).length = .ok s.length := by simp [Value.length, Value.items?]
  unfold fillTo at h
  simp only [hlength, Value.less_integer, Value.minus_integer, ok_bind, decide_eq_true_eq] at h
  split_ifs at h with hless
  · obtain ⟨zeros, hzeros, h⟩ := exists_of_bind_ok h
    obtain ⟨rfl, hfits⟩ := Value.eq_of_repeatText hzeros
    exact ⟨(Except.ok.inj h).symm, by omega⟩
  · obtain rfl := Except.ok.inj h
    have hnone : (t - (s.length : ℤ)).toNat = 0 := by omega
    refine ⟨?_, by omega⟩
    simp [Text.padRight, hnone]

/-- What is expanded at all is expanded as it should be. -/
theorem eq_of_expandDigits {v : Value} (h : expandDigits (.text s) (.int e) (.int d) = .ok v) :
    v = .text (expanded s e (some d)) ∧
      (expanded s e (some d)).length < s.length + 2 * Text.memoryLimit := by
  have hplaces : ∀ (digits : Value) (e : ℤ), fillPlaces (.int d) digits (.int e) =
      fillTo digits (.int (e + d + 1)) := fun _ _ => rfl
  rw [expandDigits_eq, Value.isBelowZero_integer, ok_bind] at h
  unfold expanded
  simp only [decide_eq_true_eq, Option.getD_some] at h ⊢
  split_ifs at h ⊢ with he
  · simp only [Value.negated_integer, Value.minus_integer, ok_bind] at h
    obtain ⟨zeros, hzeros, h⟩ := exists_of_bind_ok h
    obtain ⟨rfl, hfits⟩ := Value.eq_of_repeatText hzeros
    obtain ⟨digits, hdigits, h⟩ := exists_of_bind_ok h
    obtain rfl := Except.ok.inj hdigits
    rw [hplaces] at h
    obtain ⟨rfl, htarget⟩ := eq_of_fillTo h
    refine ⟨rfl, ?_⟩
    simp only [Text.length_padRight, List.length_append, List.length_replicate] at htarget ⊢
    omega
  · rw [hplaces] at h
    obtain ⟨rfl, htarget⟩ := eq_of_fillTo h
    refine ⟨rfl, ?_⟩
    have hlimit : 0 < Text.memoryLimit := by decide
    simp only [Text.length_padRight]
    omega

/-- What is put into positional notation at all is put as it should be. -/
theorem eq_of_positionalDigits {body : Text}
    (h : positionalDigits (.text s) (.int e) (.int d) = .ok body) :
    body = positional s e (some d) ∧ body.length ≤ s.length + 2 * Text.memoryLimit := by
  obtain ⟨digits, hdigits, h⟩ := exists_of_bind_ok h
  obtain ⟨rfl, hlength⟩ := eq_of_expandDigits hdigits
  have hbody : body = positional s e (some d) := by
    rw [pointDigits, Value.isBelowZero_integer, ok_bind] at h
    unfold positional pointed
    simp only [decide_eq_true_eq] at h
    split_ifs at h ⊢ with he
    · exact (Except.ok.inj h).symm
    · simp only [Value.plus_integer, Value.asInteger_integer, ok_bind] at h
      exact (Except.ok.inj h).symm
  rw [hbody, length_positional]
  exact ⟨rfl, hlength⟩

theorem length_expanded_le (s : Text) (e : ℤ) (hd : 0 ≤ d) :
    (expanded s e (some d)).length ≤ s.length + e.natAbs + d.toNat + 1 := by
  unfold expanded
  simp only [Option.getD_some]
  split_ifs <;> simp only [Text.length_padRight, List.length_append, List.length_replicate] <;>
    omega

end Made

/-! ## How long rounded digits are -/

section Rounded

variable {p : Parts}

/-- Rounding makes no number longer, and moves its first digit hardly. -/
theorem bounds_roundTo (hdigits : IsDigits p.digits) (n : ℤ) :
    (roundTo p n).digits.length ≤ max 1 p.digits.length ∧
      (roundTo p n).leading.natAbs ≤ p.exponent.natAbs + 2 := by
  have hleading : ∀ r : Rounded, r.leading = r.exponent ∨ r.leading = r.exponent + 1 := fun r => by
    unfold Rounded.leading
    split_ifs
    · exact .inr rfl
    · exact .inl rfl
  unfold roundTo
  split_ifs with hneg hzero hempty hall
  · exact ⟨le_max_left _ _, Nat.zero_le _⟩
  · exact ⟨le_max_right _ _, Nat.le_add_right _ _⟩
  · obtain ⟨-, hlength, -⟩ :=
      worth_cutAt (hdigits.cons (c := '0') rfl) (p.exponent + 1) Nat.one_pos
    have hexponent := exponent_cutAt ('0' :: p.digits) (p.exponent + 1) 1
    have := hleading (cutAt ('0' :: p.digits) (p.exponent + 1) 1)
    rw [hexponent] at this
    exact ⟨by omega, by omega⟩
  · exact ⟨le_max_right _ _, Nat.le_add_right _ _⟩
  · have hpos : 0 < n.toNat := by omega
    obtain ⟨-, hlength, -⟩ := worth_cutAt hdigits p.exponent hpos
    have hexponent := exponent_cutAt p.digits p.exponent n.toNat
    have := hleading (cutAt p.digits p.exponent n.toNat)
    rw [hexponent] at this
    exact ⟨by omega, by omega⟩

end Rounded

/-! ## Digits with places -/

/-- The digits of a number, rounded to places and in positional notation. -/
def Decimal.withPlaces (d : ℤ) (p : Parts) : Except Fault Text :=
  positionalDigits (.text (p.round (some d) none).digits) (.int (p.round (some d) none).leading)
    (.int d)

/-- The same, as long as there is memory for it. -/
def Decimal.placesText (d : ℤ) (p : Parts) : Text :=
  positional (p.round (some d) none).digits (p.round (some d) none).leading (some d)

namespace Value

variable {v : Value} {p : Parts} {d : ℤ}

/-- How long the rounded digits of a real value are. -/
theorem length_round_lt (hv : v.IsFiniteReal) (hformat : v.InFormat)
    (hp : v.magnitudeParts = .ok p) (d : ℤ) :
    (p.round (some d) none).digits.length ≤ 10 ^ 8 ∧
      (p.round (some d) none).leading.natAbs ≤ 10 ^ 8 := by
  obtain ⟨hdigits, -⟩ := isDigits_of_parts hv hp
  have hexponent := natAbs_exponent_lt hv hformat hp
  have hlength := length_digits_lt hv hformat hp
  have hbounds := bounds_roundTo hdigits (keptDigits p.exponent (some d) 0)
  have hround : p.round (some d) none = roundTo p (keptDigits p.exponent (some d) 0) :=
    if_neg (by simp)
  rw [hround]
  exact ⟨by omega, by omega⟩

/-- There is memory for ordinary places. -/
theorem withPlaces_of_ordinary (hv : v.IsFiniteReal) (hformat : v.InFormat)
    (hp : v.magnitudeParts = .ok p) (hd : 0 ≤ d) (hordinary : d.natAbs < ordinaryLimit) :
    withPlaces d p = .ok (placesText d p) := by
  obtain ⟨hdigits, hne⟩ := isDigits_of_parts hv hp
  obtain ⟨-, hsome, -⟩ := worth_round hdigits hne (some d) none
  obtain ⟨hlength, hleading⟩ := length_round_lt hv hformat hp d
  refine positionalDigits_integer hsome _ (some d) ?_
  have hordinary' : ordinaryLimit = 0x40000000 := rfl
  have hmemory : Text.memoryLimit = 0x80000000 := rfl
  have := length_expanded_le (p.round (some d) none).digits (p.round (some d) none).leading hd
  rw [length_positional]
  omega

/-- Where the places can be written at all, the text is far shorter than texts can be counted: the
zeros in front of the digits and behind them are limited by the memory. -/
theorem eq_of_withPlaces (hv : v.IsFiniteReal) (hformat : v.InFormat)
    (hp : v.magnitudeParts = .ok p) {body : Text} (hbody : withPlaces d p = .ok body) :
    body = placesText d p ∧ body.length < 2 ^ 40 := by
  obtain ⟨hlength, -⟩ := length_round_lt hv hformat hp d
  obtain ⟨heq, hle⟩ := eq_of_positionalDigits hbody
  have hmemory : Text.memoryLimit = 0x80000000 := rfl
  exact ⟨heq, by omega⟩

/-- The text is digits and a point, with so many places behind it. -/
theorem exists_placesText (hv : v.IsFiniteReal) (hp : v.magnitudeParts = .ok p) (hd : 0 ≤ d) :
    ∃ whole places : Text, placesText d p = whole ++ '.' :: places ∧ IsDigits (whole ++ places) ∧
      (places.length : ℤ) = d := by
  obtain ⟨hdigits, hne⟩ := isDigits_of_parts hv hp
  obtain ⟨hkept, hsome, hfew, -⟩ := worth_round hdigits hne (some d) none
  have hnonneg : 0 ≤ (some d).getD 0 := hd
  obtain ⟨whole, places, heq, hall, -, hplaces, -⟩ :=
    isNumeral_positional hkept hsome (p.round (some d) none).leading hnonneg
  have := hfew d rfl
  refine ⟨whole, places, heq, hall, ?_⟩
  rw [hplaces, Option.getD_some]
  omega

end Value

/-! ## The fields -/

/-- A numeral with zeros in front up to so many digits, and padding up to the width: in front of its
sign, or behind it. -/
def widened (wholeDigits width : ℤ) (pad : Char) (signFirst : Bool) (sign whole places : Text) :
    Text :=
  let numeral :=
    List.replicate (wholeDigits - whole.length).toNat '0' ++ whole ++ '.' :: places
  let padding := List.replicate (width - (sign ++ numeral).length).toNat pad
  if signFirst then sign ++ padding ++ numeral else padding ++ sign ++ numeral

/-- Settings that are whole numbers, with a padding character. -/
def MoneySettings.ofIntegers (places wholeDigits width : ℤ) (pad : Char) (signFirst plus : Bool) :
    MoneySettings where
  places := .int places
  wholeDigits := .int wholeDigits
  width := .int width
  pad := .text [pad]
  signFirst := signFirst
  plus := plus

section Rules

variable {p : Parts} {d n w : ℤ} {pad : Char} {signFirst plus : Bool}

theorem fixed_eq_withPlaces (hdigits : IsDigits p.digits) (hne : p.digits ≠ [])
    (plus negative : Bool) :
    (RealSettings.ofIntegers none (some d) 0 ' ' plus).fixed negative p =
      withPlaces d p >>= fun body => .ok
        (.text (shown (signText plus negative) body (['.'].isPrefixOf body) false)) := by
  have hround := roundDigits_integer hdigits hne (some d) none
  have hexponent : (Value.int p.exponent).plus
      (RealSettings.ofIntegers none (some d) 0 ' ' plus).scale = .ok (.int p.exponent) := by
    show (Value.int p.exponent).plus (.int 0) = _
    rw [Value.plus_integer, add_zero]
  have hbody : (RealSettings.ofIntegers none (some d) 0 ' ' plus).fixedBody .nothing p
      (.int p.exponent) = withPlaces d p := by
    unfold RealSettings.fixedBody RealSettings.ofIntegers withPlaces
    simp only [Value.optional] at hround ⊢
    simp only [hround, ok_bind, asDigits_leading]
    exact bind_pure _
  unfold RealSettings.fixed
  rw [hexponent, ← hbody]
  rfl

/-- The monetary field by the rules for values. -/
theorem money_eq_withPlaces (hdigits : IsDigits p.digits) (hne : p.digits ≠ []) (negative : Bool) :
    (MoneySettings.ofIntegers d n w pad signFirst plus).field negative p =
      withPlaces d p >>= fun body =>
      Value.repeatText ['0'] (.int (n - (body.takeWhile (· != '.')).length)) >>= fun zeros =>
      (Value.text [pad]).times
        (.int (w - (zeros ++ body).length - (signText plus negative).length)) >>= fun padding =>
      padding.asText >>= fun padding => .ok
        (if signFirst then signText plus negative ++ padding ++ (zeros ++ body)
          else padding ++ signText plus negative ++ (zeros ++ body)) := by
  have hround := roundDigits_integer hdigits hne (some d) none
  unfold MoneySettings.field MoneySettings.ofIntegers withPlaces
  simp only [Value.optional] at hround
  simp only [hround, ok_bind, asDigits_leading]
  rfl

/-- What a monetary field is, given its digits with places. -/
def monetaryText (n w : ℤ) (pad : Char) (signFirst : Bool) (sign body : Text) : Text :=
  let full := List.replicate (n - (body.takeWhile (· != '.')).length).toNat '0' ++ body
  let padding := Text.times [pad] (w - full.length - sign.length)
  if signFirst then sign ++ padding ++ full else padding ++ sign ++ full

/-- The text that is made, if there is memory for the zeros and for the padding. -/
theorem money_of_fits (hdigits : IsDigits p.digits) (hne : p.digits ≠ []) (negative : Bool)
    {body : Text} (hbody : withPlaces d p = .ok body) (hn : n < Text.memoryLimit)
    (hw : w < Text.memoryLimit) (hshort : body.length < 2 ^ 40)
    (hlow : -(2 ^ 40) ≤ n) (hlow' : 0 ≤ w) :
    (MoneySettings.ofIntegers d n w pad signFirst plus).field negative p =
      .ok (monetaryText n w pad signFirst (signText plus negative) body) := by
  have hindex : Text.indexLimit = 2 ^ 63 := by decide
  have hmemory : Text.memoryLimit = 2 ^ 31 := by decide
  have hsign : (signText plus negative).length ≤ 1 := by
    cases negative <;> cases plus <;> simp [signText]
  have hwhole : (body.takeWhile (· != '.')).length ≤ body.length :=
    (List.takeWhile_prefix _).length_le
  rw [money_eq_withPlaces hdigits hne, hbody, ok_bind,
    Value.repeatText_of_index '0' (by omega) (by omega), ok_bind,
    Value.times_of_index pad ?_ ?_]
  · rfl
  · simp only [List.length_append, List.length_replicate]
    omega
  · simp only [List.length_append, List.length_replicate]
    omega

/-- If a text is made, it is that one. -/
theorem eq_monetaryText_of_field (hdigits : IsDigits p.digits) (hne : p.digits ≠ [])
    {negative : Bool} {written : Text}
    (h : (MoneySettings.ofIntegers d n w pad signFirst plus).field negative p = .ok written) :
    ∃ body, withPlaces d p = .ok body ∧
      written = monetaryText n w pad signFirst (signText plus negative) body := by
  rw [money_eq_withPlaces hdigits hne] at h
  obtain ⟨body, hbody, h⟩ := exists_of_bind_ok h
  obtain ⟨zeros, hzeros, h⟩ := exists_of_bind_ok h
  obtain ⟨padding, hpadding, h⟩ := exists_of_bind_ok h
  obtain ⟨text, htext, h⟩ := exists_of_bind_ok h
  obtain ⟨rfl, -⟩ := Value.eq_of_repeatText hzeros
  obtain rfl := Value.eq_times_of_times hpadding
  obtain rfl := Except.ok.inj htext
  exact ⟨body, hbody, (Except.ok.inj h).symm⟩

end Rules

/-! ## The fields of values -/

section Values

variable {v : Value} {p : Parts} {d n w : ℤ} {pad : Char} {signFirst plus negative : Bool}

/-- Ordinary or not, the settings make the fixed-point field that the rules for values make. -/
theorem fixedField_eq_withPlaces (hv : v.IsFiniteReal) (hformat : v.InFormat)
    (hnegative : v.isNegative plus = .ok negative) (hp : v.magnitudeParts = .ok p) (hd : 0 ≤ d) :
    fixedField (RealSettings.ofIntegers none (some d) 0 ' ' plus) v =
      withPlaces d p >>= fun body => .ok
        (.text (shown (signText plus negative) body (['.'].isPrefixOf body) false)) := by
  obtain ⟨hdigits, hne⟩ := Value.isDigits_of_parts hv hp
  have hplus : (RealSettings.ofIntegers none (some d) 0 ' ' plus).plus = plus := rfl
  rw [fixedField, RealSettings.field_eq, hplus, hnegative, hp, ok_bind, ok_bind]
  cases hstyle : (RealSettings.ofIntegers none (some d) 0 ' ' plus).style? with
  | none => exact fixed_eq_withPlaces hdigits hne plus negative
  | some style =>
    obtain rfl : style = RealSettings.styleOf none (some d) 0 ' ' plus :=
      @PlainSettings.style?_settings { places := some d, plus := plus } style hstyle
    have hbody (signWidth : ℤ) :
        fixedBody (RealSettings.styleOf none (some d) 0 ' ' plus) signWidth p =
          placesText d p := by
      simp only [fixedBody, RealSettings.styleOf, add_zero]
      rfl
    unfold RealSettings.style? at hstyle
    simp only [bind, Option.bind_eq_some_iff] at hstyle
    obtain ⟨_, -, _, hplaces, -⟩ := hstyle
    have hordinary := Value.natAbs_lt_of_ordinaryOrNothing? hplaces
    rw [Value.withPlaces_of_ordinary hv hformat hp hd hordinary, ok_bind]
    dsimp only
    rw [fixed_eq, RealSettings.fixedText_free rfl]
    dsimp only
    rw [hbody]
    rfl

theorem monetaryField_eq : monetaryField (.ofIntegers d n w pad signFirst plus) v =
    v.isNegative plus >>= fun negative => v.magnitudeParts >>= fun p =>
      match (MoneySettings.ofIntegers d n w pad signFirst plus).style? with
      | some style => .ok (Decimal.monetary style negative p)
      | none => (MoneySettings.ofIntegers d n w pad signFirst plus).field negative p := by
  unfold monetaryField Value.magnitudeParts
  simp only [bind_assoc]
  rfl

theorem monetaryField_eq_field (hv : v.IsFiniteReal) (hformat : v.InFormat)
    (hnegative : v.isNegative plus = .ok negative) (hp : v.magnitudeParts = .ok p) (hd : 0 ≤ d)
    (hw : 0 ≤ w) :
    monetaryField (MoneySettings.ofIntegers d n w pad signFirst plus) v =
      (MoneySettings.ofIntegers d n w pad signFirst plus).field negative p := by
  obtain ⟨hdigits, hne⟩ := Value.isDigits_of_parts hv hp
  rw [monetaryField_eq, hnegative, hp, ok_bind, ok_bind]
  cases hstyle : (MoneySettings.ofIntegers d n w pad signFirst plus).style? with
  | none => rfl
  | some style =>
    unfold MoneySettings.style? at hstyle
    simp only [bind, Option.bind_eq_some_iff] at hstyle
    obtain ⟨places, hplaces, whole, hwhole, width, hwidth, text, htext, hstyle⟩ := hstyle
    obtain rfl : some d = places := (@Value.ordinaryOrNothing?_eq (some d) places hplaces).symm
    obtain rfl := Value.ordinary?_eq hwhole
    obtain rfl := Value.ordinary?_eq hwidth
    obtain rfl : [pad] = text := Option.some.inj htext
    obtain rfl := Option.some.inj hstyle
    have hplaced :=
      Value.withPlaces_of_ordinary hv hformat hp hd (Value.natAbs_lt_of_ordinaryOrNothing? hplaces)
    have hlimits : Value.ordinaryLimit < Text.memoryLimit := by decide
    have hmemory : Text.memoryLimit = 2 ^ 31 := by decide
    have hn := Value.natAbs_lt_of_ordinary? hwhole
    have hwidth := Value.natAbs_lt_of_ordinary? hwidth
    have hshort := (Value.eq_of_withPlaces hv hformat hp hplaced).2
    rw [money_of_fits hdigits hne negative hplaced (by omega) (by omega) hshort (by omega) hw]
    rfl

/-- The digits cannot be written, and both fields are refused for the same reason; or they can. -/
theorem refused_or_withPlaces (hv : v.IsFiniteReal) (hformat : v.InFormat)
    (hnegative : v.isNegative plus = .ok negative) (hd : 0 ≤ d) :
    (∃ e, fixedField (.ofIntegers none (some d) 0 ' ' plus) v = .error e ∧
      ∀ n w pad signFirst, 0 ≤ w →
        monetaryField (.ofIntegers d n w pad signFirst plus) v = .error e) ∨
    ∃ p body, v.magnitudeParts = .ok p ∧ withPlaces d p = .ok body := by
  cases hp : v.magnitudeParts with
  | error e =>
    refine .inl ⟨e, ?_, fun n w pad signFirst _ => ?_⟩
    · rw [fixedField, RealSettings.field_eq, hp, show (RealSettings.ofIntegers none (some d) 0 ' '
        plus).plus = plus from rfl, hnegative]
      rfl
    · rw [monetaryField_eq, hnegative, hp]
      rfl
  | ok p =>
    cases hmade : withPlaces d p with
    | error e =>
      obtain ⟨hdigits, hne⟩ := Value.isDigits_of_parts hv hp
      refine .inl ⟨e, ?_, fun n w pad signFirst hw => ?_⟩
      · rw [fixedField_eq_withPlaces hv hformat hnegative hp hd, hmade]
        rfl
      · rw [monetaryField_eq_field hv hformat hnegative hp hd hw,
          money_eq_withPlaces hdigits hne, hmade]
        rfl
    | ok body => exact .inr ⟨p, body, rfl, hmade⟩

end Values

/-! ## The monetary field next to the fixed-point field -/

section Widened

variable {n w : ℤ} {pad : Char} {signFirst : Bool} {sign whole places : Text}

/-- The widened numeral has so many digits in front of its point, and fills the width. -/
theorem le_length_widened (n w : ℤ) (pad : Char) (signFirst : Bool) (sign whole places : Text) :
    n ≤ (widened n w pad signFirst sign whole places).length ∧
      w ≤ (widened n w pad signFirst sign whole places).length := by
  unfold widened
  cases signFirst <;>
    simp only [Bool.false_eq_true, if_false, if_true, List.length_append, List.length_replicate,
      List.length_cons] <;>
    omega

/-- One digit is there, and no width is asked for: nothing is put in front. -/
theorem widened_one_zero (pad : Char) (sign : Text) (hne : whole ≠ []) (places : Text) :
    widened 1 0 pad false sign whole places = sign ++ whole ++ '.' :: places := by
  have hpos := List.length_pos_iff.mpr hne
  have hzeros : (1 - (whole.length : ℤ)).toNat = 0 := by omega
  unfold widened
  simp only [hzeros, List.replicate_zero, List.nil_append, Bool.false_eq_true, if_false]
  have hpadding : (0 - ((sign ++ (whole ++ '.' :: places)).length : ℤ)).toNat = 0 := by omega
  rw [hpadding, List.replicate_zero, List.nil_append, List.append_assoc]

/-- The digits in front of the point, or the zero that stands for none. -/
def wholeOrZero (whole : Text) : Text := if whole = [] then ['0'] else whole

theorem wholeOrZero_ne_nil (whole : Text) : wholeOrZero whole ≠ [] := by
  unfold wholeOrZero
  split_ifs with hnone
  · exact List.cons_ne_nil _ _
  · exact hnone

theorem isDigits_wholeOrZero (hdigits : IsDigits whole) : IsDigits (wholeOrZero whole) := by
  unfold wholeOrZero
  split_ifs
  · decide
  · exact hdigits

/-- A monetary field is a numeral, widened. The zero that stands for no digits in front of the point
is one of the zeros of the field. -/
theorem monetaryText_eq_widened (hn : 1 ≤ n) (hdigits : IsDigits whole) (sign places : Text) :
    monetaryText n w pad signFirst sign (whole ++ '.' :: places) =
      widened n w pad signFirst sign (wholeOrZero whole) places := by
  have hfull : List.replicate (n - (whole.length : ℤ)).toNat '0' ++ (whole ++ '.' :: places) =
      List.replicate (n - ((wholeOrZero whole).length : ℤ)).toNat '0' ++ wholeOrZero whole ++
        '.' :: places := by
    unfold wholeOrZero
    by_cases hnone : whole = []
    · obtain ⟨k, rfl⟩ : ∃ k : ℕ, n = k + 1 := ⟨(n - 1).toNat, by omega⟩
      have hone : ((k : ℤ) + 1 - (([] : Text).length : ℤ)).toNat = k + 1 := by simp
      have hrest : ((k : ℤ) + 1 - ((['0'] : Text).length : ℤ)).toNat = k := by simp
      rw [if_pos hnone, hnone, hone, hrest, List.replicate_succ', List.nil_append]
    · rw [if_neg hnone, List.append_assoc]
  obtain ⟨htake, -⟩ := takeWhile_append_cons (hdigits.ne_of_not_isDigit (c := '.') rfl)
    (t := places) (c := '.') rfl
  unfold monetaryText widened
  rw [htake]
  simp only [hfull]
  generalize List.replicate _ '0' ++ wholeOrZero whole ++ '.' :: places = numeral
  have hpadding : Text.times [pad] (w - numeral.length - sign.length) =
      List.replicate (w - (sign ++ numeral).length).toNat pad := by
    have hsame : w - (numeral.length : ℤ) - sign.length = w - (sign ++ numeral).length := by
      rw [List.length_append]
      omega
    rw [hsame]
    simp [Text.times]
  rw [hpadding]

theorem shown_point (hdigits : IsDigits whole) (sign places : Text) :
    shown sign (whole ++ '.' :: places) (['.'].isPrefixOf (whole ++ '.' :: places)) false =
      sign ++ wholeOrZero whole ++ '.' :: places := by
  cases whole with
  | nil => simp [shown, wholeOrZero]
  | cons c whole =>
    have hpoint : ('.' == c) = false := by
      rw [beq_eq_false_iff_ne]
      rintro rfl
      exact absurd (hdigits '.' List.mem_cons_self) (by decide)
    simp [shown, wholeOrZero, List.isPrefixOf, hpoint]

end Widened

/-- A monetary field shows what a fixed-point field with as many places shows, or is refused with
it: that very text, if one digit is asked for and no width; otherwise this text with zeros in front
of its digits, so that there are as many as are asked for, and with padding up to the width, behind
the sign or in front of it. -/
theorem monetaryField_widened {v : Value} (hv : v.IsFiniteReal) (hformat : v.InFormat) {d : ℤ}
    (hd : 0 ≤ d) (plus : Bool) :
    (monetaryField (.ofIntegers d 1 0 ' ' false plus) v).map Value.text =
      fixedField (.ofIntegers none (some d) 0 ' ' plus) v ∧
    ∀ (n w : ℤ) (pad : Char) (signFirst : Bool), 1 ≤ n → 0 ≤ w →
      (∀ e, fixedField (.ofIntegers none (some d) 0 ' ' plus) v = .error e →
        monetaryField (.ofIntegers d n w pad signFirst plus) v = .error e) ∧
      ∀ field, fixedField (.ofIntegers none (some d) 0 ' ' plus) v = .ok field →
        ∃ sign whole places : Text, field = .text (sign ++ whole ++ '.' :: places) ∧
          sign ∈ [[], ['+'], ['-']] ∧ IsDigits (whole ++ places) ∧ whole ≠ [] ∧
          (places.length : ℤ) = d ∧
          (∀ written, monetaryField (.ofIntegers d n w pad signFirst plus) v = .ok written →
            written = widened n w pad signFirst sign whole places) ∧
          ((widened n w pad signFirst sign whole places).length < Text.memoryLimit →
            monetaryField (.ofIntegers d n w pad signFirst plus) v =
              .ok (widened n w pad signFirst sign whole places)) := by
  obtain ⟨negative, hnegative⟩ := v.exists_isNegative hv plus
  obtain ⟨e, hfixed, hmoney⟩ | ⟨p, body, hp, hmade⟩ :=
    refused_or_withPlaces hv hformat hnegative hd
  · rw [hfixed, hmoney 1 0 ' ' false le_rfl]
    refine ⟨rfl, fun n w pad signFirst _ hw => ⟨fun e' he => ?_, fun field hfield => ?_⟩⟩
    · rw [hmoney n w pad signFirst hw, Except.error.inj he]
    · cases hfield
  · obtain ⟨hdigits, hne⟩ := Value.isDigits_of_parts hv hp
    obtain ⟨hbody, hshort⟩ := Value.eq_of_withPlaces hv hformat hp hmade
    obtain ⟨whole, places, hpoint, hnumeral, hplaces⟩ := Value.exists_placesText hv hp hd
    rw [← hbody] at hpoint
    subst hpoint
    have hwhole : IsDigits whole := hnumeral.of_subset (List.subset_append_left _ _)
    have hfixed := fixedField_eq_withPlaces hv hformat hnegative hp hd
    rw [hmade, ok_bind, shown_point hwhole] at hfixed
    have hmoney (n w : ℤ) (pad : Char) (signFirst : Bool) (hn : 1 ≤ n) (hw : 0 ≤ w)
        (hn' : n < Text.memoryLimit) (hw' : w < Text.memoryLimit) :
        monetaryField (.ofIntegers d n w pad signFirst plus) v =
          .ok (widened n w pad signFirst (signText plus negative) (wholeOrZero whole) places) := by
      rw [monetaryField_eq_field hv hformat hnegative hp hd hw,
        money_of_fits hdigits hne negative hmade hn' hw' hshort (by omega) hw,
        monetaryText_eq_widened hn hwhole]
    have hsome := wholeOrZero_ne_nil whole
    have hlimit : 1 < Text.memoryLimit := by decide
    constructor
    · rw [hfixed, hmoney 1 0 ' ' false le_rfl le_rfl (by omega) (by omega),
        widened_one_zero ' ' _ hsome]
      rfl
    · intro n w pad signFirst hn hw
      refine ⟨fun e he => absurd (hfixed.symm.trans he) nofun, fun field hfield => ?_⟩
      obtain rfl := Except.ok.inj (hfixed.symm.trans hfield)
      have hbehind : IsDigits places := hnumeral.of_subset (List.subset_append_right _ _)
      refine ⟨signText plus negative, wholeOrZero whole, places, rfl, ?_,
        (isDigits_wholeOrZero hwhole).append hbehind, hsome, hplaces, ?_, ?_⟩
      · cases negative <;> cases plus <;> simp [signText]
      · intro written hwritten
        rw [monetaryField_eq_field hv hformat hnegative hp hd hw] at hwritten
        obtain ⟨body, hbody', rfl⟩ := eq_monetaryText_of_field hdigits hne hwritten
        obtain rfl := Except.ok.inj (hmade.symm.trans hbody')
        exact monetaryText_eq_widened hn hwhole _ _
      · intro hfits
        obtain ⟨hn', hw'⟩ := le_length_widened n w pad signFirst (signText plus negative)
          (wholeOrZero whole) places
        exact hmoney n w pad signFirst hn hw (by omega) (by omega)

/-- A decimal number that is rounded to one cent, with three digits in front of the point. -/
theorem monetaryField_widened_cent :
    (monetaryField (.ofIntegers 2 1 0 ' ' false false) (.decimal (.finite true 5 (-3)))).map
        Value.text =
      fixedField (.ofIntegers none (some 2) 0 ' ' false) (.decimal (.finite true 5 (-3))) ∧
    ∃ sign whole places : Text,
      (.text ['-', '0', '.', '0', '1'] : Value) = .text (sign ++ whole ++ '.' :: places) ∧
      sign ∈ [[], ['+'], ['-']] ∧ IsDigits (whole ++ places) ∧ whole ≠ [] ∧
      (places.length : ℤ) = 2 ∧
      (∀ written, monetaryField (.ofIntegers 2 3 9 '*' true false)
          (.decimal (.finite true 5 (-3))) = .ok written →
        written = widened 3 9 '*' true sign whole places) ∧
      ((widened 3 9 '*' true sign whole places).length < Text.memoryLimit →
        monetaryField (.ofIntegers 2 3 9 '*' true false) (.decimal (.finite true 5 (-3))) =
          .ok (widened 3 9 '*' true sign whole places)) := by
  have hv : (Value.decimal (.finite true 5 (-3))).IsFiniteReal := .inl rfl
  have hfixed : fixedField (.ofIntegers none (some 2) 0 ' ' false)
      (.decimal (.finite true 5 (-3))) = .ok (.text ['-', '0', '.', '0', '1']) := rfl
  obtain ⟨hsame, hwide⟩ :=
    monetaryField_widened hv trivial (show (0 : ℤ) ≤ 2 by decide) false
  exact ⟨hsame, (hwide 3 9 '*' true (by decide) (by decide)).2 _ hfixed⟩

end Tilde
