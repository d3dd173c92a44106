import Tilde.Dynamic.Real
import Tilde.Proofs.Decimal.Parts
import Tilde.Proofs.Value.Integer

/-!
# Settings that are whole numbers

The fields for values of any kind agree with those on integers where the settings are integers, also
where these are too large to be ordinary, as long as there is memory for the field.

* `roundDigits_integer`, `positionalDigits_integer`: rounding and positional notation;
* `PlainSettings`: settings that are whole numbers and characters;
* **`fixedField_plain`**: the fixed-point field.
-/

namespace Tilde

open Decimal

/-! ## Rounding -/

/-- A rounded digit string as values. -/
def Decimal.Rounded.asDigits (r : Rounded) : RoundedDigits :=
  ⟨.text r.digits, .int r.exponent, r.carried⟩

theorem asDigits_leading (r : Rounded) : r.asDigits.leading = .ok (.int r.leading) := by
  unfold RoundedDigits.leading Rounded.leading Rounded.asDigits
  split_ifs <;> rfl

theorem keptCount_integer (e : ℤ) {places width : Option ℤ} (h : ¬(places.isNone ∧ width.isNone)) :
    keptCount (.int e) (.optional places) (.optional width) =
      .ok (.int (keptDigits e places (width.getD 0))) := by
  cases places with
  | some d =>
    cases width with
    | none =>
      simp only [keptCount, Value.optional, Value.isNothing, Value.plus_integer, bind, Except.bind,
        pure, Except.pure, keptDigits, Bool.not_false, if_true]
    | some w =>
      simp only [keptCount, Value.optional, Value.isNothing, Value.plus_integer,
        Value.larger_integer, bind, Except.bind, pure,
        Except.pure, keptDigits, Bool.not_false, Bool.false_eq_true, if_true, if_false]
  | none =>
    cases width with
    | none => simp at h
    | some w =>
      simp only [keptCount, Value.optional, Value.isNothing, Value.plus_integer,
        Value.larger_integer, Value.minus_integer, Value.atMost_integer, bind, Except.bind, pure,
        Except.pure, keptDigits, Bool.not_true, Bool.false_eq_true, if_false, decide_eq_true_eq,
        Option.getD_some]
      split_ifs <;> rfl

theorem increased_of_isDigits {s : Text} (hs : IsDigits s) :
    (Value.text s).increased = .ok (increment s) := by
  rw [Value.increased, if_neg]
  intro hlast
  obtain ⟨c, hc, hcode⟩ := (Option.any_eq_true ..).mp hlast
  have hdigit := hs c (List.mem_reverse.mp ((List.dropWhile_subset _) (List.mem_of_mem_head? hc)))
  simp only [Char.isDigit, Bool.and_eq_true, decide_eq_true_eq] at hdigit
  have hcode : c.toNat = 0x10FFFF := by simpa [Value.lastCode] using hcode
  have hhigh : c.toNat ≤ 57 := hdigit.2
  omega

theorem textAtMost_five (c : Char) : Value.textAtMost ['5'] [c] = decide ('5' ≤ c) := by
  rw [Value.textAtMost]
  split_ifs with h
  · rw [← eq_of_beq h]
    rfl
  · exact decide_eq_decide.mpr (by rw [Char.le_def, UInt32.le_iff_toNat_le]; rfl)

theorem cutDigits_text {s : Text} (hs : IsDigits s) (e : ℤ) {n : ℕ} (hn : n < s.length) :
    cutDigits (.text s) (.int e) n = .ok (cutAt s e n).asDigits := by
  have hdrop := List.drop_eq_getElem_cons hn
  have helement : (Value.text s).elementAt n = .ok (.text [s[n]]) := by
    simp [Value.elementAt, Value.items?, hn]
  have hatMost : (Value.text ['5']).atMost (.text [s[n]]) = .ok (decide ('5' ≤ s[n])) := by
    rw [Value.atMost, textAtMost_five]
  have hlen : (s.take n).length = n := List.length_take_of_le hn.le
  simp only [cutDigits, Value.firstElements, helement, hatMost, increased_of_isDigits (hs.take n),
    bind, Except.bind, pure, Except.pure, decide_eq_true_eq, cutAt, hdrop, hlen]
  split_ifs <;> simp_all [Rounded.asDigits]

theorem roundDigits_integer {p : Parts} (h : IsDigits p.digits) (hne : p.digits ≠ [])
    (places width : Option ℤ) :
    roundDigits (.text p.digits) (.int p.exponent) (.optional places) (.optional width) =
      .ok (p.round places width).asDigits := by
  have hnothing : ∀ n : Option ℤ, (Value.optional n).isNothing = n.isNone := by
    rintro (_ | _) <;> rfl
  have hlength : (Value.text p.digits).length = .ok p.digits.length := by
    simp [Value.length, Value.items?]
  have hplus : (Value.text ['0']).plus (.text p.digits) = .ok (.text ('0' :: p.digits)) := rfl
  have hpos := List.length_pos_iff.mpr hne
  unfold roundDigits Parts.round
  by_cases hfree : places.isNone ∧ width.isNone
  · simp only [hnothing, hfree, Bool.and_self, if_true, and_self]
    rfl
  · have hsome : (places.isNone && width.isNone) = false := by
      cases places <;> cases width <;> simp_all
    simp only [hnothing, hsome, hfree, Bool.false_eq_true, if_false, hlength,
      keptCount_integer p.exponent hfree, Value.equal_integer, bind, Except.bind]
    generalize keptDigits p.exponent places (width.getD 0) = n
    unfold roundTo
    rcases lt_trichotomy n 0 with hn | rfl | hn
    · simp [hn, hn.ne, Value.less_integer, pure, Except.pure, Decimal.Rounded.asDigits]
    · simp [hne, Value.less_integer, pure, Except.pure, hplus, Value.plus_integer, hpos,
        Value.asInteger, Value.integer?]
      exact cutDigits_text (h.cons rfl) _ (by simpa using hpos)
    · simp [hn.ne', Value.less_integer, pure, Except.pure, not_lt_of_gt hn, Value.asInteger,
        Value.integer?]
      split_ifs
      · omega
      · exact cutDigits_text h _ (by omega)
      · rfl
      · omega

/-! ## Positional notation -/

/-- Filling digits up with zeros to a length. -/
def fillTo (digits target : Value) : Except Fault Value := do
  let length := Value.int (← digits.length)
  if ← length.less target then
    digits.withZeros (← Value.repeatText ['0'] (← target.minus length))
  else return digits

/-- Filling digits up with zeros to the unit, or to the number of places. -/
def fillPlaces (places digits exponent : Value) : Except Fault Value := do
  let upTo ← if places.isNothing then pure exponent else exponent.plus places
  fillTo digits (← upTo.plus (.int 1))

theorem expandDigits_eq (digits exponent places : Value) : expandDigits digits exponent places =
    (do
      if ← exponent.isBelowZero then
        let zeros ← Value.repeatText ['0'] (← (← exponent.negated).minus (.int 1))
        fillPlaces places (← (Value.text zeros).plus digits) (.int (-1))
      else fillPlaces places digits exponent) := by
  simp only [expandDigits, fillPlaces, fillTo]
  rfl

theorem fillPlaces_integer (places : Option ℤ) (s : Text) (e : ℤ)
    (hfits : (e + places.getD 0 + 1 - s.length).toNat < Text.memoryLimit) :
    fillPlaces (.optional places) (.text s) (.int e) =
      .ok (.text (Text.padRight s (e + places.getD 0 + 1) '0')) := by
  have hlength : (Value.text s).length = .ok s.length := by simp [Value.length, Value.items?]
  have hfill : fillTo (.text s) (.int (e + places.getD 0 + 1)) =
      .ok (.text (Text.padRight s (e + places.getD 0 + 1) '0')) := by
    unfold fillTo Text.padRight
    simp only [hlength, Value.less_integer, Value.minus_integer, bind, Except.bind,
      decide_eq_true_eq]
    split_ifs with hless
    · rw [Value.repeatText_of_fits '0' (by omega) (by omega)]
      rfl
    · have hnone : (e + places.getD 0 + 1 - (s.length : ℤ)).toNat = 0 := by omega
      rw [hnone]
      simp [pure, Except.pure]
  rw [← hfill]
  cases places with
  | none =>
    simp [fillPlaces, Value.optional, Value.isNothing, Value.plus_integer, bind, Except.bind, pure,
      Except.pure]
  | some d => rfl

theorem expandDigits_integer {s : Text} (hne : s ≠ []) (e : ℤ) (places : Option ℤ)
    (hfits : (expanded s e places).length ≤ Text.memoryLimit) :
    expandDigits (.text s) (.int e) (.optional places) = .ok (.text (expanded s e places)) := by
  have hpos := List.length_pos_iff.mpr hne
  rw [expandDigits_eq]
  unfold expanded at hfits ⊢
  by_cases he : e < 0
  · simp only [if_pos he, Text.length_padRight, List.length_append, List.length_replicate]
      at hfits ⊢
    simp only [Value.isBelowZero_integer, he, decide_true, if_true, Value.negated_integer,
      Value.minus_integer, Value.repeatText_of_fits '0' (n := -e - 1) (by omega) (by omega),
      bind, Except.bind]
    refine fillPlaces_integer places _ _ ?_
    simp only [List.length_append, List.length_replicate]
    omega
  · simp only [if_neg he, Text.length_padRight] at hfits ⊢
    simp only [Value.isBelowZero_integer, he, decide_false, Bool.false_eq_true, if_false, bind,
      Except.bind]
    exact fillPlaces_integer places s e (by omega)

theorem positionalDigits_integer {s : Text} (hne : s ≠ []) (e : ℤ) (places : Option ℤ)
    (hfits : (positional s e places).length ≤ Text.memoryLimit) :
    positionalDigits (.text s) (.int e) (.optional places) = .ok (positional s e places) := by
  have hlength : (expanded s e places).length ≤ (positional s e places).length := by
    rw [length_positional]
    omega
  have hexpand := expandDigits_integer hne e places (hlength.trans hfits)
  simp only [positionalDigits, hexpand, pointDigits, Value.isBelowZero_integer, bind, Except.bind]
  unfold positional pointed
  by_cases he : e < 0
  · simp [he, Value.asText, pure, Except.pure]
  · simp [he, Value.asText, Value.plus_integer, Value.asInteger, Value.integer?, pure, Except.pure]

/-! ## Settings -/

/-- Settings for a field of real numbers that are whole numbers and characters, and may be missing
where settings may be. -/
structure PlainSettings where
  width : Option ℤ := none
  places : Option ℤ := none
  exponentDigits : Option ℤ := none
  scale : ℤ := 0
  overflow : Option Char := none
  pad : Char := ' '
  mark : Option Char := none
  plus : Bool := false

/-- The style of a field that is never filled with an overflow text. -/
def Decimal.FloatStyle.free (style : FloatStyle) : FloatStyle := { style with overflow := [] }

namespace PlainSettings

/-- The settings as values. -/
def settings (t : PlainSettings) : RealSettings where
  width := .optional t.width
  places := .optional t.places
  exponentDigits := .optional t.exponentDigits
  scale := .int t.scale
  overflow := .optionalCharacter t.overflow
  pad := .text [t.pad]
  mark := .optionalCharacter t.mark
  plus := t.plus

/-- The style that the settings would make if all of them were ordinary. -/
def style (t : PlainSettings) : FloatStyle where
  width := t.width
  places := t.places
  exponentDigits := t.exponentDigits
  scale := t.scale
  overflow := t.overflow.toList
  pad := [t.pad]
  mark := [t.mark.getD 'E']
  plus := t.plus

variable {t : PlainSettings} {p : Parts}

/-- Ordinary settings make the style. -/
theorem style?_settings {style : FloatStyle} (h : t.settings.style? = some style) :
    style = t.style := by
  unfold RealSettings.style? at h
  simp only [bind, Option.bind_eq_some_iff] at h
  obtain ⟨width, hwidth, places, hplaces, digits, hdigits, scale, hscale, overflow, hoverflow, pad,
    hpad, mark, hmark, h⟩ := h
  obtain rfl := Value.ordinaryOrNothing?_eq hwidth
  obtain rfl := Value.ordinaryOrNothing?_eq hplaces
  obtain rfl := Value.ordinaryOrNothing?_eq hdigits
  obtain rfl := Value.ordinary?_eq hscale
  obtain rfl : [t.pad] = pad := Option.some.inj hpad
  obtain rfl : t.overflow.toList = overflow := by
    cases hover : t.overflow <;> rw [settings, hover] at hoverflow <;>
      exact Option.some.inj hoverflow
  obtain rfl : [t.mark.getD 'E'] = mark := by
    cases hsome : t.mark <;> rw [settings, hsome] at hmark <;> exact Option.some.inj hmark
  exact (Option.some.inj h).symm

theorem isTrue_overflow (t : PlainSettings) :
    t.settings.overflow.isTrue = !t.style.overflow.isEmpty := by
  cases h : t.overflow <;> simp [settings, style, h] <;> rfl

/-- The field filled with the overflow character. -/
theorem overflowing_integer {w : ℤ} (hw : t.width = some w) (hlow : 0 ≤ w)
    (hhigh : w < Text.memoryLimit) (hoverflow : t.settings.overflow.isTrue = true) :
    t.settings.overflowing = .ok (.text (Text.times t.style.overflow w)) := by
  cases hc : t.overflow with
  | none => simp [settings, hc, Value.optionalCharacter, Value.isTrue] at hoverflow
  | some c =>
    have htimes := Value.times_of_fits c (n := w) (by omega) hhigh
    simp only [RealSettings.overflowing, settings, style, hc, hw, Value.optionalCharacter,
      Value.optional, Option.toList_some]
    exact htimes

/-- A text with padding in front of it. -/
theorem padded_integer {w full : ℤ} (hw : t.width = some w)
    (hlow : -(Text.memoryLimit : ℤ) ≤ w - full) (hhigh : w - full < Text.memoryLimit)
    (text : Text) :
    t.settings.padded (.int full) text = .ok (.text (Text.times t.style.pad (w - full) ++ text)) := by
  have htimes := Value.times_of_fits t.pad hlow hhigh
  simp only [RealSettings.padded, settings, style, hw, Value.optional, Value.minus_integer, htimes,
    ok_bind]
  rfl

/-- A text with padding in front of it, unless the field is to be filled. -/
theorem filled_integer {w full : ℤ} (hw : t.width = some w) (hlow : 0 ≤ w)
    (hhigh : w < Text.memoryLimit) (hfull : 0 ≤ full) (hmost : full ≤ w + Text.memoryLimit)
    {unwanted : Prop} [Decidable unwanted] {fills : Bool}
    (hfills : fills = true ↔ unwanted ∧ (!t.style.overflow.isEmpty) = true) (text : Text) :
    (if fills = true then t.settings.overflowing else t.settings.padded (.int full) text) =
      .ok (.text (if unwanted ∧ (!t.style.overflow.isEmpty) = true then
        Text.times t.style.overflow w else Text.times t.style.pad (w - full) ++ text)) := by
  by_cases hover : unwanted ∧ (!t.style.overflow.isEmpty) = true
  · rw [if_pos hover, if_pos (hfills.mpr hover)]
    exact overflowing_integer hw hlow hhigh (by rw [isTrue_overflow]; exact hover.2)
  · rw [if_neg hover, if_neg fun h => hover (hfills.mp h)]
    exact padded_integer hw (by omega) (by omega) text

/-! ## The fixed-point field -/

theorem fixedBody_integer (hdigits : IsDigits p.digits) (hne : p.digits ≠ []) (signWidth : ℤ)
    (hfits : (Decimal.fixedBody t.style signWidth p).length < Text.memoryLimit) :
    t.settings.fixedBody (.optional (t.width.map (· - signWidth))) p (.int (p.exponent + t.scale)) =
      .ok (Decimal.fixedBody t.style signWidth p) := by
  have hround := roundDigits_integer (p := ⟨p.digits, p.exponent + t.scale⟩) hdigits hne t.places
    (t.width.map (· - signWidth))
  obtain ⟨-, hsome, -⟩ := worth_round (p := ⟨p.digits, p.exponent + t.scale⟩) hdigits hne t.places
    (t.width.map (· - signWidth))
  unfold Decimal.fixedBody style at hfits ⊢
  unfold RealSettings.fixedBody settings
  dsimp only at hfits hround ⊢
  generalize Parts.round _ _ _ = r at hfits hround hsome ⊢
  have hbody : positionalDigits (.text r.digits) (.int r.leading) (.optional t.places) =
      .ok (positional r.digits r.leading t.places) := by
    refine positionalDigits_integer hsome r.leading t.places ?_
    generalize positional r.digits r.leading t.places = body at hfits
    split at hfits
    · split_ifs at hfits
      · rw [List.length_drop] at hfits
        omega
      · omega
    · omega
  have htext : r.asDigits.digits = .text r.digits := rfl
  simp only [hround, asDigits_leading, htext, hbody, bind, Except.bind, pure, Except.pure]
  cases t.width with
  | none => simp [Value.optional, Value.isNothing]
  | some w =>
    cases t.places with
    | none => simp [Value.optional, Value.isNothing]
    | some d =>
      simp only [Value.optional, Value.isNothing, Bool.or_self, Bool.false_eq_true, if_false,
        Option.map_some, Value.atMost_integer, Value.less_integer, Bool.and_eq_true,
        decide_eq_true_eq]
      split_ifs <;> tauto

end PlainSettings

/-- What a field shows before it is padded: zeros in front of the point and behind it, where they
are wanted and there is room. -/
def shown (sign body : Text) (front back : Bool) : Text :=
  sign ++ (if front then ['0'] else []) ++ body ++ if back then ['0'] else []

theorem length_shown (sign body : Text) (front back : Bool) :
    (shown sign body front back).length =
      sign.length + body.length + front.toNat + back.toNat := by
  cases front <;> cases back <;> simp [shown] <;> omega

/-- Whether a zero goes behind the point, if there is room. -/
def wantsBack (style : FloatStyle) (p : Parts) : Bool :=
  style.places.isNone && decide ((p.digits.length : ℤ) - 1 ≤ p.exponent + style.scale)

namespace RealSettings

variable {p : Parts}

theorem field_eq {s : RealSettings} {plain : FloatStyle → Bool → Parts → Text}
    {lenient : RealSettings → Bool → Parts → Except Fault Value} {v : Value} :
    s.field plain lenient v =
    v.isNegative s.plus >>= fun negative => v.magnitudeParts >>= fun p =>
      match s.style? with
      | some style => .ok (.text (plain style negative p))
      | none => lenient s negative p := by
  unfold field Value.magnitudeParts
  simp only [bind_assoc]
  rfl

/-- The rules for values, on a width that is a whole number. -/
theorem fixed_width {s : RealSettings} {w : ℤ} (hw : s.width = .int w) {negative : Bool}
    {exponent : Value} (hexponent : (Value.int p.exponent).plus s.scale = .ok exponent)
    {wantsBack : Bool} (hback : (if s.places.isNothing then
        (Value.int ((p.digits.length : ℤ) - 1)).numberAtMost exponent
      else pure false) = (Except.ok wantsBack : Except Fault Bool))
    {body : Text}
    (hbody : s.fixedBody (.int (w - (signText s.plus negative).length)) p exponent = .ok body) :
    s.fixed negative p =
      (let signed := body.length + (signText s.plus negative).length
      let room := decide ((signed : ℤ) < w)
      let front := ['.'].isPrefixOf body && room
      let back := wantsBack && room
      let full : ℕ := if front || back then signed + 1 else signed
      if decide (w < full) && s.overflow.isTrue then s.overflowing
      else s.padded (.int full) (shown (signText s.plus negative) body front back)) := by
  unfold fixed
  have hnothing : s.width.isNothing = false := by rw [hw]; rfl
  have hminus : s.width.minus (.int (signText s.plus negative).length) =
      .ok (.int (w - (signText s.plus negative).length)) := by rw [hw]; rfl
  have hless : ∀ n : ℤ, (Value.int n).less s.width = .ok (decide (n < w)) := fun n => by
    rw [hw, Value.less_integer]
  have hmore : ∀ n : ℤ, s.width.less (.int n) = .ok (decide (w < n)) := fun n => by
    rw [hw, Value.less_integer]
  cases hplaces : s.places.isNothing with
  | false =>
    obtain rfl : false = wantsBack := by
      rw [hplaces] at hback
      exact Except.ok.inj hback
    cases hfront : ['.'].isPrefixOf body <;>
      simp only [hexponent, hnothing, hminus, hbody, hfront, hless, hmore, bind, Except.bind,
        pure, Except.pure, shown, Bool.false_eq_true, if_false, if_true, Bool.false_and,
        Bool.or_false, Bool.true_and]
  | true =>
    rw [hplaces, if_pos rfl] at hback
    cases hfront : ['.'].isPrefixOf body <;> cases wantsBack <;>
      simp only [hexponent, hback, hnothing, hminus, hbody, hfront, hless, hmore, bind,
        Except.bind, pure, Except.pure, shown, Bool.false_eq_true, if_false, if_true,
        Bool.false_and, Bool.or_false, Bool.false_or, Bool.true_and, Bool.or_self]

/-- The rules for values, without a width. -/
theorem fixed_free {s : RealSettings} (hw : s.width = .nothing) {negative : Bool} {exponent : Value}
    (hexponent : (Value.int p.exponent).plus s.scale = .ok exponent) {wantsBack : Bool}
    (hback : (if s.places.isNothing then
        (Value.int ((p.digits.length : ℤ) - 1)).numberAtMost exponent
      else pure false) = (Except.ok wantsBack : Except Fault Bool))
    {body : Text} (hbody : s.fixedBody .nothing p exponent = .ok body) :
    s.fixed negative p =
      .ok (.text (shown (signText s.plus negative) body (['.'].isPrefixOf body) wantsBack)) := by
  have hnothing : s.width.isNothing = true := by rw [hw]; rfl
  rw [← hw] at hbody
  unfold fixed
  cases hplaces : s.places.isNothing with
  | false =>
    obtain rfl : false = wantsBack := by
      rw [hplaces] at hback
      exact Except.ok.inj hback
    simp only [hexponent, hnothing, hbody, bind, Except.bind, pure, Except.pure, shown,
      Bool.false_eq_true, if_false, if_true]
  | true =>
    rw [hplaces, if_pos rfl] at hback
    simp only [hexponent, hback, hnothing, hbody, bind, Except.bind, pure, Except.pure, shown,
      if_true]

/-- The rules for integers, without a width. -/
theorem fixedText_free {style : FloatStyle} (hw : style.width = none) (negative : Bool) :
    fixedText style negative p =
      (let sign := signText style.plus negative
      let body := Decimal.fixedBody style sign.length p
      shown sign body (['.'].isPrefixOf body) (wantsBack style p)) := by
  unfold fixedText
  simp only [hw]
  rfl

/-- The rules for integers, on a width. -/
theorem fixedText_width {style : FloatStyle} {w : ℤ} (hw : style.width = some w) (negative : Bool) :
    fixedText style negative p =
      (let sign := signText style.plus negative
      let body := Decimal.fixedBody style sign.length p
      let signed := body.length + sign.length
      let room := decide ((signed : ℤ) < w)
      let front := ['.'].isPrefixOf body && room
      let back := wantsBack style p && room
      let full : ℕ := if front || back then signed + 1 else signed
      if w < full ∧ !style.overflow.isEmpty then Text.times style.overflow w
      else Text.times style.pad (w - full) ++ shown sign body front back) := by
  unfold fixedText
  simp only [hw, Nat.cast_add, Nat.cast_ite, Nat.cast_one, shown, List.append_assoc]
  rfl

end RealSettings

namespace PlainSettings

variable {t : PlainSettings} {p : Parts}

/-- The rules for values make the field that the rules for integers make, if there is memory to
write the number out. -/
theorem fixed_integer (hdigits : IsDigits p.digits) (hne : p.digits ≠ []) (negative : Bool)
    (hwidth : ∀ w ∈ t.width, 0 ≤ w)
    (hfits : (fixedText t.style.free negative p).length < Text.memoryLimit) :
    t.settings.fixed negative p = .ok (.text (fixedText t.style negative p)) := by
  have hbody := @fixedBody_integer t p hdigits hne (signText t.plus negative).length
  have hexponent : (Value.int p.exponent).plus t.settings.scale =
      .ok (.int (p.exponent + t.scale)) := rfl
  have hback : (if t.settings.places.isNothing then
        (Value.int ((p.digits.length : ℤ) - 1)).numberAtMost (.int (p.exponent + t.scale))
      else pure false) = (Except.ok (wantsBack t.style p) : Except Fault Bool) := by
    unfold wantsBack settings style
    cases t.places with
    | none => exact Value.atMost_integer _ _
    | some d => rfl
  have hsign : t.style.free.plus = t.plus := rfl
  have hsame : ∀ n, Decimal.fixedBody t.style.free n p = Decimal.fixedBody t.style n p :=
    fun _ => rfl
  have hwants : wantsBack t.style.free p = wantsBack t.style p := rfl
  cases hw : t.width with
  | none =>
    have hstyle : t.style.width = none := hw
    rw [RealSettings.fixedText_free (show t.style.free.width = none from hw), length_shown] at hfits
    simp only [hsign, hsame, hwants] at hfits
    rw [RealSettings.fixedText_free hstyle]
    refine RealSettings.fixed_free (congrArg Value.optional hw) hexponent hback ?_
    rw [hw] at hbody
    exact hbody (by omega)
  | some w =>
    have hw0 : 0 ≤ w := hwidth w hw
    have hstyle : t.style.width = some w := hw
    rw [RealSettings.fixedText_width (show t.style.free.width = _ from hw)] at hfits
    rw [RealSettings.fixedText_width hstyle]
    have hpad : ∀ n, (Text.times t.style.free.pad n).length = n.toNat := fun n => by
      simp [FloatStyle.free, style, Text.times]
    simp only [hsign, hsame, hwants, show t.style.free.overflow.isEmpty = true from rfl,
      Bool.not_true, Bool.false_eq_true, and_false, if_false, List.length_append, length_shown,
      hpad] at hfits
    rw [hw] at hbody
    have hfixed := RealSettings.fixed_width (congrArg Value.optional hw) hexponent hback
      (hbody (by omega))
    rw [hfixed]
    have hplus : t.settings.plus = t.plus := rfl
    have hplus' : t.style.plus = t.plus := rfl
    simp only [hplus, hplus', isTrue_overflow]
    generalize Decimal.fixedBody t.style (signText t.plus negative).length p = body at hfits ⊢
    generalize wantsBack t.style p = back at hfits ⊢
    generalize decide (((body.length + (signText t.plus negative).length : ℕ) : ℤ) < w) = room
      at hfits ⊢
    generalize hfull : (if (['.'].isPrefixOf body && room || back && room) = true then
      body.length + (signText t.plus negative).length + 1
      else body.length + (signText t.plus negative).length) = full at hfits ⊢
    have hmost : full ≤ (signText t.plus negative).length + body.length +
        (['.'].isPrefixOf body && room).toNat + (back && room).toNat := by
      rw [← hfull]
      cases (['.'].isPrefixOf body && room) <;> cases (back && room) <;>
        simp only [Bool.or_self, Bool.or_true, Bool.or_false, Bool.false_eq_true, if_false, if_true,
          Bool.toNat_true, Bool.toNat_false] <;> omega
    exact filled_integer hw hw0 (by omega) (by omega) (by omega) (by simp) _

/-! ## The field of a value -/

variable {v : Value} {negative : Bool}

/-- A value in a field on which both rules agree. -/
theorem field_integer {plain : FloatStyle → Bool → Parts → Text}
    {lenient : RealSettings → Bool → Parts → Except Fault Value}
    (hnegative : v.isNegative t.plus = .ok negative) (hp : v.magnitudeParts = .ok p)
    (hlenient : lenient t.settings negative p = .ok (.text (plain t.style negative p))) :
    t.settings.field plain lenient v = .ok (.text (plain t.style negative p)) := by
  rw [RealSettings.field_eq, show t.settings.plus = t.plus from rfl, hnegative, hp]
  cases hstyle : t.settings.style? with
  | none => exact hlenient
  | some style =>
    rw [style?_settings hstyle]
    rfl

/-- A value in a fixed-point field whose settings are whole numbers and characters: the field of its
digits, if there is memory to write them out. -/
theorem fixedField_plain (hv : v.IsFiniteReal) (hnegative : v.isNegative t.plus = .ok negative)
    (hp : v.magnitudeParts = .ok p) (hwidth : ∀ w ∈ t.width, 0 ≤ w)
    (hfits : (fixedText t.style.free negative p).length < Text.memoryLimit) :
    fixedField t.settings v = .ok (.text (fixedText t.style negative p)) := by
  obtain ⟨hdigits, hne⟩ := Value.isDigits_of_parts hv hp
  rw [← fixed_eq]
  refine field_integer hnegative hp ?_
  rw [fixed_eq]
  exact fixed_integer hdigits hne negative hwidth hfits

end PlainSettings

namespace RealSettings

/-- Settings that are whole numbers, with a padding character and without an overflow text. -/
def ofIntegers (width places : Option ℤ) (scale : ℤ) (pad : Char) (plus : Bool) : RealSettings where
  width := .optional width
  places := .optional places
  scale := .int scale
  pad := .text [pad]
  plus := plus

/-- The style that the settings would make if all of them were ordinary. -/
def styleOf (width places : Option ℤ) (scale : ℤ) (pad : Char) (plus : Bool) : FloatStyle where
  width := width
  places := places
  scale := scale
  pad := [pad]
  plus := plus

/-- A value in a fixed-point field without an overflow text: the field of its digits. -/
theorem fixedField_integer {width places : Option ℤ} {scale : ℤ} {pad : Char} {plus : Bool}
    {p : Parts} {v : Value} (hv : v.IsFiniteReal) {negative : Bool}
    (hnegative : v.isNegative plus = .ok negative) (hp : v.magnitudeParts = .ok p)
    (hwidth : ∀ w ∈ width, 0 ≤ w)
    (hfits : (fixedText (styleOf width places scale pad plus) negative p).length <
      Text.memoryLimit) :
    fixedField (ofIntegers width places scale pad plus) v =
      .ok (.text (fixedText (styleOf width places scale pad plus) negative p)) :=
  PlainSettings.fixedField_plain (t := { width, places, scale, pad, plus }) hv hnegative hp hwidth
    hfits

end RealSettings

end Tilde
