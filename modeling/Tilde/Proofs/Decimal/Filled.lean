import Tilde.Proofs.Decimal.General

/-!
# Fields with an overflow character

With a width and an overflow character a real value never takes more columns or fewer than the
field has: they are filled with the overflow character, or show the sign and a numeral behind
padding. In a general field this holds of the columns that are not left blank for the exponent.

* `Fills`: the columns are filled so;
* `fills_padded`: a text that is padded unless it is too long;
* **`fields_filled`**: the fixed-point, the exponential and the general field.
-/

namespace Tilde

open Decimal

/-! ## Filled columns -/

/-- The columns are filled with the overflow character, or show what they are to show, with the
sign and padding in front of it. -/
def Fills (overflow pad : Char) (columns : ℤ) (sign : Text) (Shows : Text → Prop) (text : Text) :
    Prop :=
  (text.length : ℤ) = columns ∧ (text = List.replicate columns.toNat overflow ∨
    ∃ (n : ℕ) (numeral : Text), Shows numeral ∧ text = List.replicate n pad ++ (sign ++ numeral))

/-- A text that is padded unless it is too long, or unless it is not wanted. -/
theorem fills_padded (overflow pad : Char) {w : ℤ} (hw : 0 ≤ w) (sign : Text) {Shows : Text → Prop}
    {numeral : Text} (hnumeral : Shows numeral) {unwanted : Prop} [Decidable unwanted]
    (hlong : w < (sign ++ numeral).length → unwanted) :
    Fills overflow pad w sign Shows
      (if unwanted then Text.times [overflow] w
        else Text.times [pad] (w - (sign ++ numeral).length) ++ (sign ++ numeral)) := by
  have htimes : ∀ (c : Char) (n : ℤ), Text.times [c] n = List.replicate n.toNat c := fun c n => by
    simp [Text.times]
  rw [htimes, htimes]
  split_ifs with h
  · refine ⟨?_, .inl rfl⟩
    rw [List.length_replicate]
    omega
  · have hfits : ¬ w < (sign ++ numeral).length := fun hless => h (hlong hless)
    refine ⟨?_, .inr ⟨_, numeral, hnumeral, rfl⟩⟩
    rw [List.length_append, List.length_replicate]
    omega

namespace PlainSettings

/-! ## Fixed-point and exponential columns -/

variable (t : PlainSettings) (p : Parts)

/-- A numeral for the number that the digits stand for, scaled, and rounded half-up to the places
asked for or to those that fit the width. -/
def ShowsFixed (sign numeral : Text) : Prop :=
  ∃ n : ℕ, IsNumeral numeral n
    (halfUpTo (valueOf p.digits * 10 ^ (p.exponent - p.digits.length + 1 + t.scale))
      (keptPlaces? (p.exponent + t.scale) t.places (t.width.map (· - sign.length))))

/-- A numeral with an exponent, for the number that the digits stand for, rounded half-up to some
significant digits. -/
def ShowsExponential (numeral : Text) : Prop :=
  ∃ (x : Scientific) (n : ℕ), 0 < n ∧
    x.Writes (halfUpDigits (valueOf p.digits * 10 ^ (p.exponent - p.digits.length + 1)) n) ∧
    numeral = x.text [t.mark.getD 'E']

theorem overflow_style {c : Char} (h : t.overflow = some c) : t.style.overflow = [c] := by
  show t.overflow.toList = _
  rw [h]
  rfl

variable {t p} {w : ℤ} {c : Char} {negative : Bool} (hdigits : IsDigits p.digits)
  (hne : p.digits ≠ []) (hwidth : t.width = some w) (hw : 0 ≤ w) (hoverflow : t.overflow = some c)

include hdigits hne hwidth hw hoverflow

theorem fills_fixed (hplaces : ∀ d ∈ t.places, 0 ≤ d) :
    Fills c t.pad w (signText t.plus negative) (t.ShowsFixed p (signText t.plus negative))
      (fixedText t.style negative p) := by
  obtain ⟨numeral, n, hnumeral, -, htext⟩ :=
    @exists_fixedText t.style p negative hdigits hne hplaces
  have hscaled : Parts.worth ⟨p.digits, p.exponent + t.scale⟩ =
      valueOf p.digits * 10 ^ (p.exponent - p.digits.length + 1 + t.scale) := by
    rw [Parts.worth]
    congr 2
    ring
  have hstyle : t.style.width = some w := hwidth
  rw [htext, FloatStyle.framed, hstyle]
  dsimp only
  rw [t.overflow_style hoverflow]
  exact fills_padded c t.pad hw _ ⟨n, hscaled ▸ hnumeral⟩ fun hless => ⟨hless, rfl⟩

theorem fills_exponential (hnormal : p.IsNormal) :
    Fills c t.pad w (signText t.plus negative) (t.ShowsExponential p)
      (exponentialText t.style negative p) := by
  have hstyle : t.style.width = some w := hwidth
  obtain ⟨hq, hsome, -, hrounded⟩ :=
    worth_roundedMantissa t.style (signText t.plus negative).length hdigits hne hnormal
  -- where there is a width, the mantissa may have only so many digits
  obtain ⟨n, hn⟩ : ∃ n, mantissaDigits? t.style (signText t.plus negative).length p.exponent =
      some n := by
    unfold mantissaDigits?
    rw [hstyle]
    cases t.style.places <;> exact ⟨_, rfl⟩
  rw [hn] at hrounded
  obtain ⟨hpos, -, hworth⟩ := hrounded
  obtain ⟨front, back, crowded, htext⟩ := exponentialText_width hstyle negative p
  rw [htext, t.overflow_style hoverflow]
  have hwrites := writes_scientific t.style front back hq hsome
  rw [hworth] at hwrites
  exact fills_padded c t.pad hw _ ⟨_, n, hpos, hwrites, rfl⟩ fun hless => ⟨.inl hless, rfl⟩

end PlainSettings

/-! ## The fields -/

/-- A real value with the digits `p` in a field with a width and an overflow character. The columns
of a fixed-point field, of an exponential one and of a general one for a number away from the point
are filled. So are those of a general field for a number near the point, if there are more columns
than the exponent has, which are left blank. -/
theorem fields_filled {t : PlainSettings} {v : Value} {p : Parts} {w : ℤ} {c : Char}
    (hv : v.IsFiniteReal) (hformat : v.InFormat) (hp : v.magnitudeParts = .ok p)
    (hwidth : t.width = some w) (hw : 1 ≤ w) (hmemory : w < Text.memoryLimit)
    (hoverflow : t.overflow = some c) (hplaces : ∀ d ∈ t.places, 0 ≤ d)
    (hdigits : ∀ e ∈ t.exponentDigits, 1 ≤ e) :
    ∃ (negative : Bool) (sign : Text),
      v.isNegative t.plus = .ok negative ∧ sign = signText t.plus negative ∧
      ((fixedText t.style.free negative p).length < Text.memoryLimit →
        ∃ text, fixedField t.settings v = .ok (.text text) ∧
          Fills c t.pad w sign (t.ShowsFixed p sign) text) ∧
      ((exponentialText t.style.free negative p).length < Text.memoryLimit →
        ∃ text, exponentialField t.settings v = .ok (.text text) ∧
          Fills c t.pad w sign (t.ShowsExponential p) text) ∧
      (¬ t.IsNear p →
        (exponentialText (t.far p).style.free negative p).length < Text.memoryLimit →
        ∃ text, generalField t.settings v = .ok (.text text) ∧
          Fills c t.pad w sign ((t.far p).ShowsExponential p) text) ∧
      (t.IsNear p → t.exponentWidth < w →
        (fixedText (t.near p).style.free negative p).length < Text.memoryLimit →
        ∃ text, generalField t.settings v =
            .ok (.text (text ++ List.replicate t.exponentWidth.toNat ' ')) ∧
          Fills c t.pad (w - t.exponentWidth) sign ((t.near p).ShowsFixed p sign) text) := by
  obtain ⟨negative, hnegative⟩ := v.exists_isNegative hv t.plus
  obtain ⟨hp_digits, hne⟩ := Value.isDigits_of_parts hv hp
  have hnormal := Value.isNormal_of_magnitudeParts hp
  have hcolumns {n : ℤ} (hn : n ≤ w) : ∀ w' ∈ t.width, n ≤ w' := by
    intro w' hw'
    rwa [← Option.some.inj (hwidth.symm.trans hw')]
  have hwide := hcolumns (n := 0) (by omega)
  have hindex : ∀ e ∈ t.exponentDigits, -(Text.indexLimit : ℤ) ≤ e := by
    intro e he
    have := hdigits e he
    omega
  refine ⟨negative, _, hnegative, rfl, fun hfits => ?fixed, fun hfits => ?exponential,
    fun hfar hfits => ?far, fun hnear hblanks hfits => ?near⟩
  case fixed =>
    exact ⟨_, PlainSettings.fixedField_plain hv hnegative hp hwide hfits,
      PlainSettings.fills_fixed hp_digits hne hwidth (by omega) hoverflow hplaces⟩
  case exponential =>
    exact ⟨_, PlainSettings.exponentialField_eq hv hformat hp hwide hplaces hindex hfits hnegative,
      PlainSettings.fills_exponential hp_digits hne hwidth (by omega) hoverflow hnormal⟩
  case far =>
    exact ⟨_, PlainSettings.generalField_far hv hp hnegative hformat hfar hwide
        (PlainSettings.digitsShown_nonneg hplaces) hindex hfits,
      PlainSettings.fills_exponential (t := t.far p) hp_digits hne hwidth (by omega) hoverflow
        hnormal⟩
  case near =>
    have hinner : (t.near p).width = some (w - t.exponentWidth) := by
      show t.width.map _ = _
      rw [hwidth]
      rfl
    have hbehind : ∀ d ∈ (t.near p).places, 0 ≤ d := by
      intro d hd
      obtain rfl := Option.some.inj hd
      exact hnear.1
    exact ⟨_, PlainSettings.generalField_near hv hp hnegative hnear (hcolumns hblanks.le)
        (PlainSettings.exponentWidth_nonneg hdigits) (by omega) hfits,
      PlainSettings.fills_fixed (t := t.near p) hp_digits hne hinner (by omega) hoverflow hbehind⟩

/-- A negative decimal number in seven columns, three of them for the number in a general field. -/
theorem fields_filled_hundredths :
    ∃ (negative : Bool) (sign : Text),
      (Value.decimal (.finite true 12345 (-2))).isNegative false = .ok negative ∧
      sign = signText false negative ∧
      (∃ text, fixedField (PlainSettings.settings { width := some 7, overflow := some '*' })
          (.decimal (.finite true 12345 (-2))) = .ok (.text text) ∧
        Fills '*' ' ' 7 sign (PlainSettings.ShowsFixed { width := some 7, overflow := some '*' }
          ⟨['1', '2', '3', '4', '5'], 2⟩ sign) text) ∧
      ∃ text, generalField (PlainSettings.settings { width := some 7, overflow := some '*' })
          (.decimal (.finite true 12345 (-2))) = .ok (.text (text ++ List.replicate 4 ' ')) ∧
        Fills '*' ' ' 3 sign (PlainSettings.ShowsFixed
          { width := some 3, places := some 2, overflow := some '*' }
          ⟨['1', '2', '3', '4', '5'], 2⟩ sign) text := by
  obtain ⟨negative, sign, hnegative, hsign, hfixed, -, -, hnear⟩ :=
    fields_filled (t := { width := some 7, overflow := some '*' })
      (v := .decimal (.finite true 12345 (-2))) (p := ⟨['1', '2', '3', '4', '5'], 2⟩)
      (.inl rfl) trivial rfl rfl (by decide) (by decide) rfl (by simp) (by simp)
  exact ⟨negative, sign, hnegative, hsign, hfixed (by cases negative <;> decide),
    hnear (by decide) (by decide) (by cases negative <;> decide)⟩

/-- A general field that is too narrow is filled only in front of the blanks. -/
theorem generalField_blanks :
    ∃ text, generalField (PlainSettings.settings { width := some 7, overflow := some '*' })
        (.int 12345) = .ok (.text text) ∧
      text ≠ List.replicate 7 '*' ∧ text.any Char.isDigit = false := by
  have hwritable : Value.isWritableInteger 12345 = true :=
    Value.isWritableInteger_of_lt (by decide)
  have hparts : (Value.int 12345).magnitudeParts = .ok ⟨['1', '2', '3', '4', '5'], 4⟩ := by
    have habsolute : (Value.int 12345).absolute = .ok (.int 12345) := rfl
    rw [Value.magnitudeParts, habsolute, ok_bind, Value.parts, if_pos hwritable]
    rfl
  refine ⟨['*', '*', '*', ' ', ' ', ' ', ' '], ?_, by decide, rfl⟩
  rw [generalField_eq, hparts]
  rfl

end Tilde
