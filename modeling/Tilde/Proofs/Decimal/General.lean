import Tilde.Proofs.Decimal.Exponential

/-!
# General fields whose settings are whole numbers

A general field is a fixed-point one, with blanks behind it in the columns of the exponent that is
not there, as long as the number has its first digit near the point, and an exponential one
otherwise.

* `IsNear`: the first digit is near the point;
* `near`, `far`: the settings of the two fields;
* **`generalField_near`**, **`generalField_far`**: the general field of a real value is one of them.
-/

namespace Tilde

open Decimal

/-- A general field looks at the digits first. -/
theorem generalField_eq (s : RealSettings) (v : Value) :
    generalField s v = v.magnitudeParts >>= fun p =>
      match s.style? with
      | some style => v.isNegative s.plus >>= fun negative =>
          .ok (.text (general style negative p))
      | none => s.general (v.isNegative s.plus) p := by
  unfold generalField Value.magnitudeParts
  simp only [bind_assoc]
  rfl

namespace PlainSettings

variable (t : PlainSettings) (p : Parts)

/-! ## The two fields -/

/-- The columns that are left blank for the exponent. -/
def exponentWidth : ℤ :=
  match t.exponentDigits with
  | some e => e + 2
  | none => 4

/-- How many digits stand in front of the point. -/
def digitsInFront : ℤ := if p.digits = ['0'] then 0 else p.exponent + 1

/-- How many digits are shown. -/
def digitsShown : ℤ := t.places.getD (max p.digits.length (min (digitsInFront p) 7))

/-- The point is among the digits that are shown. -/
def IsNear : Prop :=
  0 ≤ t.digitsShown p - digitsInFront p ∧ t.digitsShown p - digitsInFront p ≤ t.digitsShown p

instance : Decidable (t.IsNear p) := by unfold IsNear; infer_instance

/-- The fixed-point field for a number near the point. -/
def near : PlainSettings :=
  { t with
    width := t.width.map (· - t.exponentWidth)
    places := some (t.digitsShown p - digitsInFront p)
    scale := 0 }

/-- The exponential field for the other numbers. -/
def far : PlainSettings := { t with places := some (t.digitsShown p) }

variable {t p} {negative : Bool}

theorem exponentWidth_nonneg (h : ∀ e ∈ t.exponentDigits, 1 ≤ e) : 0 ≤ t.exponentWidth := by
  unfold exponentWidth
  cases he : t.exponentDigits with
  | none => decide
  | some e =>
    have := h e he
    show 0 ≤ e + 2
    omega

theorem digitsShown_nonneg (h : ∀ d ∈ t.places, 0 ≤ d) : 0 ≤ t.digitsShown p := by
  unfold digitsShown
  cases hd : t.places with
  | none => exact (Int.natCast_nonneg _).trans (le_max_left _ _)
  | some d => exact h d hd

theorem general_style (negative : Bool) :
    general t.style negative p =
      if t.IsNear p then fixed (t.near p).style negative p ++ Text.blanks t.exponentWidth
      else exponential (t.far p).style negative p := rfl

/-- The rules for values choose between the same fields. -/
theorem general_settings (negative : Bool) :
    t.settings.general (.ok negative) p =
      if t.IsNear p then
        (t.near p).settings.fixed negative p >>= fun field =>
          Value.repeatText [' '] (.int t.exponentWidth) >>= fun blanks => field.plus (.text blanks)
      else (t.far p).settings.exponential negative p := by
  have hplaces : (if t.settings.places.isNothing then
      .int (max p.digits.length (min (digitsInFront p) 7)) else t.settings.places) =
        .int (t.digitsShown p) := by
    unfold settings digitsShown
    cases t.places <;> rfl
  have hnear : t.IsNear p ↔ 0 ≤ t.digitsShown p - digitsInFront p ∧
      t.digitsShown p - digitsInFront p ≤ t.digitsShown p := Iff.rfl
  simp only [hnear]
  unfold near far RealSettings.general
  simp only [show (if p.digits = ['0'] then 0 else p.exponent + 1) = digitsInFront p from rfl,
    hplaces]
  generalize t.digitsShown p = shown
  generalize digitsInFront p = front
  obtain ⟨width, places, exponentDigits, scale, overflow, pad, mark, plus⟩ := t
  cases exponentDigits <;> cases width
  all_goals
    simp only [settings, Value.optional, Value.isNothing, if_true, Bool.false_eq_true, if_false,
      pure, Except.pure, Value.minus_integer, Value.plus_integer, Value.atMost_integer, ok_bind,
      decide_eq_true_eq, ite_and, Option.map_none, Option.map_some]
    rfl

/-! ## The field of a value -/

variable {v : Value} (hv : v.IsFiniteReal) (hp : v.magnitudeParts = .ok p)
  (hnegative : v.isNegative t.plus = .ok negative)

include hv hp hnegative

/-- A real value near the point, with blanks in the columns of the exponent. -/
theorem generalField_near (hnear : t.IsNear p) (hwidth : ∀ w ∈ t.width, t.exponentWidth ≤ w)
    (hblanks : 0 ≤ t.exponentWidth) (hfew : t.exponentWidth < Text.memoryLimit)
    (hfits : (fixedText (t.near p).style.free negative p).length < Text.memoryLimit) :
    generalField t.settings v =
      .ok (.text (fixedText (t.near p).style negative p ++ Text.blanks t.exponentWidth)) := by
  obtain ⟨hdigits, hne⟩ := Value.isDigits_of_parts hv hp
  have hwidth' : ∀ w ∈ (t.near p).width, 0 ≤ w := by
    intro w hw
    obtain ⟨w', hw', rfl⟩ := Option.map_eq_some_iff.mp hw
    have := hwidth w' hw'
    omega
  have hfixed := fixed_integer hdigits hne negative hwidth' hfits
  rw [generalField_eq, hp, ok_bind, show t.settings.plus = t.plus from rfl, hnegative]
  cases hstyle : t.settings.style? with
  | none =>
    dsimp only
    rw [general_settings, if_pos hnear, hfixed, ok_bind, Value.repeatText_of_fits ' ' hblanks hfew]
    rfl
  | some style =>
    rw [style?_settings hstyle]
    dsimp only
    rw [ok_bind, general_style, if_pos hnear, fixed_eq]

/-- A real value away from the point, in an exponential field. -/
theorem generalField_far (hformat : v.InFormat) (hfar : ¬ t.IsNear p)
    (hwidth : ∀ w ∈ t.width, 0 ≤ w) (hplaces : 0 ≤ t.digitsShown p)
    (hdigits : ∀ e ∈ t.exponentDigits, -(Text.indexLimit : ℤ) ≤ e)
    (hfits : (exponentialText (t.far p).style.free negative p).length < Text.memoryLimit) :
    generalField t.settings v = .ok (.text (exponentialText (t.far p).style negative p)) := by
  have hplaces' : ∀ d ∈ (t.far p).places, 0 ≤ d := by
    intro d hd
    obtain rfl := Option.some.inj hd
    exact hplaces
  have hexponential : (t.far p).settings.exponential negative p = _ :=
    exponential_of_parts hv hformat hp hwidth hplaces' hdigits hfits
  rw [generalField_eq, hp, ok_bind, show t.settings.plus = t.plus from rfl, hnegative]
  cases hstyle : t.settings.style? with
  | none =>
    dsimp only
    rw [general_settings, if_neg hfar, hexponential]
  | some style =>
    rw [style?_settings hstyle]
    dsimp only
    rw [ok_bind, general_style, if_neg hfar, exponential_eq]

end PlainSettings

end Tilde
