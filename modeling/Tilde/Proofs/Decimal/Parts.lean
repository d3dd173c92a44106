import Tilde.Dynamic.Parts
import Tilde.Proofs.Decimal.Spelled
import Tilde.Proofs.Run.Position

/-!
# The digits of real values

A finite real value, that is an integer, a truth value, a fraction, a finite binary or decimal
number, is written as digits, so that its significant digits are digits and stand for the number
that its written form writes.

* `parts_integer`, `parts_binary`, `parts_decimal`: the digits of a number and what they stand for;
* `exists_parts`: the digits of a real value are those of one of these numbers;
* **`isDigits_of_parts`**: the significant digits of a real value are digits.
-/

namespace Tilde.Value

open Decimal

/-- The value is a finite real number; truth values are numbers. -/
def IsFiniteReal (v : Value) : Prop := v.isReal = true ∨ ∃ b, v = .bool b

/-- The digits of the absolute value. -/
def magnitudeParts (v : Value) : Except Fault Parts := do (← v.absolute).parts

theorem readParts_of_spells {s : Text} {q : ℚ} (h : Spells s q) :
    ∃ p, readParts s = .ok p ∧ IsDigits p.digits ∧ p.digits ≠ [] ∧ p.worth = q := by
  obtain ⟨p, hread, hp⟩ := h.parts
  exact ⟨p, by rw [readParts, hread], hp⟩

theorem decimal_natCast (n : ℕ) : Radix.decimal n = Nat.toDigits 10 n := by
  have hsign : Radix.sign (n : ℤ) = [] := if_neg (by omega)
  rw [Radix.decimal, Radix.numeral, hsign, Int.natAbs_natCast]
  rfl

/-- The digits of an integer that has a written form. -/
theorem parts_integer (n : ℕ) (h : isWritableInteger n = true) :
    ∃ p, (Value.int n).parts = .ok p ∧ IsDigits p.digits ∧ p.digits ≠ [] ∧ p.worth = n := by
  rw [parts, if_pos h, decimal_natCast]
  exact readParts_of_spells (spells_toDigits n)

/-- The digits of a finite binary number stand for its shortest decimal, which its written form
writes. -/
theorem parts_binary (m : ℕ) (e : ℤ) :
    ∃ (p : Parts) (body : Text), (Value.float (.finite false m e)).parts = .ok p ∧
      IsDigits p.digits ∧ p.digits ≠ [] ∧ p.worth = (shortest m e).1 * 10 ^ (shortest m e).2 ∧
      Spells body p.worth ∧
      ∀ negative, Binary64.text (.finite negative m e) = signText false negative ++ body := by
  obtain ⟨body, hspells, htext⟩ := exists_floatText m e
  obtain ⟨p, hread, hdigits, hne, hworth⟩ := readParts_of_spells hspells
  refine ⟨p, body, ?_, hdigits, hne, hworth, hworth ▸ hspells, htext⟩
  rw [parts, Binary64.text, htext false]
  exact hread

/-- The digits of a finite decimal number. -/
theorem parts_decimal (c : ℕ) (e : ℤ) :
    ∃ p, (Value.decimal (.finite false c e)).parts = .ok p ∧ IsDigits p.digits ∧ p.digits ≠ [] ∧
      p.worth = c * 10 ^ e :=
  readParts_of_spells (spells_plainText c e)

theorem absolute_decimal (d : Decimal) :
    (Value.decimal d).absolute = d.magnitude >>= fun d' => .ok (.decimal d') := by
  cases h : d.magnitude <;>
    simp [absolute, asNumber, number?, Number.magnitude, h, bind, Except.bind, pure, Except.pure,
      Number.toValue]

/-- The result of an operation on decimal numbers is finite and has the sign that it is given. -/
theorem exists_fitted {negative : Bool} {c : ℕ} {e : ℤ} {d : Decimal}
    (h : fitted negative c e = .ok d) : ∃ c' e', d = .finite negative c' e' := by
  unfold fitted at h
  simp only at h
  split_ifs at h
  all_goals exact ⟨_, _, (Except.ok.inj h).symm⟩

/-- A ratio becomes a number of its sign, or an infinity. -/
theorem ofRatio_cases (negative : Bool) (num den : ℕ) :
    Binary64.ofRatio negative num den = .infinite negative ∨
      ∃ m e, Binary64.ofRatio negative num den = .finite negative m e := by
  unfold Binary64.ofRatio
  split
  · exact .inr ⟨_, _, rfl⟩
  · extract_lets e
    rcases Binary64.scaleDown num den e with ⟨n, d⟩
    generalize hr : (if Binary64.roundRatio n d = Nat.pow 2 53 then (Nat.pow 2 52, e + 1)
      else (Binary64.roundRatio n d, e)) = r
    simp only [hr]
    split
    · exact .inl rfl
    · exact .inr ⟨_, _, rfl⟩

/-- A fraction that can be converted becomes a finite binary number of its sign. -/
theorem exists_binaryOf {q : ℚ} {x : Binary64} (h : Number.binaryOf q = .ok x) :
    ∃ m e, x = .finite (decide (q < 0)) m e := by
  unfold Number.binaryOf at h
  rcases ofRatio_cases (decide (q < 0)) q.num.natAbs q.den with hr | ⟨m, e, hr⟩
  · simp [hr] at h
  · rw [hr] at h
    exact ⟨m, e, (Except.ok.inj h).symm⟩

/-! ## The digits of any value -/

variable {p : Parts}

theorem isDigits_of_parts_integer (n : ℕ) (hp : (Value.int n).parts = .ok p) :
    IsDigits p.digits ∧ p.digits ≠ [] := by
  cases hwritable : isWritableInteger n with
  | true =>
    obtain ⟨p', hp', hdigits, hne, -⟩ := parts_integer n hwritable
    obtain rfl : p' = p := Except.ok.inj (hp'.symm.trans hp)
    exact ⟨hdigits, hne⟩
  | false =>
    rw [parts, hwritable] at hp
    cases hp

theorem isDigits_of_parts_binary {m : ℕ} {e : ℤ}
    (hp : (Value.float (.finite false m e)).parts = .ok p) :
    IsDigits p.digits ∧ p.digits ≠ [] := by
  obtain ⟨p', -, hp', hdigits, hne, -⟩ := parts_binary m e
  obtain rfl : p' = p := Except.ok.inj (hp'.symm.trans hp)
  exact ⟨hdigits, hne⟩

theorem isDigits_of_parts_decimal {c : ℕ} {e : ℤ}
    (hp : (Value.decimal (.finite false c e)).parts = .ok p) :
    IsDigits p.digits ∧ p.digits ≠ [] := by
  obtain ⟨p', hp', hdigits, hne, -⟩ := parts_decimal c e
  obtain rfl : p' = p := Except.ok.inj (hp'.symm.trans hp)
  exact ⟨hdigits, hne⟩

/-- The digits of a real value are those of an integer, of a binary number or of the result of
decimal arithmetic. A binary number is the value itself or made of a fraction. -/
theorem exists_parts {v : Value} (hv : v.IsFiniteReal) (hp : v.magnitudeParts = .ok p) :
    (∃ n : ℕ, (Value.int n).parts = .ok p) ∨
      (∃ (m : ℕ) (e : ℤ), (Value.float (.finite false m e)).parts = .ok p ∧
        ((∃ negative, v = .float (.finite negative m e)) ∨
          ∃ q, Number.binaryOf q = .ok (.finite false m e))) ∨
      ∃ (c c' : ℕ) (e e' : ℤ), fitted false c e = .ok (.finite false c' e') ∧
        (Value.decimal (.finite false c' e')).parts = .ok p := by
  obtain ⟨w, hw, hp⟩ := exists_of_bind_ok hp
  rcases hv with hreal | ⟨b, rfl⟩
  · cases v with
    | int n =>
      obtain rfl : Value.int n.natAbs = w := Except.ok.inj hw
      exact .inl ⟨_, hp⟩
    | float x =>
      obtain rfl : Value.float x.abs = w := Except.ok.inj hw
      cases x with
      | finite negative m e => exact .inr (.inl ⟨m, e, hp, .inl ⟨negative, rfl⟩⟩)
      | nan => cases hreal
      | infinite _ => cases hreal
    | decimal d =>
      cases d with
      | finite negative c e =>
        rw [absolute_decimal] at hw
        obtain ⟨d, hd, hw⟩ := exists_of_bind_ok hw
        obtain rfl : Value.decimal d = w := Except.ok.inj hw
        obtain ⟨c', e', rfl⟩ := exists_fitted hd
        exact .inr (.inr ⟨c, c', e, e', hd, hp⟩)
      | infinite _ => cases hreal
      | nan _ _ _ => cases hreal
    | fraction q =>
      obtain rfl : Value.fraction (if q < 0 then -q else q) = w := Except.ok.inj hw
      obtain ⟨x, hx, hread⟩ := exists_of_bind_ok hp
      obtain ⟨m, e, rfl⟩ := exists_binaryOf hx
      have hpositive : decide ((if q < 0 then -q else q) < 0) = false := by
        rw [decide_eq_false_iff_not, not_lt]
        split_ifs <;> linarith
      rw [hpositive] at hread hx
      exact .inr (.inl ⟨m, e, hread, .inr ⟨_, hx⟩⟩)
    | _ => cases hreal
  · obtain rfl := Except.ok.inj hw
    exact .inl ⟨_, hp⟩

/-- The significant digits of a real value are digits. -/
theorem isDigits_of_parts {v : Value} (hv : v.IsFiniteReal) (hp : v.magnitudeParts = .ok p) :
    IsDigits p.digits ∧ p.digits ≠ [] := by
  obtain ⟨n, hp⟩ | ⟨m, e, hp, -⟩ | ⟨-, c, -, e, -, hp⟩ := exists_parts hv hp
  · exact isDigits_of_parts_integer n hp
  · exact isDigits_of_parts_binary hp
  · exact isDigits_of_parts_decimal hp

end Tilde.Value
