import Mathlib.Algebra.Order.Field.Power
import Mathlib.Data.List.TakeWhile
import Mathlib.Data.Rat.Floor
import Mathlib.Tactic.FieldSimp
import Mathlib.Tactic.NormNum
import Mathlib.Tactic.Positivity
import Mathlib.Tactic.Ring
import Tilde.Decimal.Rounding
import Tilde.Radix

/-!
# What digit strings valueOf

A digit string writes a natural number, and with the exponent of its first digit a rational one.

* `IsDigits`, `valueOf`: the digit strings and the numbers that they write;
* `Parts.worth`: the number that significant digits stand for;
* **`valueOf_increment`**: `increment` writes the next number;
* **`Parts.worth_normal`**: zeros at the ends of a digit string are of no account.
-/

namespace Tilde.Decimal

/-! ## Digit strings -/

/-- The text consists of digits. -/
def IsDigits (s : Text) : Prop := ∀ c ∈ s, c.isDigit = true

instance (s : Text) : Decidable (IsDigits s) :=
  decidable_of_iff (s.all Char.isDigit = true) List.all_eq_true

namespace IsDigits

variable {s t : Text} {c : Char}

theorem nil : IsDigits [] := fun _ h => absurd h List.not_mem_nil

theorem cons (hc : c.isDigit = true) (hs : IsDigits s) : IsDigits (c :: s) :=
  List.forall_mem_cons.mpr ⟨hc, hs⟩

theorem append (hs : IsDigits s) (ht : IsDigits t) : IsDigits (s ++ t) :=
  List.forall_mem_append.mpr ⟨hs, ht⟩

theorem of_subset (hs : IsDigits s) (h : t ⊆ s) : IsDigits t := fun c hc => hs c (h hc)

theorem take (hs : IsDigits s) (n : Nat) : IsDigits (s.take n) :=
  hs.of_subset (List.take_subset n s)

theorem zeros (n : Nat) : IsDigits (List.replicate n '0') := fun c hc => by
  rw [List.eq_of_mem_replicate hc]
  rfl

end IsDigits

theorem isDigits_toDigits (n : Nat) : IsDigits (Nat.toDigits 10 n) := fun _ hc =>
  Nat.isDigit_of_mem_toDigits (by decide) (by decide) hc

/-- What a digit counts. -/
def digitValue (c : Char) : Nat := c.toNat - '0'.toNat

/-- The number that a digit string writes. -/
def valueOf (s : Text) : Nat := Nat.ofDigitChars 10 s 0

@[simp] theorem valueOf_nil : valueOf [] = 0 := rfl

@[simp] theorem valueOf_zero : valueOf ['0'] = 0 := rfl

@[simp] theorem valueOf_toDigits (n : Nat) : valueOf (Nat.toDigits 10 n) = n :=
  Nat.ofDigitChars_ten_toDigits

theorem valueOf_append (s t : Text) : valueOf (s ++ t) = valueOf s * 10 ^ t.length + valueOf t := by
  rw [valueOf, Nat.ofDigitChars_append, Nat.ofDigitChars_eq_ofDigitChars_zero, Nat.mul_comm]
  rfl

theorem valueOf_cons (c : Char) (s : Text) :
    valueOf (c :: s) = digitValue c * 10 ^ s.length + valueOf s := by
  have h := valueOf_append [c] s
  simpa [valueOf, Nat.ofDigitChars_cons, digitValue] using h

@[simp] theorem valueOf_zeros (n : Nat) : valueOf (List.replicate n '0') = 0 := by
  simp [valueOf, Nat.ofDigitChars_replicate_zero]

theorem valueOf_zeros_append (n : Nat) (s : Text) :
    valueOf (List.replicate n '0' ++ s) = valueOf s := by
  simp [valueOf_append]

theorem valueOf_append_zeros (s : Text) (n : Nat) :
    valueOf (s ++ List.replicate n '0') = valueOf s * 10 ^ n := by
  simp [valueOf_append]

/-- Zeros behind the digits are as good as a larger exponent. -/
theorem valueOf_append_zeros_mul (s : Text) (n : Nat) (k : ℤ) :
    (valueOf (s ++ List.replicate n '0') : ℚ) * 10 ^ k = valueOf s * 10 ^ (n + k) := by
  rw [valueOf_append_zeros, zpow_add₀ (by norm_num), zpow_natCast]
  push_cast
  ring

theorem digitValue_le {c : Char} (hc : c.isDigit = true) : digitValue c ≤ 9 := by
  simp only [Char.isDigit, Bool.and_eq_true, decide_eq_true_eq] at hc
  have h : c.toNat ≤ 57 := hc.2
  simp only [digitValue, Char.reduceToNat]
  omega

theorem valueOf_lt {s : Text} (hs : IsDigits s) : valueOf s < 10 ^ s.length := by
  induction s with
  | nil => simp
  | cons c s ih =>
    have hc := digitValue_le (hs c List.mem_cons_self)
    have hrest := ih fun d hd => hs d (List.mem_cons_of_mem c hd)
    have hdigit : digitValue c * 10 ^ s.length ≤ 9 * 10 ^ s.length := Nat.mul_le_mul_right _ hc
    rw [valueOf_cons, List.length_cons, Nat.pow_succ]
    omega

theorem valueOf_nines (n : Nat) : valueOf (List.replicate n '9') + 1 = 10 ^ n := by
  induction n with
  | zero => rfl
  | succ n ih =>
    rw [List.replicate_succ, valueOf_cons, List.length_replicate, Nat.pow_succ, Nat.add_assoc, ih]
    simp only [digitValue, Char.reduceToNat]
    omega

/-! ## The next number -/

theorem isDigit_successor {c : Char} (hc : c.isDigit = true) (hnine : c ≠ '9') :
    (successor c).isDigit = true ∧ digitValue (successor c) = digitValue c + 1 := by
  have hfew : ∀ n ∈ List.range' 48 9, (Char.ofNat (n + 1)).isDigit = true ∧
      digitValue (Char.ofNat (n + 1)) = n - 48 + 1 := by decide
  simp only [Char.isDigit, Bool.and_eq_true, decide_eq_true_eq] at hc
  have hlow : 48 ≤ c.toNat := hc.1
  have hhigh : c.toNat ≤ 57 := hc.2
  have hne : c.toNat ≠ 57 := fun h => hnine (Char.ext (UInt32.toNat_inj.mp h))
  exact hfew c.toNat (List.mem_range'_1.mpr ⟨hlow, by omega⟩)

/-- A digit string is all nines, or its last digits are nines behind another digit. -/
theorem nines_or_nines (s : Text) :
    s = List.replicate s.length '9' ∧ increment s = '1' :: List.replicate s.length '0' ∨
      ∃ r c n, c ≠ '9' ∧ s = r ++ c :: List.replicate n '9' ∧
        increment s = r ++ successor c :: List.replicate n '0' := by
  have hsplit := List.takeWhile_append_dropWhile (p := (· == '9')) (l := s.reverse)
  have hnines : s.reverse.takeWhile (· == '9') =
      List.replicate (s.reverse.takeWhile (· == '9')).length '9' :=
    List.eq_replicate_iff.mpr ⟨rfl, fun c hc => by simpa using List.mem_takeWhile_imp hc⟩
  unfold increment
  cases hrest : s.reverse.dropWhile (· == '9') with
  | nil =>
    left
    rw [hrest, List.append_nil] at hsplit
    rw [hsplit, List.length_reverse] at hnines
    exact ⟨List.reverse_inj.mp (hnines.trans (List.reverse_replicate ..).symm), rfl⟩
  | cons c r =>
    right
    refine ⟨r.reverse, c, _, ?_, ?_, rfl⟩
    · have h := List.head_dropWhile_not (· == '9') (l := s.reverse) (by simp [hrest])
      simpa [hrest] using h
    · rw [hrest, hnines] at hsplit
      simpa using (congrArg List.reverse hsplit).symm

/-- `increment` writes the next number. -/
theorem valueOf_increment {s : Text} (hs : IsDigits s) :
    IsDigits (increment s) ∧ valueOf (increment s) = valueOf s + 1 := by
  rcases nines_or_nines s with ⟨hnines, hup⟩ | ⟨r, c, n, hc, hsplit, hup⟩
  · refine ⟨hup ▸ .cons rfl (.zeros _), ?_⟩
    rw [hup, hnines, valueOf_nines]
    simp [valueOf_cons, digitValue]
  · rw [hup]
    rw [hsplit] at hs ⊢
    have hdigit := isDigit_successor (hs c (by simp)) hc
    refine ⟨(hs.of_subset (by simp)).append (.cons hdigit.1 (.zeros n)), ?_⟩
    have hn := valueOf_nines n
    simp only [valueOf_append, valueOf_cons, List.length_cons, List.length_replicate, hdigit.2,
      valueOf_zeros, Nat.add_mul]
    omega

/-- A digit more is needed only where all digits are nines. -/
theorem length_increment (s : Text) :
    (increment s).length = s.length ∨
      increment s = '1' :: List.replicate s.length '0' := by
  rcases nines_or_nines s with ⟨-, hup⟩ | ⟨r, c, n, -, hsplit, hup⟩
  · exact .inr hup
  · left
    rw [hup, hsplit]
    simp

/-! ## Significant digits -/

/-- A power with an integral exponent as a ratio of powers with natural ones. -/
theorem zpow_eq_div {b : ℚ} (hb : b ≠ 0) (e : ℤ) : b ^ e = b ^ e.toNat / b ^ (-e).toNat := by
  rw [← zpow_natCast, ← zpow_natCast, ← zpow_sub₀ hb]
  congr 1
  omega

/-- The number that significant digits stand for. -/
def Parts.worth (p : Parts) : ℚ := valueOf p.digits * 10 ^ (p.exponent - p.digits.length + 1)

theorem Parts.worth_nonneg (p : Parts) : 0 ≤ p.worth := by unfold worth; positivity

theorem Parts.worth_lt {p : Parts} (h : IsDigits p.digits) : p.worth < 10 ^ (p.exponent + 1) := by
  have hvalue : (valueOf p.digits : ℚ) < 10 ^ (p.digits.length : ℤ) := by
    exact_mod_cast valueOf_lt h
  calc p.worth < 10 ^ (p.digits.length : ℤ) * 10 ^ (p.exponent - p.digits.length + 1) := by
        unfold worth
        gcongr
    _ = 10 ^ (p.exponent + 1) := by
        rw [← zpow_add₀ (by norm_num)]
        congr 1
        ring

/-- Zeros in front of the digits raise the exponent and change nothing else. -/
theorem Parts.worth_zeros_append (n : Nat) (s : Text) (e : Int) :
    worth ⟨List.replicate n '0' ++ s, e + n⟩ = worth ⟨s, e⟩ := by
  simp only [worth, valueOf_zeros_append, List.length_append, List.length_replicate, Nat.cast_add]
  congr 2
  ring

/-- Zeros behind the digits change nothing. -/
theorem Parts.worth_append_zeros (s : Text) (n : Nat) (e : Int) :
    worth ⟨s ++ List.replicate n '0', e⟩ = worth ⟨s, e⟩ := by
  simp only [worth, valueOf_append_zeros_mul, List.length_append, List.length_replicate,
    Nat.cast_add]
  congr 2
  ring

theorem exists_zeros_append (s : Text) :
    ∃ n, s = List.replicate n '0' ++ s.dropWhile (· == '0') := by
  refine ⟨(s.takeWhile (· == '0')).length, ?_⟩
  have hzeros : s.takeWhile (· == '0') = List.replicate (s.takeWhile (· == '0')).length '0' :=
    List.eq_replicate_iff.mpr ⟨rfl, fun c hc => by simpa using List.mem_takeWhile_imp hc⟩
  rw [← hzeros, List.takeWhile_append_dropWhile]

theorem exists_append_zeros (s : Text) :
    ∃ n, s = dropTrailingZeros s ++ List.replicate n '0' := by
  obtain ⟨n, hn⟩ := exists_zeros_append s.reverse
  refine ⟨n, ?_⟩
  unfold dropTrailingZeros
  have h := congrArg List.reverse hn
  rwa [List.reverse_reverse, List.reverse_append, List.reverse_replicate] at h

/-- Without the zeros at its ends a digit string stands for the same number. -/
theorem Parts.worth_normal (s : Text) (e : Int) : (normal s e).worth = worth ⟨s, e⟩ := by
  obtain ⟨n, hback⟩ := exists_append_zeros s
  obtain ⟨m, hfront⟩ := exists_zeros_append (dropTrailingZeros s)
  have hworth : worth ⟨s, e⟩ = worth ⟨dropTrailingZeros s, e⟩ := by
    conv_lhs => rw [hback]
    exact worth_append_zeros _ _ _
  unfold normal
  simp only [List.isEmpty_iff]
  rw [hworth]
  split
  · rename_i hzero
    rw [hfront, hzero]
    simp [worth]
  · have hlength := congrArg List.length hfront
    rw [List.length_append, List.length_replicate] at hlength
    conv_rhs => rw [hfront]
    rw [← worth_zeros_append m]
    congr 2
    rw [hlength]
    push_cast
    ring

theorem Parts.isDigits_normal {s : Text} (hs : IsDigits s) (e : Int) :
    IsDigits (normal s e).digits ∧ (normal s e).digits ≠ [] := by
  have hfront : dropTrailingZeros s ⊆ s := by
    unfold dropTrailingZeros
    intro c hc
    exact List.mem_reverse.mp ((List.dropWhile_subset _) (List.mem_reverse.mp hc))
  unfold normal
  simp only [List.isEmpty_iff]
  split
  · decide
  · rename_i hcore
    exact ⟨hs.of_subset (List.Subset.trans (List.dropWhile_subset _) hfront), hcore⟩

end Tilde.Decimal
