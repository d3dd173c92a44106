import Mathlib.Tactic.SplitIfs
import Tilde.Radix

/-!
# Digits in a radix

There is one notation for all radices: where core has a conversion of its own, it gives the digits
that division gives. A number has no zeros in front of its digits, and zero is a single one.

* **`magnitude_eq_digits`**: the digits of a number are those that division gives;
* `exists_of_mem_digits`, `head_digits`: what they consist of, and what they begin with;
* **`withoutZeros_zeros_append`**: zeros in front of the digits can be taken away again.
-/

namespace Tilde

theorem Text.dropWhile_replicate_append {c : Char} {s : Text} (hs : ∀ d ∈ s.head?, d ≠ c)
    (n : Nat) : (List.replicate n c ++ s).dropWhile (· == c) = s := by
  rw [List.dropWhile_append_of_pos (by simp)]
  cases s with
  | nil => rfl
  | cons d s => simp [hs d rfl]

namespace Radix

variable {base n : Nat}

/-! ## Division -/

theorem significantDigits_zero (base : Nat) : significantDigits base 0 = [] := by
  rw [significantDigits, dif_neg (by omega)]

theorem significantDigits_pos (hbase : 2 ≤ base) (hn : 0 < n) :
    significantDigits base n = significantDigits base (n / base) ++ [digitChar (n % base)] := by
  rw [significantDigits, dif_pos ⟨hbase, hn⟩]

/-- Core's conversion divides, too; only its digits may be other ones. -/
theorem map_toDigits (f : Char → Char) (hbase : 2 ≤ base)
    (hf : ∀ d < base, f (Nat.digitChar d) = digitChar d) (hn : 0 < n) :
    (Nat.toDigits base n).map f = significantDigits base n := by
  induction n using Nat.strongRecOn with
  | ind n ih =>
    rw [Nat.toDigits_eq_if hbase, significantDigits_pos hbase hn]
    split_ifs with hsmall
    · rw [Nat.div_eq_of_lt hsmall, Nat.mod_eq_of_lt hsmall, significantDigits_zero]
      simp [hf n hsmall]
    · have hquotient : 0 < n / base := Nat.div_pos (by omega) (by omega)
      rw [List.map_append, ih _ (Nat.div_lt_self hn hbase) hquotient]
      simp [hf _ (Nat.mod_lt n (by omega))]

/-- Core's digits below ten are those of all radices, and so are the ones above in upper case. -/
theorem digitChar_eq : (∀ d < 10, Nat.digitChar d = digitChar d) ∧
    ∀ d < 16, (Nat.digitChar d).toUpper = digitChar d := by decide

/-- The digits of a number are those that division gives. -/
theorem magnitude_eq_digits (base n : Nat) : magnitude base n = digits base n := by
  unfold magnitude
  split_ifs with hsmall hhex
  · have hbase : 2 ≤ base ∧ base ≤ 10 := by omega
    unfold digits
    split_ifs with hn
    · rw [hn, Nat.toDigits_zero]
    · have h := map_toDigits id hbase.1 (fun d hd => digitChar_eq.1 d (by omega))
        (Nat.pos_of_ne_zero hn)
      rwa [List.map_id] at h
  · unfold digits
    split_ifs with hn
    · rw [hn, Nat.toDigits_zero]
      rfl
    · rw [hhex]
      exact map_toDigits Char.toUpper (by omega) digitChar_eq.2 (Nat.pos_of_ne_zero hn)
  · rfl

/-! ## What the digits are -/

theorem exists_of_mem_significantDigits {c : Char} (hc : c ∈ significantDigits base n) :
    ∃ d < base, c = digitChar d := by
  induction n using Nat.strongRecOn with
  | ind n ih =>
    unfold significantDigits at hc
    split_ifs at hc with h
    · rcases List.mem_append.mp hc with hc | hc
      · exact ih _ (Nat.div_lt_self h.2 h.1) hc
      · exact ⟨n % base, Nat.mod_lt n (by omega), List.mem_singleton.mp hc⟩
    · exact absurd hc List.not_mem_nil

theorem exists_of_mem_digits {c : Char} (hbase : 0 < base) (hc : c ∈ digits base n) :
    ∃ d < base, c = digitChar d := by
  unfold digits at hc
  split_ifs at hc
  · exact ⟨0, hbase, List.mem_singleton.mp hc⟩
  · exact exists_of_mem_significantDigits hc

theorem digitChar_mem {d : Nat} (hd : d < 36) : digitChar d ∈ digitChars := by
  have h : ∀ d < 36, digitChar d ∈ digitChars := by decide
  exact h d hd

theorem significantDigits_ne_nil (hbase : 2 ≤ base) (hn : 0 < n) :
    significantDigits base n ≠ [] := by
  rw [significantDigits_pos hbase hn]
  simp

theorem digits_ne_nil (hbase : 2 ≤ base) (n : Nat) : digits base n ≠ [] := by
  unfold digits
  split_ifs with hn
  · simp
  · exact significantDigits_ne_nil hbase (Nat.pos_of_ne_zero hn)

/-- The first digit of a number is no zero. -/
theorem head_significantDigits (hbase : 2 ≤ base ∧ base ≤ 36) (n : Nat) :
    ∀ c ∈ (significantDigits base n).head?, c ≠ '0' := by
  have hdigit : ∀ d < 36, d ≠ 0 → digitChar d ≠ '0' := by decide
  induction n using Nat.strongRecOn with
  | ind n ih =>
    rcases Nat.eq_zero_or_pos n with rfl | hn
    · simp [significantDigits_zero]
    rw [significantDigits_pos hbase.1 hn]
    rcases Nat.lt_or_ge n base with hsmall | hlarge
    · rw [Nat.div_eq_of_lt hsmall, Nat.mod_eq_of_lt hsmall, significantDigits_zero]
      simpa using hdigit n (by omega) (Nat.ne_of_gt hn)
    · have hquotient : 0 < n / base := Nat.div_pos hlarge (by omega)
      obtain ⟨c, rest, hdigits⟩ :=
        List.exists_cons_of_ne_nil (significantDigits_ne_nil hbase.1 hquotient)
      have hfirst := ih _ (Nat.div_lt_self hn hbase.1)
      rw [hdigits] at hfirst ⊢
      exact hfirst

/-! ## Zeros in front -/

/-- Digits without the zeros in front of them, but with a single zero for zero. -/
def withoutZeros (s : Text) : Text :=
  match s.dropWhile (· == '0') with
  | [] => ['0']
  | c :: rest => c :: rest

/-- Zeros in front of the digits of a number can be taken away again. -/
theorem withoutZeros_zeros_append (hbase : 2 ≤ base ∧ base ≤ 36) (zeros n : Nat) :
    withoutZeros (List.replicate zeros '0' ++ digits base n) = digits base n := by
  unfold withoutZeros digits
  split_ifs with hn
  · have hall : (List.replicate zeros '0' ++ ['0']).dropWhile (· == '0') = [] :=
      by rw [List.dropWhile_append_of_pos (by simp)]; rfl
    rw [hall]
  · rw [Text.dropWhile_replicate_append (head_significantDigits hbase n)]
    have hsome := significantDigits_ne_nil hbase.1 (Nat.pos_of_ne_zero hn)
    split
    · rename_i hnone
      exact absurd hnone hsome
    · rename_i c rest hdigits
      exact hdigits.symm

end Radix

end Tilde
