import Mathlib.Tactic.SplitIfs
import Tilde.Print
import Tilde.Proofs.Print.Line

/-!
# Numerals are solid

**`solid_integerText`**: the text of an integer has no white space, in any radix.
`Decimal.solid_floatText`: nor has that of a binary number.
`integerText_eq`: in base ten, without a radix prefix, it is the plain numeral.
-/

namespace Tilde

namespace Radix

theorem isBlank_digitChar (d : Nat) : Text.isBlank d.digitChar = false := by
  have h : ∀ d < 16, Text.isBlank (Nat.digitChar d) = false := by decide
  rcases Nat.lt_or_ge d 16 with hd | hd
  · exact h d hd
  · rw [Nat.digitChar_eq_star.mpr hd]
    rfl

theorem isBlank_toUpper_digitChar (d : Nat) : Text.isBlank d.digitChar.toUpper = false := by
  have h : ∀ d < 16, Text.isBlank (Nat.digitChar d).toUpper = false := by decide
  rcases Nat.lt_or_ge d 16 with hd | hd
  · exact h d hd
  · rw [Nat.digitChar_eq_star.mpr hd]
    decide

theorem exists_of_mem_toDigits {b n : Nat} (hb : 1 < b) {c : Char} (hc : c ∈ Nat.toDigits b n) :
    ∃ d : Nat, c = d.digitChar := by
  induction n using Nat.strongRecOn with
  | ind n ih =>
    rw [Nat.toDigits_eq_if hb] at hc
    split_ifs at hc with hn
    · exact ⟨n, List.mem_singleton.mp hc⟩
    · rcases List.mem_append.mp hc with hc | hc
      · exact ih (n / b) (Nat.div_lt_self (by omega) hb) hc
      · exact ⟨n % b, List.mem_singleton.mp hc⟩

theorem isBlank_radix_digitChar (d : Nat) : Text.isBlank (digitChar d) = false := by
  have h : Solid (digitChars ++ ['?']) := by decide
  refine h _ ?_
  rw [digitChar, List.getD_eq_getElem?_getD]
  cases hd : digitChars[d]? with
  | none => simp
  | some c => exact List.mem_append_left _ (List.mem_of_getElem? hd)

theorem solid_significantDigits (base n : Nat) : Solid (significantDigits base n) := by
  induction n using Nat.strongRecOn with
  | ind n ih =>
    unfold significantDigits
    split_ifs with h
    · refine (ih _ (Nat.div_lt_self h.2 h.1)).append fun c hc => ?_
      rw [List.mem_singleton.mp hc]
      exact isBlank_radix_digitChar _
    · exact fun c hc => absurd hc (List.not_mem_nil)

theorem solid_magnitude (base n : Nat) : Solid (magnitude base n) := by
  unfold magnitude digits
  split_ifs with h10 h16
  · intro c hc
    have hbase : 1 < base := by omega
    obtain ⟨d, rfl⟩ := exists_of_mem_toDigits hbase hc
    exact isBlank_digitChar d
  · intro c hc
    obtain ⟨c, hdigit, rfl⟩ := List.mem_map.mp hc
    obtain ⟨d, rfl⟩ := exists_of_mem_toDigits (b := 16) (by decide) hdigit
    exact isBlank_toUpper_digitChar d
  · decide
  · exact solid_significantDigits base n

theorem solid_sign (n : Int) : Solid (sign n) := by
  unfold sign
  split_ifs <;> decide

theorem solid_numeral (n : Int) (base : Nat) : Solid (numeral n base) :=
  (solid_sign n).append (solid_magnitude base _)

end Radix

theorem solid_radixMark (base : Int) : Solid (radixMark base) := by
  unfold radixMark
  split_ifs
  iterate 4 decide
  have h : ['#'] ++ Radix.decimal base ++ ['r'] = '#' :: Radix.decimal base ++ ['r'] := rfl
  rw [← h]
  exact (Solid.append (by decide) (Radix.solid_numeral _ _)).append (by decide)

/-- The text of an integer has no white space. -/
theorem solid_integerText {n : Int} {o : Options} {s : Text} (h : integerText n o = .ok s) :
    Solid s := by
  unfold integerText at h
  cases hs : Radix.numeral? n.natAbs o.base with
  | none =>
    rw [hs] at h
    cases h
  | some s' =>
    rw [hs] at h
    obtain rfl := Except.ok.inj h
    have hs' : Solid s' := by
      unfold Radix.numeral? at hs
      split_ifs at hs
      obtain rfl := Option.some.inj hs
      exact Radix.solid_numeral _ _
    refine ((Radix.solid_sign n).append ?_).append hs'
    split_ifs
    · exact solid_radixMark _
    · decide

/-- In radix ten, without a mark, an integer is printed as its written form. -/
theorem integerText_eq {o : Options} (hbase : o.base = 10) (hplain : o.showRadix = false) (n : Int) :
    integerText n o = .ok (Radix.decimal n) := by
  have hsign : Radix.sign (n.natAbs : Int) = [] := if_neg (by omega)
  have hnumeral : Radix.numeral? n.natAbs 10 = some (Radix.magnitude 10 n.natAbs) := by
    unfold Radix.numeral?
    rw [if_pos (by decide), Radix.numeral, hsign, Int.natAbs_natCast]
    rfl
  unfold integerText
  rw [hbase, hplain, hnumeral]
  exact congrArg (Except.ok <| · ++ _) (List.append_nil _)

/-! ## Binary numbers -/

namespace Decimal

theorem solid_digits (n : Nat) : Solid (Radix.magnitude 10 n) := Radix.solid_magnitude 10 n

theorem solid_exponentText (n : Int) : Solid (exponentText n) := by
  refine Solid.append (s := [if n < 0 then '-' else '+']) ?_ ?_
  · split_ifs <;> decide
  · refine Solid.append (fun c hc => ?_) (solid_digits _)
    rw [List.eq_of_mem_replicate hc]
    rfl

/-- The text of a binary number has no white space. -/
theorem solid_floatText {whole : Text} (hwhole : Solid whole) (x : Binary64) :
    Solid (floatText whole x) := by
  have hsign (negative : Bool) : Solid (if negative then ['-'] else []) := by
    split_ifs <;> decide
  have hzeros (n : Nat) : Solid (List.replicate n '0') := fun c hc => by
    rw [List.eq_of_mem_replicate hc]
    rfl
  have hpoint {s : Text} (hs : Solid s) : Solid ('.' :: s) :=
    Solid.append (s := ['.']) (by decide) hs
  have hpart {s t : Text} (ht : Solid t) (hst : s ⊆ t) : Solid s := fun c hc => ht c (hst hc)
  cases x with
  | nan => simp only [floatText]; decide
  | infinite negative =>
    simp only [floatText]
    exact (hsign negative).append (by decide)
  | finite negative m e =>
    simp only [floatText]
    have hds := solid_digits (shortest m e).1
    refine (hsign negative).append ?_
    split_ifs
    · exact Solid.append (s := ['0']) (by decide) (hpoint ((hzeros _).append hds))
    · exact (hds.append (hzeros _)).append hwhole
    · exact (hpart hds (List.take_subset _ _)).append (hpoint (hpart hds (List.drop_subset _ _)))
    all_goals refine Solid.append ?_ (Solid.append (s := ['e']) (by decide) (solid_exponentText _))
    · rw [List.append_nil]
      exact hpart hds (List.take_subset _ _)
    · exact (hpart hds (List.take_subset _ _)).append (hpoint (hpart hds (List.drop_subset _ _)))

theorem floatText_ne_nil {whole : Text} (hwhole : whole ≠ []) (x : Binary64) :
    floatText whole x ≠ [] := by
  cases x with
  | nan => simp [floatText]
  | infinite negative => simp [floatText]
  | finite negative m e =>
    simp only [floatText]
    split_ifs <;> simp [hwhole]

end Decimal

end Tilde
