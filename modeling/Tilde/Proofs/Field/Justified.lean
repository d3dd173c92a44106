import Mathlib.Data.Int.Order.Basic
import Mathlib.Tactic.Linarith
import Mathlib.Tactic.Ring
import Mathlib.Tactic.SplitIfs
import Tilde.Field.Padded

/-!
# Justified texts

Texts are spread over a field whose width goes up from a least one by steps. Between them are gaps,
and in front of the first and behind the last one if so wanted. The padding is shared out evenly
among the gaps, and what cannot be shared goes to the first ones.

* `laced`: gaps and texts in turn;
* `Justifies`: what a justified text looks like;
* `columns_least`: the width is the least one that is enough;
* **`justified_text`**: `Justification.text` makes a justified text.
-/

namespace Tilde

/-! ## Gaps and texts -/

/-- Gaps and texts in turn, from the first gap to the last one. -/
def laced (c : Char) : List Nat → List Text → Text
  | [], parts => parts.flatten
  | gap :: _, [] => List.replicate gap c
  | gap :: gaps, part :: parts => List.replicate gap c ++ part ++ laced c gaps parts

theorem length_laced (c : Char) {gaps : List Nat} {parts : List Text}
    (h : gaps.length = parts.length + 1) :
    (laced c gaps parts).length = gaps.sum + parts.flatten.length := by
  induction parts generalizing gaps with
  | nil =>
    obtain ⟨gap, rfl⟩ := List.length_eq_one_iff.mp h
    simp [laced]
  | cons part parts ih =>
    obtain ⟨gap, gaps, rfl⟩ := List.exists_cons_of_length_eq_add_one h
    have hrest : (laced c gaps parts).length = _ := ih (by simpa using h)
    simp only [laced, List.length_append, List.length_replicate, hrest, List.sum_cons,
      List.flatten_cons]
    omega

namespace Justification

/-- The text with gaps between the texts, a gap in front of the first one if there is one `before`
it or if it is a single text without a gap `after` it, and a gap behind the last one if there is one
`after` it. The width is the least one that is enough for the texts and the least gaps, the gaps
differ by one at most, and the longer ones come first. -/
structure Justifies (j : Justification) (c : Char) (parts : List Text) (gaps : List Nat)
    (text : Text) : Prop where
  text_eq : text = laced c
    ((if j.before || (parts.length == 1 && !j.after) then [] else [0]) ++ gaps ++
      (if j.after then [] else [0])) parts
  count : gaps.length = (if j.before || (parts.length == 1 && !j.after) then 1 else 0) +
    (parts.length - 1) + (if j.after then 1 else 0)
  width : ∃ n : Nat, (text.length : Int) = j.width + n * j.step
  enough : (parts.flatten.length : Int) + gaps.length * j.least ≤ text.length
  fewest : ∀ n : Nat, (parts.flatten.length : Int) + gaps.length * j.least ≤ j.width + n * j.step →
    text.length ≤ j.width + n * j.step
  least : ∀ gap ∈ gaps, j.least ≤ gap
  fair : gaps.Pairwise fun a b => b ≤ a ∧ a ≤ b + 1

/-! ## The width -/

variable {j : Justification} {c : Char} {parts : List Text}

/-- The width is the least one, going up by steps, that is enough. -/
theorem columns_least (parts : List Text) (hstep : 1 ≤ j.step) :
    (∃ n : Nat, j.columns parts = j.width + n * j.step) ∧
      characters parts + j.slots parts * j.least ≤ j.columns parts ∧
      ∀ n : Nat, characters parts + j.slots parts * j.least ≤ j.width + n * j.step →
        j.columns parts ≤ j.width + n * j.step := by
  unfold columns
  dsimp only
  generalize characters parts + j.slots parts * j.least = needed
  split_ifs with hwide
  · refine ⟨⟨0, by simp⟩, hwide, fun n _ => ?_⟩
    have : 0 ≤ (n : Int) * j.step := Int.mul_nonneg (Int.natCast_nonneg n) (by omega)
    omega
  · obtain ⟨q, hq⟩ : ∃ q, q = (needed - j.width - 1) / j.step := ⟨_, rfl⟩
    rw [← hq]
    have hpos : 0 < j.step := by omega
    have hlow : q * j.step ≤ needed - j.width - 1 := by
      rw [hq]
      exact Int.ediv_mul_le _ hpos.ne'
    have hhigh : needed - j.width - 1 < (q + 1) * j.step := by
      rw [hq]
      exact Int.lt_ediv_add_one_mul_self _ hpos
    have hnonneg : 0 ≤ q := by
      rw [hq]
      exact Int.ediv_nonneg (by omega) (by omega)
    have hsplit : j.step * (1 + q) = (q + 1) * j.step := by ring
    rw [hsplit]
    refine ⟨⟨(q + 1).toNat, ?_⟩, by omega, fun n hn => ?_⟩
    · rw [Int.toNat_of_nonneg (by omega)]
    · -- a width that is enough takes more steps than fit below what is needed
      have hmore : q < n := by
        by_contra hless
        have : (n : Int) * j.step ≤ q * j.step :=
          Int.mul_le_mul_of_nonneg_right (by omega) (by omega)
        omega
      have : (q + 1) * j.step ≤ n * j.step :=
        Int.mul_le_mul_of_nonneg_right (by omega) (by omega)
      omega

/-! ## The gaps -/

/-- How long the `i`-th gap is, given what every gap gets and how many get one more. -/
def gapAt (share extra : Int) (i : Nat) : Nat := share.toNat + if (i : Int) < extra then 1 else 0

theorem slot_eq (hpad : j.pad = [c]) (share extra : Int) (i : Nat) :
    j.slot share extra i = List.replicate (gapAt share extra i) c := by
  unfold slot gapAt
  rw [hpad]
  split_ifs <;> simp [Text.times, ← List.replicate_append_replicate]

/-- The texts from a slot on are laced with the gaps from it on. -/
theorem spread_eq (hpad : j.pad = [c]) (share extra : Int) (i first : Nat) (hne : parts ≠ []) :
    List.replicate first c ++ j.spread share extra i parts =
      laced c (first :: ((List.range' i (parts.length - 1 + if j.after then 1 else 0)).map
        (gapAt share extra) ++ if j.after then [] else [0])) parts := by
  induction parts generalizing i first with
  | nil => exact absurd rfl hne
  | cons part rest ih =>
    cases rest with
    | nil =>
      unfold spread
      rw [slot_eq hpad]
      cases j.after <;> simp [laced]
    | cons next rest =>
      have hrest := ih (i + 1) (gapAt share extra i) (by simp)
      show List.replicate first c ++
        (part ++ j.slot share extra i ++ j.spread share extra (i + 1) (next :: rest)) = _
      rw [slot_eq hpad, List.append_assoc part, hrest]
      have hcount : (part :: next :: rest).length - 1 = (next :: rest).length - 1 + 1 := by simp
      rw [hcount, Nat.add_right_comm, List.range'_succ]
      simp [laced]

/-- What the gaps add up to. -/
theorem sum_gaps {extra : Int} (hextra : 0 ≤ extra) (share : Int) {n : Nat} (hn : extra ≤ n) :
    ((List.range' 0 n).map (gapAt share extra)).sum = n * share.toNat + extra.toNat := by
  have hcount : ∀ n : Nat, ((List.range' 0 n).map (gapAt share extra)).sum =
      n * share.toNat + min n extra.toNat := fun n => by
    induction n with
    | zero => simp
    | succ n ih =>
      rw [List.range'_concat, List.map_append, List.sum_append, ih]
      simp only [gapAt, List.map_cons, List.map_nil, List.sum_singleton, Nat.zero_add, Nat.one_mul,
        Nat.add_mul]
      split_ifs <;> omega
  rw [hcount]
  omega

/-- The gaps differ by one at most, and the longer ones come first. -/
theorem fair_gaps (share extra : Int) (n : Nat) :
    ((List.range' 0 n).map (gapAt share extra)).Pairwise fun a b => b ≤ a ∧ a ≤ b + 1 := by
  rw [List.pairwise_map]
  refine (List.pairwise_lt_range' 1).imp fun {a b} h => ?_
  unfold gapAt
  split_ifs <;> omega

/-! ## The text -/

/-- How many gaps there are. -/
def gapCount (j : Justification) (parts : List Text) : Nat :=
  (if j.padsBefore parts then 1 else 0) + (parts.length - 1 + if j.after then 1 else 0)

theorem slots_eq (hne : parts ≠ []) : j.slots parts = j.gapCount parts := by
  have hpos := List.length_pos_iff.mpr hne
  unfold slots gapCount padsBefore
  cases j.before <;> cases j.after <;> simp <;> omega

/-- What the gaps share is a multiple of the least gap and more. -/
theorem share_extra (hne : parts ≠ []) (hstep : 1 ≤ j.step) :
    j.least ≤ j.share parts ∧ 0 ≤ j.extra parts ∧ j.extra parts < j.gapCount parts ∧
      j.gapCount parts * j.share parts + j.extra parts = j.columns parts - characters parts := by
  have hslots := slots_eq (j := j) hne
  have hpos : 0 < j.slots parts := by
    unfold slots
    omega
  obtain ⟨-, henough, -⟩ := columns_least parts hstep
  obtain ⟨total, htotal⟩ : ∃ t, t = j.columns parts - characters parts := ⟨_, rfl⟩
  have hleast' : j.least ≤ total / j.slots parts := by
    rw [Int.le_ediv_iff_mul_le hpos, mul_comm]
    omega
  have hshare : j.share parts = total / j.slots parts := by
    unfold share
    rw [← htotal, max_eq_right hleast']
  have hextra : j.extra parts = total % j.slots parts := by
    unfold extra
    rw [← htotal, hshare, Int.emod_def, mul_comm]
  have hdivide := Int.mul_ediv_add_emod total (j.slots parts)
  rw [← hslots, hshare, hextra, ← htotal]
  exact ⟨hleast', Int.emod_nonneg _ hpos.ne', Int.emod_lt_of_pos _ hpos, hdivide⟩

/-- The gaps of the justified texts. -/
def gaps (j : Justification) (parts : List Text) : List Nat :=
  (List.range' 0 (j.gapCount parts)).map (gapAt (j.share parts) (j.extra parts))

theorem length_gaps : (j.gaps parts).length = j.gapCount parts := by simp [gaps]

/-- The justified texts are the texts laced with the gaps. -/
theorem text_eq (hpad : j.pad = [c]) (hne : parts ≠ []) :
    j.text parts = laced c ((if j.padsBefore parts then [] else [0]) ++ j.gaps parts ++
      if j.after then [] else [0]) parts := by
  unfold text gaps gapCount
  rw [if_neg (by simpa using hne)]
  cases j.padsBefore parts with
  | false =>
    have h := spread_eq hpad (j.share parts) (j.extra parts) 0 0 hne
    simpa using h
  | true =>
    rw [if_pos rfl, slot_eq hpad, spread_eq hpad _ _ 1 _ hne]
    simp [Nat.add_comm 1, List.range'_succ]

/-- The justified texts fill the field. -/
theorem length_text (hpad : j.pad = [c]) (hne : parts ≠ []) (hleast : 0 ≤ j.least)
    (hstep : 1 ≤ j.step) : ((j.text parts).length : Int) = j.columns parts := by
  obtain ⟨hshare, hextra, hfew, htotal⟩ := share_extra hne hstep
  have hsum : (j.gaps parts).sum = j.gapCount parts * (j.share parts).toNat +
    (j.extra parts).toNat := sum_gaps hextra (j.share parts) hfew.le
  have hlaced : (j.text parts).length = (j.gaps parts).sum + parts.flatten.length := by
    rw [text_eq hpad hne, length_laced]
    · cases j.padsBefore parts <;> cases j.after <;> simp
    · have hpos := List.length_pos_iff.mpr hne
      simp only [List.length_append, length_gaps, gapCount]
      cases j.padsBefore parts <;> cases j.after <;> simp <;> omega
  have hnonneg : ((j.share parts).toNat : Int) = j.share parts := Int.toNat_of_nonneg (by omega)
  rw [hlaced, hsum]
  push_cast
  rw [hnonneg, Int.toNat_of_nonneg hextra, htotal]
  unfold characters
  omega

/-- **Justified texts** are spread over the field, with the padding shared out fairly. -/
theorem justified_text (hpad : j.pad = [c]) (hne : parts ≠ []) (hleast : 0 ≤ j.least)
    (hstep : 1 ≤ j.step) : j.Justifies c parts (j.gaps parts) (j.text parts) := by
  obtain ⟨hshare, -, -, -⟩ := share_extra hne hstep
  obtain ⟨hwidth, henough, hfewest⟩ := columns_least parts hstep
  have hlength := length_text hpad hne hleast hstep
  rw [slots_eq hne, ← length_gaps] at henough hfewest
  refine ⟨text_eq hpad hne, ?_, hlength ▸ hwidth, hlength ▸ henough, hlength ▸ hfewest,
    fun gap hgap => ?_, fair_gaps _ _ _⟩
  · rw [length_gaps, gapCount, padsBefore, Nat.add_assoc]
  · obtain ⟨i, -, rfl⟩ := List.mem_map.mp hgap
    unfold gapAt
    omega

end Justification

end Tilde
