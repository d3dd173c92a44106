import Mathlib.Algebra.Order.Ring.Nat
import Mathlib.Tactic.SplitIfs
import Tilde.English

/-!
# How names are put together

Names are put together from the highest part of a number to the lowest: so many hundreds, a multiple
of ten, a number below twenty, and all of that for each group of three digits, with the power of a
thousand that the group counts. A part that is zero is not mentioned. Cardinal and ordinal agree in
everything but the last word.

* `tens`: what a multiple of ten is called;
* `raising`: what a power without a name of its own is called, given its exponent;
* `Spelling`: the names of a number, cardinal and ordinal;
* **`spelling_spell`**: numbers have such names.
-/

namespace Tilde.English

variable {n v : ℕ}

/-- What a multiple of ten is called. -/
def tens (asOrdinal : Bool) (i : ℕ) : Text :=
  entry stems i ++ if asOrdinal then "ieth".toList else ['y']

/-- What a power of ten is called that has no name of its own, given the name of its exponent. -/
def raising (exponent : Text) : Text :=
  "times ten to the".toList ++ ' ' :: (exponent ++ ' ' :: "power plus".toList)

/-- The names of a number: `false` gives the cardinal, `true` the ordinal. Nothing but zeros follows in
the first five cases; in the others the lower part of the number follows. -/
inductive Spelling : ℕ → (Bool → Text) → Prop
  | small {n : ℕ} (hn : n < 20) : Spelling n fun asOrdinal => small asOrdinal n
  | tens {i : ℕ} (hi : 2 ≤ i) (hi' : i < 10) : Spelling (10 * i) fun asOrdinal => tens asOrdinal i
  | hundred {q : ℕ} (hq : 0 < q) (hq' : q < 10) :
      Spelling (q * 100) fun asOrdinal =>
        English.small false q ++ ' ' :: ("hundred".toList ++ ending asOrdinal)
  | power {q v : ℕ} {front : Bool → Text} (hq : 0 < q) (hq' : q < 1000) (hfront : Spelling q front)
      (hv : 0 < v) (hv' : v < powers.length) :
      Spelling (q * 1000 ^ v) fun asOrdinal => front false ++ ' ' :: (entry powers v ++ ending asOrdinal)
  | raised {q v : ℕ} {front exponent : Bool → Text} (hq : 0 < q) (hq' : q < 1000)
      (hfront : Spelling q front) (hv : powers.length ≤ v) (hexponent : Spelling (3 * v) exponent) :
      Spelling (q * 1000 ^ v) fun asOrdinal =>
        front false ++ ' ' :: (raising (exponent true) ++ ending asOrdinal)
  | behindTens {i d : ℕ} (hi : 2 ≤ i) (hi' : i < 10) (hd : 0 < d) (hd' : d < 10) :
      Spelling (10 * i + d) fun asOrdinal => English.tens false i ++ '-' :: English.small asOrdinal d
  | behindHundred {q r : ℕ} {name : Bool → Text} (hq : 0 < q) (hq' : q < 10) (hr : 0 < r)
      (hr' : r < 100) (h : Spelling r name) :
      Spelling (q * 100 + r) fun asOrdinal =>
        English.small false q ++ ' ' :: ("hundred".toList ++ ' ' :: name asOrdinal)
  | behindPower {q v r : ℕ} {front name : Bool → Text} (hq : 0 < q) (hq' : q < 1000)
      (hfront : Spelling q front) (hv : v < powers.length) (hr : 0 < r) (hr' : r < 1000 ^ v)
      (h : Spelling r name) :
      Spelling (q * 1000 ^ v + r) fun asOrdinal =>
        front false ++ ' ' ::
          (entry powers v ++ ((if 100 ≤ r then [','] else []) ++ ' ' :: name asOrdinal))
  | behindRaised {q v r : ℕ} {front exponent name : Bool → Text} (hq : 0 < q) (hq' : q < 1000)
      (hfront : Spelling q front) (hv : powers.length ≤ v) (hexponent : Spelling (3 * v) exponent)
      (hr : 0 < r) (hr' : r < 1000 ^ v) (h : Spelling r name) :
      Spelling (q * 1000 ^ v + r) fun asOrdinal =>
        front false ++ ' ' :: (raising (exponent true) ++ ' ' :: name asOrdinal)

theorem Spelling.congr {name name' : Bool → Text} (h : Spelling n name)
    (hname : ∀ asOrdinal, name' asOrdinal = name asOrdinal) : Spelling n name' :=
  (funext hname : name' = name) ▸ h

/-- Cardinals have no ending. -/
theorem append_ending_false (s : Text) : s ++ ending false = s := List.append_nil s

theorem sign_eq (n : ℤ) : sign n = if n < 0 then "negative".toList ++ [' '] else [] := by
  unfold sign
  split_ifs
  · decide
  · rfl

/-! ## Below a thousand -/

theorem spelling_belowHundred (hn : n < 100) : Spelling n fun asOrdinal => belowHundred asOrdinal n := by
  rcases Nat.lt_or_ge n 20 with hsmall | hlarge
  · exact (Spelling.small hsmall).congr fun asOrdinal => by rw [belowHundred, if_pos hsmall]
  have hi : 2 ≤ n / 10 := by omega
  have hi' : n / 10 < 10 := by omega
  by_cases hones : n % 10 = 0
  · have h := Spelling.tens hi hi'
    rw [show 10 * (n / 10) = n by omega] at h
    refine h.congr fun asOrdinal => ?_
    rw [belowHundred, if_neg (by omega), if_pos hones]
    rfl
  · have h := Spelling.behindTens hi hi' (Nat.pos_of_ne_zero hones) (by omega)
    rw [show 10 * (n / 10) + n % 10 = n by omega] at h
    refine h.congr fun asOrdinal => ?_
    rw [belowHundred, if_neg (by omega), if_neg hones]
    exact (List.append_assoc _ ['y'] _).symm

theorem spelling_belowThousand (hn : n < 1000) :
    Spelling n fun asOrdinal => belowThousand asOrdinal n := by
  rcases Nat.lt_or_ge n 100 with hsmall | hlarge
  · exact (spelling_belowHundred hsmall).congr fun asOrdinal => by
      rw [belowThousand, if_pos hsmall]
  have hq : 0 < n / 100 := by omega
  have hq' : n / 100 < 10 := by omega
  have hhundreds : belowHundred false (n / 100) ++ " hundred".toList =
      small false (n / 100) ++ ' ' :: "hundred".toList := by
    have hblank : " hundred".toList = ' ' :: "hundred".toList := by decide
    rw [belowHundred, if_pos (by omega), hblank]
  by_cases hrest : n % 100 = 0
  · have h := Spelling.hundred hq hq'
    rw [show n / 100 * 100 = n by omega] at h
    refine h.congr fun asOrdinal => ?_
    rw [belowThousand, if_neg (by omega), if_pos hrest, hhundreds, List.append_assoc, List.cons_append]
  · have h := Spelling.behindHundred hq hq' (Nat.pos_of_ne_zero hrest) (by omega)
      (spelling_belowHundred (n := n % 100) (by omega))
    rw [show n / 100 * 100 + n % 100 = n by omega] at h
    refine h.congr fun asOrdinal => ?_
    rw [belowThousand, if_neg (by omega), if_neg hrest, hhundreds, List.append_assoc, List.cons_append]

/-! ## Groups -/

theorem lt_pow_topGroup (n : ℕ) : n < 1000 ^ (topGroup n + 1) := by
  fun_induction topGroup n with
  | case1 n hn => simpa using hn
  | case2 n hn ih =>
    rw [pow_succ]
    omega

theorem spellGroups_zero (asOrdinal : Bool) (v : ℕ) : spellGroups asOrdinal 0 v = [] := by
  induction v with
  | zero => simp [spellGroups]
  | succ v ih => simp [spellGroups, ih]

theorem spellGroups_last (asOrdinal : Bool) (hn : 0 < n) (hn' : n < 1000) :
    spellGroups asOrdinal n 0 = belowThousand asOrdinal n := by
  have hgroup : ¬n = 0 := by omega
  simp [spellGroups, hgroup, hn', powers, Nat.mod_one]

/-- A group of zeros is not mentioned. -/
theorem spellGroups_of_lt (asOrdinal : Bool) (hn : n < 1000 ^ (v + 1)) :
    spellGroups asOrdinal n (v + 1) = spellGroups asOrdinal n v := by
  rw [spellGroups]
  simp only [Nat.pow_eq, Nat.div_eq_of_lt hn, Nat.mod_eq_of_lt hn, dite_true, List.nil_append]

/-- The first group that is not zero, with its power, and what follows. -/
theorem spellGroups_of_le (asOrdinal : Bool) (hn : 1000 ^ (v + 1) ≤ n) :
    spellGroups asOrdinal n (v + 1) =
      belowThousand false (n / 1000 ^ (v + 1)) ++ ' ' ::
        ((if v + 1 < powers.length then entry powers (v + 1) else raising (spell true (3 * (v + 1)))) ++
          if n % 1000 ^ (v + 1) = 0 then ending asOrdinal
          else (if 100 ≤ n % 1000 ^ (v + 1) ∧ v + 1 < powers.length then [','] else []) ++
            ' ' :: spellGroups asOrdinal (n % 1000 ^ (v + 1)) v) := by
  have hgroup : ¬n / 1000 ^ (v + 1) = 0 := (Nat.div_pos hn (Nat.pow_pos (by decide))).ne'
  have hlarge : ¬n < 1000 := by
    have hpos : 0 < 1000 ^ v := Nat.pow_pos (by decide)
    rw [pow_succ] at hn
    omega
  have hpower : (if v + 1 < powers.length then ' ' :: entry powers (v + 1)
      else " times ten to the ".toList ++ spell true (3 * (v + 1)) ++ " power plus".toList) =
      ' ' :: if v + 1 < powers.length then entry powers (v + 1)
        else raising (spell true (3 * (v + 1))) := by
    have hfront : " times ten to the ".toList = ' ' :: ("times ten to the".toList ++ [' ']) := by decide
    have hback : " power plus".toList = ' ' :: "power plus".toList := by decide
    unfold raising
    split_ifs
    · rfl
    · simp [hfront, hback]
  rw [spellGroups]
  simp only [Nat.pow_eq, Nat.succ_eq_add_one, Nat.add_one_ne_zero, if_false, dif_neg hgroup, hlarge,
    decide_false, Bool.and_false, hpower]
  by_cases hrest : n % 1000 ^ (v + 1) = 0
  · rw [if_pos hrest, if_pos hrest, hrest, spellGroups_zero]
    simp
  · rw [if_neg hrest, if_neg hrest]
    simp

/-- The groups of a number, if the smaller numbers have their names: exponents are among them. -/
theorem spelling_spellGroups (hn : 0 < n) (hn' : n < 1000 ^ (v + 1))
    (hsmaller : ∀ m < n, Spelling m fun asOrdinal => spell asOrdinal m) :
    Spelling n fun asOrdinal => spellGroups asOrdinal n v := by
  induction v generalizing n with
  | zero =>
    rw [Nat.zero_add, pow_one] at hn'
    exact (spelling_belowThousand hn').congr fun asOrdinal => spellGroups_last asOrdinal hn hn'
  | succ v ih =>
    rcases Nat.lt_or_ge n (1000 ^ (v + 1)) with hlt | hge
    · exact (ih hn hlt hsmaller).congr fun asOrdinal => spellGroups_of_lt asOrdinal hlt
    have hpos : 0 < 1000 ^ (v + 1) := Nat.pow_pos (by decide)
    have hq : 0 < n / 1000 ^ (v + 1) := Nat.div_pos hge hpos
    have hq' : n / 1000 ^ (v + 1) < 1000 := by
      rw [Nat.div_lt_iff_lt_mul hpos, ← pow_succ']
      exact hn'
    have hsum : n / 1000 ^ (v + 1) * 1000 ^ (v + 1) + n % 1000 ^ (v + 1) = n := Nat.div_add_mod' n _
    have hfront := spelling_belowThousand hq'
    have hexponent := hsmaller (3 * (v + 1)) (Nat.lt_of_lt_of_le (three_mul_lt_pow (v + 1)) hge)
    have hname := fun asOrdinal => spellGroups_of_le asOrdinal hge
    by_cases hrest : n % 1000 ^ (v + 1) = 0
    · rw [hrest, Nat.add_zero] at hsum
      by_cases hv : v + 1 < powers.length
      · refine (hsum ▸ Spelling.power hq hq' hfront (Nat.succ_pos v) hv).congr fun asOrdinal => ?_
        rw [hname, if_pos hv, if_pos hrest]
      · refine (hsum ▸ Spelling.raised hq hq' hfront (Nat.not_lt.mp hv) hexponent).congr
          fun asOrdinal => ?_
        rw [hname, if_neg hv, if_pos hrest]
    · have hr : 0 < n % 1000 ^ (v + 1) := Nat.pos_of_ne_zero hrest
      have hr' : n % 1000 ^ (v + 1) < 1000 ^ (v + 1) := Nat.mod_lt n hpos
      have h := ih hr hr' fun m hm => hsmaller m (by omega)
      by_cases hv : v + 1 < powers.length
      · refine (hsum ▸ Spelling.behindPower hq hq' hfront hv hr hr' h).congr fun asOrdinal => ?_
        rw [hname, if_pos hv, if_neg hrest]
        simp only [hv, and_true]
      · refine (hsum ▸ Spelling.behindRaised hq hq' hfront (Nat.not_lt.mp hv) hexponent hr hr' h).congr
          fun asOrdinal => ?_
        rw [hname, if_neg hv, if_neg hrest, if_neg fun h => hv h.2]
        rfl

/-- **Every number has its names**, and they are put together in this way. -/
theorem spelling_spell (n : ℕ) : Spelling n fun asOrdinal => spell asOrdinal n := by
  induction n using Nat.strongRecOn with
  | ind n ih =>
    rcases Nat.lt_or_ge n 1000 with hn | hn
    · exact (spelling_belowThousand hn).congr fun asOrdinal => by rw [spell, if_pos hn]
    · refine (spelling_spellGroups (by omega) (lt_pow_topGroup n) ih).congr fun asOrdinal => ?_
      rw [spell, if_neg (by omega)]

end Tilde.English
