import Mathlib.Data.List.DropRight
import Tilde.Proofs.English.Reading

/-!
# Ordinals

An ordinal should be the cardinal with another last word. It is, unless the number ends in a power that
has no name: then the last word is the `plus` behind the exponent, which waits for a lower part that does
not come, and the ending gets there.

* `IsOrdinalOf`: words of cardinals, and what becomes of them in ordinals;
* `finalWord`, `beforeFinalWord`: a text in two parts;
* `FollowsCardinal`: the ordinal is the cardinal with another last word;
* `Spelling.agree`: how the two names of a number end;
* **`followsCardinal_iff`**: the numbers whose ordinals follow their cardinals.
-/

namespace Tilde.English

variable {n m v : ℕ} {s t w w' front : Text} {c : Char}

/-! ## Last words -/

/-- The first word can end a cardinal, and the second takes its place in the ordinal. -/
inductive IsOrdinalOf : Text → Text → Prop
  | small {n : ℕ} (hn : n < 20) : IsOrdinalOf (entry cardinals n) (entry ordinals n)
  | tens {i : ℕ} (hi : 2 ≤ i) (hi' : i < 10) :
      IsOrdinalOf (entry stems i ++ "y".toList) (entry stems i ++ "ieth".toList)
  | hundred : IsOrdinalOf "hundred".toList "hundredth".toList
  | power {v : ℕ} (hv : 0 < v) (hv' : v < powers.length) :
      IsOrdinalOf (entry powers v) (entry powers v ++ "th".toList)

theorem IsOrdinalOf.isWord (h : IsOrdinalOf w w') : IsWord w ∧ IsWord w' := by
  cases h with
  | small hn => exact ⟨isWord_small false _ hn, isWord_small true _ hn⟩
  | tens hi hi' => exact ⟨isWord_tens false _ hi' hi, isWord_tens true _ hi' hi⟩
  | hundred => decide
  | power hv hv' =>
    have h := isWord_scale false _ hv' hv
    rw [append_ending_false] at h
    exact ⟨h, isWord_scale true _ hv' hv⟩

theorem not_isOrdinalOf_plus (w' : Text) : ¬IsOrdinalOf "plus".toList w' := by
  have hsmall : ∀ n < 20, entry cardinals n ≠ "plus".toList := by decide
  have htens : ∀ i < 10, entry stems i ++ "y".toList ≠ "plus".toList := by decide
  have hpower : ∀ v < powers.length, entry powers v ≠ "plus".toList := by decide
  have hhundred : "hundred".toList ≠ "plus".toList := by decide
  intro h
  generalize hplus : "plus".toList = w at h
  cases h with
  | small hn => exact hsmall _ hn hplus.symm
  | tens _ hi' => exact htens _ hi' hplus.symm
  | hundred => exact hhundred hplus.symm
  | power _ hv' => exact hpower _ hv' hplus.symm

/-- The last word of a text. -/
def finalWord (s : Text) : Text := s.rtakeWhile (!isBreak ·)

/-- A text without its last word. -/
def beforeFinalWord (s : Text) : Text := s.rdropWhile (!isBreak ·)

/-- The text can stand in front of a word. -/
def IsFront (s : Text) : Prop := ∀ c ∈ s.getLast?, isBreak c = true

theorem isFront_append_break (s : Text) (hc : isBreak c = true) : IsFront (s ++ [c]) := by
  intro d hd
  rw [List.getLast?_concat, Option.mem_some_iff] at hd
  exact hd ▸ hc

theorem IsFront.behind (hfront : IsFront front) (s : Text) (hc : isBreak c = true) :
    IsFront (s ++ c :: front) := by
  rcases List.eq_nil_or_concat' front with rfl | ⟨rest, d, rfl⟩
  · exact isFront_append_break s hc
  · have hd : isBreak d = true := hfront d (by rw [List.getLast?_concat]; rfl)
    rw [← List.cons_append, ← List.append_assoc]
    exact isFront_append_break _ hd

theorem beforeFinalWord_append (hfront : IsFront front) (hw : IsWord w) :
    beforeFinalWord (front ++ w) = front := by
  have hword : ∀ c ∈ w.reverse, (!isBreak c) = true := fun c hc => by
    rw [hw.2 c (List.mem_reverse.mp hc)]
    rfl
  have hself : front.rdropWhile (!isBreak ·) = front := List.rdropWhile_eq_self_iff.mpr fun hne => by
    rw [hfront _ (List.getLast?_eq_some_getLast hne)]
    decide
  rw [beforeFinalWord, List.rdropWhile, List.reverse_append, List.dropWhile_append_of_pos hword]
  exact hself

theorem finalWord_append (hfront : IsFront front) (hw : IsWord w) : finalWord (front ++ w) = w := by
  have hwhole : beforeFinalWord (front ++ w) ++ finalWord (front ++ w) = front ++ w :=
    List.rdropWhile_append_rtakeWhile
  rw [beforeFinalWord_append hfront hw] at hwhole
  exact List.append_cancel_left hwhole

/-! ## The names of a number -/

/-- The last part of the number that is not zero counts a power without a name. -/
def EndsUnnamed (n : ℕ) : Prop := n ≠ 0 ∧ 1000 ^ powers.length ∣ n

/-- The last words of the two names of a number. -/
def LastWords (n : ℕ) (w w' : Text) : Prop :=
  ¬EndsUnnamed n ∧ IsOrdinalOf w w' ∨ EndsUnnamed n ∧ w = "plus".toList ∧ w' = "plusth".toList

theorem LastWords.isWord (h : LastWords n w w') : IsWord w ∧ IsWord w' := by
  obtain ⟨-, h⟩ | ⟨-, rfl, rfl⟩ := h
  · exact h.isWord
  · decide

/-- The texts agree in front of their last words, which are those of a number's names. -/
def Agree (n : ℕ) (s t : Text) : Prop :=
  ∃ front w w', s = front ++ w ∧ t = front ++ w' ∧ IsFront front ∧ LastWords n w w'

theorem Agree.of_lastWords (h : LastWords n w w') : Agree n w w' :=
  ⟨[], w, w', rfl, rfl, nofun, h⟩

/-- What stands in front does not matter, as long as the number ends in the same way. -/
theorem Agree.behind (h : Agree n s t) (hm : EndsUnnamed m ↔ EndsUnnamed n) (a : Text)
    (hc : isBreak c = true) : Agree m (a ++ c :: s) (a ++ c :: t) := by
  obtain ⟨front, w, w', rfl, rfl, hfront, hwords⟩ := h
  refine ⟨a ++ c :: front, w, w', ?_, ?_, hfront.behind a hc, ?_⟩
  · rw [List.append_assoc, List.cons_append]
  · rw [List.append_assoc, List.cons_append]
  · rw [LastWords, hm]
    exact hwords

theorem not_endsUnnamed_of_lt (hn : n < 1000 ^ powers.length) : ¬EndsUnnamed n := fun h =>
  h.1 (Nat.eq_zero_of_dvd_of_lt h.2 hn)

theorem endsUnnamed_congr_of_lt (hm : m < 1000 ^ powers.length) (hn : n < 1000 ^ powers.length) :
    EndsUnnamed m ↔ EndsUnnamed n :=
  iff_of_false (not_endsUnnamed_of_lt hm) (not_endsUnnamed_of_lt hn)

theorem Agree.of_isOrdinalOf (h : IsOrdinalOf w w') (hn : n < 1000 ^ powers.length) : Agree n w w' :=
  .of_lastWords (.inl ⟨not_endsUnnamed_of_lt hn, h⟩)

theorem group_lt {q : ℕ} (hq' : q < 1000) (hv : v < powers.length) {r : ℕ} (hr : r < 1000 ^ v) :
    q * 1000 ^ v + r < 1000 ^ powers.length := by
  calc q * 1000 ^ v + r < (q + 1) * 1000 ^ v := by
        rw [Nat.add_one_mul]
        omega
    _ ≤ 1000 * 1000 ^ v := Nat.mul_le_mul_right _ hq'
    _ = 1000 ^ (v + 1) := (pow_succ' 1000 v).symm
    _ ≤ 1000 ^ powers.length := Nat.pow_le_pow_right (by decide) hv

/-- The words of a raised power, down to the `plus`. -/
theorem raising_append (exponent e : Text) :
    raising exponent ++ e = ("times ten to the".toList ++ ' ' :: (exponent ++ ' ' :: "power".toList)) ++
      ' ' :: ("plus".toList ++ e) := by
  have hback : "power plus".toList = "power".toList ++ ' ' :: "plus".toList := by decide
  have happend : ∀ opening back plus : Text,
      opening ++ ' ' :: (exponent ++ ' ' :: (back ++ ' ' :: plus)) ++ e =
        (opening ++ ' ' :: (exponent ++ ' ' :: back)) ++ ' ' :: (plus ++ e) := by simp
  unfold raising
  rw [hback]
  exact happend _ _ _

/-- **How the names of a number end.** The last part that is not zero decides: in all the others cardinal
and ordinal are the same. -/
theorem Spelling.agree {name : Bool → Text} (h : Spelling n name) : Agree n (name false) (name true) := by
  have hthousand : 1000 ≤ 1000 ^ powers.length := by decide
  induction h with
  | small hn => exact .of_isOrdinalOf (.small hn) (by omega)
  | tens hi hi' => exact .of_isOrdinalOf (.tens hi hi') (by omega)
  | @hundred q hq hq' =>
    have h : Agree (q * 100) ("hundred".toList ++ ending false) ("hundred".toList ++ ending true) :=
      .of_isOrdinalOf .hundred (by omega)
    exact h.behind Iff.rfl _ rfl
  | @power q v front hq hq' _ hv hv' _ =>
    have hlt : q * 1000 ^ v < 1000 ^ powers.length := group_lt hq' hv' (Nat.pow_pos (by decide))
    have h : Agree (q * 1000 ^ v) (entry powers v ++ ending false) (entry powers v ++ ending true) := by
      rw [append_ending_false]
      exact .of_isOrdinalOf (.power hv hv') hlt
    exact h.behind Iff.rfl _ rfl
  | @raised q v front exponent hq hq' _ hv _ _ _ =>
    have hends : EndsUnnamed (q * 1000 ^ v) :=
      ⟨Nat.mul_ne_zero hq.ne' (Nat.pow_pos (by decide)).ne',
        Dvd.dvd.mul_left (Nat.pow_dvd_pow 1000 hv) q⟩
    have h : Agree (q * 1000 ^ v) ("plus".toList ++ ending false) ("plus".toList ++ ending true) :=
      .of_lastWords (.inr ⟨hends, by decide, by decide⟩)
    have h' := (h.behind Iff.rfl ("times ten to the".toList ++ ' ' :: (exponent true ++ ' ' ::
      "power".toList)) (c := ' ') rfl).behind Iff.rfl (front false) (c := ' ') rfl
    rw [← raising_append, ← raising_append] at h'
    exact h'
  | @behindTens i d hi hi' hd hd' =>
    exact (Agree.of_isOrdinalOf (.small (n := d) (by omega)) (by omega : d < _)).behind
      (endsUnnamed_congr_of_lt (by omega) (by omega)) _ rfl
  | @behindHundred q r name hq hq' hr hr' _ ih =>
    exact (ih.behind Iff.rfl _ rfl).behind
      (endsUnnamed_congr_of_lt (by omega) (by omega)) _ rfl
  | @behindPower q v r front name hq hq' _ hv hr hr' _ _ ih =>
    have hlt := group_lt hq' hv hr'
    have h : Agree (q * 1000 ^ v + r) _ _ := ih.behind
      (endsUnnamed_congr_of_lt hlt (by omega))
      (front false ++ ' ' :: (entry powers v ++ if 100 ≤ r then [','] else [])) (c := ' ') rfl
    simpa using h
  | @behindRaised q v r front exponent name hq hq' _ hv _ hr hr' _ _ _ ih =>
    -- the lower part can end in a power without a name, too
    have hsame : EndsUnnamed (q * 1000 ^ v + r) ↔ EndsUnnamed r := by
      have hdvd : 1000 ^ powers.length ∣ q * 1000 ^ v := Dvd.dvd.mul_left (Nat.pow_dvd_pow 1000 hv) q
      unfold EndsUnnamed
      rw [Nat.dvd_add_right hdvd]
      exact and_congr_left fun _ => iff_of_true (by omega) hr.ne'
    exact (ih.behind Iff.rfl (raising (exponent true)) rfl).behind hsame (front false) rfl

/-! ## Ordinals and cardinals -/

theorem agree_names (n : ℤ) : Agree n.natAbs (cardinal n) (ordinal n) := by
  have h := (spelling_spell n.natAbs).agree
  unfold cardinal ordinal
  rw [sign_eq]
  split_ifs
  · rw [List.append_assoc, List.append_assoc]
    exact h.behind Iff.rfl "negative".toList (c := ' ') rfl
  · exact h

theorem endsUnnamed_natAbs (n : ℤ) : EndsUnnamed n.natAbs ↔ n ≠ 0 ∧ (10 : ℤ) ^ 33 ∣ n := by
  have hpow : (10 : ℤ) ^ 33 = (1000 ^ powers.length : ℕ) := by decide +kernel
  unfold EndsUnnamed
  rw [hpow, Int.natCast_dvd, Int.natAbs_ne_zero]

/-- The ordinal is the cardinal with another last word, the one that belongs to the cardinal's. -/
def FollowsCardinal (n : ℤ) : Prop :=
  IsOrdinalOf (finalWord (cardinal n)) (finalWord (ordinal n)) ∧
    beforeFinalWord (ordinal n) = beforeFinalWord (cardinal n)

theorem followsCardinal_of_not_endsUnnamed {n : ℤ} (h : ¬EndsUnnamed n.natAbs) : FollowsCardinal n := by
  obtain ⟨front, w, w', hcardinal, hordinal, hfront, hwords⟩ := agree_names n
  have hword := hwords.isWord
  have hends := hwords.resolve_right fun hdangling => h hdangling.1
  unfold FollowsCardinal
  rw [hcardinal, hordinal, finalWord_append hfront hword.1, finalWord_append hfront hword.2,
    beforeFinalWord_append hfront hword.1, beforeFinalWord_append hfront hword.2]
  exact ⟨hends.2, rfl⟩

/-- The last word is a `plus` with nothing behind it, in ordinals with the ending. -/
theorem dangling_of_endsUnnamed {n : ℤ} (h : EndsUnnamed n.natAbs) :
    finalWord (cardinal n) = "plus".toList ∧ ordinal n = cardinal n ++ "th".toList := by
  obtain ⟨front, w, w', hcardinal, hordinal, hfront, hwords⟩ := agree_names n
  have hplusth : "plusth".toList = "plus".toList ++ "th".toList := by decide
  obtain ⟨-, rfl, rfl⟩ := hwords.resolve_left fun hnamed => hnamed.1 h
  rw [hcardinal, hordinal, hplusth, List.append_assoc]
  exact ⟨finalWord_append hfront (by decide), rfl⟩

theorem not_followsCardinal_of_endsUnnamed {n : ℤ} (h : EndsUnnamed n.natAbs) : ¬FollowsCardinal n :=
  fun hfollows => not_isOrdinalOf_plus _ ((dangling_of_endsUnnamed h).1 ▸ hfollows.1)

/-- **An ordinal is the cardinal with another last word**, unless the number ends in thirty-three zeros.
Then the cardinal ends in a `plus`, and the ordinal puts its ending there. -/
theorem followsCardinal_iff (n : ℤ) :
    (FollowsCardinal n ↔ n = 0 ∨ ¬(10 : ℤ) ^ 33 ∣ n) ∧
      (FollowsCardinal n ∨
        finalWord (cardinal n) = "plus".toList ∧ ordinal n = cardinal n ++ "th".toList) := by
  by_cases h : EndsUnnamed n.natAbs
  · obtain ⟨hne, hdvd⟩ := (endsUnnamed_natAbs n).mp h
    refine ⟨iff_of_false (not_followsCardinal_of_endsUnnamed h) ?_, .inr (dangling_of_endsUnnamed h)⟩
    rintro (hzero | hndvd)
    · exact hne hzero
    · exact hndvd hdvd
  · have hfollows := followsCardinal_of_not_endsUnnamed h
    rw [endsUnnamed_natAbs, not_and_or, not_not] at h
    exact ⟨iff_of_true hfollows h, .inl hfollows⟩

/-- The least positive number whose ordinal does not follow its cardinal. -/
theorem not_followsCardinal_decillion : ¬FollowsCardinal (10 ^ 33) :=
  not_followsCardinal_of_endsUnnamed ((endsUnnamed_natAbs _).mpr ⟨by decide +kernel, dvd_rfl⟩)

end Tilde.English
