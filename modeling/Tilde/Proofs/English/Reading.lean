import Mathlib.Tactic.Ring
import Tilde.Dynamic.Numeral
import Tilde.Proofs.English.Spelling

/-!
# Reading names

A name is read word by word. The words below a hundred are added up, `hundred` multiplies what has been
added, and the name of a power ends a group. Where a power has no name, an exponent stands between
`times ten to the` and `power`, and is read in the same way while the number in front of it waits.

* `words`: the words of a text;
* `Sense`, `sense`: what a word has to say about the number;
* `Reading`, `Reading.hear`: what has been read, and how a word goes on with it;
* **`read_name`**: reading a name gives the number;
* **`injective_names`**: every integer has a name of its own.
-/

namespace Tilde.English

variable {n v : ℕ} {s t w : Text} {c : Char}

/-! ## Words -/

/-- The character stands between words. -/
def isBreak (c : Char) : Bool := c == ' ' || c == '-' || c == ','

/-- The text is a word. -/
def IsWord (w : Text) : Prop := w ≠ [] ∧ ∀ c ∈ w, isBreak c = false

instance (w : Text) : Decidable (IsWord w) :=
  decidable_of_iff (w ≠ [] ∧ w.all (!isBreak ·) = true) (by simp [IsWord])

/-- The words of a text. -/
def words (s : Text) : List Text := (s.splitOnP isBreak).filter (!·.isEmpty)

theorem words_append_break (hc : isBreak c = true) (s t : Text) :
    words (s ++ c :: t) = words s ++ words t := by
  unfold words
  rw [List.splitOnP_append_cons s t hc, List.filter_append]

theorem words_word (hw : IsWord w) : words w = [w] := by
  unfold words
  rw [List.splitOnP_eq_singleton hw.2]
  simp [hw.1]

/-! ## What words say -/

/-- What a word says about a number: so many more, a hundred times as many, so many of a power of a
thousand, or less than zero; `times`, `the` and `power` enclose an exponent. -/
inductive Sense
  | units (n : ℕ)
  | hundred
  | scale (v : ℕ)
  | negative
  | times
  | the
  | power
  | filler
  deriving DecidableEq

/-- Where the word stands in a table, perhaps with an ending. -/
def lookUp (table : List String) (endings : List Text) (w : Text) : Option ℕ :=
  table.findIdx? fun stem => endings.any fun e => stem.toList ++ e == w

/-- What a word says, be it in a cardinal or in an ordinal. -/
def sense (w : Text) : Sense :=
  if w = "hundred".toList ∨ w = "hundredth".toList then .hundred
  else if w = "negative".toList then .negative
  else if w = "times".toList then .times
  else if w = "the".toList then .the
  else if w = "power".toList then .power
  else if let some n := lookUp cardinals [[]] w then .units n
  else if let some n := lookUp ordinals [[]] w then .units n
  else if let some i := lookUp stems ["y".toList, "ieth".toList] w then .units (10 * i)
  else if let some v := lookUp powers [[], "th".toList] w then .scale v
  else .filler

theorem sense_small : ∀ asOrdinal, ∀ n < 20, sense (small asOrdinal n) = .units n := by decide +kernel

theorem sense_tens : ∀ asOrdinal, ∀ i < 10, 2 ≤ i → sense (tens asOrdinal i) = .units (10 * i) := by
  decide +kernel

theorem sense_scale : ∀ asOrdinal, ∀ v < powers.length, 0 < v →
    sense (entry powers v ++ ending asOrdinal) = .scale v := by decide +kernel

theorem isWord_small : ∀ asOrdinal, ∀ n < 20, IsWord (small asOrdinal n) := by decide +kernel

theorem isWord_tens : ∀ asOrdinal, ∀ i < 10, 2 ≤ i → IsWord (tens asOrdinal i) := by decide +kernel

theorem isWord_scale : ∀ asOrdinal, ∀ v < powers.length, 0 < v →
    IsWord (entry powers v ++ ending asOrdinal) := by decide +kernel

/-! ## Reading -/

/-- What has been read: the groups that are complete, the group that is being read, and the numbers that
wait for their exponents. -/
structure Reading where
  negative : Bool := false
  total : ℕ := 0
  group : ℕ := 0
  waiting : List (ℕ × ℕ) := []

namespace Reading

/-- Goes on with what a word says. The `ten` before `the` is the base of a power and does not count. -/
def take (r : Reading) : Sense → Reading
  | .units n => { r with group := r.group + n }
  | .hundred => { r with group := r.group * 100 }
  | .scale v => { r with total := r.total + r.group * 1000 ^ v, group := 0 }
  | .negative => { r with negative := true }
  | .times => { r with total := 0, group := 0, waiting := (r.total, r.group) :: r.waiting }
  | .the => { r with total := 0, group := 0 }
  | .power =>
    match r.waiting with
    | [] => r
    | (total, group) :: waiting =>
      { r with total := total + group * 10 ^ (r.total + r.group), group := 0, waiting := waiting }
  | .filler => r

/-- Goes on with one more word. -/
def hear (r : Reading) (w : Text) : Reading := r.take (sense w)

/-- What has been read after the words of a text. -/
def after (r : Reading) (s : Text) : Reading := (words s).foldl hear r

/-- The number that has been read. -/
def value (r : Reading) : ℤ := if r.negative then -(r.total + r.group : ℕ) else (r.total + r.group : ℕ)

variable (r : Reading)

theorem after_append_break (hc : isBreak c = true) (s t : Text) :
    r.after (s ++ c :: t) = (r.after s).after t := by
  unfold after
  rw [words_append_break hc, List.foldl_append]

theorem after_blank (s t : Text) : r.after (s ++ ' ' :: t) = (r.after s).after t :=
  r.after_append_break rfl s t

/-- A comma in front of a blank makes no difference. -/
theorem after_comma (s t : Text) (p : Prop) [Decidable p] :
    r.after (s ++ ((if p then [','] else []) ++ ' ' :: t)) = (r.after s).after t := by
  split_ifs
  · exact (r.after_append_break rfl s _).trans ((r.after s).after_append_break rfl [] t)
  · exact r.after_blank s t

theorem after_word (hw : IsWord w) {m : Sense} (hm : sense w = m) : r.after w = r.take m := by
  unfold after
  rw [words_word hw, ← hm]
  rfl

theorem after_small (asOrdinal : Bool) (hn : n < 20) :
    r.after (small asOrdinal n) = { r with group := r.group + n } :=
  r.after_word (isWord_small asOrdinal n hn) (sense_small asOrdinal n hn)

theorem after_tens (asOrdinal : Bool) {i : ℕ} (hi : 2 ≤ i) (hi' : i < 10) :
    r.after (tens asOrdinal i) = { r with group := r.group + 10 * i } :=
  r.after_word (isWord_tens asOrdinal i hi' hi) (sense_tens asOrdinal i hi' hi)

theorem after_hundred (asOrdinal : Bool) :
    r.after ("hundred".toList ++ ending asOrdinal) = { r with group := r.group * 100 } := by
  have hword : ∀ asOrdinal, IsWord ("hundred".toList ++ ending asOrdinal) := by decide
  have hsense : ∀ asOrdinal, sense ("hundred".toList ++ ending asOrdinal) = .hundred := by
    decide +kernel
  exact r.after_word (hword asOrdinal) (hsense asOrdinal)

end Reading

/-! ## Names of powers -/

/-- The text says that the group counts so many. -/
def Scales (p : Text) (unit : ℕ) : Prop :=
  ∀ r : Reading, r.after p = { r with total := r.total + r.group * unit, group := 0 }

theorem scales_power (asOrdinal : Bool) (hv : 0 < v) (hv' : v < powers.length) :
    Scales (entry powers v ++ ending asOrdinal) (1000 ^ v) := fun r =>
  r.after_word (isWord_scale asOrdinal v hv' hv) (sense_scale asOrdinal v hv' hv)

/-- The text says the number, which must not multiply what stands in front of it: only numbers below a
hundred can come in the middle of a group. A number below a thousand goes into the group. -/
def Says (s : Text) (n : ℕ) : Prop :=
  ∀ r : Reading, r.group = 0 ∨ n < 100 →
    ∃ total group, r.after s = { r with total := total, group := group } ∧
      total + group = r.total + r.group + n ∧ (n < 1000 → total = r.total)

/-- The words around an exponent: the number in front of it starts to wait. -/
theorem Reading.after_opening (r : Reading) :
    r.after "times ten to the".toList =
      { r with total := 0, group := 0, waiting := (r.total, r.group) :: r.waiting } := by
  have hwords : "times ten to the".toList =
      "times".toList ++ ' ' :: ("ten".toList ++ ' ' :: ("to".toList ++ ' ' :: "the".toList)) := by decide
  have htimes : sense "times".toList = .times := by decide +kernel
  have hten : sense "ten".toList = .units 10 := by decide +kernel
  have hto : sense "to".toList = .filler := by decide +kernel
  have hthe : sense "the".toList = .the := by decide +kernel
  rw [hwords, after_blank, after_blank, after_blank, after_word _ (by decide) htimes,
    after_word _ (by decide) hten, after_word _ (by decide) hto, after_word _ (by decide) hthe]
  rfl

/-- The words behind an exponent: it is taken to the number that waits. -/
theorem Reading.after_closing (r : Reading) (asOrdinal : Bool) :
    r.after ("power plus".toList ++ ending asOrdinal) = r.take .power := by
  have hwords : "power plus".toList ++ ending asOrdinal =
      "power".toList ++ ' ' :: ("plus".toList ++ ending asOrdinal) := by
    cases asOrdinal <;> decide
  have hpower : sense "power".toList = .power := by decide +kernel
  have hplus : ∀ asOrdinal, sense ("plus".toList ++ ending asOrdinal) = .filler := by decide +kernel
  have hword : ∀ asOrdinal, IsWord ("plus".toList ++ ending asOrdinal) := by decide
  rw [hwords, after_blank, after_word _ (by decide) hpower, after_word _ (hword asOrdinal) (hplus asOrdinal)]
  rfl

/-- An exponent is read while the number in front of it waits. -/
theorem scales_raising {exponent : Text} (h : Says exponent n) (asOrdinal : Bool) :
    Scales (raising exponent ++ ending asOrdinal) (10 ^ n) := by
  intro r
  have htext : raising exponent ++ ending asOrdinal = "times ten to the".toList ++
      ' ' :: (exponent ++ ' ' :: ("power plus".toList ++ ending asOrdinal)) := by
    have happend : ∀ a b e : Text, a ++ ' ' :: (exponent ++ ' ' :: b) ++ e =
        a ++ ' ' :: (exponent ++ ' ' :: (b ++ e)) := fun a b e => by simp
    exact happend _ _ _
  obtain ⟨total, group, hexponent, hsum, -⟩ := h
    { r with total := 0, group := 0, waiting := (r.total, r.group) :: r.waiting } (.inl rfl)
  rw [Nat.zero_add, Nat.zero_add] at hsum
  rw [htext, Reading.after_blank, Reading.after_opening, Reading.after_blank, hexponent,
    Reading.after_closing, Reading.take, hsum]

/-! ## Names -/

namespace Says

theorem of_group (h : ∀ r : Reading, r.group = 0 ∨ n < 100 → r.after s = { r with group := r.group + n }) :
    Says s n := fun r hr => ⟨_, _, h r hr, (Nat.add_assoc ..).symm, fun _ => rfl⟩

theorem group (h : Says s n) (hn : n < 1000) {r : Reading} (hr : r.group = 0 ∨ n < 100) :
    r.after s = { r with group := r.group + n } := by
  obtain ⟨total, group, hafter, hsum, hsmall⟩ := h r hr
  obtain rfl := hsmall hn
  obtain rfl : group = r.group + n := by omega
  exact hafter

variable {front p : Text} {q unit m : ℕ}

theorem after_front (hfront : Says front q) (hq : q < 1000) (hp : Scales p unit) {r : Reading}
    (hr : r.group = 0) :
    (r.after front).after p = { r with total := r.total + q * unit, group := 0 } := by
  rw [hfront.group hq (.inl hr), hp]
  simp only [hr, Nat.zero_add]

/-- A group with its power. -/
theorem scaled (hfront : Says front q) (hq : q < 1000) (hp : Scales p unit) (hlarge : 1000 ≤ q * unit) :
    Says (front ++ ' ' :: p) (q * unit) := by
  intro r hr
  have hgroup : r.group = 0 := by omega
  refine ⟨r.total + q * unit, 0, ?_, by omega, by omega⟩
  rw [Reading.after_blank, hfront.after_front hq hp hgroup]

/-- A group with its power, and groups behind it. -/
theorem behind (hfront : Says front q) (hq : q < 1000) (hp : Scales p unit) (hlarge : 1000 ≤ q * unit)
    (h : Says s m) (P : Prop) [Decidable P] :
    Says (front ++ ' ' :: (p ++ ((if P then [','] else []) ++ ' ' :: s))) (q * unit + m) := by
  intro r hr
  have hgroup : r.group = 0 := by omega
  obtain ⟨total, group, hafter, hsum, -⟩ := h { r with total := r.total + q * unit, group := 0 } (.inl rfl)
  refine ⟨total, group, ?_, ?_, by omega⟩
  · rw [Reading.after_blank, Reading.after_comma, hfront.after_front hq hp hgroup, hafter]
  · simp only at hsum
    omega

end Says

/-- **A name says its number**, be it a cardinal or an ordinal. -/
theorem says_of_spelling {name : Bool → Text} (h : Spelling n name) (asOrdinal : Bool) :
    Says (name asOrdinal) n := by
  have hlarge : ∀ q v : ℕ, 0 < q → 0 < v → 1000 ≤ q * 1000 ^ v := fun q v hq hv =>
    (Nat.le_self_pow (by omega) 1000).trans (Nat.le_mul_of_pos_left _ hq)
  have hpow : ∀ v : ℕ, 1000 ^ v = 10 ^ (3 * v) := fun v => by
    rw [pow_mul]
    norm_num
  -- a name in front of a power is a cardinal and an exponent is an ordinal, so that both are needed below
  induction h generalizing asOrdinal with
  | small hn => exact .of_group fun r _ => r.after_small asOrdinal hn
  | tens hi hi' => exact .of_group fun r _ => r.after_tens asOrdinal hi hi'
  | hundred hq hq' =>
    refine .of_group fun r hr => ?_
    have hgroup : r.group = 0 := by omega
    rw [Reading.after_blank, r.after_small false (by omega), Reading.after_hundred]
    simp only [hgroup, Nat.zero_add]
  | power hq hq' _ hv hv' ih =>
    exact (ih false).scaled hq' (scales_power asOrdinal hv hv') (hlarge _ _ hq hv)
  | raised hq hq' _ hv _ ih ihexponent =>
    have hv' := hlarge _ _ hq (Nat.lt_of_lt_of_le (by decide) hv)
    rw [hpow] at hv' ⊢
    exact (ih false).scaled hq' (scales_raising (ihexponent true) asOrdinal) hv'
  | behindTens hi hi' hd hd' =>
    refine .of_group fun r _ => ?_
    rw [Reading.after_append_break r rfl, r.after_tens false hi hi', Reading.after_small _ _ (by omega)]
    simp only [Nat.add_assoc]
  | @behindHundred q m name hq hq' hr hr' _ ih =>
    refine .of_group fun r hgroup => ?_
    have hzero : r.group = 0 := by omega
    have hhundred := Reading.after_hundred { r with group := r.group + q } false
    rw [append_ending_false] at hhundred
    rw [Reading.after_blank, r.after_small false (by omega), Reading.after_blank, hhundred,
      (ih asOrdinal).group (by omega) (.inr hr')]
    simp only [hzero, Nat.zero_add]
  | @behindPower q v m front name hq hq' _ hv hr hr' _ ihfront ih =>
    -- nothing follows the units
    have hv' : 0 < v := Nat.pos_of_ne_zero fun h => by
      rw [h, pow_zero] at hr'
      omega
    have hp := scales_power false hv' hv
    rw [append_ending_false] at hp
    exact (ihfront false).behind hq' hp (hlarge _ _ hq hv') (ih asOrdinal) _
  | behindRaised hq hq' _ hv _ hr hr' _ ihfront ihexponent ih =>
    have hv' := hlarge _ _ hq (Nat.lt_of_lt_of_le (by decide) hv)
    have hp := scales_raising (ihexponent true) false
    rw [append_ending_false] at hp
    rw [hpow] at hv' ⊢
    exact (ihfront false).behind hq' hp hv' (ih asOrdinal) False

/-- The number that a name says. -/
def read (s : Text) : ℤ := (Reading.after {} s).value

theorem read_name (n : ℤ) (asOrdinal : Bool) : read (sign n ++ spell asOrdinal n.natAbs) = n := by
  have hnegative : Reading.after {} "negative".toList = { negative := true } :=
    Reading.after_word _ (by decide) (by decide +kernel : sense "negative".toList = .negative)
  have hsays := says_of_spelling (spelling_spell n.natAbs) asOrdinal
  unfold read
  rw [sign_eq]
  split_ifs with hn
  · obtain ⟨total, group, hafter, hsum, -⟩ := hsays { negative := true } (.inl rfl)
    rw [List.append_assoc, List.singleton_append, Reading.after_blank, hnegative, hafter, Reading.value]
    simp only [if_true, hsum]
    omega
  · obtain ⟨total, group, hafter, hsum, -⟩ := hsays {} (.inl rfl)
    rw [List.nil_append, hafter, Reading.value]
    simp only [Bool.false_eq_true, if_false, hsum]
    omega

/-- **Names are unambiguous.** Every integer has a cardinal and an ordinal name, and no other integer
has the same one. -/
theorem injective_names :
    Function.Injective cardinal ∧ Function.Injective ordinal ∧
      ∀ (n : ℤ) (asOrdinal : Bool), (Value.int n).englishName asOrdinal =
        .ok (if asOrdinal then ordinal n else cardinal n) := by
  have hcardinal : Function.LeftInverse read cardinal := fun n => read_name n false
  have hordinal : Function.LeftInverse read ordinal := fun n => read_name n true
  refine ⟨hcardinal.injective, hordinal.injective, fun n asOrdinal => ?_⟩
  cases asOrdinal <;> rfl

end Tilde.English
