import Tilde.Decimal.Basic
import Tilde.Decimal.Shortest
import Tilde.Proofs.Decimal.Positional

/-!
# Written forms of numbers

The written forms of numbers are digits, with or without a point among them, and with or without an
exponent. Every such text is read back as the number that it writes, and taken apart into
significant digits that stand for that number.

* `Spells`: the texts and the numbers that they write;
* **`Spells.read?`**: reading such a text, with a sign in front;
* **`Spells.parts`**: taking it apart;
* `spells_plainText`, `exists_floatText`: decimal and binary numbers have such forms.
-/

namespace Tilde.Decimal

/-! ## Texts and what they write -/

/-- The text is an exponent: a mark, a sign and digits, or nothing for the exponent zero. -/
inductive IsPower : Text → ℤ → Prop
  | nothing : IsPower [] 0
  | plus (mark : Char) (ds : Text) (hmark : mark = 'e' ∨ mark = 'E') (hds : IsDigits ds)
    (hne : ds ≠ []) : IsPower (mark :: '+' :: ds) (valueOf ds)
  | minus (mark : Char) (ds : Text) (hmark : mark = 'e' ∨ mark = 'E') (hds : IsDigits ds)
    (hne : ds ≠ []) : IsPower (mark :: '-' :: ds) (-valueOf ds)

/-- The text is digits, with a point among them or not, and with an exponent or not, and writes the
number. -/
inductive Spells : Text → ℚ → Prop
  | intro (whole point places power : Text) (n : ℤ) (hdigits : IsDigits (whole ++ places))
    (hne : whole ++ places ≠ []) (hpoint : point = ['.'] ∨ point = [] ∧ places = [])
    (hpower : IsPower power n) :
    Spells (whole ++ point ++ places ++ power)
      (valueOf (whole ++ places) * 10 ^ (n - places.length))

/-- The number that a numeral writes. -/
def Numeral.value (x : Numeral) : ℚ :=
  (if x.negative then -1 else 1) * (x.coefficient * 10 ^ x.exponent)

/-! ## Reading -/

theorem digitValue?_of_isDigit {c : Char} (hc : c.isDigit = true) :
    Text.digitValue? c = some (digitValue c) := by
  simp only [Char.isDigit, Bool.and_eq_true, decide_eq_true_eq] at hc
  have hlow : 48 ≤ c.toNat := hc.1
  have hhigh : c.toNat ≤ 57 := hc.2
  have hfirst : (decide (0x30 ≤ c.toNat) && decide (c.toNat < 0x30 + 10)) = true := by
    simp only [Bool.and_eq_true, decide_eq_true_eq]
    omega
  simp only [Text.digitValue?, Text.zeroCodes, List.find?_cons, hfirst, Option.map_some]
  rfl

theorem isDecimalDigit_of_isDigit {c : Char} (hc : c.isDigit = true) : isDecimalDigit c = true := by
  simp [isDecimalDigit, digitValue?_of_isDigit hc]

theorem readDigits?_eq {s : Text} (hs : IsDigits s) : Text.readDigits? s = some (valueOf s) := by
  have hfrom : ∀ init : ℕ, s.foldl (fun acc c => do
      return 10 * (← acc) + (← Text.digitValue? c)) (some init) =
        some (Nat.ofDigitChars 10 s init) := by
    induction s with
    | nil => intro init; rfl
    | cons c s ih =>
      intro init
      rw [List.foldl_cons, digitValue?_of_isDigit (hs c List.mem_cons_self), Nat.ofDigitChars_cons]
      exact ih (fun d hd => hs d (List.mem_cons_of_mem c hd)) _
  exact hfrom 0

theorem IsPower.head {power : Text} {n : ℤ} (h : IsPower power n) :
    power = [] ∧ n = 0 ∨ ∃ mark r, power = mark :: r ∧ (mark = 'e' ∨ mark = 'E') ∧
      readInteger? r = some n := by
  cases h with
  | nothing => exact .inl ⟨rfl, rfl⟩
  | plus mark ds hmark hds hne =>
    refine .inr ⟨mark, _, rfl, hmark, ?_⟩
    simp [readInteger?, splitSign, hne, readDigits?_eq hds]
  | minus mark ds hmark hds hne =>
    refine .inr ⟨mark, _, rfl, hmark, ?_⟩
    simp [readInteger?, splitSign, hne, readDigits?_eq hds]

/-- The digits in front of a text that does not begin with one. -/
theorem span_digits {s t : Text} (hs : IsDigits s)
    (ht : ∀ c ∈ t.head?, isDecimalDigit c = false) :
    (s ++ t).takeWhile isDecimalDigit = s ∧ (s ++ t).dropWhile isDecimalDigit = t := by
  have hall : ∀ c ∈ s, isDecimalDigit c = true := fun c hc => isDecimalDigit_of_isDigit (hs c hc)
  rw [List.takeWhile_append_of_pos hall, List.dropWhile_append_of_pos hall]
  cases t with
  | nil => simp
  | cons c t => simp [ht c rfl]

theorem IsPower.head_not_digit {power : Text} {n : ℤ} (h : IsPower power n) :
    ∀ c ∈ power.head?, isDecimalDigit c = false := by
  rcases h.head with ⟨rfl, -⟩ | ⟨mark, r, rfl, rfl | rfl, -⟩
  · simp
  · intro c hc
    obtain rfl : 'e' = c := by simpa using hc
    decide
  · intro c hc
    obtain rfl : 'E' = c := by simpa using hc
    decide

/-- The places behind a point, and what follows them. -/
def splitPlaces : Text → Text × Text
  | '.' :: r => (r.takeWhile isDecimalDigit, r.dropWhile isDecimalDigit)
  | r => ([], r)

/-- Reading a numeral, sign by sign and digits by digits. -/
theorem Numeral.read?_eq (s : Text) : Numeral.read? s =
    (let (negative, s) := splitSign s
    let whole := s.takeWhile isDecimalDigit
    let (places, rest) := splitPlaces (s.dropWhile isDecimalDigit)
    if whole.isEmpty && places.isEmpty then none
    else do
      let coefficient ← Text.readDigits? (whole ++ places)
      let exponent ← match rest with
        | [] => some 0
        | c :: r => if c = 'e' ∨ c = 'E' then readInteger? r else none
      return ⟨negative, coefficient, exponent - places.length⟩) := rfl

theorem span_point {whole point places power : Text} {n : ℤ} (hdigits : IsDigits (whole ++ places))
    (hpoint : point = ['.'] ∨ point = [] ∧ places = []) (hpower : IsPower power n) :
    (whole ++ point ++ places ++ power).takeWhile isDecimalDigit = whole ∧
      splitPlaces ((whole ++ point ++ places ++ power).dropWhile isDecimalDigit) =
        (places, power) := by
  have hwhole : IsDigits whole := hdigits.of_subset (by simp)
  have hplaces : IsDigits places := hdigits.of_subset (by simp)
  rcases hpoint with rfl | ⟨rfl, rfl⟩
  · have hspan := span_digits (t := '.' :: (places ++ power)) hwhole fun c hc => by
      obtain rfl : '.' = c := by simpa using hc
      decide
    have hbehind := span_digits hplaces hpower.head_not_digit
    simp only [List.append_assoc, List.cons_append, List.nil_append]
    rw [hspan.1, hspan.2]
    exact ⟨rfl, Prod.ext hbehind.1 hbehind.2⟩
  · have hspan := span_digits hwhole hpower.head_not_digit
    simp only [List.append_nil]
    rw [hspan.1, hspan.2]
    refine ⟨rfl, ?_⟩
    rcases hpower.head with ⟨rfl, -⟩ | ⟨mark, r, rfl, rfl | rfl, -⟩ <;> rfl

theorem Spells.head {s : Text} {q : ℚ} (h : Spells s q) :
    ∃ c t, s = c :: t ∧ (c.isDigit = true ∨ c = '.') := by
  obtain ⟨whole, point, places, power, n, hdigits, hne, hpoint, -⟩ := h
  cases whole with
  | cons c whole => exact ⟨c, _, rfl, .inl (hdigits c (by simp))⟩
  | nil =>
    rcases hpoint with rfl | ⟨rfl, rfl⟩
    · exact ⟨'.', _, rfl, .inr rfl⟩
    · exact absurd rfl hne

theorem splitSign_signText {s : Text} {c : Char} (hs : s.head? = some c)
    (hc : c.isDigit = true ∨ c = '.') (plus negative : Bool) :
    splitSign (signText plus negative ++ s) = (negative, s) := by
  obtain ⟨t, rfl⟩ : ∃ t, s = c :: t := by
    cases s with
    | nil => simp at hs
    | cons d t => exact ⟨t, by simp_all⟩
  have hminus : c ≠ '-' := by
    rintro rfl
    revert hc
    decide
  have hplus : c ≠ '+' := by
    rintro rfl
    revert hc
    decide
  cases negative
  · cases plus
    · simp only [signText, Bool.false_eq_true, if_false, List.nil_append, splitSign]
      split <;> simp_all
    · rfl
  · rfl

/-- A numeral with a sign in front is read as the number that it writes. -/
theorem Spells.read? {s : Text} {q : ℚ} (h : Spells s q) (plus negative : Bool) :
    ∃ x, Numeral.read? (signText plus negative ++ s) = some x ∧ x.negative = negative ∧
      x.value = if negative then -q else q := by
  obtain ⟨c, t, hct, hc⟩ := h.head
  have hsign := splitSign_signText (s := s) (by rw [hct]; rfl) hc plus negative
  obtain ⟨whole, point, places, power, n, hdigits, hne, hpoint, hpower⟩ := h
  obtain ⟨hspan, hbehind⟩ := span_point hdigits hpoint hpower
  refine ⟨⟨negative, valueOf (whole ++ places), n - places.length⟩, ?_, rfl, ?_⟩
  · rw [Numeral.read?_eq]
    have hsome : (whole.isEmpty && places.isEmpty) = false := by
      simpa [List.append_eq_nil_iff, not_and] using hne
    simp only [hsign, hspan, hbehind, hsome, readDigits?_eq hdigits]
    rcases hpower.head with ⟨rfl, rfl⟩ | ⟨mark, r, rfl, hmark, hread⟩
    · rfl
    · simp [hmark, hread]
  · unfold Numeral.value
    dsimp only
    split_ifs <;> ring

/-! ## Taking a numeral apart -/

theorem lowered_append (s t : Text) : lowered (s ++ t) = lowered s ++ lowered t := List.map_append

theorem lowered_of_isDigits {s : Text} (hs : IsDigits s) : lowered s = s := by
  refine (List.map_congr_left fun c hc => ?_).trans (List.map_id' s)
  have hdigit := hs c hc
  simp only [Char.isDigit, Bool.and_eq_true, decide_eq_true_eq] at hdigit
  exact dif_neg fun hupper => absurd (UInt32.le_trans hupper.1 hdigit.2) (by decide)

theorem IsPower.lowered {power : Text} {n : ℤ} (h : IsPower power n) :
    lowered power = [] ∧ n = 0 ∨ ∃ r, lowered power = 'e' :: r ∧ readInteger? r = some n := by
  have hsigned : ∀ {mark sign : Char} {ds : Text}, (mark = 'e' ∨ mark = 'E') →
      (sign = '+' ∨ sign = '-') → IsDigits ds →
      Decimal.lowered (mark :: sign :: ds) = 'e' :: sign :: ds := by
    rintro mark sign ds hmark hsign hds
    have hds := lowered_of_isDigits hds
    unfold Decimal.lowered at hds ⊢
    rw [List.map_cons, List.map_cons, hds]
    rcases hmark with rfl | rfl <;> rcases hsign with rfl | rfl <;> rfl
  cases h with
  | nothing => exact .inl ⟨rfl, rfl⟩
  | plus mark ds hmark hds hne =>
    refine .inr ⟨_, hsigned hmark (.inl rfl) hds, ?_⟩
    simp [readInteger?, splitSign, hne, readDigits?_eq hds]
  | minus mark ds hmark hds hne =>
    refine .inr ⟨_, hsigned hmark (.inr rfl) hds, ?_⟩
    simp [readInteger?, splitSign, hne, readDigits?_eq hds]

theorem takeWhile_append_cons {p : Char → Bool} {s t : Text} {c : Char} (hs : ∀ d ∈ s, p d = true)
    (hc : p c = false) : (s ++ c :: t).takeWhile p = s ∧ (s ++ c :: t).dropWhile p = c :: t := by
  rw [List.takeWhile_append_of_pos hs, List.dropWhile_append_of_pos hs]
  simp [hc]

theorem IsDigits.ne_of_not_isDigit {s : Text} (hs : IsDigits s) {c : Char}
    (hc : c.isDigit = false) : ∀ d ∈ s, (d != c) = true := fun d hd => by
  simp only [bne_iff_ne]
  rintro rfl
  simp [hs d hd] at hc

/-- The exponent of a numeral, from its mark on. -/
def readShift? : Text → Option ℤ
  | [] => some 0
  | _ :: r => readInteger? r

/-- Taking a numeral apart, before its mark and behind it. -/
theorem Parts.read?_eq (s : Text) : Parts.read? s =
    (readShift? (s.dropWhile (· != 'e'))).map fun shift =>
      let mantissa := s.takeWhile (· != 'e')
      let whole := mantissa.takeWhile (· != '.')
      let places := (mantissa.dropWhile (· != '.')).drop 1
      Parts.normal (whole ++ places) (shift + whole.length - 1) := by
  unfold Parts.read?
  cases hrest : s.dropWhile (· != 'e') with
  | nil => rfl
  | cons c r =>
    dsimp only [readShift?]
    cases readInteger? r <;> rfl

/-- The mantissa ends at the mark of the exponent. -/
theorem span_mark {mantissa power : Text} {n : ℤ} (hmantissa : ∀ c ∈ mantissa, (c != 'e') = true)
    (hpower : IsPower power n) :
    (mantissa ++ lowered power).takeWhile (· != 'e') = mantissa ∧
      readShift? ((mantissa ++ lowered power).dropWhile (· != 'e')) = some n := by
  rcases hpower.lowered with ⟨hnone, rfl⟩ | ⟨r, hr, hread⟩
  · rw [hnone, List.append_nil, List.takeWhile_eq_self_iff.mpr hmantissa,
      List.dropWhile_eq_nil_iff.mpr hmantissa]
    exact ⟨rfl, rfl⟩
  · rw [hr]
    obtain ⟨htake, hdrop⟩ := takeWhile_append_cons hmantissa (t := r) (c := 'e') rfl
    rw [htake, hdrop]
    exact ⟨rfl, hread⟩

/-- The whole part of a mantissa ends at its point. -/
theorem span_mantissa {whole point places : Text} (hwhole : IsDigits whole)
    (hpoint : point = ['.'] ∨ point = [] ∧ places = []) :
    (whole ++ point ++ places).takeWhile (· != '.') = whole ∧
      ((whole ++ point ++ places).dropWhile (· != '.')).drop 1 = places := by
  have hnot := hwhole.ne_of_not_isDigit (c := '.') rfl
  rcases hpoint with rfl | ⟨rfl, rfl⟩
  · obtain ⟨htake, hdrop⟩ := takeWhile_append_cons hnot (t := places) (c := '.') rfl
    rw [List.append_assoc, List.singleton_append, htake, hdrop]
    exact ⟨rfl, rfl⟩
  · rw [List.append_nil, List.append_nil, List.takeWhile_eq_self_iff.mpr hnot,
      List.dropWhile_eq_nil_iff.mpr hnot]
    exact ⟨rfl, rfl⟩

/-- The digits of a numeral, without zeros at either end, stand for the number that it writes. -/
theorem Spells.parts {s : Text} {q : ℚ} (h : Spells s q) :
    ∃ p, Parts.read? (lowered s) = some p ∧ IsDigits p.digits ∧ p.digits ≠ [] ∧ p.worth = q := by
  obtain ⟨whole, point, places, power, n, hdigits, hne, hpoint, hpower⟩ := h
  have hwhole : IsDigits whole := hdigits.of_subset (by simp)
  have hplaces : IsDigits places := hdigits.of_subset (by simp)
  have hlowered : lowered (whole ++ point ++ places ++ power) =
      (whole ++ point ++ places) ++ lowered power := by
    have hkept : lowered point = point := by rcases hpoint with rfl | ⟨rfl, -⟩ <;> rfl
    simp only [lowered_append, lowered_of_isDigits hwhole, lowered_of_isDigits hplaces, hkept]
  have hmantissa : ∀ c ∈ whole ++ point ++ places, (c != 'e') = true := by
    intro c hc
    rcases List.mem_append.mp hc with hc | hc
    · rcases List.mem_append.mp hc with hc | hc
      · exact hwhole.ne_of_not_isDigit rfl c hc
      · rcases hpoint with rfl | ⟨rfl, -⟩
        · rw [List.mem_singleton.mp hc]
          rfl
        · exact absurd hc List.not_mem_nil
    · exact hplaces.ne_of_not_isDigit rfl c hc
  obtain ⟨hspan, hshift⟩ := span_mark hmantissa hpower
  obtain ⟨hfront, hbehind⟩ := span_mantissa hwhole hpoint
  refine ⟨Parts.normal (whole ++ places) (n + whole.length - 1), ?_,
    (Parts.isDigits_normal hdigits _).1, (Parts.isDigits_normal hdigits _).2, ?_⟩
  · rw [hlowered, Parts.read?_eq, hspan, hshift]
    simp only [Option.map_some, hfront, hbehind]
  · rw [Parts.worth_normal, Parts.worth, List.length_append]
    congr 2
    push_cast
    ring

/-! ## Integers, decimal and binary numbers -/

theorem spells_toDigits (n : ℕ) : Spells (Nat.toDigits 10 n) n := by
  have h := Spells.intro (Nat.toDigits 10 n) [] [] [] 0 (by simpa using isDigits_toDigits n)
    (by simp [Nat.toDigits_ne_nil]) (.inr ⟨rfl, rfl⟩) .nothing
  simpa using h

theorem magnitude_ten (n : ℕ) : Radix.magnitude 10 n = Nat.toDigits 10 n := rfl

/-- The exponents in written forms, which may be filled up with zeros. -/
theorem isPower_toDigits {mark : Char} (hmark : mark = 'e' ∨ mark = 'E') (zeros : ℕ) (n : ℤ) :
    IsPower (mark :: (if n < 0 then '-' else '+') ::
      (List.replicate zeros '0' ++ Nat.toDigits 10 n.natAbs)) n := by
  have hds := (IsDigits.zeros zeros).append (isDigits_toDigits n.natAbs)
  have hne : List.replicate zeros '0' ++ Nat.toDigits 10 n.natAbs ≠ [] := by
    simp [Nat.toDigits_ne_nil]
  have hvalue : valueOf (List.replicate zeros '0' ++ Nat.toDigits 10 n.natAbs) = n.natAbs := by
    rw [valueOf_zeros_append, valueOf_toDigits]
  split_ifs with hn
  · have h := IsPower.minus mark _ hmark hds hne
    rwa [hvalue, show -(n.natAbs : ℤ) = n by omega] at h
  · have h := IsPower.plus mark _ hmark hds hne
    rwa [hvalue, show (n.natAbs : ℤ) = n by omega] at h

/-- Digits with the point behind so many of them, or with zeros in front or behind; a whole number
ends in `whole`. -/
def placed (whole ds : Text) (point : ℤ) : Text :=
  if point ≤ 0 then '0' :: '.' :: (List.replicate (-point).toNat '0' ++ ds)
  else if ds.length ≤ point then Text.padRight ds point '0' ++ whole
  else ds.take point.toNat ++ '.' :: ds.drop point.toNat

theorem spells_placed {ds whole power : Text} {n : ℤ} (hds : IsDigits ds) (hne : ds ≠ [])
    (hwhole : whole = [] ∨ whole = ['.', '0']) (point : ℤ) (hpower : IsPower power n) :
    Spells (placed whole ds point ++ power) (valueOf ds * 10 ^ (point - ds.length + n)) := by
  unfold placed
  split_ifs with hfront hback
  · have h := Spells.intro ['0'] ['.'] (List.replicate (-point).toNat '0' ++ ds) power n
      (((IsDigits.zeros _).append hds).cons rfl) (by simp) (.inl rfl) hpower
    convert h using 1
    · simp
    · rw [List.singleton_append, ← List.cons_append, ← List.replicate_succ, valueOf_zeros_append,
        List.length_append, List.length_replicate]
      congr 2
      omega
  · unfold Text.padRight
    generalize hz : (point - (ds.length : ℤ)).toNat = z
    have hdigits := hds.append (.zeros z)
    rcases hwhole with rfl | rfl
    · have h := Spells.intro (ds ++ List.replicate z '0') [] [] power n (by simpa using hdigits)
        (by simp [hne]) (.inr ⟨rfl, rfl⟩) hpower
      convert h using 1
      · simp
      · rw [List.append_nil, valueOf_append_zeros_mul]
        congr 2
        simp only [List.length_nil]
        omega
    · have h := Spells.intro (ds ++ List.replicate z '0') ['.'] ['0'] power n
        (hdigits.append (by decide)) (by simp [hne]) (.inl rfl) hpower
      convert h using 1
      · simp
      · have hzeros : ds ++ List.replicate z '0' ++ ['0'] = ds ++ List.replicate (z + 1) '0' := by
          rw [List.replicate_succ', List.append_assoc]
        rw [hzeros, valueOf_append_zeros_mul]
        congr 2
        simp only [List.length_singleton]
        omega
  · have h := Spells.intro (ds.take point.toNat) ['.'] (ds.drop point.toNat) power n
      (by rwa [List.take_append_drop]) (by rwa [List.take_append_drop]) (.inl rfl) hpower
    convert h using 1
    · simp
    · rw [List.take_append_drop, List.length_drop]
      congr 2
      omega

/-- The exponent of a decimal number is left out where the point says it all. -/
theorem exists_power (body : Text) (left point : ℤ) :
    ∃ power, IsPower power (left - point) ∧
      (if left = point then body
        else body ++ 'E' :: (if left - point < 0 then '-' else '+') ::
          Radix.magnitude 10 (left - point).natAbs) = body ++ power := by
  by_cases hleft : left = point
  · rw [if_pos hleft, hleft, sub_self]
    exact ⟨[], .nothing, (List.append_nil body).symm⟩
  · rw [if_neg hleft]
    exact ⟨_, isPower_toDigits (.inr rfl) 0 (left - point), rfl⟩

theorem plainText_eq (c : ℕ) (e : ℤ) : plainText c e =
    (let left : ℤ := e + (Radix.magnitude 10 c).length
    let point : ℤ := if e ≤ 0 ∧ -6 < left then left else 1
    if left = point then placed [] (Radix.magnitude 10 c) point
    else placed [] (Radix.magnitude 10 c) point ++ 'E' :: (if left - point < 0 then '-' else '+') ::
      Radix.magnitude 10 (left - point).natAbs) := by
  simp only [plainText, placed, List.append_nil]

/-- The written form of a decimal number, without its sign. -/
theorem spells_plainText (c : ℕ) (e : ℤ) : Spells (plainText c e) (c * 10 ^ e) := by
  obtain ⟨point, power, hpower, htext⟩ : ∃ point power,
      IsPower power (e + (Nat.toDigits 10 c).length - point) ∧
        plainText c e = placed [] (Nat.toDigits 10 c) point ++ power :=
    ⟨_, (exists_power _ _ _).imp fun power h => ⟨h.1, (plainText_eq c e).trans h.2⟩⟩
  have h := spells_placed (isDigits_toDigits c) Nat.toDigits_ne_nil (.inl rfl) point hpower
  rw [htext]
  convert h using 1
  rw [valueOf_toDigits]
  congr 2
  omega

/-- The written form of a finite binary number is that of its shortest decimal, with a minus in front
of it if there is one. -/
theorem exists_floatText (m : ℕ) (e : ℤ) :
    ∃ body : Text, Spells body ((shortest m e).1 * 10 ^ (shortest m e).2) ∧ ∀ negative,
      floatText ['.', '0'] (.finite negative m e) = signText false negative ++ body := by
  generalize hshort : shortest m e = short
  obtain ⟨c, k⟩ := short
  have hds := isDigits_toDigits c
  have hne : Nat.toDigits 10 c ≠ [] := Nat.toDigits_ne_nil
  have hvalue := valueOf_toDigits c
  simp only [floatText, hshort, magnitude_ten]
  generalize Nat.toDigits 10 c = ds at hds hne hvalue
  by_cases hplain : -4 < (ds.length : ℤ) + k ∧ (ds.length : ℤ) + k ≤ 16
  · have hspells := spells_placed hds hne (.inr rfl) (ds.length + k) .nothing
    rw [List.append_nil, hvalue, add_zero, add_sub_cancel_left] at hspells
    refine ⟨_, hspells, fun negative => ?_⟩
    rw [if_pos hplain]
    cases negative <;> rfl
  · have hpower : IsPower ('e' :: exponentText (ds.length + k - 1)) (ds.length + k - 1) :=
      isPower_toDigits (.inl rfl) _ _
    have hspells := spells_placed hds hne (.inl rfl) 1 hpower
    rw [hvalue, show 1 - (ds.length : ℤ) + (ds.length + k - 1) = k by ring] at hspells
    refine ⟨_, hspells, fun negative => ?_⟩
    have hfront : (ds.take 1 ++ if ds.length = 1 then [] else '.' :: ds.drop 1) =
        placed [] ds 1 := by
      have hpos := List.length_pos_iff.mpr hne
      unfold placed
      rw [if_neg (show ¬(1 : ℤ) ≤ 0 by decide)]
      by_cases hone : ds.length = 1
      · rw [if_pos hone, if_pos (by omega), List.take_of_length_le (by omega)]
        simp [Text.padRight, hone]
      · rw [if_neg hone, if_neg (by omega)]
        rfl
    rw [if_neg hplain, hfront]
    cases negative <;> rfl

end Tilde.Decimal
