import Tilde.Proofs.Decimal.Spelled
import Tilde.Proofs.Directive.Refusal
import Tilde.Proofs.Directive.Reread
import Tilde.Proofs.Radix.Digits
import Tilde.Proofs.Radix.Groups

/-!
# Parameters as they are written

Parameters are read back as they have been written, each of them followed by a comma or only
separated from the next one. Integers may have a sign and zeros in front of their digits, but not
more digits than numerals can have.

* `Parameter.IsWritten`: how a parameter can be written;
* `BelongsToParameter`: the characters that begin a parameter or go on with one;
* `placed`: the parameters with the offsets at which they begin;
* `readParameter_written`, `scanParameters_separated`: one parameter, and a row of them;
* **`scanParameters_written`**: a list of parameters is read back;
* `exists_scanParameters_ne`: an integer with more digits is not.
-/

namespace Tilde

variable {p : Parameter} {ps : List (Parameter × Text)} {s t rest : Text} {c : Char} {i n zeros : ℕ}

/-! ## Writing -/

/-- The text is a way to write the parameter. Its digits are not more than a numeral can have. -/
inductive Parameter.IsWritten : Parameter → Text → Prop
  | absent : IsWritten .absent []
  | natural (n zeros : ℕ) (sign : Text) (hsign : sign = [] ∨ sign = ['+'])
      (hfew : (List.replicate zeros '0' ++ Radix.magnitude 10 n).length ≤ Text.greatestDigitCount) :
      IsWritten (.number n) (sign ++ (List.replicate zeros '0' ++ Radix.magnitude 10 n))
  | negated (n zeros : ℕ)
      (hfew : (List.replicate zeros '0' ++ Radix.magnitude 10 n).length ≤ Text.greatestDigitCount) :
      IsWritten (.number (-n)) ('-' :: (List.replicate zeros '0' ++ Radix.magnitude 10 n))
  | character (c : Char) : IsWritten (.character c) ['\'', c]
  | next (c : Char) (hc : c = 'V' ∨ c = 'v') : IsWritten .next [c]
  | remaining : IsWritten .remaining ['#']

/-- An integer is written by its decimal numeral. -/
theorem Parameter.isWritten_decimal {n : ℤ}
    (hfew : (Radix.magnitude 10 n.natAbs).length ≤ Text.greatestDigitCount) :
    IsWritten (.number n) (Radix.decimal n) := by
  rcases lt_or_ge n 0 with hn | hn
  · have h := IsWritten.negated n.natAbs 0 hfew
    rw [show -(n.natAbs : ℤ) = n by omega] at h
    rw [Radix.decimal, Radix.numeral, Radix.sign, if_pos hn]
    exact h
  · have h := IsWritten.natural n.natAbs 0 [] (.inl rfl) hfew
    rw [show (n.natAbs : ℤ) = n by omega] at h
    rw [Radix.decimal, Radix.numeral, Radix.sign, if_neg (by omega)]
    exact h

/-- The character can begin a parameter, or go on with a number. -/
def BelongsToParameter (c : Char) : Prop :=
  c ∈ [',', '+', '-', '\'', 'V', 'v', '#'] ∨ Text.looksLikeDigit c = true

instance (c : Char) : Decidable (BelongsToParameter c) := by
  unfold BelongsToParameter
  infer_instance

/-- The parameters, each with the offset at which it begins, if there is one character between each
of them and the next one. -/
def placed : ℕ → List (Parameter × Text) → List (Parameter × ℕ)
  | _, [] => []
  | offset, (p, s) :: ps => (p, offset) :: placed (offset + s.length + 1) ps

/-- The texts of the parameters, each followed by a comma. -/
def followedByCommas (ps : List (Parameter × Text)) : Text := ps.flatMap fun p => p.2 ++ [',']

/-- The texts of the parameters with commas between them. -/
def joinedByCommas (ps : List (Parameter × Text)) : Text := Text.join [','] (ps.map Prod.snd)

/-- The parameters without the last one, if that is left out. -/
def withoutFinalAbsent (ps : List (Parameter × Text)) : List (Parameter × Text) :=
  if ps.getLast?.map Prod.fst = some .absent then ps.dropLast else ps

/-! ## One parameter -/

theorem isDigits_zeros_append (zeros n : ℕ) :
    Decimal.IsDigits (List.replicate zeros '0' ++ Radix.magnitude 10 n) := by
  rw [Decimal.magnitude_ten]
  exact (Decimal.IsDigits.zeros zeros).append (Decimal.isDigits_toDigits n)

theorem readNatural?_eq
    (hfew : (List.replicate zeros '0' ++ Radix.magnitude 10 n).length ≤ Text.greatestDigitCount) :
    Text.readNatural? (List.replicate zeros '0' ++ Radix.magnitude 10 n) = some n := by
  rw [Text.readNatural?, if_neg (by omega), Decimal.readDigits?_eq (isDigits_zeros_append zeros n),
    Decimal.valueOf_zeros_append, Decimal.magnitude_ten, Decimal.valueOf_toDigits]

theorem magnitude_ne_nil (n : ℕ) : Radix.magnitude 10 n ≠ [] := by
  rw [Radix.magnitude_eq_digits]
  exact Radix.digits_ne_nil (by omega) n

/-- A number goes as far as there are digits. -/
theorem readParameter_number {digits : Text} {m : ℤ} (hc : beginsNumber c = true)
    (hdigits : Decimal.IsDigits digits) (ht : ∀ x ∈ t.head?, Text.looksLikeDigit x = false)
    (hn : readNumber i c digits = .ok m) :
    readParameter? ⟨c :: (digits ++ t), i⟩ =
      .ok (some (.number m, Remainder.skipComma ⟨t, i + (c :: digits).length⟩)) := by
  have hcomma : c ≠ ',' := by
    rintro rfl
    exact absurd hc (by decide)
  have hstop : t.dropWhile Text.looksLikeDigit = t := by
    cases t with
    | nil => rfl
    | cons x t => exact List.dropWhile_cons_of_neg (by simp [ht x rfl])
  have hspan := Text.takeWhile_append (fun x hx => looksLikeDigit_of_isDigit (hdigits x hx)) hstop
  have hlength : i + (c :: digits).length = i + 1 + digits.length := by
    rw [List.length_cons]
    omega
  simp only [readParameter?, if_neg hcomma, hc, if_true, hspan.1, hspan.2, hn, Except.map, hlength]

/-- A parameter that is not left out takes its text, and a comma behind it. -/
theorem readParameter_written (h : p.IsWritten s) (hp : p ≠ .absent)
    (ht : ∀ x ∈ t.head?, Text.looksLikeDigit x = false) :
    readParameter? ⟨s ++ t, i⟩ = .ok (some (p, Remainder.skipComma ⟨t, i + s.length⟩)) := by
  cases h with
  | absent => exact absurd rfl hp
  | natural n zeros sign hsign hfew =>
    have hdigits := isDigits_zeros_append zeros n
    have hread := readNatural?_eq hfew
    rcases hsign with rfl | rfl
    · -- the number begins with its first digit
      obtain ⟨c, digits, hc⟩ := List.exists_cons_of_ne_nil (l :=
        List.replicate zeros '0' ++ Radix.magnitude 10 n) (by simp [magnitude_ne_nil])
      rw [hc] at hdigits hread
      have hdigit : c.isDigit = true := hdigits c List.mem_cons_self
      have hn : readNumber i c digits = .ok n := by
        simp only [readNumber, hdigit, if_true, hread]
      rw [List.nil_append, hc, List.cons_append]
      exact readParameter_number (by simp [beginsNumber, hdigit])
        (fun x hx => hdigits x (List.mem_cons_of_mem c hx)) ht hn
    · have hn : readNumber i '+' (List.replicate zeros '0' ++ Radix.magnitude 10 n) = .ok n := by
        simp [readNumber, hread, magnitude_ne_nil]
      exact readParameter_number (by decide) hdigits ht hn
  | negated n zeros hfew =>
    have hn : readNumber i '-' (List.replicate zeros '0' ++ Radix.magnitude 10 n) = .ok (-n) := by
      simp [readNumber, readNatural?_eq hfew, magnitude_ne_nil]
    exact readParameter_number (by decide) (isDigits_zeros_append zeros n) ht hn
  | character c => rfl
  | next c hc => rcases hc with rfl | rfl <;> rfl
  | remaining => rfl

/-- A parameter with a comma behind it takes both. -/
theorem readParameter_comma (h : p.IsWritten s) :
    readParameter? ⟨s ++ ',' :: t, i⟩ = .ok (some (p, ⟨t, i + s.length + 1⟩)) := by
  by_cases hp : p = .absent
  · subst hp
    cases h
    rfl
  · refine readParameter_written h hp fun x hx => ?_
    obtain rfl : ',' = x := by simpa using hx
    decide

/-- What belongs to no parameter is left. -/
theorem readParameter_rest (hrest : ∀ c ∈ rest.head?, ¬BelongsToParameter c) :
    readParameter? ⟨rest, i⟩ = .ok none := by
  cases rest with
  | nil => rfl
  | cons c rest =>
    obtain ⟨hmark, hdigit⟩ := not_or.mp (hrest c rfl)
    simp only [List.mem_cons, List.not_mem_nil, or_false, not_or] at hmark
    obtain ⟨hcomma, hplus, hminus, hquote, hV, hv, hremaining⟩ := hmark
    have hnumber : beginsNumber c = false := by
      cases hc : c.isDigit with
      | false => simp [beginsNumber, hplus, hminus, hc]
      | true => exact absurd (looksLikeDigit_of_isDigit hc) hdigit
    simp [readParameter?, hcomma, hnumber, hquote, hV, hv, hremaining]

/-! ## A row of them -/

/-- Parameters with commas behind them come in front of those that follow. -/
theorem scanParameters_separated {qs : List (Parameter × ℕ)} {r : Remainder}
    (hps : ∀ p ∈ ps, p.1.IsWritten p.2)
    (ht : scanParameters ⟨t, i + (followedByCommas ps).length⟩ = .ok (qs, r)) :
    scanParameters ⟨followedByCommas ps ++ t, i⟩ = .ok (placed i ps ++ qs, r) := by
  induction ps generalizing i with
  | nil => exact ht
  | cons p ps ih =>
    obtain ⟨p, s⟩ := p
    have hp : p.IsWritten s := hps (p, s) List.mem_cons_self
    have htext : followedByCommas ((p, s) :: ps) = s ++ ',' :: followedByCommas ps := by
      simp [followedByCommas]
    rw [htext, List.length_append, List.length_cons] at ht
    rw [htext, List.append_assoc, List.cons_append]
    refine scanParameters_some (readParameter_comma hp)
      (ih (fun q hq => hps q (List.mem_cons_of_mem _ hq)) ?_)
    rwa [show i + s.length + 1 + (followedByCommas ps).length =
      i + (s.length + ((followedByCommas ps).length + 1)) by omega]

theorem scanParameters_rest (hrest : ∀ c ∈ rest.head?, ¬BelongsToParameter c) (i : ℕ) :
    scanParameters ⟨rest, i⟩ = .ok ([], ⟨rest, i⟩) := scanParameters_none (readParameter_rest hrest)

theorem joinedByCommas_concat (ps : List (Parameter × Text)) (p : Parameter × Text) :
    joinedByCommas (ps ++ [p]) = followedByCommas ps ++ p.2 := by
  induction ps with
  | nil => exact Text.join_singleton _ _
  | cons q ps ih =>
    have hsplit : followedByCommas (q :: ps) = q.2 ++ [','] ++ followedByCommas ps :=
      List.flatMap_cons
    rw [hsplit, List.append_assoc, ← ih]
    unfold joinedByCommas
    cases ps with
    | nil => exact Text.join_cons_cons _ _ _ _
    | cons q' ps => exact Text.join_cons_cons _ _ _ _

theorem placed_concat (i : ℕ) (ps : List (Parameter × Text)) (p : Parameter × Text) :
    placed i (ps ++ [p]) = placed i ps ++ [(p.1, i + (followedByCommas ps).length)] := by
  induction ps generalizing i with
  | nil => rfl
  | cons q ps ih =>
    obtain ⟨q, s⟩ := q
    have hlength : (followedByCommas ((q, s) :: ps)).length =
        s.length + 1 + (followedByCommas ps).length := by
      simp only [followedByCommas, List.flatMap_cons, List.length_append, List.length_singleton]
    rw [hlength, ← Nat.add_assoc, ← Nat.add_assoc]
    exact congrArg ((q, i) :: ·) (ih _)

/-- The last parameter needs no comma behind it, and is not there if it is left out. -/
theorem scanParameters_joined (hps : ∀ p ∈ ps, p.1.IsWritten p.2)
    (hrest : ∀ c ∈ rest.head?, ¬BelongsToParameter c) :
    scanParameters ⟨joinedByCommas ps ++ rest, i⟩ =
      .ok (placed i (withoutFinalAbsent ps), ⟨rest, i + (joinedByCommas ps).length⟩) := by
  rcases List.eq_nil_or_concat' ps with rfl | ⟨qs, ⟨p, s⟩, rfl⟩
  · exact scanParameters_rest hrest i
  have hqs : ∀ q ∈ qs, q.1.IsWritten q.2 := fun q hq => hps q (by simp [hq])
  have hp : p.IsWritten s := hps (p, s) (by simp)
  rw [joinedByCommas_concat, List.append_assoc, List.length_append, ← Nat.add_assoc]
  unfold withoutFinalAbsent
  simp only [List.getLast?_append, List.getLast?_singleton, Option.some_or, Option.map_some,
    Option.some.injEq, List.dropLast_concat]
  split_ifs with habsent
  · subst habsent
    cases hp
    have h := scanParameters_separated hqs
      (scanParameters_rest hrest (i + (followedByCommas qs).length))
    rwa [List.append_nil] at h
  · have hdigit : ∀ x ∈ rest.head?, Text.looksLikeDigit x = false := fun x hx =>
      Bool.eq_false_iff.mpr fun h => hrest x hx (.inr h)
    have hcomma : ∀ j, Remainder.skipComma ⟨rest, j⟩ = ⟨rest, j⟩ := fun j => by
      unfold Remainder.skipComma
      split
      · rename_i u hu
        simp only at hu
        subst hu
        exact absurd (.inl (by simp)) (hrest ',' rfl)
      · rfl
    have hread := readParameter_written (i := i + (followedByCommas qs).length) hp habsent hdigit
    rw [hcomma] at hread
    rw [placed_concat]
    exact scanParameters_separated hqs (scanParameters_some hread (scanParameters_rest hrest _))

/-- **Parameters are read back as written.** A list of parameters, each followed by a comma, gives
the same list again, with the offset of the first character of each, and leaves what follows. With
commas between the parameters only, a last one that is left out is not there. -/
theorem scanParameters_written (hps : ∀ p ∈ ps, p.1.IsWritten p.2)
    (hrest : ∀ c ∈ rest.head?, ¬BelongsToParameter c) (offset : ℕ) :
    scanParameters ⟨followedByCommas ps ++ rest, offset⟩ =
        .ok (placed offset ps, ⟨rest, offset + (followedByCommas ps).length⟩) ∧
      scanParameters ⟨joinedByCommas ps ++ rest, offset⟩ =
        .ok (placed offset (withoutFinalAbsent ps),
          ⟨rest, offset + (joinedByCommas ps).length⟩) := by
  refine ⟨?_, scanParameters_joined hps hrest⟩
  have h := scanParameters_separated hps
    (scanParameters_rest hrest (offset + (followedByCommas ps).length))
  rwa [List.append_nil] at h

/-- A negative number, a comma as a character, and a parameter that is left out. -/
theorem scanParameters_written_negative :
    (∀ p ∈ [(Parameter.number (-12), Radix.decimal (-12)), (.character ',', ['\'', ',']),
        (.absent, [])], p.1.IsWritten p.2) ∧
      (∀ c ∈ ['D'].head?, ¬BelongsToParameter c) ∧
      scanParameters ⟨['-', '1', '2', ',', '\'', ',', ',', ',', 'D'], 1⟩ =
        .ok ([(.number (-12), 1), (.character ',', 5), (.absent, 8)], ⟨['D'], 9⟩) ∧
      scanParameters ⟨['-', '1', '2', ',', '\'', ',', ',', 'D'], 1⟩ =
        .ok ([(.number (-12), 1), (.character ',', 5)], ⟨['D'], 8⟩) := by
  have hps : ∀ p ∈ [(Parameter.number (-12), Radix.decimal (-12)), (.character ',', ['\'', ',']),
      (.absent, [])], p.1.IsWritten p.2 := by
    simp only [List.mem_cons, List.not_mem_nil, or_false, forall_eq_or_imp, forall_eq]
    exact ⟨Parameter.isWritten_decimal (by decide), .character ',', .absent⟩
  have hrest : ∀ c ∈ ['D'].head?, ¬BelongsToParameter c := by
    rintro c ⟨⟩
    decide
  exact ⟨hps, hrest, scanParameters_written hps hrest 1⟩

/-! ## Numbers with too many digits -/

/-- A number with more digits than numerals can have is not read. -/
theorem scanParameters_tooLong (hn : Text.greatestDigitCount < (Radix.magnitude 10 n).length)
    (ht : ∀ x ∈ t.head?, Text.looksLikeDigit x = false) :
    scanParameters ⟨Radix.magnitude 10 n ++ t, i⟩ = .error .unreadableInteger := by
  have hdigits : Decimal.IsDigits (Radix.magnitude 10 n) := isDigits_zeros_append 0 n
  obtain ⟨c, digits, hc⟩ := List.exists_cons_of_ne_nil (magnitude_ne_nil n)
  rw [hc] at hn hdigits ⊢
  have hread : readParameter? ⟨c :: (digits ++ t), i⟩ = .error .unreadableInteger :=
    readParameter_unreadable (hdigits c List.mem_cons_self)
      (fun x hx => looksLikeDigit_of_isDigit (hdigits x (List.mem_cons_of_mem c hx))) ht (if_pos hn)
  rw [List.cons_append]
  unfold scanParameters
  split <;> simp_all

/-- The least number of 4301 digits is not read back. -/
theorem exists_scanParameters_ne : ∃ n : ℤ,
    scanParameters ⟨Radix.decimal n ++ [','], 0⟩ ≠
      .ok ([(.number n, 0)], ⟨[], (Radix.decimal n).length + 1⟩) := by
  refine ⟨(10 ^ Text.greatestDigitCount : ℕ), ?_⟩
  have hlong : Text.greatestDigitCount <
      (Radix.magnitude 10 (10 ^ Text.greatestDigitCount)).length := by
    have h := Decimal.valueOf_lt (Decimal.isDigits_toDigits (10 ^ Text.greatestDigitCount))
    rw [Decimal.valueOf_toDigits] at h
    rw [Decimal.magnitude_ten]
    exact (Nat.pow_lt_pow_iff_right (by decide)).mp h
  have hdecimal : Radix.decimal (10 ^ Text.greatestDigitCount : ℕ) =
      Radix.magnitude 10 (10 ^ Text.greatestDigitCount) := by
    rw [Radix.decimal, Radix.numeral, Radix.sign, if_neg (Int.natCast_nonneg _).not_gt,
      Int.natAbs_natCast, List.nil_append]
  rw [hdecimal, scanParameters_tooLong hlong fun x hx => by
    obtain rfl : ',' = x := by simpa using hx
    decide]
  exact fun h => by cases h

end Tilde
