import Tilde.Directive.Malformed
import Tilde.Text.DecimalDigit

/-!
# Parameters and modifiers

Between its tilde and its character a directive has parameters, each of them followed by a comma
unless it is the last, and then modifiers in any order, each at most once.

* `readParameter?`: one parameter, which takes at least one character;
* `scanParameters`: the parameters with their offsets;
* `scanModifiers`: the modifiers.

They return what is left of the control string, which never gets longer.
-/

namespace Tilde

/-- A text together with the offset at which it begins in the control string. -/
structure Remainder where
  text : Text
  offset : Nat
  deriving DecidableEq, Repr

/-- Without one character. -/
def Remainder.tail (r : Remainder) : Remainder := ⟨r.text.drop 1, r.offset + 1⟩

/-- Skips the comma after a parameter. -/
def Remainder.skipComma (r : Remainder) : Remainder :=
  match r.text with
  | ',' :: s => ⟨s, r.offset + 1⟩
  | _ => r

theorem Remainder.length_skipComma_le (r : Remainder) :
    r.skipComma.text.length ≤ r.text.length := by
  unfold Remainder.skipComma
  split <;> simp_all

/-- The character can begin a number. -/
def beginsNumber (c : Char) : Bool := c == '+' || c == '-' || c.isDigit

/-- The integer of a sign or digit and the digits after it. -/
def readNumber (offset : Nat) (c : Char) (digits : Text) : Except Malformed Int :=
  if c.isDigit then
    match Text.readNatural? (c :: digits) with
    | some n => .ok n
    | none => .error .unreadableInteger
  else if digits.isEmpty then .error (.located offset .invalidNumber)
  else
    match Text.readNatural? digits with
    | some n => .ok (if c = '-' then -(n : Int) else n)
    | none => .error .unreadableInteger

/-- Reads one parameter and the comma after it; none if the text does not begin with one. -/
def readParameter? (r : Remainder) : Except Malformed (Option (Parameter × Remainder)) :=
  match r.text with
  | [] => .ok none
  | c :: s =>
    if c = ',' then .ok (some (.absent, ⟨s, r.offset + 1⟩))
    else if beginsNumber c then
      let digits := s.takeWhile Text.looksLikeDigit
      let rest := s.dropWhile Text.looksLikeDigit
      (readNumber r.offset c digits).map fun n =>
        some (.number n, Remainder.skipComma ⟨rest, r.offset + 1 + digits.length⟩)
    else if c = '\'' then
      match s with
      | [] => .error (.located r.offset .missingCharacter)
      | x :: rest => .ok (some (.character x, Remainder.skipComma ⟨rest, r.offset + 2⟩))
    else if c = 'V' ∨ c = 'v' then .ok (some (.next, Remainder.skipComma ⟨s, r.offset + 1⟩))
    else if c = '#' then .ok (some (.remaining, Remainder.skipComma ⟨s, r.offset + 1⟩))
    else .ok none

theorem length_lt_of_readParameter {r r' : Remainder} {p : Parameter}
    (h : readParameter? r = .ok (some (p, r'))) : r'.text.length < r.text.length := by
  unfold readParameter? at h
  split at h
  · simp at h
  · rename_i c s hs
    rw [hs]
    have skip (t : Remainder) (ht : t.text.length ≤ s.length) :
        t.skipComma.text.length < (c :: s).length := by
      have := t.length_skipComma_le
      simp only [List.length_cons]; omega
    split at h
    · simp only [Except.ok.injEq, Option.some.injEq, Prod.mk.injEq] at h
      simp [← h.2]
    split at h
    · cases hn : readNumber r.offset c (s.takeWhile Text.looksLikeDigit) with
      | error e => simp [hn, Except.map] at h
      | ok n =>
        simp only [hn, Except.map, Except.ok.injEq, Option.some.injEq, Prod.mk.injEq] at h
        rw [← h.2]
        exact skip _ (List.dropWhile_suffix Text.looksLikeDigit).length_le
    split at h
    · split at h
      · simp at h
      · simp only [Except.ok.injEq, Option.some.injEq, Prod.mk.injEq] at h
        rw [← h.2]
        exact skip _ (by simp)
    split at h
    · simp only [Except.ok.injEq, Option.some.injEq, Prod.mk.injEq] at h
      rw [← h.2]
      exact skip _ (Nat.le_refl _)
    split at h
    · simp only [Except.ok.injEq, Option.some.injEq, Prod.mk.injEq] at h
      rw [← h.2]
      exact skip _ (Nat.le_refl _)
    · simp at h

/-- Reads parameters as long as there are any. -/
def scanParameters (r : Remainder) : Except Malformed (List (Parameter × Nat) × Remainder) :=
  match _ : readParameter? r with
  | .error e => .error e
  | .ok none => .ok ([], r)
  | .ok (some (p, r')) =>
    match scanParameters r' with
    | .error e => .error e
    | .ok (ps, r'') => .ok ((p, r.offset) :: ps, r'')
termination_by r.text.length
decreasing_by exact length_lt_of_readParameter (by assumption)

/-- Reads modifiers as long as there are any, given those already seen. -/
def scanModifiers (colon atSign : Bool) : Text → Nat → Except Malformed (Bool × Bool × Remainder)
  | ':' :: s, offset =>
    if colon then .error (.located offset .tooManyColons)
    else scanModifiers true atSign s (offset + 1)
  | '@' :: s, offset =>
    if atSign then .error (.located offset .tooManyAtSigns)
    else scanModifiers colon true s (offset + 1)
  | s, offset => .ok (colon, atSign, ⟨s, offset⟩)

theorem length_le_of_scanModifiers {colon atSign : Bool} {s : Text} {offset : Nat}
    {b1 b2 : Bool} {r : Remainder}
    (h : scanModifiers colon atSign s offset = .ok (b1, b2, r)) : r.text.length ≤ s.length := by
  fun_induction scanModifiers colon atSign s offset with
  | case1 => simp at h
  | case2 _ _ s _ _ ih => have := ih h; simp; omega
  | case3 => simp at h
  | case4 _ _ s _ _ ih => have := ih h; simp; omega
  | case5 => simp only [Except.ok.injEq, Prod.mk.injEq] at h; simp [← h.2.2]

theorem length_le_of_scanParameters {r r' : Remainder} {ps : List (Parameter × Nat)}
    (h : scanParameters r = .ok (ps, r')) : r'.text.length ≤ r.text.length := by
  fun_induction scanParameters r generalizing ps r' with
  | case1 => simp at h
  | case2 => simp only [Except.ok.injEq, Prod.mk.injEq] at h; simp [← h.2]
  | case3 => simp at h
  | case4 r p r1 hr ps1 r2 h2 ih =>
    simp only [Except.ok.injEq, Prod.mk.injEq] at h
    have h1 := ih h2
    have h0 := length_lt_of_readParameter hr
    rw [← h.2]
    omega

end Tilde
