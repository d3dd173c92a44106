import Mathlib.Data.List.Infix
import Tilde.Directive.Parse

/-!
# What reading leaves

Reading goes through a control string from left to right: each step takes a text from the front and
leaves the rest, with its offset.

* `Remainder.Leaves`: what is left behind a text;
* `leaves_readParameter`, `leaves_scanParameters`, `leaves_scanModifiers`: parameters and modifiers,
  with the texts that they take.
-/

namespace Tilde

variable {s t : Text} {x : Char} {r r' r'' : Remainder}

theorem exists_of_map_ok {ε α β : Type} {f : α → β} {a : Except ε α} {b : β}
    (h : a.map f = .ok b) : ∃ x, a = .ok x ∧ f x = b := by
  cases a with
  | error e => simp [Except.map] at h
  | ok x => exact ⟨x, rfl, Except.ok.inj h⟩

theorem eq_error_of_map {ε α β : Type} {f : α → β} {a : Except ε α} {e : ε}
    (h : a.map f = .error e) : a = .error e := by
  cases a with
  | error e' => exact congrArg Except.error (Except.error.inj h)
  | ok x => simp [Except.map] at h

/-- Taking the text from the front of the one leaves the other. -/
structure Remainder.Leaves (r : Remainder) (s : Text) (r' : Remainder) : Prop where
  text : r.text = s ++ r'.text
  offset : r'.offset = r.offset + s.length

namespace Remainder.Leaves

theorem refl (r : Remainder) : r.Leaves [] r := ⟨rfl, rfl⟩

theorem trans (h : r.Leaves s r') (h' : r'.Leaves t r'') : r.Leaves (s ++ t) r'' := by
  refine ⟨?_, ?_⟩
  · rw [h.text, h'.text, List.append_assoc]
  · rw [h'.offset, h.offset, List.length_append, Nat.add_assoc]

theorem length (h : r.Leaves s r') : r.text.length = s.length + r'.text.length := by
  rw [h.text, List.length_append]

theorem skipComma (r : Remainder) :
    ∃ comma, r.Leaves comma r.skipComma ∧ (comma = [] ∨ comma = [',']) := by
  unfold Remainder.skipComma
  split
  · rename_i s hs
    exact ⟨[','], ⟨hs, rfl⟩, .inr rfl⟩
  · exact ⟨[], .refl r, .inl rfl⟩

end Remainder.Leaves

/-! ## Parameters -/

/-- A text that begins a parameter is written as the number. -/
def Text.Writes (s : Text) (n : Int) : Prop :=
  ∃ sign digits, s = sign ++ digits ∧ Text.readNatural? digits = some n.natAbs

theorem writes_of_readNumber {offset : Nat} {digits : Text} {n : Int}
    (h : readNumber offset x digits = .ok n) : Text.Writes (x :: digits) n := by
  unfold readNumber at h
  split_ifs at h
  · split at h
    · rename_i m hm
      obtain rfl := Except.ok.inj h
      exact ⟨[], x :: digits, rfl, by simpa using hm⟩
    · simp at h
  all_goals
    split at h
    · rename_i m hm
      obtain rfl := Except.ok.inj h
      exact ⟨[x], digits, rfl, by simpa using hm⟩
    · simp at h

/-- A parameter takes a word and perhaps a comma. -/
theorem leaves_readParameter {p : Parameter} (h : readParameter? r = .ok (some (p, r'))) :
    ∃ word comma, r.Leaves (word ++ comma) r' ∧ word ≠ [] ∧ (comma = [] ∨ comma = [',']) ∧
      ∀ n, p = .number n → Text.Writes word n := by
  have take (x : Char) (s t : Text) (hs : r.text = x :: s ++ t) (p : Parameter)
      (hp : ∀ n, p = .number n → Text.Writes (x :: s) n)
      (hr : r' = Remainder.skipComma ⟨t, r.offset + (s.length + 1)⟩) :
      ∃ word comma, r.Leaves (word ++ comma) r' ∧ word ≠ [] ∧ (comma = [] ∨ comma = [',']) ∧
        ∀ n, p = .number n → Text.Writes word n := by
    obtain ⟨comma, hleaves, hcomma⟩ :=
      Remainder.Leaves.skipComma ⟨t, r.offset + (s.length + 1)⟩
    have hword : r.Leaves (x :: s) ⟨t, r.offset + (s.length + 1)⟩ := ⟨hs, rfl⟩
    exact ⟨x :: s, comma, hr ▸ hword.trans hleaves, List.cons_ne_nil x s, hcomma, hp⟩
  unfold readParameter? at h
  split at h
  · simp at h
  rename_i x s hs
  split_ifs at h with hx hx hx hx hx
  · obtain ⟨rfl, rfl⟩ := by simpa using h
    exact ⟨[x], [], ⟨hs, rfl⟩, List.cons_ne_nil x [], .inl rfl, by simp⟩
  · cases hn : readNumber r.offset x (s.takeWhile Text.looksLikeDigit) with
    | error e => simp [hn, Except.map] at h
    | ok n =>
      obtain ⟨rfl, hr⟩ := by simpa [hn, Except.map] using h
      refine take x (s.takeWhile Text.looksLikeDigit) (s.dropWhile Text.looksLikeDigit) ?_ _ ?_ ?_
      · rw [hs, List.cons_append, List.takeWhile_append_dropWhile]
      · rintro m ⟨⟩
        exact writes_of_readNumber hn
      · rw [← hr, Nat.add_right_comm, Nat.add_assoc]
  · split at h
    · simp at h
    · rename_i y rest
      obtain ⟨rfl, hr⟩ := by simpa using h
      exact take x [y] rest hs _ (by simp) hr.symm
  · obtain ⟨rfl, hr⟩ := by simpa using h
    exact take x [] s hs _ (by simp) hr.symm
  · obtain ⟨rfl, hr⟩ := by simpa using h
    exact take x [] s hs _ (by simp) hr.symm
  · simp at h

/-- Each parameter begins before what is left. -/
theorem leaves_scanParameters {ps : List (Parameter × Nat)}
    (h : scanParameters r = .ok (ps, r')) :
    ∃ s, r.Leaves s r' ∧ ∀ p ∈ ps, r.offset ≤ p.2 ∧ p.2 < r'.offset := by
  fun_induction scanParameters r generalizing ps r' with
  | case1 => simp at h
  | case2 =>
    obtain ⟨rfl, rfl⟩ := by simpa using h
    exact ⟨[], .refl _, by simp⟩
  | case3 => simp at h
  | case4 r p r₁ hr ps₁ r₂ hps ih =>
    obtain ⟨rfl, rfl⟩ := by simpa using h
    obtain ⟨word, comma, hleaves, hword, -, -⟩ := leaves_readParameter hr
    obtain ⟨s, hleaves', hoffsets⟩ := ih hps
    have hpos := List.length_pos_iff.mpr hword
    have hoffset := hleaves.offset
    have hoffset' := hleaves'.offset
    rw [List.length_append] at hoffset
    refine ⟨_, hleaves.trans hleaves', fun q hq => ?_⟩
    rcases List.mem_cons.mp hq with rfl | hq
    · exact ⟨le_rfl, by omega⟩
    · have := hoffsets q hq
      omega

/-- A number alone stands there with its digits. -/
theorem leaves_scanParameters_number {n : Int} {offset : Nat}
    (h : scanParameters r = .ok ([(.number n, offset)], r')) :
    ∃ word comma, r.Leaves (word ++ comma) r' ∧ (comma = [] ∨ comma = [',']) ∧
      Text.Writes word n := by
  unfold scanParameters at h
  split at h
  · simp at h
  · simp at h
  rename_i p r₁ hr
  split at h
  · simp at h
  rename_i ps₁ r₂ hps
  obtain ⟨⟨⟨rfl, -⟩, rfl⟩, rfl⟩ := by simpa using h
  obtain ⟨word, comma, hleaves, -, hcomma, hwrites⟩ := leaves_readParameter hr
  have hrest : r₂ = r₁ := by
    unfold scanParameters at hps
    split at hps
    · simp at hps
    · simpa using hps.symm
    · split at hps <;> simp at hps
  exact ⟨word, comma, hrest ▸ hleaves, hcomma, hwrites n rfl⟩

/-! ## Modifiers -/

/-- A modifier that has been seen stays, and without one nothing is taken. -/
theorem leaves_scanModifiers {colon atSign colon' atSign' : Bool} {offset : Nat}
    (h : scanModifiers colon atSign s offset = .ok (colon', atSign', r)) :
    ∃ t, Remainder.Leaves ⟨s, offset⟩ t r ∧ (colon = true → colon' = true) ∧
      (atSign = true → atSign' = true) ∧ (colon' = false → atSign' = false → t = []) := by
  fun_induction scanModifiers colon atSign s offset with
  | case1 => simp at h
  | case2 colon atSign s offset hcolon ih =>
    obtain ⟨t, hleaves, hc, ha, -⟩ := ih h
    have hfirst : Remainder.Leaves ⟨':' :: s, offset⟩ [':'] ⟨s, offset + 1⟩ := ⟨rfl, rfl⟩
    exact ⟨_, hfirst.trans hleaves, fun _ => hc rfl, ha, fun h => by simp [hc rfl] at h⟩
  | case3 => simp at h
  | case4 colon atSign s offset hatSign ih =>
    obtain ⟨t, hleaves, hc, ha, -⟩ := ih h
    have hfirst : Remainder.Leaves ⟨'@' :: s, offset⟩ ['@'] ⟨s, offset + 1⟩ := ⟨rfl, rfl⟩
    exact ⟨_, hfirst.trans hleaves, hc, fun _ => ha rfl, fun _ h => by simp [ha rfl] at h⟩
  | case5 =>
    obtain ⟨rfl, rfl, rfl⟩ := by simpa using h
    exact ⟨[], .refl _, id, id, fun _ _ => rfl⟩

end Tilde
