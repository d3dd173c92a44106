import Mathlib.Data.List.DropRight
import Tilde.Proofs.Directive.Alike
import Tilde.Proofs.Directive.Extent

/-!
# Reading elsewhere

Reading a lexeme depends on the text that is read and on the character behind it, but neither on what
follows nor on where the lexeme stands, apart from what is recorded of its place. What follows a complete
directive does not matter at all: only text, and blanks behind the end of a line, go as far as they can.

* `Lexeme.Moved`: the same at another place;
* `Lexeme.Alike`: the same but for the place, and for zeros as parameters of directives that print values;
* `Text.IsContinuation`: the end of a line, and the blanks that are skipped behind it;
* `scanParameters_append`, `scanModifiers_append`: parameters and modifiers;
* **`readLexeme_append`**: lexemes.
-/

namespace Tilde

variable {s m t u : Text} {x : Char} {i k j n : Nat} {p : Parameter} {command : Command}
  {head head' : Head} {lexeme lexeme' : Lexeme}

/-- The directives are the same, and the offsets that are recorded of the one, counted from `i`, are those
of the other, counted from `k`. -/
structure Head.Moved (i k : Nat) (head head' : Head) : Prop extends Head.Like head head' where
  offsets : List.Forall₂ (fun o o' => o' + i = o + k) head.offsets head'.offsets
  start : head'.start + i = head.start + k
  stop : head'.stop + i = head.stop + k

/-- What is read of two lexemes is the same at another place. -/
inductive Lexeme.Moved (i k : Nat) : Lexeme → Lexeme → Prop
  | text (s : Text) : Moved i k (.text s) (.text s)
  | copies (x : Char) (count : Nat) : Moved i k (.copies x count) (.copies x count)
  | directive (command : Command) {head head' : Head} (h : head.Moved i k head') :
      Moved i k (.directive command head) (.directive command head')

/-- What is read of two lexemes is the same but for where they stand, and for zeros that do not matter. -/
inductive Lexeme.Alike : Lexeme → Lexeme → Prop
  | refl (lexeme : Lexeme) : Alike lexeme lexeme
  | directive (command : Command) {head head' : Head} (h : head.Like head') :
      Alike (.directive command head) (.directive command head')
  | padded {kind : Atom} (hkind : kind.IsPadded) {head head' : Head} (h : head.Zeroed head') :
      Alike (.directive (.atom kind) head) (.directive (.atom kind) head')

theorem Lexeme.Moved.alike (h : lexeme.Moved i k lexeme') : lexeme.Alike lexeme' := by
  cases h with
  | text | copies => exact .refl _
  | directive command h => exact .directive command h.toLike

/-! ## Texts in front -/

/-- What begins with the same character is dropped if the other is. -/
theorem Text.dropWhile_eq_self {p : Char → Bool} (h : t.dropWhile p = t) (ht : u.head? = t.head?) :
    u.dropWhile p = u := by
  cases u with
  | nil => rfl
  | cons x u =>
    cases t with
    | nil => cases ht
    | cons y t =>
      cases ht
      exact List.dropWhile_cons_of_neg (List.dropWhile_eq_self_iff.mp h (Nat.succ_pos _))

/-- A text in front of one that is not dropped is taken. -/
theorem Text.takeWhile_append {p : Char → Bool} (hs : ∀ x ∈ s, p x = true) (ht : t.dropWhile p = t) :
    (s ++ t).takeWhile p = s ∧ (s ++ t).dropWhile p = t := by
  have hdrop : (s ++ t).dropWhile p = t := by rw [List.dropWhile_append_of_pos hs, ht]
  refine ⟨?_, hdrop⟩
  have happend := List.takeWhile_append_dropWhile (p := p) (l := s ++ t)
  rw [hdrop] at happend
  exact List.append_cancel_right happend

/-- What is taken does not depend on what follows, if something is left before that. -/
theorem Text.takeWhile_of_append {p : Char → Bool} (h : (s ++ t).dropWhile p = m ++ t) (hm : m ≠ []) :
    (s ++ u).takeWhile p = (s ++ t).takeWhile p ∧ (s ++ u).dropWhile p = m ++ u := by
  have happend := List.takeWhile_append_dropWhile (p := p) (l := s ++ t)
  rw [h, ← List.append_assoc] at happend
  have hs : s = (s ++ t).takeWhile p ++ m := (List.append_cancel_right happend).symm
  have hrest : (m ++ t).dropWhile p = m ++ t := by
    rw [← h]
    exact List.dropWhile_idempotent p _
  have hhead : (m ++ u).head? = (m ++ t).head? := by
    obtain ⟨x, m, rfl⟩ := List.exists_cons_of_ne_nil hm
    rfl
  have htaken := takeWhile_append (s := (s ++ t).takeWhile p) (fun _ => of_mem_takeWhile)
    (dropWhile_eq_self hrest hhead)
  rwa [← List.append_assoc, ← hs] at htaken

/-- Reading does not move the end of the control string. -/
theorem Remainder.Leaves.stop {r r' : Remainder} (h : r.Leaves s r') :
    r'.offset + r'.text.length = r.offset + r.text.length := by
  rw [h.offset, h.length, Nat.add_assoc]

/-! ## Parameters -/

theorem skipComma_append (h : Remainder.skipComma ⟨s ++ t, i⟩ = ⟨m ++ t, j⟩) (hm : m ≠ []) :
    ∃ j', Remainder.skipComma ⟨s ++ u, k⟩ = ⟨m ++ u, j'⟩ := by
  obtain ⟨comma, hleaves, hcomma⟩ := Remainder.Leaves.skipComma ⟨s ++ t, i⟩
  have hs : s = comma ++ m := by
    have htext : s ++ t = comma ++ (Remainder.skipComma ⟨s ++ t, i⟩).text := hleaves.text
    rw [h, ← List.append_assoc] at htext
    exact List.append_cancel_right htext
  subst hs
  obtain rfl | rfl := hcomma
  · obtain ⟨x, m, rfl⟩ := List.exists_cons_of_ne_nil hm
    have hx : x ≠ ',' := by
      rintro rfl
      have := congrArg (fun r => r.text.length) h
      simp [Remainder.skipComma] at this
    refine ⟨k, ?_⟩
    unfold Remainder.skipComma
    split
    · rename_i heq
      cases heq
      exact absurd rfl hx
    · rfl
  · exact ⟨k + 1, rfl⟩

theorem readNumber_shifted {digits : Text} {n : Int} (h : readNumber i x digits = .ok n) :
    readNumber k x digits = .ok n := by
  unfold readNumber at h ⊢
  split_ifs at h ⊢ <;> exact h

/-- A parameter is read in the same way if something is left behind it. -/
theorem readParameter_append (h : readParameter? ⟨s ++ t, i⟩ = .ok (some (p, ⟨m ++ t, j⟩)))
    (hm : m ≠ []) : ∃ j', readParameter? ⟨s ++ u, k⟩ = .ok (some (p, ⟨m ++ u, j'⟩)) := by
  have hpos := List.length_pos_iff.mpr hm
  have hlength := length_lt_of_readParameter h
  simp only [List.length_append] at hlength
  obtain ⟨c, s, rfl⟩ := List.exists_cons_of_ne_nil (List.length_pos_iff.mp (by omega : 0 < s.length))
  unfold readParameter? at h ⊢
  simp only [List.cons_append] at h ⊢
  split_ifs at h ⊢ with hcomma hnumber hquote hnext hremaining
  · simp only [Except.ok.injEq, Option.some.injEq, Prod.mk.injEq, Remainder.mk.injEq] at h
    obtain ⟨rfl, htext, -⟩ := h
    rw [List.append_cancel_right htext]
    exact ⟨_, rfl⟩
  · obtain ⟨n, hn, heq⟩ := exists_of_map_ok h
    simp only [Option.some.injEq, Prod.mk.injEq] at heq
    obtain ⟨rfl, hskip⟩ := heq
    obtain ⟨comma, hleaves, hcomma⟩ := Remainder.Leaves.skipComma
      ⟨(s ++ t).dropWhile Text.looksLikeDigit, i + 1 + ((s ++ t).takeWhile Text.looksLikeDigit).length⟩
    have hrest : (s ++ t).dropWhile Text.looksLikeDigit = (comma ++ m) ++ t := by
      rw [List.append_assoc]
      exact hleaves.text.trans (congrArg (comma ++ ·) (congrArg Remainder.text hskip))
    obtain ⟨htaken, hdropped⟩ := Text.takeWhile_of_append (u := u) hrest (by simp [hm])
    rw [hrest] at hskip
    obtain ⟨j', hskip'⟩ := skipComma_append (u := u)
      (k := k + 1 + ((s ++ t).takeWhile Text.looksLikeDigit).length) hskip hm
    refine ⟨j', ?_⟩
    rw [htaken, hdropped, readNumber_shifted hn, hskip']
    rfl
  · cases s with
    | nil =>
      simp only [List.length_cons, List.length_nil] at hlength
      omega
    | cons y s =>
      obtain ⟨rfl, hskip⟩ := by simpa using h
      obtain ⟨j', hskip'⟩ := skipComma_append (u := u) (k := k + 2) hskip hm
      refine ⟨j', ?_⟩
      simp [hskip']
  · obtain ⟨rfl, hskip⟩ := by simpa using h
    obtain ⟨j', hskip'⟩ := skipComma_append (u := u) (k := k + 1) hskip hm
    exact ⟨j', by rw [hskip']⟩
  · obtain ⟨rfl, hskip⟩ := by simpa using h
    obtain ⟨j', hskip'⟩ := skipComma_append (u := u) (k := k + 1) hskip hm
    exact ⟨j', by rw [hskip']⟩
  · cases h

/-- A text that begins with no parameter does so whatever follows. -/
theorem readParameter_none (h : readParameter? ⟨m ++ t, i⟩ = .ok none) (hm : m ≠ []) :
    readParameter? ⟨m ++ u, k⟩ = .ok none := by
  obtain ⟨c, m, rfl⟩ := List.exists_cons_of_ne_nil hm
  unfold readParameter? at h ⊢
  simp only [List.cons_append] at h ⊢
  split_ifs at h ⊢ with hcomma hnumber hquote hnext hremaining
  · cases h
  · obtain ⟨_, -, hnone⟩ := exists_of_map_ok h
    cases hnone
  · split at h <;> cases h
  · cases h
  · cases h
  · rfl

theorem scanParameters_none {r : Remainder} (h : readParameter? r = .ok none) :
    scanParameters r = .ok ([], r) := by
  unfold scanParameters
  split <;> simp_all

theorem scanParameters_some {r r₁ r₂ : Remainder} {ps : List (Parameter × Nat)}
    (h : readParameter? r = .ok (some (p, r₁))) (hrest : scanParameters r₁ = .ok (ps, r₂)) :
    scanParameters r = .ok ((p, r.offset) :: ps, r₂) := by
  rw [scanParameters]
  split <;> simp_all

/-- **Parameters** are read in the same way if something is left behind them. -/
theorem scanParameters_append {given : List (Parameter × Nat)}
    (h : scanParameters ⟨s ++ t, i⟩ = .ok (given, ⟨m ++ t, j⟩)) (hm : m ≠ []) :
    ∃ given' j', scanParameters ⟨s ++ u, k⟩ = .ok (given', ⟨m ++ u, j'⟩) ∧
      given'.map (·.1) = given.map (·.1) ∧
      List.Forall₂ (fun o o' => o' + i = o + k) (given.map (·.2)) (given'.map (·.2)) := by
  generalize hr : (⟨s ++ t, i⟩ : Remainder) = r at h
  fun_induction scanParameters r generalizing s i k given with
  | case1 => cases h
  | case2 r hnone =>
    subst hr
    simp only [Except.ok.injEq, Prod.mk.injEq, Remainder.mk.injEq] at h
    obtain ⟨rfl, htext, -⟩ := h
    obtain rfl := List.append_cancel_right htext
    exact ⟨[], k, scanParameters_none (readParameter_none hnone hm), rfl, .nil⟩
  | case3 => cases h
  | case4 r p r₁ hsome ps r₂ hps ih =>
    subst hr
    simp only [Except.ok.injEq, Prod.mk.injEq] at h
    obtain ⟨rfl, rfl⟩ := h
    obtain ⟨s₁, hleaves, -⟩ := leaves_scanParameters hps
    have hr₁ : r₁ = ⟨(s₁ ++ m) ++ t, r₁.offset⟩ := by
      rw [List.append_assoc]
      exact congrArg (Remainder.mk · r₁.offset) hleaves.text
    rw [hr₁] at hsome
    obtain ⟨j₁, hsome'⟩ := readParameter_append (u := u) (k := k) hsome (by simp [hm])
    obtain ⟨given', j', hrest, hmap, hoffsets⟩ := ih (k := j₁) hr₁.symm hps
    have hj₁ : j₁ + i = r₁.offset + k := by
      obtain ⟨_, _, hleaves, -⟩ := leaves_readParameter hsome
      obtain ⟨_, _, hleaves', -⟩ := leaves_readParameter hsome'
      have hstop := hleaves.stop
      have hstop' := hleaves'.stop
      simp only [List.length_append] at hstop hstop'
      omega
    refine ⟨_, j', scanParameters_some hsome' hrest, congrArg (p :: ·) hmap, .cons (Nat.add_comm k i) ?_⟩
    exact hoffsets.imp fun o o' h => by omega

/-! ## Modifiers -/

theorem scanModifiers_of_ne {colon atSign : Bool} (hcolon : x ≠ ':') (hatSign : x ≠ '@') :
    scanModifiers colon atSign (x :: s) i = .ok (colon, atSign, ⟨x :: s, i⟩) := by
  unfold scanModifiers
  split <;> simp_all

/-- **Modifiers** are read in the same way if something is left behind them. -/
theorem scanModifiers_append {colon atSign colon' atSign' : Bool}
    (h : scanModifiers colon atSign (s ++ t) i = .ok (colon', atSign', ⟨m ++ t, j⟩)) (hm : m ≠ []) :
    ∃ j', scanModifiers colon atSign (s ++ u) k = .ok (colon', atSign', ⟨m ++ u, j'⟩) := by
  have hpos := List.length_pos_iff.mpr hm
  induction s generalizing colon atSign i k with
  | nil =>
    have hle := length_le_of_scanModifiers h
    simp only [List.nil_append, List.length_append] at hle
    omega
  | cons x s ih =>
    rw [List.cons_append] at h ⊢
    by_cases hcolon : x = ':'
    · subst hcolon
      rw [scanModifiers] at h ⊢
      split_ifs at h ⊢
      exact ih h
    by_cases hatSign : x = '@'
    · subst hatSign
      rw [scanModifiers] at h ⊢
      split_ifs at h ⊢
      exact ih h
    · rw [scanModifiers_of_ne hcolon hatSign] at h ⊢
      simp only [Except.ok.injEq, Prod.mk.injEq, Remainder.mk.injEq] at h
      obtain ⟨rfl, rfl, htext, -⟩ := h
      rw [← List.cons_append] at htext
      exact ⟨k, by rw [← List.append_cancel_right htext, List.cons_append]⟩

/-! ## Directives -/

variable {r r' : Remainder}

theorem Heads.length_eq (h : Heads i r command head r') : head.parameters.length = head.offsets.length := by
  obtain ⟨-, -, -, -⟩ := h
  simp

theorem Heads.span (h : Heads i r command head r') : head.start = i ∧ head.stop = r'.offset := by
  obtain ⟨-, -, -, -⟩ := h
  exact ⟨rfl, rfl⟩

/-- **The head of a directive** is the same but for its place. -/
theorem heads_append (h : Heads i ⟨s ++ t, j⟩ command head r') (hr' : r'.text = t) (hk : n + j = i + k) :
    ∃ head', Heads n ⟨s ++ u, k⟩ command head' ⟨u, k + s.length⟩ ∧ head.Moved i n head' := by
  have hstop : head.stop = j + s.length := by
    obtain ⟨_, hleaves, -⟩ := h.leaves
    have hend := hleaves.stop
    simp only [hr', List.length_append] at hend
    rw [h.span.2]
    omega
  obtain ⟨hgiven, hseen, htext, hnamed⟩ := h
  rename_i given r₁ r₂ colon atSign x rest
  obtain rfl : rest = t := hr'
  obtain ⟨s₂, hleaves, -⟩ := leaves_scanModifiers hseen
  have hr₁ : r₁ = ⟨(s₂ ++ [x]) ++ rest, r₁.offset⟩ := by
    refine congrArg (Remainder.mk · r₁.offset) (hleaves.text.trans ?_)
    rw [htext, List.append_assoc]
    rfl
  have hr₂ : r₂ = ⟨[x] ++ rest, r₂.offset⟩ := congrArg (Remainder.mk · r₂.offset) htext
  rw [hr₁] at hgiven hseen
  rw [hr₂] at hseen
  obtain ⟨given', j₁, hgiven', hmap, hoffsets⟩ := scanParameters_append (u := u) (k := k) hgiven (by simp)
  obtain ⟨j₂, hseen'⟩ := scanModifiers_append (u := u) (k := j₁) hseen (by simp)
  have hheads : Heads n ⟨s ++ u, k⟩ command ⟨given'.map (·.1), given'.map (·.2), colon, atSign, n, j₂ + 1⟩
      ⟨u, j₂ + 1⟩ := .intro hgiven' hseen' rfl hnamed
  obtain ⟨s₃, hleaves₃, -⟩ := hheads.leaves
  have hs₃ : s = s₃ := List.append_cancel_right hleaves₃.text
  have hoffset : j₂ + 1 = k + s₃.length := hleaves₃.offset
  rw [hoffset, ← hs₃] at hheads
  refine ⟨_, hheads, ⟨hmap, rfl, rfl⟩, hoffsets.imp fun o o' h => ?_, Nat.add_comm n i, ?_⟩
  · omega
  · dsimp only at hstop ⊢
    omega

theorem checkKinds_of_map {wanted : List (String × ParameterKind)} {given given' : List (Parameter × Nat)}
    (hmap : given'.map (·.1) = given.map (·.1)) (h : checkKinds wanted given = .ok ()) :
    checkKinds wanted given' = .ok () := by
  induction wanted generalizing given given' with
  | nil => rfl
  | cons w wanted ih =>
    cases given' with
    | nil => rfl
    | cons p' given' =>
      cases given with
      | nil => cases hmap
      | cons p given =>
        obtain ⟨hp, hmap⟩ := List.cons.inj hmap
        unfold checkKinds at h ⊢
        dsimp only at h ⊢ hp
        rw [hp]
        split_ifs at h ⊢
        exact ih hmap h

/-- A directive is allowed wherever it stands. -/
theorem checkHead_like (hlike : head.Like head') (hlength : head.parameters.length = head.offsets.length)
    (hlength' : head'.parameters.length = head'.offsets.length) (h : checkHead command head = .ok ()) :
    checkHead command head' = .ok () := by
  have hmap : (head'.parameters.zip head'.offsets).map (·.1) = (head.parameters.zip head.offsets).map (·.1) := by
    rw [List.map_fst_zip hlength'.le, List.map_fst_zip hlength.le, hlike.parameters]
  have hcount := congrArg List.length hmap
  rw [List.length_map, List.length_map] at hcount
  unfold checkHead at h ⊢
  rw [hlike.colon, hlike.atSign]
  split at h
  · cases h
  · unfold checkParameters at h ⊢
    rw [hcount]
    split_ifs at h ⊢
    exact checkKinds_of_map hmap h

theorem ofDirective_moved (hmoved : head.Moved i k head')
    (hlength : head.parameters.length = head.offsets.length)
    (hlength' : head'.parameters.length = head'.offsets.length)
    (h : Lexeme.ofDirective command head = .ok lexeme) :
    ∃ lexeme', Lexeme.ofDirective command head' = .ok lexeme' ∧ lexeme.Moved i k lexeme' := by
  have checked {command : Command} (h : (checkHead command head).map
      (fun _ => Lexeme.directive command head) = .ok lexeme) :
      ∃ lexeme', (checkHead command head').map (fun _ => Lexeme.directive command head') = .ok lexeme' ∧
        lexeme.Moved i k lexeme' := by
    obtain ⟨_, hcheck, rfl⟩ := exists_of_map_ok h
    rw [checkHead_like hmoved.toLike hlength hlength' hcheck]
    exact ⟨_, rfl, .directive command hmoved⟩
  unfold Lexeme.ofDirective at h ⊢
  rw [hmoved.parameters, hmoved.colon, hmoved.atSign]
  split at h
  · split_ifs at h ⊢
    · exact ⟨_, rfl, by cases h; exact .text _⟩
    · exact ⟨_, rfl, by cases h; exact .text _⟩
  · split_ifs at h ⊢
    split at h
    · exact ⟨_, rfl, by cases h; exact .text _⟩
    · split at h
      · exact ⟨_, rfl, by cases h; exact .copies _ _⟩
      · cases h
    · exact checked h
  · exact checked h

/-- The blanks that are skipped are the same before anything that does not begin with one. -/
theorem skipIndentation_append (h : r.skipIndentation.text = t) : ∃ blanks, r.text = blanks ++ t ∧
    (∀ x ∈ blanks, x = ' ' ∨ x = '\t') ∧
    ∀ u k, u.head? = t.head? → Remainder.skipIndentation ⟨blanks ++ u, k⟩ = ⟨u, k + blanks.length⟩ := by
  subst h
  refine ⟨_, List.takeWhile_append_dropWhile.symm, fun x hx => by simpa using of_mem_takeWhile hx,
    fun u k ht => ?_⟩
  have hdrop : r.skipIndentation.text.dropWhile (fun c => c == ' ' || c == '\t') = r.skipIndentation.text :=
    List.dropWhile_idempotent _ _
  obtain ⟨htaken, hdropped⟩ := Text.takeWhile_append
    (s := r.text.takeWhile fun c => c == ' ' || c == '\t') (fun _ => of_mem_takeWhile)
    (Text.dropWhile_eq_self hdrop ht)
  unfold Remainder.skipIndentation
  dsimp only
  rw [htaken, hdropped]

/-- The text is a continuation without colon, and blanks. -/
def Text.IsContinuation (s : Text) : Prop :=
  ∃ atSign blanks, s = '~' :: (atSign ++ '\n' :: blanks) ∧ (atSign = [] ∨ atSign = ['@']) ∧
    ∀ x ∈ blanks, x = ' ' ∨ x = '\t'

theorem continuation_char (h : Command.ofChar? x = some .continuation) : x = '\n' := by
  refine eq_of_toLower (by decide) ?_
  unfold Command.ofChar? at h
  split at h <;> simp_all

theorem eq_of_scanParameters (h : scanParameters r = .ok ([], r')) : r' = r := by
  rw [scanParameters] at h
  split at h
  · cases h
  · cases h
    rfl
  · split at h <;> cases h

/-- Without a colon, there is at most an at-sign. -/
theorem of_scanModifiers {colon atSign atSign' : Bool}
    (h : scanModifiers colon atSign s i = .ok (false, atSign', r)) :
    ∃ m, s = m ++ r.text ∧ (m = [] ∨ m = ['@'] ∧ atSign = false) := by
  fun_induction scanModifiers colon atSign s i with
  | case1 | case3 => cases h
  | case2 =>
    obtain ⟨_, -, hkept, -⟩ := leaves_scanModifiers h
    exact absurd (hkept rfl) Bool.false_ne_true
  | case4 colon atSign s i hatSign ih =>
    obtain ⟨m, hm, rfl | ⟨-, htrue⟩⟩ := ih h
    · exact ⟨['@'], congrArg ('@' :: ·) hm, .inr ⟨rfl, Bool.eq_false_iff.mpr hatSign⟩⟩
    · cases htrue
  | case5 =>
    cases h
    exact ⟨[], rfl, .inl rfl⟩

/-- A continuation without colon that is allowed has an at-sign, or nothing. -/
theorem Heads.of_continuation (h : Heads i r .continuation head r') (hcolon : head.colon = false)
    (hallowed : Lexeme.ofDirective .continuation head = .ok lexeme) :
    ∃ m, r.text = m ++ '\n' :: r'.text ∧ (m = [] ∨ m = ['@']) := by
  obtain ⟨hgiven, hseen, htext, hnamed⟩ := h
  rename_i given r₁ r₂ colon atSign x rest
  obtain rfl : colon = false := hcolon
  obtain rfl : given = [] := by
    unfold Lexeme.ofDirective at hallowed
    cases given with
    | nil => rfl
    | cons => cases hallowed
  obtain rfl := eq_of_scanParameters hgiven
  obtain ⟨m, hm, hatSign⟩ := of_scanModifiers hseen
  rw [htext, continuation_char hnamed] at hm
  exact ⟨m, hm, hatSign.imp_right And.left⟩

/-- **A directive** is read in the same way whatever follows it, apart from blanks that are skipped. -/
theorem readDirective_append (h : readDirective i ⟨s ++ t, j⟩ = .ok (lexeme, r)) (hr : r.text = t)
    (ht : u.head? = t.head? ∨ ¬ Text.IsContinuation ('~' :: s)) (hk : n + j = i + k) :
    ∃ lexeme', readDirective n ⟨s ++ u, k⟩ = .ok (lexeme', ⟨u, k + s.length⟩) ∧ lexeme.Moved i n lexeme' := by
  obtain ⟨command, head, rest, hheads⟩ := heads_of_readDirective h
  rw [readDirective_eq hheads] at h
  obtain ⟨x, hx, heq⟩ := exists_of_map_ok h
  obtain ⟨rfl, hrest⟩ := Prod.mk.inj heq
  obtain ⟨blanks, hblanks, hskip⟩ : ∃ blanks, rest.text = blanks ++ t ∧ ∀ k,
      (if command = .continuation ∧ !head.colon then Remainder.skipIndentation ⟨blanks ++ u, k⟩
        else ⟨blanks ++ u, k⟩) = ⟨u, k + blanks.length⟩ := by
    split_ifs at hrest ⊢ with hskips
    · obtain ⟨blanks, hblanks, hall, hskip⟩ := skipIndentation_append (hrest ▸ hr)
      refine ⟨blanks, hblanks, fun k => hskip u k (ht.resolve_right fun hnot => hnot ?_)⟩
      obtain ⟨rfl, hcolon⟩ := hskips
      obtain ⟨m, hm, hatSign⟩ := hheads.of_continuation (by simpa using hcolon) hx
      have hs : s ++ t = (m ++ '\n' :: blanks) ++ t := by
        rw [List.append_assoc, List.cons_append, ← hblanks]
        exact hm
      exact ⟨m, blanks, congrArg ('~' :: ·) (List.append_cancel_right hs), hatSign, hall⟩
    · exact ⟨[], hrest ▸ hr, fun _ => rfl⟩
  obtain ⟨s₁, hleaves, -⟩ := hheads.leaves
  have hs : s = s₁ ++ blanks := by
    have htext : s ++ t = s₁ ++ rest.text := hleaves.text
    rw [hblanks, ← List.append_assoc] at htext
    exact List.append_cancel_right htext
  subst hs
  rw [List.append_assoc] at hheads
  obtain ⟨head', hheads', hmoved⟩ := heads_append (u := blanks ++ u) hheads hblanks hk
  obtain ⟨lexeme', hlexeme', hmoved'⟩ := ofDirective_moved hmoved hheads.length_eq hheads'.length_eq hx
  refine ⟨lexeme', ?_, hmoved'⟩
  rw [List.append_assoc, readDirective_eq hheads', hlexeme', hmoved.colon, List.length_append, ← Nat.add_assoc]
  exact congrArg (fun r => Except.ok (lexeme', r)) (hskip _)

theorem readLexeme_text (hx : x ≠ '~') : readLexeme? ⟨x :: s, i⟩ =
    .ok (some (.text (x :: s.takeWhile (· != '~')),
      ⟨s.dropWhile (· != '~'), i + 1 + (s.takeWhile (· != '~')).length⟩)) := by
  unfold readLexeme?
  split
  · rename_i heq
    cases heq
  · rename_i heq
    cases heq
    exact absurd rfl hx
  · rename_i heq
    cases heq
    rfl

theorem readLexeme_none : readLexeme? r = .ok none ↔ r.text = [] := by
  constructor
  · intro h
    unfold readLexeme? at h
    split at h
    · assumption
    · obtain ⟨_, -, hsome⟩ := exists_of_map_ok h
      cases hsome
    · cases h
  · intro h
    unfold readLexeme?
    rw [h]

/-- A lexeme is read from the front. -/
theorem exists_of_readLexeme (h : readLexeme? r = .ok (some (lexeme, r'))) : ∃ s, r.text = s ++ r'.text := by
  unfold readLexeme? at h
  split at h
  · cases h
  · rename_i s hs
    obtain ⟨found, hfound, hsome⟩ := exists_of_map_ok h
    cases hsome
    obtain ⟨command, head, rest, hheads⟩ := heads_of_readDirective hfound
    rw [readDirective_eq hheads] at hfound
    obtain ⟨_, -, heq⟩ := exists_of_map_ok hfound
    obtain ⟨s₁, hleaves, -⟩ := hheads.leaves
    obtain ⟨s₂, hskip⟩ : ∃ s₂, rest.text = s₂ ++ r'.text := by
      rw [← (Prod.mk.inj heq).2]
      split_ifs
      · exact ⟨_, (leaves_skipIndentation rest).choose_spec.1.text⟩
      · exact ⟨[], rfl⟩
    have htext : s = s₁ ++ rest.text := hleaves.text
    exact ⟨'~' :: (s₁ ++ s₂), by rw [hs, htext, hskip, List.cons_append, List.append_assoc]⟩
  · rename_i x s _ hs
    cases h
    exact ⟨x :: s.takeWhile (· != '~'), by
      rw [hs, List.cons_append, List.takeWhile_append_dropWhile]⟩

/-- The lexeme ends where it does whatever follows: it is a directive, but no continuation before blanks. -/
def Text.EndsItself (s : Text) : Prop := s.head? = some '~' ∧ ¬ s.IsContinuation

/-- **A lexeme** is read in the same way wherever it stands, and whatever follows it, apart from the
first character of that if it can go on. -/
theorem readLexeme_append (h : readLexeme? ⟨s ++ t, i⟩ = .ok (some (lexeme, r))) (hr : r.text = t)
    (ht : u.head? = t.head? ∨ s.EndsItself) (k : Nat) : ∃ lexeme', readLexeme? ⟨s ++ u, k⟩ =
      .ok (some (lexeme', ⟨u, k + s.length⟩)) ∧ lexeme.Moved i k lexeme' := by
  have hlength := length_lt_of_readLexeme h
  rw [hr, List.length_append] at hlength
  obtain ⟨c, s, rfl⟩ := List.exists_cons_of_ne_nil (List.length_pos_iff.mp (by omega : 0 < s.length))
  rw [List.cons_append] at h ⊢
  by_cases htilde : c = '~'
  · subst htilde
    obtain ⟨found, hfound, hsome⟩ := exists_of_map_ok h
    cases hsome
    obtain ⟨lexeme', hread, hmoved⟩ := readDirective_append hfound hr (ht.imp_right And.right)
      (show k + (i + 1) = i + (k + 1) by omega)
    refine ⟨lexeme', ?_, hmoved⟩
    show (readDirective k ⟨s ++ u, k + 1⟩).map some = _
    rw [hread, List.length_cons, Nat.add_right_comm, Nat.add_assoc]
    rfl
  · have ht : u.head? = t.head? := ht.resolve_right fun hends => htilde (Option.some.inj hends.1)
    rw [readLexeme_text htilde] at h
    cases h
    have hr : (s ++ t).dropWhile (· != '~') = t := hr
    have hs : s = (s ++ t).takeWhile (· != '~') := by
      have happend := List.takeWhile_append_dropWhile (p := (· != '~')) (l := s ++ t)
      rw [hr] at happend
      exact (List.append_cancel_right happend).symm
    have hplain : ∀ x ∈ s, (x != '~') = true := by
      rw [hs]
      exact fun _ => of_mem_takeWhile
    have hdrop : t.dropWhile (· != '~') = t := by
      rw [← hr]
      exact List.dropWhile_idempotent _ _
    obtain ⟨htaken, hdropped⟩ := Text.takeWhile_append hplain (Text.dropWhile_eq_self hdrop ht)
    refine ⟨_, readLexeme_text htilde |>.trans ?_, .text _⟩
    rw [htaken, hdropped, ← hs, List.length_cons, Nat.add_right_comm, Nat.add_assoc]

theorem offset_of_readLexeme (h : readLexeme? ⟨s ++ t, i⟩ = .ok (some (lexeme, ⟨t, j⟩))) :
    j = i + s.length := by
  obtain ⟨_, hagain, -⟩ := readLexeme_append h rfl (.inl rfl) i
  cases h.symm.trans hagain
  rfl

/-! ## Zeros -/

/-- The characters are modifiers. -/
def Text.IsModifiers (m : Text) : Prop := ∀ x ∈ m, x = ':' ∨ x = '@'

/-- The character names a directive that prints a value in a field. -/
def NamesPadded (x : Char) : Prop := x ∈ ['A', 'a', 'S', 's']

instance (x : Char) : Decidable (NamesPadded x) := inferInstanceAs (Decidable (x ∈ _))

/-- A zero that may stand as a parameter, and the parameters. -/
inductive Text.IsZero : Text → List Parameter → Prop
  | absent : IsZero [] []
  | given : IsZero ['0'] [.number 0]

/-- A zero is read as the only parameter of a directive that prints a value in a field, with modifiers
or not. -/
theorem scanParameters_zero {z : Text} {ps : List Parameter} (hz : z.IsZero ps) (hm : m.IsModifiers)
    (hx : NamesPadded x) : ∃ given j', scanParameters ⟨z ++ (m ++ x :: t), i⟩ =
      .ok (given, ⟨m ++ x :: t, j'⟩) ∧ given.map (·.1) = ps := by
  obtain ⟨y, s, hs, hy⟩ : ∃ y s, m ++ x :: t = y :: s ∧ y ∈ [':', '@', 'A', 'a', 'S', 's'] := by
    cases m with
    | nil => exact ⟨x, t, rfl, List.mem_cons_of_mem _ (List.mem_cons_of_mem _ hx)⟩
    | cons y m =>
      refine ⟨y, m ++ x :: t, rfl, ?_⟩
      obtain rfl | rfl := hm y List.mem_cons_self <;> decide
  have hread (i : Nat) : readParameter? ⟨y :: s, i⟩ = .ok none ∧
      readParameter? ⟨'0' :: y :: s, i⟩ = .ok (some (.number 0, ⟨y :: s, i + 1⟩)) := by
    simp only [List.mem_cons, List.not_mem_nil, or_false] at hy
    obtain rfl | rfl | rfl | rfl | rfl | rfl := hy <;> exact ⟨rfl, rfl⟩
  rw [hs]
  cases hz with
  | absent => exact ⟨[], i, scanParameters_none (hread i).1, rfl⟩
  | given =>
    exact ⟨_, i + 1, scanParameters_some (hread i).2 (scanParameters_none (hread _).1), rfl⟩

theorem NamesPadded.ne (hx : NamesPadded x) : x ≠ ':' ∧ x ≠ '@' := by
  constructor <;> rintro rfl <;> revert hx <;> unfold NamesPadded <;> decide

/-- Modifiers are read up to the character behind them, or are wrong whatever follows. -/
theorem scanModifiers_all {colon atSign colon' atSign' : Bool} (hm : m.IsModifiers) (hx : NamesPadded x)
    (h : scanModifiers colon atSign (m ++ x :: t) i = .ok (colon', atSign', r)) :
    r.text = x :: t ∧ ∃ r', scanModifiers colon atSign (m ++ x :: u) k = .ok (colon', atSign', r') ∧
      r'.text = x :: u := by
  induction m generalizing colon atSign i k with
  | nil =>
    rw [List.nil_append, scanModifiers_of_ne hx.ne.1 hx.ne.2] at h ⊢
    cases h
    exact ⟨rfl, _, rfl, rfl⟩
  | cons y m ih =>
    have hrest : Text.IsModifiers m := fun z hz => hm z (List.mem_cons_of_mem y hz)
    obtain rfl | rfl := hm y List.mem_cons_self
    all_goals
      rw [List.cons_append, scanModifiers] at h ⊢
      split_ifs at h ⊢
      exact ih hrest h

theorem NamesPadded.exists_ofChar (hx : NamesPadded x) :
    ∃ kind : Atom, Command.ofChar? x = some (.atom kind) ∧ kind.IsPadded := by
  simp only [NamesPadded, List.mem_cons, List.not_mem_nil, or_false] at hx
  obtain rfl | rfl | rfl | rfl := hx
  · exact ⟨.aesthetic, rfl, .inl rfl⟩
  · exact ⟨.aesthetic, rfl, .inl rfl⟩
  · exact ⟨.standard, rfl, .inr rfl⟩
  · exact ⟨.standard, rfl, .inr rfl⟩

theorem ofDirective_zero {z : Text} {kind : Atom} (hkind : kind.IsPadded) (hz : z.IsZero head.parameters) :
    Lexeme.ofDirective (.atom kind) head = .ok (.directive (.atom kind) head) := by
  obtain ⟨parameters, offsets, colon, atSign, start, stop⟩ := head
  dsimp only at hz
  obtain rfl | rfl := hkind <;> cases hz <;> cases colon <;> cases atSign <;> cases offsets <;> rfl

/-- What is read of a directive that prints a value in a field. -/
theorem readDirective_zero {z : Text} {ps : List Parameter} {colon atSign : Bool} (hz : z.IsZero ps)
    (hm : m.IsModifiers) (hx : NamesPadded x) (hseen : scanModifiers false false (m ++ x :: t) k =
      .ok (colon, atSign, r)) : ∃ kind head r', readDirective i ⟨z ++ (m ++ x :: t), j⟩ =
        .ok (.directive (.atom kind) head, r') ∧ Command.ofChar? x = some (.atom kind) ∧ kind.IsPadded ∧
        head.parameters = ps ∧ head.colon = colon ∧ head.atSign = atSign ∧ r'.text = t := by
  obtain ⟨kind, hnamed, hkind⟩ := hx.exists_ofChar
  obtain ⟨given, j₁, hgiven, rfl⟩ := scanParameters_zero (t := t) (i := j) hz hm hx
  obtain ⟨-, r₂, hseen, htext⟩ := scanModifiers_all (u := t) (k := j₁) hm hx hseen
  have hheads : Heads i ⟨z ++ (m ++ x :: t), j⟩ (.atom kind)
      ⟨given.map (·.1), given.map (·.2), colon, atSign, i, r₂.offset + 1⟩ ⟨t, r₂.offset + 1⟩ :=
    .intro hgiven hseen htext hnamed
  refine ⟨kind, ⟨given.map (·.1), given.map (·.2), colon, atSign, i, r₂.offset + 1⟩, ⟨t, r₂.offset + 1⟩, ?_,
    hnamed, hkind, rfl, rfl, rfl, rfl⟩
  rw [readDirective_eq hheads, ofDirective_zero hkind hz, Except.map, if_neg (by simp)]

/-- **A directive that prints a value in a field** is read with a zero as without one. -/
theorem readLexeme_zero {z z' : Text} {ps ps' : List Parameter} (hz : z.IsZero ps) (hz' : z'.IsZero ps')
    (hm : m.IsModifiers) (hx : NamesPadded x)
    (h : readLexeme? ⟨'~' :: (z ++ (m ++ x :: t)), i⟩ = .ok (some (lexeme, r))) (k : Nat) :
    r.text = t ∧ ∃ lexeme' r', readLexeme? ⟨'~' :: (z' ++ (m ++ x :: u)), k⟩ = .ok (some (lexeme', r')) ∧
      r'.text = u ∧ lexeme.Alike lexeme' := by
  obtain ⟨found, hfound, hsome⟩ := exists_of_map_ok h
  cases hsome
  obtain ⟨colon, atSign, n, r₁, hseen⟩ : ∃ colon atSign n r₁,
      scanModifiers false false (m ++ x :: t) n = .ok (colon, atSign, r₁) := by
    obtain ⟨command, head, rest, ⟨hgiven, hseen, -, -⟩⟩ := heads_of_readDirective hfound
    obtain ⟨_, _, hzero, -⟩ := scanParameters_zero hz hm hx
    cases hgiven.symm.trans hzero
    exact ⟨_, _, _, _, hseen⟩
  obtain ⟨-, r₂, hseen', -⟩ := scanModifiers_all (u := u) (k := 0) hm hx hseen
  obtain ⟨kind, head, rest, hread, hnamed, hkind, hps, hcolon, hatSign, hrest⟩ :=
    readDirective_zero (i := i) (j := i + 1) hz hm hx hseen
  obtain ⟨kind', head', rest', hread', hnamed', -, hps', hcolon', hatSign', hrest'⟩ :=
    readDirective_zero (i := k) (j := k + 1) hz' hm hx hseen'
  cases hfound.symm.trans hread
  cases hnamed.symm.trans hnamed'
  refine ⟨hrest, _, rest', congrArg (Except.map some) hread', hrest', ?_⟩
  have hcolons := hcolon'.trans hcolon.symm
  have hatSigns := hatSign'.trans hatSign.symm
  cases hz with
  | absent =>
    cases hz' with
    | absent => exact .directive _ ⟨hps'.trans hps.symm, hcolons, hatSigns⟩
    | given => exact .padded hkind ⟨.inl ⟨hps, hps'⟩, hcolons, hatSigns⟩
  | given =>
    cases hz' with
    | absent => exact .padded hkind ⟨.inr ⟨hps, hps'⟩, hcolons, hatSigns⟩
    | given => exact .directive _ ⟨hps'.trans hps.symm, hcolons, hatSigns⟩

end Tilde
