import Tilde.Proofs.Directive.Leaves

/-!
# Where lexemes stand

A directive extends from its tilde to the character that names its command. The next lexeme of a
control string is literal text up to a tilde, a directive that stands for text, or any other
directive, as it stands there.

* `Text.since`: what is left of a control string from an offset on;
* `directiveAt?`: the command of the directive at an offset, and where the directive ends;
* `Head.ReadFrom`, `LexemeAt`: a directive, and a lexeme, as it stands in the control string;
* **`lexemeAt_of_readLexeme`**: what is read is what stands there.
-/

namespace Tilde

variable {w s : Text} {i j k : Nat} {x : Char} {r r' : Remainder} {command : Command} {head : Head}
  {lexeme : Lexeme}

/-- What is left of a control string from an offset on. -/
def Text.since (w : Text) (i : Nat) : Remainder := ⟨w.drop i, i⟩

/-- The command of the directive whose tilde stands at the offset, and the offset behind the
character that names the command. -/
def directiveAt? (w : Text) (i : Nat) : Option (Command × Nat) :=
  if w[i]? = some '~' then
    match scanParameters (w.since (i + 1)) with
    | .error _ => none
    | .ok (_, r) =>
      match scanModifiers false false r.text r.offset with
      | .error _ => none
      | .ok (_, _, r) =>
        (r.text.head?.bind Command.ofChar?).map fun command => (command, r.offset + 1)
  else none

/-- The directive stands for text: copies of a character, or the end of a line. -/
def Command.isVerbatim (command : Command) : Bool :=
  command == .continuation || command.repeated?.isSome

/-- The directive stands at its place in the control string, and is allowed as it is. -/
structure Head.ReadFrom (w : Text) (command : Command) (head : Head) : Prop where
  place : directiveAt? w head.start = some (command, head.stop)
  allowed : checkHead command head = .ok ()

/-- The lexeme is literal text, or stands for it. -/
def Lexeme.IsText : Lexeme → Prop
  | .text _ | .copies .. => True
  | .directive .. => False

/-- What stands in the control string from one offset to another is the lexeme. Behind the end of a
line, it takes the blanks at the start of the next one. -/
inductive LexemeAt (w : Text) (i : Nat) : Nat → Lexeme → Prop
  | literal {j : Nat} {s : Text} (lt : i < j) (le : j ≤ w.length) (text : w.extract i j = s)
      (plain : '~' ∉ s) : LexemeAt w i j (.text s)
  | verbatim {command : Command} {k j : Nat} {lexeme : Lexeme}
      (place : directiveAt? w i = some (command, k)) (verbatim : command.isVerbatim = true)
      (le : k ≤ j) (within : j ≤ w.length) (blank : ∀ x ∈ w.extract k j, x = ' ' ∨ x = '\t')
      (isText : lexeme.IsText) : LexemeAt w i j lexeme
  | directive {command : Command} {head : Head} (read : head.ReadFrom w command)
      (start : head.start = i) (shown : command ≠ .continuation) :
      LexemeAt w i head.stop (.directive command head)

/-! ## What is left -/

theorem Text.getElem?_of_drop (h : w.drop i = x :: s) : w[i]? = some x := by
  rw [← List.head?_drop, h]
  rfl

theorem Text.drop_succ_of_drop (h : w.drop i = x :: s) : w.drop (i + 1) = s := by
  rw [← List.tail_drop, h]
  rfl

theorem Text.lt_length_of_drop (h : w.drop i = x :: s) : i < w.length :=
  (List.getElem?_eq_some_iff.mp (getElem?_of_drop h)).1

/-- Whatever is taken from a control string, the rest of it is left. -/
theorem Remainder.Leaves.since (h : (w.since i).Leaves s r) (hi : i ≤ w.length) :
    r = w.since (i + s.length) ∧ w.extract i (i + s.length) = s ∧ i + s.length ≤ w.length := by
  have htext : w.drop i = s ++ r.text := h.text
  have hlength := congrArg List.length htext
  rw [List.length_drop, List.length_append] at hlength
  refine ⟨?_, ?_, by omega⟩
  · have hrest : w.drop (i + s.length) = r.text := by
      rw [← List.drop_drop, htext, List.drop_left]
    obtain ⟨text, offset⟩ := r
    rw [Text.since, hrest, Remainder.mk.injEq]
    exact ⟨rfl, h.offset⟩
  · rw [List.extract_eq_take_drop, htext, Nat.add_sub_cancel_left, List.take_left]

/-! ## Directives -/

theorem eq_of_toLower {y : Char} (hy : ¬('a' ≤ y ∧ y ≤ 'z')) (h : x.toLower = y) : x = y := by
  unfold Char.toLower at h
  split_ifs at h with hx
  · refine absurd ?_ hy
    subst h
    simp only [Char.le_def, UInt32.le_iff_toNat_le, UInt32.toNat_add] at hx ⊢
    simp at hx ⊢
    omega
  · exact h

/-- A directive begins with a tilde and ends with the character of its command. -/
theorem of_directiveAt (h : directiveAt? w i = some (command, k)) :
    w[i]? = some '~' ∧ i + 1 < k ∧ k ≤ w.length ∧
      ∃ x, w[k - 1]? = some x ∧ Command.ofChar? x = some command := by
  unfold directiveAt? at h
  split_ifs at h with htilde
  have hi : i < w.length := (List.getElem?_eq_some_iff.mp htilde).1
  split at h
  · simp at h
  rename_i given r₁ hgiven
  split at h
  · simp at h
  rename_i colon atSign r₂ hseen
  obtain ⟨s₁, hleaves₁, -⟩ := leaves_scanParameters hgiven
  obtain ⟨s₂, hleaves₂, -⟩ := leaves_scanModifiers hseen
  obtain ⟨hr, -, hle⟩ := (hleaves₁.trans hleaves₂).since hi
  obtain ⟨command', hcommand, hk⟩ := Option.map_eq_some_iff.mp h
  obtain ⟨x, hx, hcommand⟩ := Option.bind_eq_some_iff.mp hcommand
  obtain ⟨rfl, rfl⟩ := Prod.mk.inj hk
  rw [hr] at hx ⊢
  have hx : w[i + 1 + (s₁ ++ s₂).length]? = some x := by rw [← List.head?_drop]; exact hx
  have hlt := (List.getElem?_eq_some_iff.mp hx).1
  refine ⟨htilde, ?_, hlt, x, hx, hcommand⟩
  show i + 1 < i + 1 + (s₁ ++ s₂).length + 1
  omega

/-- Parameters, modifiers and the character of a command have been read: what they make, and what is
left. -/
inductive Heads (i : Nat) (r : Remainder) : Command → Head → Remainder → Prop
  | intro {given : List (Parameter × Nat)} {r₁ r₂ : Remainder} {colon atSign : Bool} {x : Char}
      {s : Text} {command : Command} (parameters : scanParameters r = .ok (given, r₁))
      (modifiers : scanModifiers false false r₁.text r₁.offset = .ok (colon, atSign, r₂))
      (text : r₂.text = x :: s) (named : Command.ofChar? x = some command) :
      Heads i r command
        ⟨given.map (·.1), given.map (·.2), colon, atSign, i, r₂.offset + 1⟩ ⟨s, r₂.offset + 1⟩

theorem readDirective_eq (h : Heads i r command head r') :
    readDirective i r = (Lexeme.ofDirective command head).map fun lexeme =>
      (lexeme, if command = .continuation ∧ !head.colon then r'.skipIndentation else r') := by
  obtain ⟨hgiven, hseen, htext, hnamed⟩ := h
  simp only [readDirective, hgiven, hseen, htext, hnamed, bind, Except.bind]
  cases Lexeme.ofDirective _ _ <;> rfl

theorem heads_of_readDirective (h : readDirective i r = .ok (lexeme, r')) :
    ∃ command head rest, Heads i r command head rest := by
  unfold readDirective at h
  cases hgiven : scanParameters r with
  | error e => simp [hgiven, bind, Except.bind] at h
  | ok given =>
    cases hseen : scanModifiers false false given.2.text given.2.offset with
    | error e => simp [hgiven, hseen, bind, Except.bind] at h
    | ok seen =>
      simp only [hgiven, hseen, bind, Except.bind] at h
      split at h
      · simp at h
      rename_i x s htext
      split at h
      · simp at h
      rename_i command hnamed
      exact ⟨command, _, _, .intro hgiven hseen htext hnamed⟩

theorem Heads.leaves (h : Heads i r command head r') : ∃ s, r.Leaves s r' ∧ s ≠ [] := by
  obtain ⟨hgiven, hseen, htext, -⟩ := h
  obtain ⟨s₁, hleaves₁, -⟩ := leaves_scanParameters hgiven
  obtain ⟨s₂, hleaves₂, -⟩ := leaves_scanModifiers hseen
  have hlast : Remainder.Leaves _ [_] ⟨_, _⟩ := ⟨htext, rfl⟩
  exact ⟨_, (hleaves₁.trans hleaves₂).trans hlast, by simp⟩

/-- The head of a directive has the place where the directive stands. -/
theorem Heads.place (h : Heads i (w.since (i + 1)) command head r') (htilde : w[i]? = some '~') :
    directiveAt? w i = some (command, head.stop) ∧ head.start = i ∧ r' = w.since head.stop := by
  have hi : i + 1 ≤ w.length := (List.getElem?_eq_some_iff.mp htilde).1
  obtain ⟨s, hleaves, -⟩ := h.leaves
  obtain ⟨hr, -, -⟩ := hleaves.since hi
  obtain ⟨hgiven, hseen, htext, hnamed⟩ := h
  refine ⟨?_, rfl, ?_⟩
  · simp [directiveAt?, htilde, hgiven, hseen, htext, hnamed]
  · rw [hr]
    exact congrArg w.since (congrArg Remainder.offset hr.symm)

namespace LexemeAt

/-- A lexeme takes at least one character. -/
theorem lt (h : LexemeAt w i j lexeme) : i < j ∧ j ≤ w.length := by
  cases h with
  | literal lt le => exact ⟨lt, le⟩
  | verbatim place verbatim le within =>
    have := of_directiveAt place
    omega
  | directive read start shown =>
    have := of_directiveAt read.place
    omega

theorem read (h : LexemeAt w i j (.directive command head)) :
    head.ReadFrom w command ∧ head.start = i ∧ head.stop = j ∧ command ≠ .continuation := by
  cases h with
  | verbatim place verbatim le within blank isText => exact isText.elim
  | directive read start shown => exact ⟨read, start, rfl, shown⟩

end LexemeAt

theorem ofDirective_cases (h : Lexeme.ofDirective command head = .ok lexeme) :
    (command.isVerbatim = true ∧ lexeme.IsText) ∨
      (lexeme = .directive command head ∧ checkHead command head = .ok ()) := by
  have checked (command : Command) (h : (checkHead command head).map
      (fun _ => Lexeme.directive command head) = .ok lexeme) :
      lexeme = .directive command head ∧ checkHead command head = .ok () := by
    obtain ⟨u, hcheck, rfl⟩ := exists_of_map_ok h
    exact ⟨rfl, hcheck⟩
  unfold Lexeme.ofDirective at h
  split at h
  · split_ifs at h <;> exact .inl ⟨rfl, Except.ok.inj h ▸ trivial⟩
  · rename_i y _ hrepeated
    have hverbatim : Command.isVerbatim _ = true := Bool.or_eq_true_iff.mpr
      (.inr (Option.isSome_iff_exists.mpr ⟨y, hrepeated⟩))
    split_ifs at h
    split at h
    · exact .inl ⟨hverbatim, Except.ok.inj h ▸ trivial⟩
    · split at h
      · exact .inl ⟨hverbatim, Except.ok.inj h ▸ trivial⟩
      · simp at h
    · exact .inr (checked _ h)
  · exact .inr (checked _ h)

theorem of_mem_takeWhile {p : Char → Bool} (h : x ∈ s.takeWhile p) : p x = true :=
  List.all_eq_true.mp List.all_takeWhile x h

theorem leaves_skipIndentation (r : Remainder) :
    ∃ s, r.Leaves s r.skipIndentation ∧ ∀ x ∈ s, x = ' ' ∨ x = '\t' := by
  refine ⟨_, ⟨(List.takeWhile_append_dropWhile).symm, rfl⟩, fun x hx => ?_⟩
  simpa using of_mem_takeWhile hx

theorem lexemeAt_of_readDirective (htilde : w[i]? = some '~')
    (h : readDirective i (w.since (i + 1)) = .ok (lexeme, r)) :
    ∃ j, r = w.since j ∧ LexemeAt w i j lexeme := by
  obtain ⟨command, head, rest, hheads⟩ := heads_of_readDirective h
  obtain ⟨hplace, hstart, rfl⟩ := hheads.place htilde
  have hwithin := (of_directiveAt hplace).2.2.1
  rw [readDirective_eq hheads] at h
  obtain ⟨x, hlexeme, hx⟩ := exists_of_map_ok h
  obtain ⟨rfl, rfl⟩ := Prod.mk.inj hx
  obtain ⟨hverbatim, htext⟩ | ⟨rfl, hallowed⟩ := ofDirective_cases hlexeme
  · split_ifs
    · obtain ⟨s, hleaves, hblank⟩ := leaves_skipIndentation (w.since head.stop)
      obtain ⟨hskip, hs, hle⟩ := hleaves.since hwithin
      refine ⟨_, hskip, .verbatim hplace hverbatim (Nat.le_add_right _ _) hle ?_ htext⟩
      rwa [hs]
    · exact ⟨_, rfl, .verbatim hplace hverbatim le_rfl hwithin (by simp) htext⟩
  · have hshown : command ≠ .continuation := by
      rintro rfl
      unfold Lexeme.ofDirective at hlexeme
      dsimp only at hlexeme
      split_ifs at hlexeme <;> simp at hlexeme
    exact ⟨head.stop, if_neg fun h => hshown h.1,
      .directive ⟨hstart ▸ hplace, hallowed⟩ hstart hshown⟩

/-- **What is read is what stands there.** -/
theorem lexemeAt_of_readLexeme (h : readLexeme? (w.since i) = .ok (some (lexeme, r))) :
    ∃ j, r = w.since j ∧ LexemeAt w i j lexeme := by
  unfold readLexeme? at h
  split at h
  · simp at h
  · rename_i s hs
    rw [← Text.drop_succ_of_drop hs] at h
    obtain ⟨found, hfound, hsome⟩ := exists_of_map_ok h
    obtain rfl := Option.some.inj hsome
    exact lexemeAt_of_readDirective (Text.getElem?_of_drop hs) hfound
  · rename_i x s hx hs
    obtain ⟨rfl, rfl⟩ := by simpa using h
    have hplain : '~' ∉ x :: s.takeWhile (· != '~') := by
      intro hmem
      rcases List.mem_cons.mp hmem with rfl | hmem
      · exact hx rfl
      · simpa using of_mem_takeWhile hmem
    have hleaves : (w.since i).Leaves (x :: s.takeWhile (· != '~'))
        ⟨s.dropWhile (· != '~'), i + 1 + (s.takeWhile (· != '~')).length⟩ := by
      refine ⟨?_, ?_⟩
      · rw [hs, List.cons_append, List.takeWhile_append_dropWhile]
      · show i + 1 + _ = i + _
        rw [List.length_cons, Nat.add_assoc, Nat.add_comm 1]
    obtain ⟨hr, htext, hle⟩ := hleaves.since (Text.lt_length_of_drop hs).le
    exact ⟨_, hr, .literal (by simp) hle htext hplain⟩

end Tilde
