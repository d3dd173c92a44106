import Tilde.Proofs.Directive.Extent

/-!
# Putting lexemes together

A lexeme becomes a node of the innermost open group, opens a group, begins another clause of it, or
closes it.

* `Builder.Adds`: all that a lexeme can do (`adds_of_add`), and what can be wrong with it
  (`of_add_error`);
* `Builder.Reached`: the builders that reading a control string goes through;
* **`reached_of_parse`**, **`fails_of_parse`**: reading a control string ends with one of them, or
  fails at one of them.
-/

namespace Tilde

variable {w : Text} {i j : Nat} {b b' : Builder} {lexeme : Lexeme} {e : Malformed}

namespace Builder

/-- What a lexeme does. -/
inductive Adds (b : Builder) : Lexeme → Builder → Prop
  | nothing {lexeme : Lexeme} (h : lexeme = .text [] ∨ ∃ x, lexeme = .copies x 0) : Adds b lexeme b
  | text {s : Text} (h : s ≠ []) : Adds b (.text s) (b.push (.text s))
  | copies {x : Char} {count : Nat} : Adds b (.copies x count) (b.push (.copies x count))
  | atom {kind : Atom} {head : Head}
      (h : kind = .escape → head.colon = true → b.inSublists = true) :
      Adds b (.directive (.atom kind) head) (b.push (.atom kind head))
  | opening {bracket : Bracket} {head : Head} :
      Adds b (.directive (.opening bracket) head)
        { b with frames := ⟨bracket, head, [], [], []⟩ :: b.frames }
  | separator {head : Head} {f : Frame} {fs : List Frame} (h : b.frames = f :: fs)
      (hclauses : f.bracket.hasClauses = true) :
      Adds b (.directive .separator head) { b with
        frames := { f with
          clauses := f.current.reverse :: f.clauses
          current := []
          separators := head :: f.separators } :: fs }
  | closing {head : Head} {f : Frame} {fs : List Frame} {n : Node} (h : b.frames = f :: fs)
      (hn : f.close head = .ok n) :
      Adds b (.directive (.closing f.bracket) head) (Builder.push { b with frames := fs } n)

theorem adds_of_add (hshown : ∀ head, lexeme ≠ .directive .continuation head)
    (h : b.add lexeme = .ok b') : b.Adds lexeme b' := by
  unfold add at h
  split at h
  · split_ifs at h with hs <;> obtain rfl := Except.ok.inj h
    · exact .nothing (.inl (congrArg _ (List.isEmpty_iff.mp hs)))
    · exact .text fun hnil => hs (List.isEmpty_iff.mpr hnil)
  · rename_i x count
    split_ifs at h with hcount <;> obtain rfl := Except.ok.inj h
    · exact .nothing (.inr ⟨x, by rw [hcount]⟩)
    · exact .copies
  · exact absurd rfl (hshown _)
  · split_ifs at h with hescape
    obtain rfl := Except.ok.inj h
    exact .atom fun hkind hcolon => by simpa [hkind, hcolon] using hescape
  · split_ifs at h
    obtain rfl := Except.ok.inj h
    exact .opening
  · split at h
    · simp at h
    · rename_i f fs hframes
      split_ifs at h with hclauses
      obtain rfl := Except.ok.inj h
      exact .separator hframes hclauses
  · split at h
    · simp at h
    · rename_i f fs hframes
      split_ifs at h with hbracket
      obtain ⟨n, hclose, rfl⟩ := exists_of_map_ok h
      subst hbracket
      exact .closing hframes hclose

theorem of_add_error {command : Command} {head : Head}
    (h : b.add (.directive command head) = .error e) :
    (∃ complaint, e = .located head.start complaint) ∨
      (∃ f ∈ b.frames, ∃ complaint, e = .located f.head.start complaint) ∨
      ((∃ bracket, command = .opening bracket) ∧ greatestDepth ≤ b.frames.length ∧
        e = .tooDeep) := by
  cases command with
  | atom kind =>
    unfold add at h
    dsimp only at h
    split_ifs at h
    exact .inl ⟨_, (Except.error.inj h).symm⟩
  | continuation => simp [add] at h
  | opening bracket =>
    unfold add at h
    dsimp only at h
    split_ifs at h with hdepth
    exact .inr (.inr ⟨⟨bracket, rfl⟩, hdepth, (Except.error.inj h).symm⟩)
  | separator =>
    unfold add at h
    dsimp only at h
    split at h
    · exact .inl ⟨_, (Except.error.inj h).symm⟩
    · split_ifs at h
      exact .inl ⟨_, (Except.error.inj h).symm⟩
  | closing bracket =>
    unfold add at h
    dsimp only at h
    split at h
    · exact .inl ⟨_, (Except.error.inj h).symm⟩
    · rename_i f fs hframes
      split_ifs at h
      · have hclose := eq_error_of_map h
        unfold Frame.close at hclose
        dsimp only at hclose
        split at hclose
        · exact .inr (.inl ⟨f, by simp [hframes], _, (Except.error.inj hclose).symm⟩)
        · simp at hclose
      · exact .inl ⟨_, (Except.error.inj h).symm⟩

/-- The builders that reading the control string up to an offset goes through. -/
inductive Reached (w : Text) : Nat → Builder → Prop
  | start : Reached w 0 ⟨[], []⟩
  | add {i j : Nat} {b b' : Builder} {lexeme : Lexeme} (h : Reached w i b)
      (hlexeme : LexemeAt w i j lexeme) (hadds : b.Adds lexeme b') : Reached w j b'

namespace Reached

theorem within (h : Reached w i b) : i ≤ w.length := by
  cases h with
  | start => exact Nat.zero_le _
  | add h hlexeme hadds => exact hlexeme.lt.2

theorem add_ok (h : Reached w i b) (hlexeme : LexemeAt w i j lexeme)
    (hadd : b.add lexeme = .ok b') : Reached w j b' := by
  refine h.add hlexeme (adds_of_add (fun head => ?_) hadd)
  rintro rfl
  exact hlexeme.read.2.2.2 rfl

end Reached

/-- What makes reading fail. -/
inductive Fails (w : Text) (e : Malformed) : Prop
  | lexeme {i : Nat} (h : readLexeme? (w.since i) = .error e)
  | add {i j : Nat} {b : Builder} {lexeme : Lexeme} (h : Reached w i b)
      (hlexeme : LexemeAt w i j lexeme) (hadd : b.add lexeme = .error e)
  | finish {b : Builder} (h : Reached w w.length b) (hfinish : b.finish = .error e)

theorem eq_length_of_readLexeme (hi : i ≤ w.length) (h : readLexeme? (w.since i) = .ok none) :
    i = w.length := by
  unfold readLexeme? at h
  split at h
  · rename_i hs
    have : (w.drop i).length = 0 := congrArg List.length hs
    rw [List.length_drop] at this
    omega
  · obtain ⟨found, -, hsome⟩ := exists_of_map_ok h
    simp at hsome
  · simp at h

theorem reached_of_parseFrom {result : Except Malformed (List Node)} (h : Reached w i b)
    (hparse : parseFrom b (w.since i) = result) :
    (∃ b', Reached w w.length b' ∧ b'.finish = result) ∨ ∃ e, Fails w e ∧ result = .error e := by
  generalize hr : w.since i = r at hparse
  fun_induction parseFrom b r generalizing i with
  | case1 b r e hlexeme =>
    subst hr
    exact .inr ⟨e, .lexeme hlexeme, hparse.symm⟩
  | case2 b r hlexeme =>
    subst hr
    obtain rfl := eq_length_of_readLexeme h.within hlexeme
    exact .inl ⟨b, h, hparse⟩
  | case3 b r x r' hlexeme e hadd =>
    subst hr
    obtain ⟨j, -, hat⟩ := lexemeAt_of_readLexeme hlexeme
    exact .inr ⟨e, .add h hat hadd, hparse.symm⟩
  | case4 b r x r' hlexeme b' hadd ih =>
    subst hr
    obtain ⟨j, hr', hat⟩ := lexemeAt_of_readLexeme hlexeme
    exact ih (h.add_ok hat hadd) hr'.symm hparse

end Builder

open Builder (Reached Fails)

/-- **The nodes of a control string are those of a builder that has been reached.** -/
theorem reached_of_parse {nodes : List Node} (h : parse w = .ok nodes) :
    ∃ b, Reached w w.length b ∧ b.frames = [] ∧ nodes = b.nodes.reverse := by
  rcases Builder.reached_of_parseFrom .start h with ⟨b, hreached, hfinish⟩ | ⟨e, -, he⟩
  · unfold Builder.finish at hfinish
    split at hfinish
    · rename_i hframes
      exact ⟨b, hreached, hframes, (Except.ok.inj hfinish).symm⟩
    · simp at hfinish
  · simp at he

theorem fails_of_parse (h : parse w = .error e) : Fails w e := by
  rcases Builder.reached_of_parseFrom .start h with ⟨b, hreached, hfinish⟩ | ⟨e', hfails, he⟩
  · exact .finish hreached hfinish
  · exact Except.error.inj he ▸ hfails

end Tilde
