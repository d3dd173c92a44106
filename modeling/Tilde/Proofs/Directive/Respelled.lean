import Tilde.Proofs.Directive.Reread

/-!
# Control strings that are spelled alike

Control strings that are the same but for zeros, as parameters of directives that print values, have
nodes that are alike.

* `Text.Respelled`: two such control strings;
* `Frame.close_alike`, `Builder.add_alike`: lexemes that are alike are put together alike;
* `parseFrom_induction`: reading succeeds lexeme by lexeme;
* **`parse_respelled`**: the nodes.
-/

namespace Tilde

open Node (AllAlike ClausesAlike)

/-! ## Groups -/

section Groups

variable {α β : Type} {R : α → β → Prop} {xs : List α} {ys : List β} {zeros : Prop} {head head' closing closing' : Head}
  {clauses clauses' : List (List Node)} {separators separators' : List Head} {bracket : Bracket}
  {kind : Group}

theorem any_of_forall₂ (h : List.Forall₂ R xs ys) {p : α → Bool} {q : β → Bool}
    (hpq : ∀ x y, R x y → q y = p x) : ys.any q = xs.any p := by
  induction h with
  | nil => rfl
  | cons hxy _ ih => rw [List.any_cons, List.any_cons, hpq _ _ hxy, ih]

theorem forall₂_dropLast (h : List.Forall₂ R xs ys) : List.Forall₂ R xs.dropLast ys.dropLast := by
  rw [List.dropLast_eq_take, List.dropLast_eq_take, h.length_eq]
  exact List.forall₂_take _ h

/-- **Groups that are alike** are allowed alike. -/
theorem closedGroup_alike (hhead : head.Like head') (hclauses : ClausesAlike zeros clauses clauses')
    (hseparators : List.Forall₂ Head.Like separators separators') (hclosing : closing.Like closing')
    (h : closedGroup bracket head clauses separators closing = .ok kind) :
    closedGroup bracket head' clauses' separators' closing' = .ok kind := by
  have hcolon {separators separators' : List Head} (h : List.Forall₂ Head.Like separators separators') :
      separators'.any (·.colon) = separators.any (·.colon) := any_of_forall₂ h fun _ _ h => h.colon
  have hatSign {separators separators' : List Head} (h : List.Forall₂ Head.Like separators separators') :
      separators'.any (·.atSign) = separators.any (·.atSign) := any_of_forall₂ h fun _ _ h => h.atSign
  have hrest := List.forall₂_drop 1 hseparators
  cases bracket with
  | iteration | caseConversion => exact h
  | conditional =>
    show checkConditional head' clauses' separators' = _
    unfold checkConditional
    rw [hhead.colon, hhead.atSign, ← hclauses.length_eq, hatSign hseparators, hcolon hseparators,
      hcolon (forall₂_dropLast hseparators)]
    exact h
  | justification =>
    unfold closedGroup at h ⊢
    dsimp only at h ⊢
    rw [hclosing.colon]
    split_ifs at h ⊢
    · unfold checkBlock at h ⊢
      rw [hcolon hseparators, hatSign hrest]
      split_ifs at h ⊢
      have hblocks := Node.ofClauses_alike hclauses hseparators hhead hclosing
      obtain ⟨block, hblock, rfl⟩ := exists_of_map_ok h
      rw [hblock] at hblocks
      cases hblock' : Block.ofClauses head' clauses' separators' closing' with
      | ok block' => rfl
      | error e =>
        rw [hblock'] at hblocks
        exact hblocks.elim
    · unfold checkJustification at h ⊢
      rw [hclosing.atSign, hatSign hseparators, hcolon hrest]
      exact h

end Groups

/-! ## Builders -/

/-- The groups are still open in the same way, with nodes that are alike but for zeros. -/
structure Frame.Alike (f f' : Frame) : Prop where
  bracket : f'.bracket = f.bracket
  head : f.head.Like f'.head
  clauses : ClausesAlike True f.clauses f'.clauses
  current : AllAlike True f.current f'.current
  separators : List.Forall₂ Head.Like f.separators f'.separators

/-- **A group is closed** alike. -/
theorem Frame.close_alike {f f' : Frame} {closing closing' : Head} {n : Node} (h : f.Alike f')
    (hclosing : closing.Like closing') (hclose : f.close closing = .ok n) :
    ∃ n', f'.close closing' = .ok n' ∧ n.Alike True n' := by
  have hclauses : ClausesAlike True (f.current.reverse :: f.clauses).reverse
      (f'.current.reverse :: f'.clauses).reverse :=
    List.rel_reverse (.cons (List.rel_reverse h.current) h.clauses)
  have hseparators := List.rel_reverse h.separators
  unfold close at hclose ⊢
  dsimp only at hclose ⊢
  split at hclose
  · cases hclose
  · rename_i kind hkind
    cases hclose
    rw [h.bracket, closedGroup_alike h.head hclauses hseparators hclosing hkind]
    exact ⟨_, rfl, .group kind ⟨h.head.parameters, h.head.colon, h.head.atSign⟩ hclauses hseparators hclosing⟩

namespace Builder

/-- The same groups are open, with nodes that are alike but for zeros. -/
structure Alike (b b' : Builder) : Prop where
  frames : List.Forall₂ Frame.Alike b.frames b'.frames
  nodes : AllAlike True b.nodes b'.nodes

variable {b b' b₁ : Builder} {n n' : Node} {lexeme lexeme' : Lexeme} {kind : Atom} {head head' : Head}

theorem push_alike (h : b.Alike b') (hn : n.Alike True n') : (b.push n).Alike (b'.push n') := by
  obtain ⟨frames, nodes⟩ := b
  obtain ⟨frames', nodes'⟩ := b'
  obtain ⟨hframes, hnodes⟩ := h
  cases hframes with
  | nil => exact ⟨.nil, .cons hn hnodes⟩
  | cons hf hfs => exact ⟨.cons { hf with current := .cons hn hf.current } hfs, hnodes⟩

theorem inSublists_eq (h : b.Alike b') : b'.inSublists = b.inSublists := by
  have hfind : Option.Rel Frame.Alike (b.frames.find? (·.bracket == .iteration))
      (b'.frames.find? (·.bracket == .iteration)) := by
    have h := h.frames
    generalize b.frames = fs, b'.frames = fs' at h
    induction h with
    | nil => exact .none
    | cons hf _ ih =>
      rw [List.find?_cons, List.find?_cons, hf.bracket]
      split
      · exact .some hf
      · exact ih
  exact Node.any_eq hfind fun _ _ h => h.head.colon

theorem add_atom_alike (h : b.Alike b') (hcolon : head'.colon = head.colon)
    (hn : (Node.atom kind head).Alike True (.atom kind head'))
    (hadd : b.add (.directive (.atom kind) head) = .ok b₁) :
    ∃ b₁', b'.add (.directive (.atom kind) head') = .ok b₁' ∧ b₁.Alike b₁' := by
  unfold add at hadd ⊢
  dsimp only at hadd ⊢
  rw [hcolon, inSublists_eq h]
  split_ifs at hadd ⊢
  cases hadd
  exact ⟨_, rfl, push_alike h hn⟩

theorem add_directive_alike (h : b.Alike b') (hlike : head.Like head') {command : Command}
    (hadd : b.add (.directive command head) = .ok b₁) :
    ∃ b₁', b'.add (.directive command head') = .ok b₁' ∧ b₁.Alike b₁' := by
  cases command with
  | atom kind => exact add_atom_alike h hlike.colon (.atom kind hlike) hadd
  | continuation =>
    cases hadd
    exact ⟨_, rfl, h⟩
  | opening bracket =>
    unfold add at hadd ⊢
    dsimp only at hadd ⊢
    rw [← h.frames.length_eq]
    split_ifs at hadd ⊢
    cases hadd
    exact ⟨_, rfl, .cons ⟨rfl, hlike, .nil, .nil, .nil⟩ h.frames, h.nodes⟩
  | separator =>
    obtain ⟨frames, nodes⟩ := b
    obtain ⟨frames', nodes'⟩ := b'
    obtain ⟨hframes, hnodes⟩ := h
    cases hframes with
    | nil => cases hadd
    | cons hf hfs =>
      unfold add at hadd ⊢
      dsimp only at hadd ⊢
      rw [hf.bracket]
      split_ifs at hadd ⊢
      cases hadd
      refine ⟨_, rfl, .cons ⟨rfl, hf.head, ?_, .nil, .cons hlike hf.separators⟩ hfs, hnodes⟩
      exact .cons (List.rel_reverse hf.current) hf.clauses
  | closing bracket =>
    obtain ⟨frames, nodes⟩ := b
    obtain ⟨frames', nodes'⟩ := b'
    obtain ⟨hframes, hnodes⟩ := h
    cases hframes with
    | nil => cases hadd
    | cons hf hfs =>
      unfold add at hadd ⊢
      dsimp only at hadd ⊢
      rw [hf.bracket]
      split_ifs at hadd ⊢
      obtain ⟨n, hclose, rfl⟩ := exists_of_map_ok hadd
      obtain ⟨n', hclose', hn⟩ := Frame.close_alike hf hlike hclose
      rw [hclose']
      exact ⟨_, rfl, push_alike ⟨hfs, hnodes⟩ hn⟩

/-- **Lexemes that are alike** are put together alike. -/
theorem add_alike (h : b.Alike b') (hlexeme : lexeme.Alike lexeme') (hadd : b.add lexeme = .ok b₁) :
    ∃ b₁', b'.add lexeme' = .ok b₁' ∧ b₁.Alike b₁' := by
  cases hlexeme with
  | directive command hlike => exact add_directive_alike h hlike hadd
  | padded hkind hzeroed => exact add_atom_alike h hzeroed.colon (.padded trivial hkind hzeroed) hadd
  | refl =>
    cases lexeme with
    | text s =>
      cases hadd
      refine ⟨_, rfl, ?_⟩
      split_ifs
      · exact h
      · exact push_alike h (.refl _)
    | copies x count =>
      cases hadd
      refine ⟨_, rfl, ?_⟩
      split_ifs
      · exact h
      · exact push_alike h (.refl _)
    | directive command head => exact add_directive_alike h (.refl head) hadd

end Builder

/-! ## Control strings -/

/-- Reading the next lexeme of both texts takes the first one and leaves the other. -/
def Text.IsLexeme (s t : Text) : Prop :=
  ((readLexeme? ⟨s ++ t, 0⟩).toOption.join.map fun found => found.2.text) = some t

instance (s t : Text) : Decidable (s.IsLexeme t) := inferInstanceAs (Decidable (_ = _))

theorem Text.IsLexeme.exists_readLexeme {s t : Text} (h : s.IsLexeme t) :
    ∃ lexeme r, readLexeme? ⟨s ++ t, 0⟩ = .ok (some (lexeme, r)) ∧ r.text = t := by
  obtain ⟨⟨lexeme, r⟩, hfound, htext⟩ := Option.map_eq_some_iff.mp h
  cases hread : readLexeme? ⟨s ++ t, 0⟩ with
  | error e =>
    rw [hread] at hfound
    cases hfound
  | ok found =>
    rw [hread] at hfound
    obtain rfl : found = some (lexeme, r) := hfound
    exact ⟨lexeme, r, rfl, htext⟩

/-- The control strings consist of the same lexemes, but directives that print a value in a field may
have a zero as their only parameter in one of them and none in the other. -/
inductive Text.Respelled : Text → Text → Prop
  | refl (t : Text) : Respelled t t
  | lexeme {s t t' : Text} (h : s.IsLexeme t) (hrest : Respelled t t') : Respelled (s ++ t) (s ++ t')
  | zero {z z' m t t' : Text} {x : Char} {ps ps' : List Parameter} (hz : z.IsZero ps) (hz' : z'.IsZero ps')
      (hm : m.IsModifiers) (hx : NamesPadded x) (hrest : Respelled t t') :
      Respelled ('~' :: (z ++ (m ++ x :: t))) ('~' :: (z' ++ (m ++ x :: t')))

variable {s t t' w w' : Text} {b b' : Builder} {nodes : List Node} {lexeme lexeme' : Lexeme} {r r' : Remainder}

theorem Text.Respelled.head?_eq (h : Respelled t t') : t'.head? = t.head? := by
  cases h with
  | refl => rfl
  | @lexeme s t t' h =>
    obtain ⟨lexeme, r, hread, rfl⟩ := h.exists_readLexeme
    have hlength := length_lt_of_readLexeme hread
    rw [List.length_append] at hlength
    obtain ⟨x, s, rfl⟩ := List.exists_cons_of_ne_nil (List.length_pos_iff.mp (by omega : 0 < s.length))
    rfl
  | zero => rfl

theorem exists_of_parseFrom (hread : readLexeme? r = .ok (some (lexeme, r'))) (h : parseFrom b r = .ok nodes) :
    ∃ b', b.add lexeme = .ok b' ∧ parseFrom b' r' = .ok nodes := by
  rw [parseFrom] at h
  split at h <;> simp_all
  split at h <;> simp_all

theorem parseFrom_eq (hread : readLexeme? r = .ok (some (lexeme, r'))) (hadd : b.add lexeme = .ok b') :
    parseFrom b r = parseFrom b' r' := by
  rw [parseFrom]
  split <;> simp_all

theorem parseFrom_none (hread : readLexeme? r = .ok none) : parseFrom b r = b.finish := by
  rw [parseFrom]
  split <;> simp_all

theorem exists_readLexeme (h : parseFrom b r = .ok nodes) (htext : r.text ≠ []) :
    ∃ lexeme r', readLexeme? r = .ok (some (lexeme, r')) := by
  cases hread : readLexeme? r with
  | error e =>
    rw [parseFrom] at h
    split at h <;> simp_all
  | ok found =>
    cases found with
    | none => exact absurd (readLexeme_none.mp hread) htext
    | some found => exact ⟨found.1, found.2, rfl⟩

/-- **Reading succeeds lexeme by lexeme**, up to the end of the text, where the builder is finished. -/
@[elab_as_elim]
theorem parseFrom_induction {b : Builder} {w : Text} {i : Nat}
    {motive : ∀ (b : Builder) (w : Text) (i : Nat), parseFrom b ⟨w, i⟩ = .ok nodes → Prop}
    (h : parseFrom b ⟨w, i⟩ = .ok nodes)
    (finish : ∀ b i (h : parseFrom b ⟨[], i⟩ = .ok nodes), b.finish = .ok nodes → motive b [] i h)
    (lexeme : ∀ b b' s t i x (h : parseFrom b ⟨s ++ t, i⟩ = .ok nodes)
      (h' : parseFrom b' ⟨t, i + s.length⟩ = .ok nodes),
      readLexeme? ⟨s ++ t, i⟩ = .ok (some (x, ⟨t, i + s.length⟩)) → b.add x = .ok b' →
      motive b' t (i + s.length) h' → motive b (s ++ t) i h) : motive b w i h := by
  induction hn : w.length using Nat.strong_induction_on generalizing b w i with
  | _ n ih =>
    by_cases hw : w = []
    · subst hw
      exact finish b i h ((parseFrom_none (readLexeme_none.mpr rfl)).symm.trans h)
    · obtain ⟨x, ⟨t, j⟩, hread⟩ := exists_readLexeme h hw
      obtain ⟨b', hadd, h'⟩ := exists_of_parseFrom hread h
      have hlt : t.length < w.length := length_lt_of_readLexeme hread
      obtain ⟨s, hs⟩ := exists_of_readLexeme hread
      obtain rfl : w = s ++ t := hs
      obtain rfl := offset_of_readLexeme hread
      exact lexeme b b' s t i x h h' hread hadd (ih _ (hn ▸ hlt) h' rfl)

theorem compile_eq_ok : compile w = .ok nodes ↔ parse w = .ok nodes := by
  unfold compile
  split <;> simp_all

/-- Reading goes on alike if the next lexemes are alike. -/
theorem parseFrom_alike {r₁ r₁' : Remainder} (hb : b.Alike b') (hread : readLexeme? r = .ok (some (lexeme, r₁)))
    (hread' : readLexeme? r' = .ok (some (lexeme', r₁'))) (halike : lexeme.Alike lexeme')
    (hparse : parseFrom b r = .ok nodes) (hrest : ∀ b b', b.Alike b' → parseFrom b r₁ = .ok nodes →
      ∃ nodes', parseFrom b' r₁' = .ok nodes' ∧ AllAlike True nodes nodes') :
    ∃ nodes', parseFrom b' r' = .ok nodes' ∧ AllAlike True nodes nodes' := by
  obtain ⟨b₁, hadd, hparse⟩ := exists_of_parseFrom hread hparse
  obtain ⟨b₁', hadd', hb₁⟩ := Builder.add_alike hb halike hadd
  rw [parseFrom_eq hread' hadd']
  exact hrest b₁ b₁' hb₁ hparse

theorem finish_alike (hb : b.Alike b') (h : b.finish = .ok nodes) :
    ∃ nodes', b'.finish = .ok nodes' ∧ AllAlike True nodes nodes' := by
  obtain ⟨frames, ns⟩ := b
  obtain ⟨frames', ns'⟩ := b'
  obtain ⟨hframes, hnodes⟩ := hb
  cases hframes with
  | nil =>
    cases h
    exact ⟨_, rfl, List.rel_reverse hnodes⟩
  | cons => cases h

/-- A control string is read alike wherever it stands. -/
theorem parseFrom_shifted {i k : Nat} (hb : b.Alike b') (h : parseFrom b ⟨w, i⟩ = .ok nodes) :
    ∃ nodes', parseFrom b' ⟨w, k⟩ = .ok nodes' ∧ AllAlike True nodes nodes' := by
  induction h using parseFrom_induction generalizing b' k with
  | finish b i _ h =>
    rw [parseFrom_none (readLexeme_none.mpr rfl)]
    exact finish_alike hb h
  | lexeme b b₁ s t i lexeme _ _ hread hadd ih =>
    obtain ⟨lexeme', hread', hmoved⟩ := readLexeme_append hread rfl (.inl rfl) k
    obtain ⟨b₁', hadd', hb₁⟩ := Builder.add_alike hb hmoved.alike hadd
    rw [parseFrom_eq hread' hadd']
    exact ih hb₁

theorem parseFrom_respelled (h : Text.Respelled w w') {i k : Nat} (hb : b.Alike b')
    (hparse : parseFrom b ⟨w, i⟩ = .ok nodes) :
    ∃ nodes', parseFrom b' ⟨w', k⟩ = .ok nodes' ∧ AllAlike True nodes nodes' := by
  induction h generalizing b b' i k with
  | refl t => exact parseFrom_shifted hb hparse
  | @lexeme s t t' h hrest ih =>
    obtain ⟨lexeme, r, hread, htext⟩ := h.exists_readLexeme
    obtain ⟨_, hread, -⟩ := readLexeme_append hread htext (.inl rfl) i
    obtain ⟨_, hread', hmoved⟩ := readLexeme_append hread rfl (.inl hrest.head?_eq) k
    exact parseFrom_alike hb hread hread' hmoved.alike hparse fun _ _ hb => ih hb
  | @zero z z' m t t' x ps ps' hz hz' hm hx hrest ih =>
    obtain ⟨lexeme, r, hread⟩ := exists_readLexeme hparse (List.cons_ne_nil _ _)
    obtain ⟨htext, lexeme', r', hread', htext', halike⟩ := readLexeme_zero hz hz' hm hx hread k
    obtain ⟨t, offset⟩ := r
    obtain ⟨t', offset'⟩ := r'
    cases htext
    cases htext'
    exact parseFrom_alike hb hread hread' halike hparse fun _ _ hb => ih hb

/-- **Control strings that are respelled** have nodes that are alike. -/
theorem parse_respelled (h : Text.Respelled w w') (hparse : parse w = .ok nodes) :
    ∃ nodes', parse w' = .ok nodes' ∧ AllAlike True nodes nodes' :=
  parseFrom_respelled h ⟨.nil, .nil⟩ hparse

end Tilde
