import Tilde.Proofs.Directive.Build

/-!
# The tree of a control string

The nodes of a control string stand one behind the other in it, and so do the clauses of a group,
with the separators between them, from the end of the opening to the start of the closing directive.
**`stands_parse`**: this holds at every level of the tree, and where no directive stands for text,
the nodes of each level are all that there is.

* `Within`: the nodes of a tree, however deep;
* `Stands`: nodes of one level, as they stand in the control string;
* `Enclosed`, `Deep`: a group, and all groups of a tree, as they stand in the control string;
* `Stack`: the same of the groups that are still open.
-/

namespace Tilde

variable {w : Text} {i j k : Nat} {n : Node} {ns ms : List Node} {lexeme : Lexeme}
  {head closing : Head} {clauses : List (List Node)} {separators : List Head}
  {kind : Group} {f : Frame} {fs : List Frame} {b b' : Builder}

/-- The node is one of the nodes, or inside of one of them. -/
inductive Within (n : Node) : List Node → Prop
  | here {ns : List Node} (h : n ∈ ns) : Within n ns
  | inside {ns clause : List Node} {kind : Group} {head closing : Head}
      {clauses : List (List Node)} {separators : List Head}
      (hgroup : .group kind head clauses separators closing ∈ ns) (hclause : clause ∈ clauses)
      (h : Within n clause) : Within n ns

namespace Node

/-- The head of a directive; text has none. -/
def head? : Node → Option Head
  | .atom _ head | .group _ head _ _ _ => some head
  | .text _ | .copies .. | .foreign => none

/-- Literal text, and the source of a directive. -/
def source (w : Text) : Node → Text
  | .text s => s
  | .copies x count => List.replicate count x
  | .atom _ head | .group _ head _ _ _ => w.extract head.start head.stop
  | .foreign => []

end Node

/-- The brackets of a group. -/
def Group.bracket : Group → Bracket
  | .conditional => .conditional
  | .iteration => .iteration
  | .caseConversion => .caseConversion
  | .justification | .logicalBlock => .justification

/-- No directive stands for text. -/
def Text.IsPlain (w : Text) : Prop :=
  ∀ i command k, directiveAt? w i = some (command, k) → command.isVerbatim = false

/-- The nodes stand in the control string from one offset to another, directives one behind the
other. If the control string is plain, there is nothing but these nodes. -/
structure Stands (w : Text) (i j : Nat) (ns : List Node) : Prop where
  le : i ≤ j
  spans : ∀ n ∈ ns, ∀ head ∈ n.head?, w[head.start]? = some '~' ∧ i ≤ head.start ∧
    head.start < head.stop ∧ head.stop ≤ j
  increasing : (ns.filterMap Node.head?).Pairwise fun a b => a.stop ≤ b.start
  atoms : ∀ kind head, .atom kind head ∈ ns → head.ReadFrom w (.atom kind)
  native : .foreign ∉ ns
  covers : w.IsPlain → ns.flatMap (Node.source w) = w.extract i j

/-- The clauses stand in the control string from one offset to another, each with a separator behind
it. -/
inductive Separated (w : Text) (i : Nat) : Nat → List (List Node) → List Head → Prop
  | nil : Separated w i i [] []
  | concat {j : Nat} {clauses : List (List Node)} {separators : List Head} {ns : List Node}
      {separator : Head} (h : Separated w i j clauses separators)
      (stands : Stands w j separator.start ns) (read : separator.ReadFrom w .separator) :
      Separated w i separator.stop (clauses ++ [ns]) (separators ++ [separator])

/-- A group stands in the control string from its opening directive to the closing directive that
its kind requires. Between them are its clauses, with one separator less. -/
structure Enclosed (w : Text) (kind : Group) (head : Head) (clauses : List (List Node))
    (separators : List Head) (closing : Head) : Prop where
  closed : closing.ReadFrom w (.closing kind.bracket)
  stop : closing.stop = head.stop
  length : clauses.length = separators.length + 1
  parts : ∃ opened j front last,
    Head.ReadFrom w (.opening kind.bracket) { head with stop := opened } ∧
    Separated w opened j front separators ∧ Stands w j closing.start last ∧
    clauses = front ++ [last]

/-- All groups in the trees are enclosed. -/
def Deep (w : Text) (ns : List Node) : Prop :=
  ∀ kind head clauses separators closing, Within (.group kind head clauses separators closing) ns →
    Enclosed w kind head clauses separators closing

/-! ## Slices -/

theorem extract_append_extract (hij : i ≤ j) (hjk : j ≤ k) :
    w.extract i j ++ w.extract j k = w.extract i k := by
  simp only [List.extract_eq_take_drop]
  rw [show k - i = (j - i) + (k - j) by omega, List.take_add, List.drop_drop,
    show i + (j - i) = j by omega]

/-! ## Nodes of one level -/

namespace Stands

theorem nil (w : Text) (i : Nat) : Stands w i i [] where
  le := le_rfl
  spans := by simp
  increasing := .nil
  atoms := by simp
  native := by simp
  covers := by simp

theorem append (h : Stands w i j ns) (h' : Stands w j k ms) : Stands w i k (ns ++ ms) where
  le := h.le.trans h'.le
  spans n hn head hhead := by
    rcases List.mem_append.mp hn with hn | hn
    · obtain ⟨htilde, hstart, hlt, hstop⟩ := h.spans n hn head hhead
      exact ⟨htilde, hstart, hlt, hstop.trans h'.le⟩
    · obtain ⟨htilde, hstart, hlt, hstop⟩ := h'.spans n hn head hhead
      exact ⟨htilde, h.le.trans hstart, hlt, hstop⟩
  increasing := by
    rw [List.filterMap_append, List.pairwise_append]
    refine ⟨h.increasing, h'.increasing, fun a ha b hb => ?_⟩
    obtain ⟨n, hn, hna⟩ := List.mem_filterMap.mp ha
    obtain ⟨m, hm, hmb⟩ := List.mem_filterMap.mp hb
    exact (h.spans n hn a hna).2.2.2.trans (h'.spans m hm b hmb).2.1
  atoms kind head hmem := (List.mem_append.mp hmem).elim (h.atoms kind head) (h'.atoms kind head)
  native hmem := (List.mem_append.mp hmem).elim h.native h'.native
  covers hplain := by
    rw [List.flatMap_append, h.covers hplain, h'.covers hplain, extract_append_extract h.le h'.le]

/-- A directive stands where its head says. -/
theorem directive (hhead : n.head? = some head) (htilde : w[head.start]? = some '~')
    (hlt : head.start < head.stop) (hsource : n.source w = w.extract head.start head.stop)
    (hatoms : ∀ kind head, n = .atom kind head → head.ReadFrom w (.atom kind)) :
    Stands w head.start head.stop [n] where
  le := hlt.le
  spans m hm head' hhead' := by
    obtain rfl := List.mem_singleton.mp hm
    obtain rfl := Option.some.inj (hhead.symm.trans hhead')
    exact ⟨htilde, le_rfl, hlt, le_rfl⟩
  increasing := by simp [hhead]
  atoms kind head hmem := hatoms kind head (List.mem_singleton.mp hmem).symm
  native := by
    rintro hmem
    obtain rfl := List.mem_singleton.mp hmem
    simp [Node.head?] at hhead
  covers _ := by simpa using hsource

/-- Text stands anywhere, if it is what stands there or the control string is not plain. -/
theorem text (hij : i ≤ j) (hns : ∀ n ∈ ns, n.head? = none ∧ n ≠ .foreign)
    (hcovers : w.IsPlain → ns.flatMap (Node.source w) = w.extract i j) : Stands w i j ns where
  le := hij
  spans n hn head hhead := by simp [(hns n hn).1] at hhead
  increasing := by
    rw [List.filterMap_eq_nil_iff.mpr fun n hn => (hns n hn).1]
    exact .nil
  atoms kind head hmem := by simpa [Node.head?] using (hns _ hmem).1
  native hmem := (hns _ hmem).2 rfl
  covers := hcovers

end Stands

/-! ## Trees -/

theorem within_append : Within n (ns ++ ms) ↔ Within n ns ∨ Within n ms := by
  constructor
  · rintro (h | ⟨hgroup, hclause, h⟩)
    · exact (List.mem_append.mp h).imp .here .here
    · exact (List.mem_append.mp hgroup).imp (.inside · hclause h) (.inside · hclause h)
  · rintro ((h | ⟨hgroup, hclause, h⟩) | (h | ⟨hgroup, hclause, h⟩))
    · exact .here (List.mem_append_left ms h)
    · exact .inside (List.mem_append_left ms hgroup) hclause h
    · exact .here (List.mem_append_right ns h)
    · exact .inside (List.mem_append_right ns hgroup) hclause h

theorem Within.of_mem {m : Node} (h : Within m [n]) (hn : n ∈ ns) : Within m ns := by
  cases h with
  | here h => exact .here (List.mem_singleton.mp h ▸ hn)
  | inside hgroup hclause h => exact .inside (List.mem_singleton.mp hgroup ▸ hn) hclause h

namespace Deep

theorem append (h : Deep w ns) (h' : Deep w ms) : Deep w (ns ++ ms) :=
  fun kind head clauses separators closing hwithin =>
    (within_append.mp hwithin).elim (h kind head clauses separators closing)
      (h' kind head clauses separators closing)

theorem nil (w : Text) : Deep w [] := by
  rintro kind head clauses separators closing (h | ⟨h, -, -⟩) <;> simp at h

/-- Directives that enclose nothing, and text. -/
theorem leaf (h : ∀ kind head clauses separators closing,
    n ≠ .group kind head clauses separators closing) : Deep w [n] := by
  rintro kind head clauses separators closing (hmem | ⟨hmem, -, -⟩) <;>
    exact absurd (List.mem_singleton.mp hmem).symm (h _ _ _ _ _)

theorem group (h : Enclosed w kind head clauses separators closing)
    (hclauses : ∀ clause ∈ clauses, Deep w clause) :
    Deep w [.group kind head clauses separators closing] := by
  rintro kind' head' clauses' separators' closing' (hmem | ⟨hmem, hclause, hwithin⟩)
  · obtain ⟨rfl, rfl, rfl, rfl, rfl⟩ := by simpa using hmem
    exact h
  · obtain ⟨rfl, rfl, rfl, rfl, rfl⟩ := by simpa using hmem
    exact hclauses _ hclause _ _ _ _ _ hwithin

end Deep

namespace Separated

theorem le (h : Separated w i j clauses separators) : i ≤ j := by
  induction h with
  | nil => exact le_rfl
  | concat h stands read ih =>
    have := of_directiveAt read.place
    have := stands.le
    omega

theorem length (h : Separated w i j clauses separators) : clauses.length = separators.length := by
  induction h with
  | nil => rfl
  | concat h stands read ih => simp [ih]

theorem exists_stands (h : Separated w i j clauses separators) (hns : ns ∈ clauses) :
    ∃ k l, Stands w k l ns ∧ l ≤ w.length := by
  induction h with
  | nil => simp at hns
  | concat h stands read ih =>
    rcases List.mem_append.mp hns with hns | hns
    · exact ih hns
    · have := of_directiveAt read.place
      exact ⟨_, _, List.mem_singleton.mp hns ▸ stands, by omega⟩

end Separated

/-- Every clause of a group has its place. -/
theorem Enclosed.exists_stands (h : Enclosed w kind head clauses separators closing)
    (hns : ns ∈ clauses) : ∃ k l, Stands w k l ns ∧ l ≤ w.length := by
  obtain ⟨opened, j, front, last, -, hfront, hlast, rfl⟩ := h.parts
  have := of_directiveAt h.closed.place
  rcases List.mem_append.mp hns with hns | hns
  · exact hfront.exists_stands hns
  · exact ⟨_, _, List.mem_singleton.mp hns ▸ hlast, by omega⟩

/-- Directives, however deep, begin with a tilde and end in the control string. -/
theorem Deep.span (hdeep : Deep w ns) (hstands : Stands w i j ns) (hj : j ≤ w.length)
    (hwithin : Within n ns) (hhead : head ∈ n.head?) :
    w[head.start]? = some '~' ∧ head.start < head.stop ∧ head.stop ≤ w.length := by
  induction hwithin generalizing i j with
  | here hn =>
    obtain ⟨htilde, -, hlt, hstop⟩ := hstands.spans n hn head hhead
    exact ⟨htilde, hlt, hstop.trans hj⟩
  | inside hgroup hclause hwithin ih =>
    obtain ⟨k, l, hclauseStands, hl⟩ :=
      (hdeep _ _ _ _ _ (.here hgroup)).exists_stands hclause
    exact ih (fun _ _ _ _ _ h => hdeep _ _ _ _ _ (.inside hgroup hclause h)) hclauseStands hl

/-! ## Lexemes and groups -/

theorem LexemeAt.stands_text (h : LexemeAt w i j lexeme) (hisText : lexeme.IsText)
    (hns : ∀ n ∈ ns, n.head? = none ∧ n ≠ .foreign)
    (hsource : ∀ s, lexeme = .text s → ns.flatMap (Node.source w) = s) : Stands w i j ns := by
  refine .text h.lt.1.le hns fun hplain => ?_
  cases h with
  | literal lt le text plain => rw [hsource _ rfl, text]
  | verbatim place verbatim => simp [hplain _ _ _ place] at verbatim
  | directive => exact hisText.elim

theorem bracket_of_closedGroup
    (h : closedGroup f.bracket head clauses separators closing = .ok kind) : kind.bracket = f.bracket := by
  unfold closedGroup at h
  split at h <;> rename_i hbracket <;> rw [hbracket]
  · unfold checkConditional at h
    split_ifs at h
    exact Except.ok.inj h ▸ rfl
  · exact Except.ok.inj h ▸ rfl
  · exact Except.ok.inj h ▸ rfl
  · split_ifs at h
    · unfold checkBlock at h
      split_ifs at h
      obtain ⟨block, -, rfl⟩ := exists_of_map_ok h
      rfl
    · unfold checkJustification at h
      split_ifs at h
      exact Except.ok.inj h ▸ rfl

theorem of_close (h : f.close closing = .ok n) :
    ∃ kind, kind.bracket = f.bracket ∧ n = .group kind { f.head with stop := closing.stop }
      (f.clauses.reverse ++ [f.current.reverse]) f.separators.reverse closing := by
  unfold Frame.close at h
  dsimp only at h
  split at h
  · simp at h
  · rename_i kind hkind
    refine ⟨kind, bracket_of_closedGroup hkind, ?_⟩
    rw [← Except.ok.inj h, List.reverse_cons]

/-! ## The groups still open -/

/-- The nodes outside of the open groups, and the parts of each open group, stand in the control
string up to the offset. -/
inductive Stack (w : Text) : Nat → List Frame → List Node → Prop
  | base {j : Nat} {nodes : List Node} (stands : Stands w 0 j nodes.reverse)
      (deep : Deep w nodes.reverse) : Stack w j [] nodes
  | frame {j k : Nat} {f : Frame} {fs : List Frame} {nodes : List Node}
      (outer : Stack w f.head.start fs nodes) (opened : f.head.ReadFrom w (.opening f.bracket))
      (separated : Separated w f.head.stop k f.clauses.reverse f.separators.reverse)
      (stands : Stands w k j f.current.reverse) (closed : ∀ clause ∈ f.clauses, Deep w clause)
      (deep : Deep w f.current.reverse) : Stack w j (f :: fs) nodes

namespace Stack

theorem skip (h : Stack w i b.frames b.nodes) (hnil : Stands w i j []) :
    Stack w j b.frames b.nodes := by
  obtain ⟨frames, nodes⟩ := b
  cases h with
  | base stands deep => exact .base (by simpa using stands.append hnil) deep
  | frame outer opened separated stands closed deep =>
    exact .frame outer opened separated (by simpa using stands.append hnil) closed deep

theorem push (h : Stack w i b.frames b.nodes) (hn : Stands w i j [n]) (hdeep : Deep w [n]) :
    Stack w j (b.push n).frames (b.push n).nodes := by
  obtain ⟨frames, nodes⟩ := b
  cases h with
  | base stands deep =>
    refine .base ?_ ?_ <;> simp only [Builder.push, List.reverse_cons]
    · exact stands.append hn
    · exact deep.append hdeep
  | frame outer opened separated stands closed deep =>
    refine .frame outer opened separated ?_ closed ?_ <;> simp only [List.reverse_cons]
    · exact stands.append hn
    · exact deep.append hdeep

/-- A group that is closed stands where its opening directive begins and the closing one ends. -/
theorem close (h : Stack w closing.start (f :: fs) ns) (hclose : f.close closing = .ok n)
    (hclosing : closing.ReadFrom w (.closing f.bracket)) :
    Stack w f.head.start fs ns ∧ Stands w f.head.start closing.stop [n] ∧ Deep w [n] := by
  cases h with
  | frame outer opened separated stands closed deep =>
    obtain ⟨kind, hkind, rfl⟩ := of_close hclose
    have hopening := of_directiveAt opened.place
    have hlt := of_directiveAt hclosing.place
    have hle := separated.le
    have hle' := stands.le
    let head : Head := { f.head with stop := closing.stop }
    have hspan : head.start < head.stop := by
      show f.head.start < closing.stop
      omega
    have hspanned (clauses : List (List Node)) (separators : List Head) :
        Stands w head.start head.stop [.group kind head clauses separators closing] :=
      .directive rfl hopening.1 hspan rfl (by simp)
    refine ⟨outer, hspanned _ _, .group ⟨hkind ▸ hclosing, rfl, ?_, ?_⟩ ?_⟩
    · rw [List.length_append, List.length_singleton, separated.length]
    · exact ⟨f.head.stop, _, f.clauses.reverse, _, hkind ▸ opened, separated, stands, rfl⟩
    · intro clause hclause
      rcases List.mem_append.mp hclause with hclause | hclause
      · exact closed clause (List.mem_reverse.mp hclause)
      · exact List.mem_singleton.mp hclause ▸ deep

/-- **What a lexeme adds stands where the lexeme stands.** -/
theorem add (h : Stack w i b.frames b.nodes) (hlexeme : LexemeAt w i j lexeme)
    (hadds : b.Adds lexeme b') : Stack w j b'.frames b'.nodes := by
  cases hadds with
  | nothing hnothing =>
    refine h.skip (hlexeme.stands_text ?_ (by simp) ?_)
    · rcases hnothing with rfl | ⟨x, rfl⟩ <;> trivial
    · rintro s rfl
      rcases hnothing with hs | ⟨x, hs⟩
      · simpa using hs.symm
      · simp at hs
  | @text s hs =>
    have hstands : Stands w i j [.text s] := by
      refine hlexeme.stands_text trivial ?_ ?_
      · simp [Node.head?]
      · rintro t ⟨⟩
        simp [Node.source]
    exact h.push hstands (.leaf (by simp))
  | @copies x count =>
    have hstands : Stands w i j [.copies x count] :=
      hlexeme.stands_text trivial (by simp [Node.head?]) (by simp)
    exact h.push hstands (.leaf (by simp))
  | @atom kind head =>
    obtain ⟨hread, rfl, rfl, -⟩ := hlexeme.read
    have hplace := of_directiveAt hread.place
    have hstands : Stands w head.start head.stop [.atom kind head] := by
      refine .directive rfl hplace.1 (by omega) rfl ?_
      rintro kind' head' ⟨⟩
      exact hread
    exact h.push hstands (.leaf (by simp))
  | opening =>
    obtain ⟨hread, rfl, rfl, -⟩ := hlexeme.read
    exact .frame h hread .nil (.nil w _) (by simp) (.nil w)
  | separator hframes _ =>
    obtain ⟨hread, rfl, rfl, -⟩ := hlexeme.read
    rw [hframes] at h
    cases h with
    | frame outer opened separated stands closed deep =>
      refine .frame outer opened ?_ (.nil w _) ?_ (.nil w)
      · simpa using separated.concat stands hread
      · exact List.forall_mem_cons.mpr ⟨deep, closed⟩
  | closing hframes hclose =>
    obtain ⟨hread, rfl, rfl, -⟩ := hlexeme.read
    rw [hframes] at h
    obtain ⟨houter, hstands, hdeep⟩ := h.close hclose hread
    exact houter.push (b := ⟨_, _⟩) hstands hdeep

theorem of_reached (h : b.Reached w i) : Stack w i b.frames b.nodes := by
  induction h with
  | start => exact .base (.nil w 0) (.nil w)
  | add h hlexeme hadds ih => exact ih.add hlexeme hadds

end Stack

/-- **The tree of a control string is well bracketed and covers it.** -/
theorem stands_parse (h : parse w = .ok ns) :
    Stands w 0 w.length ns ∧ Deep w ns ∧ ∀ n head, Within n ns → head ∈ n.head? →
      w[head.start]? = some '~' ∧ head.start < head.stop ∧ head.stop ≤ w.length := by
  obtain ⟨b, hreached, hframes, rfl⟩ := reached_of_parse h
  have hstack := Stack.of_reached hreached
  rw [hframes] at hstack
  cases hstack with
  | base stands deep => exact ⟨stands, deep, fun n head => deep.span stands le_rfl⟩

/-- A conditional of two clauses, with an iteration in the second one. -/
theorem stands_parse_conditional :
    let w : Text := "~:[a~;~{~D~}~]".toList
    let ns : List Node := [.group .conditional ⟨[], [], true, false, 0, 14⟩
      [[.text ['a']], [.group .iteration ⟨[], [], false, false, 6, 12⟩
        [[.atom .decimal ⟨[], [], false, false, 8, 10⟩]] [] ⟨[], [], false, false, 10, 12⟩]]
      [⟨[], [], false, false, 4, 6⟩] ⟨[], [], false, false, 12, 14⟩]
    parse w = .ok ns ∧ Stands w 0 w.length ns ∧ Deep w ns ∧
      ∀ n head, Within n ns → head ∈ n.head? →
        w[head.start]? = some '~' ∧ head.start < head.stop ∧ head.stop ≤ w.length := by
  intro w ns
  have h : parse w = .ok ns := by with_unfolding_all rfl
  exact ⟨h, stands_parse h⟩

end Tilde
