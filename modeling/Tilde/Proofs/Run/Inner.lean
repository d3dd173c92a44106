import Tilde.Proofs.Run.Rule

/-!
# Runs inside of a node

A node runs others in a few ways only: its own nodes or those of a control string among the
arguments, in the list that it got or in one that it takes from there.

* `Node.Enters`: the nodes that a node may run, with the cursors that they may get;
* **`Action.runNode_congr`**: the run of the node depends on nothing but these runs;
* **`Rule.Kept.obeys`**: a rule is obeyed if what it asks for is handed down to all nodes.
-/

namespace Tilde

/-! ## Cursors in the same list -/

namespace Cursor

variable {c c' : Cursor} {v : Value} {head : Head} {s : List Value}

/-- The cursors stand in the same list. -/
def SameList (c c' : Cursor) : Prop := c'.arguments = c.arguments ∧ c'.outer = c.outer

theorem SameList.refl (c : Cursor) : c.SameList c := ⟨rfl, rfl⟩

theorem SameList.trans {a b c : Cursor} (h : a.SameList b) (h' : b.SameList c) : a.SameList c :=
  ⟨h'.1.trans h.1, h'.2.trans h.2⟩

theorem sameList_of_goto (h : c.goto v = .ok c') : c.SameList c' := by
  obtain ⟨rfl, -⟩ := of_goto h
  exact ⟨rfl, rfl⟩

theorem sameList_of_next (h : c.next = .ok (v, c')) : c.SameList c' := by
  obtain ⟨n, -, -, rfl⟩ := of_next h
  exact ⟨rfl, rfl⟩

theorem mem_of_next (h : c.next = .ok (v, c')) : v ∈ c.arguments := by
  unfold next at h
  split at h
  · cases h
  · obtain ⟨i, -, h⟩ := exists_of_bind_ok h
    dsimp only at h
    split at h
    · rename_i w hw
      obtain ⟨position, -, h⟩ := exists_of_bind_ok h
      cases h
      split at hw
      · cases hw
      · exact Array.mem_of_getElem? hw
    · cases h

theorem travel_sameList : Travel SameList (fun _ _ => True) fun _ => True where
  refl := .refl
  trans := .trans
  next := sameList_of_next
  last := sameList_of_goto
  goTo _ _ h := (exists_goto_of_moveCursor h).elim fun _ => sameList_of_goto
  plural _ _ h := (exists_of_bind_ok h).elim fun _ h => sameList_of_goto h.2
  recursive _ _ _ := trivial
  given _ _ _ _ := trivial
  clauses _ _ _ _ _ := trivial

end Cursor

/-! ## Nodes inside -/

/-- With an at-sign, a directive goes over the arguments themselves, and else over one of them. -/
def Head.Over (head : Head) (c c' : Cursor) : Prop :=
  if head.atSign then c.SameList c'
  else ∃ v ∈ c.arguments, ∃ start, Cursor.ofValue v none = .ok start ∧ start.SameList c'

/-- The nodes are those of the clauses, or of one of them. -/
def FromClauses (clauses : List (List Node)) (nodes : List Node) : Prop :=
  ∀ n ∈ nodes, ∃ clause ∈ clauses, n ∈ clause

/-- The nodes are what an iteration may repeat: its own, or, if it has none, those of a control string
among the arguments. -/
def IteratesOver (clauses : List (List Node)) (c : Cursor) (nodes : List Node) : Prop :=
  FromClauses clauses nodes ∨ clauses.headD [] = [] ∧ ∃ v ∈ c.arguments, nodesOf v = .ok nodes

/-- Run at a cursor, the node may run the nodes at the other one. -/
inductive Node.Enters : Node → Cursor → List Node → Cursor → Prop
  | clause {kind : Group} {head closing : Head} {clauses : List (List Node)}
      {separators : List Head} {c c' : Cursor} {nodes : List Node}
      (hkind : kind ≠ .iteration ∧ kind ≠ .logicalBlock) (hnodes : FromClauses clauses nodes)
      (h : c.SameList c') : Enters (.group kind head clauses separators closing) c nodes c'
  | pass {head closing : Head} {clauses : List (List Node)} {separators : List Head}
      {c c' : Cursor} {nodes : List Node} (hcolon : head.colon = false)
      (hnodes : IteratesOver clauses c nodes) (h : head.Over c c') :
      Enters (.group .iteration head clauses separators closing) c nodes c'
  | sublist {head closing : Head} {clauses : List (List Node)} {separators : List Head}
      {c items items' c' : Cursor} {nodes : List Node} {v : Value} (hcolon : head.colon = true)
      (hnodes : IteratesOver clauses c nodes)
      (hitems : head.Over c items) (hnext : items.nextOrNothing = .ok (v, items'))
      (h : Action.sublistCursor v items' = .ok c') :
      Enters (.group .iteration head clauses separators closing) c nodes c'
  | block {head closing : Head} {clauses : List (List Node)} {separators : List Head}
      {c c' : Cursor} {block : Block}
      (hblock : Block.ofClauses head clauses separators closing = .ok block)
      (h : head.Over c c') :
      Enters (.group .logicalBlock head clauses separators closing) c block.body c'
  | control {head : Head} {c c' : Cursor} {nodes : List Node} {v : Value} (hv : v ∈ c.arguments)
      (hnodes : nodesOf v = .ok nodes) (h : head.Over c c') :
      Enters (.atom .recursive head) c nodes c'

variable {c c' c₁ : Cursor} {v : Value} {head closing : Head} {clauses : List (List Node)}
  {separators : List Head} {nodes : List Node}

theorem Head.Over.of_sameList (h : head.Over c₁ c') (hc : c.SameList c₁) : head.Over c c' := by
  unfold Head.Over at h ⊢
  split_ifs at h ⊢
  · exact hc.trans h
  · rwa [← hc.1]

theorem Head.Over.trans (h : head.Over c c₁) (hc : c₁.SameList c') : head.Over c c' := by
  unfold Head.Over at h ⊢
  split_ifs at h ⊢
  · exact h.trans hc
  · obtain ⟨v, hv, start, hstart, h⟩ := h
    exact ⟨v, hv, start, hstart, h.trans hc⟩

theorem Head.over_self (hatSign : head.atSign = true) (h : c.SameList c') : head.Over c c' := by
  rwa [Head.Over, if_pos hatSign]

theorem Head.over_argument (hatSign : ¬head.atSign = true) (hv : v ∈ c.arguments)
    (h : Cursor.ofValue v none = .ok c') : head.Over c c' := by
  rw [Head.Over, if_neg hatSign]
  exact ⟨v, hv, c', h, .refl c'⟩

/-! ## Congruence -/

namespace Action

variable {α β : Type} {P : α → Prop} {a : Action α} {k k' : α → Action β} {run run' : Runner}
  {passes : Nat} {route : Route} {n : Node}

theorem Yields.bind_congr (ha : a.Yields P) (hk : ∀ x, P x → k x = k' x) :
    a >>= k = a >>= k' := by
  funext s
  show EStateM.bind a k s = EStateM.bind a k' s
  unfold EStateM.bind
  cases h : a s with
  | error e s₁ => rfl
  | ok x s₁ => exact congrFun (hk x (ha s x s₁ h)) s₁

theorem lift_bind_congr {e : Except Fault α} (hk : ∀ x, e = .ok x → k x = k' x) :
    lift e >>= k = lift e >>= k' :=
  Yields.bind_congr (.lift fun _ hx => hx) hk

/-- The two run the same wherever the clauses may be run in the list of the cursor. -/
def AgreeOn (run run' : Runner) (clauses : List (List Node)) (c : Cursor) : Prop :=
  ∀ route nodes c', FromClauses clauses nodes → c.SameList c' →
    run route nodes c' = run' route nodes c'

theorem AgreeOn.of_sameList (h : AgreeOn run run' clauses c) (hc : c.SameList c') :
    AgreeOn run run' clauses c' :=
  fun route nodes c'' hnodes hc' => h route nodes c'' hnodes (hc.trans hc')

theorem fromClauses_of_mem {clause : List Node} (h : clause ∈ clauses) :
    FromClauses clauses clause := fun _ hn => ⟨clause, h, hn⟩

theorem fromClauses_getD (i : Nat) : FromClauses clauses (clauses.getD i []) :=
  Travel.of_mem_getD (fun clause hclause _ hn => ⟨clause, hclause, hn⟩) i

theorem fromClauses_headD : FromClauses clauses (clauses.headD []) :=
  Travel.of_mem_headD fun clause hclause _ hn => ⟨clause, hclause, hn⟩

open Cursor (travel_sameList)

theorem sameList_of_settle {defaults s : List Value} (h : head.settle defaults c = .ok (s, c')) :
    c.SameList c' := travel_sameList.settleAll h

theorem runChosen_congr (h : AgreeOn run run' clauses c) (hc : c.SameList c₁) (v : Value) :
    runChosen run route clauses separators v c₁ = runChosen run' route clauses separators v c₁ := by
  unfold runChosen
  cases v with
  | int n =>
    have hoptions : FromClauses clauses ((choices clauses separators).getD n.toNat []) :=
      Travel.of_mem_getD (fun clause hclause _ hn =>
        ⟨clause, Travel.choices_subset hclause, hn⟩) _
    dsimp only
    rw [h route _ c₁ hoptions hc]
    cases hfallback : fallback? clauses separators with
    | none => rfl
    | some clause =>
      dsimp only
      rw [h route _ c₁ (fromClauses_of_mem (Travel.fallback_mem hfallback)) hc]
  | _ => rfl

theorem runConditional_congr (h : AgreeOn run run' clauses c) :
    runConditional run route head clauses separators c =
      runConditional run' route head clauses separators c := by
  unfold runConditional
  split_ifs
  · refine lift_bind_congr ?_
    rintro ⟨v, c₁⟩ hnext
    exact h route _ c₁ (fromClauses_getD _) (Cursor.sameList_of_next hnext)
  · refine bind_congr fun v => ?_
    rw [h route _ c fromClauses_headD (.refl c)]
  · refine lift_bind_congr ?_
    rintro ⟨s, c₁⟩ hsettle
    have hc := sameList_of_settle hsettle
    dsimp only
    split
    · refine lift_bind_congr ?_
      rintro ⟨v, c₂⟩ hnext
      exact runChosen_congr h (hc.trans (Cursor.sameList_of_next hnext)) v
    · exact runChosen_congr h hc _

theorem runCaseConversion_congr (h : AgreeOn run run' clauses c) :
    runCaseConversion run route head clauses c = runCaseConversion run' route head clauses c := by
  unfold runCaseConversion
  exact bind_congr fun i => h _ _ c fromClauses_headD (.refl c)

/-! ### Justifications -/

theorem render_congr {room : Nat} {o : Options} (h : AgreeOn run run' clauses c)
    (hnodes : FromClauses clauses nodes) :
    render run room o nodes c = render run' room o nodes c := by
  unfold render perform
  rw [h _ nodes c hnodes (.refl c)]

theorem renderSegments_congr (hrun : Guides Cursor.SameList (fun _ => True) run) {room : Nat}
    {o : Options} {segments : List (List Node)} (hsegments : segments ⊆ clauses)
    (h : AgreeOn run run' clauses c) :
    renderSegments run room o segments c = renderSegments run' room o segments c := by
  induction segments generalizing c with
  | nil => rfl
  | cons segment segments ih =>
    obtain ⟨hsegment, hsegments⟩ := List.cons_subset.mp hsegments
    unfold renderSegments
    rw [← render_congr h (fromClauses_of_mem hsegment)]
    cases hrender : render run room o segment c with
    | error e => rfl
    | ok r =>
      obtain ⟨text, c₁, exit⟩ := r
      have hc := Travel.render hrun (fun _ _ => trivial) hrender
      show (if exit.isSome then _ else _) = (if exit.isSome then _ else _)
      rw [ih hsegments (h.of_sameList hc)]

theorem renderOverflow_congr {room : Nat} {o : Options} (h : AgreeOn run run' clauses c) :
    renderOverflow run room o clauses separators c =
      renderOverflow run' room o clauses separators c := by
  unfold renderOverflow
  cases hclause : overflow? clauses separators with
  | none => rfl
  | some clause =>
    cases overflowSeparator? separators with
    | none => rfl
    | some separator =>
      dsimp only
      rw [render_congr h (fromClauses_of_mem (Travel.overflow_mem hclause))]

theorem runJustification_congr (hrun : Guides Cursor.SameList (fun _ => True) run)
    (h : AgreeOn run run' clauses c) :
    runJustification run route head clauses separators c =
      runJustification run' route head clauses separators c := by
  unfold runJustification
  refine lift_bind_congr ?_
  rintro ⟨s, c₁⟩ hsettle
  have hc := sameList_of_settle hsettle
  refine bind_congr fun refused => ?_
  split_ifs
  · rfl
  refine bind_congr fun o => ?_
  rw [← renderOverflow_congr (h.of_sameList hc)]
  refine lift_bind_congr ?_
  rintro ⟨overflow, c₂⟩ hoverflow
  have hc₂ := hc.trans
    (travel_sameList.renderOverflow hrun (fun _ _ _ _ => trivial) hoverflow)
  dsimp only
  rw [renderSegments_congr hrun Travel.segments_subset (h.of_sameList hc₂)]

/-! ### Iterations -/

/-- The two run the same wherever a pass may run the nodes. -/
def AgreePasses (run run' : Runner) (l : Loop) (items : Cursor) : Prop :=
  ∀ route items' c, items.SameList items' →
    (if l.sublists then ∃ v rest, items'.nextOrNothing = .ok (v, rest) ∧
      sublistCursor v rest = .ok c else c = items') → run route l.body c = run' route l.body c

theorem pass_congr {l : Loop} {items items' : Cursor} (h : AgreePasses run run' l items)
    (hitems : items.SameList items') (i : Nat) :
    pass run route l i items' = pass run' route l i items' := by
  unfold pass
  refine bind_congr fun allowed => ?_
  split_ifs with _ _ hsublists
  · rfl
  · rfl
  · refine lift_bind_congr ?_
    rintro ⟨v, rest⟩ hnext
    refine lift_bind_congr fun c hc => ?_
    rw [h route items' c hitems (by rw [if_pos hsublists]; exact ⟨v, rest, hnext, hc⟩)]
  · rw [h route items' items' hitems (by rw [if_neg hsublists])]

theorem iterate_congr (hrun : Guides Cursor.SameList (fun _ => True) run) {l : Loop}
    {items items' : Cursor} (h : AgreePasses run run' l items) (hitems : items.SameList items')
    (passes i : Nat) :
    iterate run route l passes i items' = iterate run' route l passes i items' := by
  induction passes generalizing i items' with
  | zero => rfl
  | succ passes ih =>
    rw [iterate_succ, iterate_succ, ← pass_congr h hitems]
    refine Yields.bind_congr (travel_sameList.pass hrun (fun _ _ => trivial) i items') ?_
    rintro ⟨items'', again⟩ hpass
    split_ifs
    · exact ih (hitems.trans hpass) (i + 1)
    · rfl

theorem runLoop_congr (hrun : Guides Cursor.SameList (fun _ => True) run) {l : Loop}
    (h : ∀ items, head.Over c₁ items → AgreePasses run run' l items) :
    runLoop passes run route head l c₁ = runLoop passes run' route head l c₁ := by
  unfold runLoop
  split_ifs with hatSign
  · rw [iterate_congr hrun (h c₁ (Head.over_self hatSign (.refl c₁))) (.refl c₁)]
  · refine lift_bind_congr ?_
    rintro ⟨v, c₂⟩ hnext
    refine lift_bind_congr fun items hitems => ?_
    have hover := Head.over_argument hatSign (Cursor.mem_of_next hnext) hitems
    rw [iterate_congr hrun (h items hover) (.refl items)]

/-- The passes of an iteration are runs inside of it. -/
theorem agreePasses_of_enters {body : List Node} {limit : Value}
    (h : ∀ route nodes c', Node.Enters (.group .iteration head clauses separators closing) c
      nodes c' → run route nodes c' = run' route nodes c')
    (hbody : IteratesOver clauses c body)
    {items : Cursor} (hitems : head.Over c items) :
    AgreePasses run run' ⟨body, head.colon, closing.colon, limit⟩ items := by
  intro route items' c' hsame hc'
  have hover := hitems.trans hsame
  dsimp only at hc' ⊢
  split_ifs at hc' with hcolon
  · obtain ⟨v, rest, hnext, hc'⟩ := hc'
    exact h route body c' (.sublist hcolon hbody hover hnext hc')
  · exact h route body c' (.pass (by simpa using hcolon) hbody (hc' ▸ hover))

theorem runIteration_congr (hrun : Guides Cursor.SameList (fun _ => True) run)
    (h : ∀ route nodes c', Node.Enters (.group .iteration head clauses separators closing) c
      nodes c' → run route nodes c' = run' route nodes c') :
    runIteration passes run route head clauses closing c =
      runIteration passes run' route head clauses closing c := by
  unfold runIteration
  refine lift_bind_congr ?_
  rintro ⟨s, c₁⟩ hsettle
  have hc := sameList_of_settle hsettle
  dsimp only
  split
  · rename_i hempty
    refine lift_bind_congr ?_
    rintro ⟨v, c₂⟩ hnext
    refine lift_bind_congr fun nodes hnodes => ?_
    have hv : v ∈ c.arguments := hc.1 ▸ Cursor.mem_of_next hnext
    have hc₂ := hc.trans (Cursor.sameList_of_next hnext)
    exact runLoop_congr hrun fun items hitems =>
      agreePasses_of_enters h (.inr ⟨hempty, v, hv, hnodes⟩) (hitems.of_sameList hc₂)
  · exact runLoop_congr hrun fun items hitems =>
      agreePasses_of_enters h (.inl fromClauses_headD) (hitems.of_sameList hc)

/-! ### Logical blocks and control strings -/

theorem runAround_congr (o : Options) {items : Cursor}
    (h : ∀ block, Block.ofClauses head clauses separators closing = .ok block →
      run route block.body items = run' route block.body items) (c : Cursor) :
    runAround run route o (Block.ofClauses head clauses separators closing) items c =
      runAround run' route o (Block.ofClauses head clauses separators closing) items c := by
  unfold runAround
  cases hblock : Block.ofClauses head clauses separators closing with
  | error e => rfl
  | ok block =>
    dsimp only
    rw [h block hblock]

theorem runBlock_congr
    (h : ∀ route nodes c', Node.Enters (.group .logicalBlock head clauses separators closing) c
      nodes c' → run route nodes c' = run' route nodes c') :
    runBlock run route head clauses separators closing c =
      runBlock run' route head clauses separators closing c := by
  unfold runBlock
  refine bind_congr fun o => ?_
  have around (items c₁ : Cursor) (hitems : head.Over c items) :=
    runAround_congr o (fun block hblock => h route block.body items (.block hblock hitems)) c₁
  dsimp only
  split_ifs with hatSign
  · refine lift_bind_congr fun c₁ _ => ?_
    exact around c c₁ (Head.over_self hatSign (.refl c))
  · refine lift_bind_congr ?_
    rintro ⟨v, c₁⟩ hnext
    have hover := fun items hitems => @Head.over_argument c items v head hatSign
      (Cursor.mem_of_next hnext) hitems
    cases v with
    | list items | tuple items => exact around _ c₁ (hover _ rfl)
    | _ => rfl

theorem runRecursive_congr
    (h : ∀ route nodes c', Node.Enters (.atom .recursive head) c nodes c' →
      run route nodes c' = run' route nodes c') :
    runRecursive run route head c = runRecursive run' route head c := by
  unfold runRecursive
  refine lift_bind_congr ?_
  rintro ⟨v, c₁⟩ hnext
  have hc := Cursor.sameList_of_next hnext
  refine lift_bind_congr fun nodes hnodes => ?_
  have henter := fun c' hover => @Node.Enters.control head c c' nodes v
    (Cursor.mem_of_next hnext) hnodes hover
  dsimp only
  split_ifs with hatSign
  · exact h route nodes c₁ (henter c₁ (Head.over_self hatSign hc))
  · refine lift_bind_congr ?_
    rintro ⟨w, c₂⟩ hnext'
    refine lift_bind_congr fun items hitems => ?_
    have hover := Head.Over.of_sameList
      (Head.over_argument hatSign (Cursor.mem_of_next hnext') hitems) hc
    rw [h route nodes items (henter items hover)]

/-- **A node runs nothing but what it enters.** -/
theorem runNode_congr (hrun : Guides Cursor.SameList (fun _ => True) run)
    (h : ∀ route nodes c', n.Enters c nodes c' → run route nodes c' = run' route nodes c') :
    runNode passes run route n c = runNode passes run' route n c := by
  unfold runNode
  split
  · rfl
  · rfl
  · rfl
  · exact runRecursive_congr h
  · rfl
  · exact runConditional_congr fun route nodes c' hnodes hc =>
      h route nodes c' (.clause (by simp) hnodes hc)
  · exact runIteration_congr hrun h
  · exact runCaseConversion_congr fun route nodes c' hnodes hc =>
      h route nodes c' (.clause (by simp) hnodes hc)
  · exact runJustification_congr hrun fun route nodes c' hnodes hc =>
      h route nodes c' (.clause (by simp) hnodes hc)
  · exact runBlock_congr h

end Action

/-! ## Rules that are handed down -/

/-- What is true of a node wherever it is begun, and makes the rule allow it: it stays true in the
list of the cursor, and is handed down to the nodes that the node enters. -/
structure Rule.Kept {σ : Type} (rule : Rule σ) (P : σ → Node → Cursor → Prop) : Prop where
  allows : ∀ {x n c}, P x n c → rule.allows x n c
  along : ∀ {x n c c'}, P x n c → c.SameList c' → P x n c'
  inside : ∀ {x n c nodes c'}, P x n c → n.Enters c nodes c' → ∀ m ∈ nodes,
    P (rule.inside x n c') m c'

namespace Rule.Kept

variable {σ : Type} {rule : Rule σ} {P : σ → Node → Cursor → Prop} {x : σ} {passes depth : Nat}
  {route : Route} {s : Stream}

open Tilde.Action (runWithin)

theorem runNodesUnder_eq (h : rule.Kept P) {e : Fault} {run : Runner} {run' : σ → Runner}
    (hrun : Guides Cursor.SameList (fun _ => True) run)
    (hrun' : ∀ x route nodes c, (∀ n ∈ nodes, P x n c) →
      run' x route nodes c = run route nodes c) (hnodes : ∀ n ∈ nodes, P x n c) :
    Action.runNodesUnder rule e passes run' x route nodes c =
      Action.runNodes passes run route nodes c := by
  induction nodes generalizing c with
  | nil => rfl
  | cons n nodes ih =>
    obtain ⟨hn, hnodes⟩ := List.forall_mem_cons.mp hnodes
    unfold Action.runNodesUnder Action.runNodes
    rw [if_pos (h.allows hn), ← Action.runNode_congr hrun fun route nodes c' henters =>
      (hrun' _ route nodes c' (h.inside hn henters)).symm]
    refine (Cursor.travel_sameList.runNode hrun trivial).bind_congr ?_
    rintro ⟨c₁, exit⟩ hc
    cases exit with
    | none => exact ih fun m hm => h.along (hnodes m hm) hc
    | some exit => rfl

/-- **A rule is obeyed if what it asks for is handed down.** -/
theorem obeys (h : rule.Kept P) (hnodes : ∀ n ∈ nodes, P x n c) :
    Action.Obeys rule x passes depth route nodes c s := by
  intro e
  have runUnder_eq : Action.runUnder rule e passes depth x route nodes c =
      runWithin passes depth route nodes c := by
    induction depth generalizing x route nodes c with
    | zero => rfl
    | succ depth ih =>
      have hrun := Cursor.travel_sameList.guides_runWithin passes depth
      exact bind_congr fun route => h.runNodesUnder_eq hrun (fun _ _ _ _ => ih) hnodes
  rw [runUnder_eq]

end Rule.Kept

end Tilde
