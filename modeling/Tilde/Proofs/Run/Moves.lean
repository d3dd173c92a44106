import Mathlib.Tactic.SplitIfs
import Tilde.Format.Run
import Tilde.Proofs.Run.Position

/-!
# Where running leaves the cursor

A directive reads arguments one by one, or moves the cursor. So whatever every step of a cursor
keeps, a run keeps, too.

* `Action.Yields`: what the result of an action satisfies if there is one;
* `Action.pass`: one pass of an iteration, and whether there is another one;
* `Travel`: a relation between cursors that holds from the start to the end of each step;
* **`Travel.guides_runWithin`**: then it holds from the start to the end of every run.
-/

namespace Tilde

namespace Action

variable {α β : Type} {P P' : α → Prop} {Q : β → Prop} {a : Action α} {k : α → Action β}

/-- Whenever the action succeeds, its result satisfies the predicate. -/
def Yields (a : Action α) (P : α → Prop) : Prop := ∀ s x s', a s = .ok x s' → P x

namespace Yields

theorem mono (h : a.Yields P) (hP : ∀ x, P x → P' x) : a.Yields P' :=
  fun s x s' hrun => hP x (h s x s' hrun)

theorem any (a : Action α) : a.Yields fun _ => True := fun _ _ _ _ => trivial

theorem pure {x : α} (h : P x) : (Pure.pure x : Action α).Yields P := by
  intro s y s' hrun
  cases hrun
  exact h

theorem throw {e : Fault} : (MonadExcept.throw e : Action α).Yields P := by
  intro s y s' hrun
  cases hrun

theorem lift {e : Except Fault α} (h : ∀ x, e = .ok x → P x) : (Action.lift e).Yields P := by
  intro s y s' hrun
  cases e with
  | error e => cases hrun
  | ok y =>
    cases hrun
    exact h _ rfl

theorem bind (ha : a.Yields P) (hk : ∀ x, P x → (k x).Yields Q) : (a >>= k).Yields Q := by
  intro s y s' hrun
  cases h : a s with
  | error e s₁ => simp [Bind.bind, EStateM.bind, h] at hrun
  | ok x s₁ =>
    simp only [Bind.bind, EStateM.bind, h] at hrun
    exact hk x (ha s x s₁ h) s₁ y s' hrun

/-- What an action gives may not matter. -/
theorem after (hk : ∀ x, (k x).Yields Q) : (a >>= k).Yields Q := (any a).bind fun x _ => hk x

end Yields

end Action

namespace Action

variable {run : Runner} {route : Route} {l : Loop}

/-- The next pass of a loop that has made `i` of them: where it ends, and whether the loop goes
on. -/
def pass (run : Runner) (route : Route) (l : Loop) (i : Nat) (items : Cursor) :
    Action (Cursor × Bool) := do
  if !(← lift (l.allows i)) then return (items, false)
  else if items.isEmpty && !(l.force && i == 0) then return (items, false)
  else if l.sublists then
    let (v, items) ← lift items.nextOrNothing
    let (_, exit) ← run route l.body (← lift (sublistCursor v items))
    return (items, exit != some .upUpAndOut)
  else
    let (after, exit) ← run route l.body items
    if exit.isSome then return (after, false)
    else if l.limit.isNothing ∧ !after.isEmpty ∧ samePosition after items then
      throw .noProgress
    else return (after, true)

/-- An iteration makes a pass and, if it goes on, all others. -/
theorem iterate_succ (run : Runner) (route : Route) (l : Loop) (passes i : Nat) (items : Cursor) :
    iterate run route l (passes + 1) i items = (do
      let x ← pass run route l i items
      if x.2 then iterate run route l passes (i + 1) x.1 else return x.1) := by
  rw [iterate, pass]
  simp only [bind_assoc]
  refine bind_congr fun allowed => ?_
  split_ifs
  · rw [pure_bind, if_neg Bool.false_ne_true]
  · rw [pure_bind, if_neg Bool.false_ne_true]
  · simp only [bind_assoc]
    refine bind_congr fun next => bind_congr fun sublist => bind_congr fun o => ?_
    rw [pure_bind]
    by_cases hexit : o.2 = some .upUpAndOut <;> simp [hexit]
  · simp only [bind_assoc]
    refine bind_congr fun o => ?_
    split_ifs
    · rw [pure_bind, if_neg Bool.false_ne_true]
    · rfl
    · rw [pure_bind, if_pos rfl]

/-- What a conditional does with its selector. -/
def runChosen (run : Runner) (route : Route) (clauses : List (List Node)) (separators : List Head)
    (v : Value) (c : Cursor) : Action Tilde.Outcome :=
  match v with
  | .int n =>
    let options := choices clauses separators
    if 0 ≤ n ∧ n < options.length then run route (options.getD n.toNat []) c
    else match fallback? clauses separators with
      | some clause => run route clause c
      | none => return (c, none)
  | v => throw (.selectorNotInteger v)

/-- What an iteration does with what it has been told. -/
def runLoop (passes : Nat) (run : Runner) (route : Route) (head : Head) (l : Loop) (c : Cursor) :
    Action Tilde.Outcome := do
  if head.atSign then return (← iterate run route l passes 0 c, none)
  else
    let (v, c) ← lift c.next
    let items ← lift (Cursor.ofValue v none)
    discard (iterate run route l passes 0 items)
    return (c, none)

/-- What a logical block does with its list; the other cursor is where it ends. -/
def runAround (run : Runner) (route : Route) (o : Options) (block : Except Complaint Block)
    (items c : Cursor) : Action Tilde.Outcome :=
  match block with
  | .error _ => throw .unsupported
  | .ok block => do
    within route o.level block.opening (block.perLine.getD []) block.closing do
      discard (run route block.body items)
    return (c, none)

end Action

open Tilde.Action (Yields)

/-- A go-to directive goes to one position. -/
theorem exists_goto_of_moveCursor {head : Head} {s : List Value} {c c' : Cursor}
    (h : moveCursor head s c = .ok c') : ∃ v, c.goto v = .ok c' := by
  have of_relative {v : Value} (h : c.relative v = .ok c') : ∃ v, c.goto v = .ok c' := by
    obtain ⟨position, -, h⟩ := exists_of_bind_ok h
    exact ⟨position, h⟩
  unfold moveCursor at h
  split at h
  · exact ⟨_, h⟩
  · exact ⟨_, h⟩
  · dsimp only at h
    split at h
    · obtain ⟨v, -, h⟩ := exists_of_bind_ok h
      exact of_relative h
    · exact of_relative h

/-- A relation between cursors that holds from the start to the end of each step, where only some
nodes may be begun at a cursor, and only some may be run inside of them. -/
structure Travel (R : Cursor → Cursor → Prop) (ok : Node → Cursor → Prop) (inner : Node → Prop) :
    Prop where
  refl : ∀ c, R c c
  trans : ∀ {a b c}, R a b → R b c → R a c
  next : ∀ {c v c'}, c.next = .ok (v, c') → R c c'
  last : ∀ {c c'}, c.goto (.int c.length) = .ok c' → R c c'
  goTo : ∀ {head s c₀ c c'}, ok (.atom .goTo head) c₀ →
    head.settle Atom.goTo.defaults c₀ = .ok (s, c) → moveCursor head s c = .ok c' → R c c'
  plural : ∀ {head c₀ c c'}, ok (.atom .plural head) c₀ → head.colon = true →
    c.relative (.int (-1)) = .ok c' → R c c'
  recursive : ∀ {head c}, ok (.atom .recursive head) c → head.atSign = true → ∀ n, inner n
  given : ∀ {head clauses separators closing c},
    ok (.group .iteration head clauses separators closing) c → clauses.headD [] = [] →
    head.atSign = true → ∀ n, inner n
  clauses : ∀ {kind head clauses separators closing c},
    ok (.group kind head clauses separators closing) c → ∀ clause ∈ clauses, ∀ n ∈ clause, inner n

/-- From where running the nodes starts to where it ends, the relation holds. -/
def Guides (R : Cursor → Cursor → Prop) (inner : Node → Prop) (run : Runner) : Prop :=
  ∀ route nodes c, (∀ n ∈ nodes, inner n) → (run route nodes c).Yields fun o => R c o.1

namespace Travel

variable {R : Cursor → Cursor → Prop} {ok : Node → Cursor → Prop} {inner : Node → Prop}
  {run : Runner} {route : Route} {head closing : Head} {clauses : List (List Node)}
  {separators : List Head} {nodes : List Node} {kind : Atom} {n : Node} {c c₀ c' : Cursor}
  {s : List Value} {α β : Type}

/-- What comes first moves the cursor in one step. -/
theorem step (T : Travel R ok inner) {e : Except Fault (α × Cursor)} {k : α × Cursor → Action β}
    {f : β → Cursor} (he : ∀ x c', e = .ok (x, c') → R c c')
    (hk : ∀ x c', (k (x, c')).Yields fun o => R c' (f o)) :
    (Action.lift e >>= k).Yields fun o => R c (f o) := by
  refine .bind (.lift fun x hx => he x.1 x.2 hx) ?_
  rintro ⟨x, c₁⟩ hc
  exact (hk x c₁).mono fun o => T.trans hc

theorem read (T : Travel R ok inner) {k : Value × Cursor → Action β} {f : β → Cursor}
    (hk : ∀ v c', (k (v, c')).Yields fun o => R c' (f o)) :
    (Action.lift c.next >>= k).Yields fun o => R c (f o) := T.step (fun _ _ => T.next) hk

/-! ## Settings -/

theorem settle_parameter (T : Travel R ok inner) {p : Parameter} {v default : Value}
    (h : p.settle default c = .ok (v, c')) : R c c' := by
  cases p with
  | absent | number | character =>
    cases h
    exact T.refl _
  | remaining =>
    unfold Parameter.settle at h
    cases hremaining : c.remaining with
    | error e => simp [hremaining, Except.map] at h
    | ok n =>
      simp only [hremaining, Except.map, Except.ok.injEq, Prod.mk.injEq] at h
      exact h.2 ▸ T.refl c
  | next =>
    unfold Parameter.settle at h
    dsimp only at h
    split at h
    · rename_i c'' hnext
      cases h
      exact T.next hnext
    · exact T.next h

theorem settleAll (T : Travel R ok inner) {ps : List Parameter} {defaults : List Value}
    (h : settleAll ps defaults c = .ok (s, c')) : R c c' := by
  induction defaults generalizing ps c s with
  | nil =>
    cases h
    exact T.refl _
  | cons default defaults ih =>
    unfold Tilde.settleAll at h
    obtain ⟨⟨v, c₁⟩, hp, h⟩ := exists_of_bind_ok h
    obtain ⟨⟨vs, c₂⟩, hps, h⟩ := exists_of_bind_ok h
    cases h
    exact T.trans (T.settle_parameter hp) (ih hps)

theorem settle (T : Travel R ok inner) {defaults : List Value} {k : List Value × Cursor → Action β}
    {f : β → Cursor}
    (hk : ∀ s c', head.settle defaults c = .ok (s, c') → (k (s, c')).Yields fun o => R c' (f o)) :
    (Action.lift (head.settle defaults c) >>= k).Yields fun o => R c (f o) := by
  refine .bind (P := fun x => head.settle defaults c = .ok x) (.lift fun x hx => hx) ?_
  rintro ⟨s, c₁⟩ hs
  exact (hk s c₁ hs).mono fun o => T.trans (T.settleAll hs)

/-! ## Simple directives -/

theorem runSettled (T : Travel R ok inner) (hok : ok (.atom kind head) c₀)
    (hs : head.settle kind.defaults c₀ = .ok (s, c)) :
    (Action.runSettled route kind head s c).Yields (R c) := by
  cases kind with
  | goTo => exact .lift fun c' h => T.goTo hok hs h
  | plural =>
    unfold Action.runSettled
    dsimp only
    split
    · rename_i hcolon
      refine .bind (.lift fun c₁ h => T.plural hok hcolon h) fun c₁ hc => ?_
      refine Yields.mono (T.read (f := id) fun v c₂ => ?_) fun _ => T.trans hc
      exact .after fun _ => .after fun _ => .pure (T.refl _)
    · refine T.read (f := id) fun v c₂ => ?_
      exact .after fun _ => .after fun _ => .pure (T.refl _)
  | freshLine =>
    unfold Action.runSettled
    dsimp only
    refine .after fun count => .after fun below => ?_
    split
    · exact .after fun _ => .after fun _ => .after fun _ => .pure (T.refl c)
    · exact .pure (T.refl c)
  | recursive | escape => exact .pure (T.refl c)
  | newline | page | tilde | conditionalNewline | indentation | tabulate =>
    exact .after fun _ => .pure (T.refl c)
  | character =>
    refine T.read (f := id) fun v c₂ => ?_
    exact .after fun code => .after fun _ => .pure (T.refl c₂)
  | aesthetic | standard =>
    refine T.read (f := id) fun v c₂ => ?_
    exact .after fun _ => .pure (T.refl c₂)
  | write =>
    refine T.read (f := id) fun v c₂ => ?_
    exact .after fun o => .after fun _ => .pure (T.refl c₂)
  | radix | decimal | binary | octal | hexadecimal | fixed | exponential | general | monetary =>
    refine T.read (f := id) fun v c₂ => ?_
    exact .after fun o => .after fun text => .after fun _ => .pure (T.refl c₂)

theorem runAtom (T : Travel R ok inner) (hok : ok (.atom kind head) c) :
    (Action.runAtom route kind head c).Yields fun o => R c o.1 := by
  unfold Action.runAtom
  refine T.settle fun s c₁ hs => ?_
  dsimp only
  split
  · refine .after fun escapes => ?_
    split <;> exact .pure (T.refl c₁)
  · exact (T.runSettled hok hs).bind fun c₂ hc => .pure hc

/-! ## Groups -/

theorem of_mem_getD (h : ∀ clause ∈ clauses, ∀ n ∈ clause, inner n) (i : Nat) :
    ∀ n ∈ clauses.getD i [], inner n := by
  intro n hn
  rw [List.getD_eq_getElem?_getD] at hn
  cases hi : clauses[i]? with
  | none => simp [hi] at hn
  | some clause => exact h clause (List.mem_of_getElem? hi) n (by simpa [hi] using hn)

theorem of_mem_headD (h : ∀ clause ∈ clauses, ∀ n ∈ clause, inner n) :
    ∀ n ∈ clauses.headD [], inner n := by
  cases clauses with
  | nil => simp
  | cons clause clauses => exact h clause List.mem_cons_self

theorem choices_subset : choices clauses separators ⊆ clauses := by
  unfold choices
  split
  · exact List.dropLast_subset clauses
  · exact List.Subset.refl clauses

theorem fallback_mem {clause : List Node} (h : fallback? clauses separators = some clause) :
    clause ∈ clauses := by
  unfold fallback? at h
  split at h
  · exact List.mem_of_getLast? h
  · simp at h

theorem overflow_mem {clause : List Node} (h : overflow? clauses separators = some clause) :
    clause ∈ clauses := by
  unfold overflow? at h
  split at h
  · exact List.mem_of_head? h
  · simp at h

theorem runChosen (T : Travel R ok inner) (hrun : Guides R inner run)
    (h : ∀ clause ∈ clauses, ∀ n ∈ clause, inner n) (v : Value) (c : Cursor) :
    (Action.runChosen run route clauses separators v c).Yields fun o => R c o.1 := by
  unfold Action.runChosen
  split
  · dsimp only
    split
    · exact hrun _ _ _ (of_mem_getD (fun clause hclause => h clause (choices_subset hclause)) _)
    · split
      · rename_i clause hfallback
        exact hrun _ _ _ (h clause (fallback_mem hfallback))
      · exact .pure (T.refl c)
  · exact .throw

theorem runConditional (T : Travel R ok inner) (hrun : Guides R inner run)
    (h : ∀ clause ∈ clauses, ∀ n ∈ clause, inner n) :
    (Action.runConditional run route head clauses separators c).Yields fun o => R c o.1 := by
  unfold Action.runConditional
  split
  · exact T.read fun v c₁ => hrun _ _ _ (of_mem_getD h _)
  · split
    · refine .after fun v => ?_
      split
      · exact hrun _ _ _ (of_mem_headD h)
      · exact T.read fun v c₁ => .pure (T.refl c₁)
    · refine T.settle fun s c₁ _ => ?_
      dsimp only
      split
      · exact T.read fun v c₂ => T.runChosen hrun h v c₂
      · exact T.runChosen hrun h _ c₁

theorem pass (T : Travel R ok inner) (hrun : Guides R inner run) {l : Action.Loop}
    (h : ∀ n ∈ l.body, inner n) (i : Nat) (items : Cursor) :
    (Action.pass run route l i items).Yields fun x => R items x.1 := by
  unfold Action.pass
  refine .after fun allowed => ?_
  split
  · exact .pure (T.refl items)
  split
  · exact .pure (T.refl items)
  split
  · have hnext : ∀ v c, items.nextOrNothing = .ok (v, c) → R items c := by
      intro v c hx
      unfold Cursor.nextOrNothing at hx
      split at hx
      · cases hx
        exact T.refl _
      · exact T.next hx
    exact T.step hnext fun v c => .after fun sublist => .after fun o => .pure (T.refl c)
  · refine (hrun _ _ _ h).bind fun o ho => ?_
    dsimp only
    split
    · exact .pure ho
    split
    · exact .throw
    · exact .pure ho

theorem iterate (T : Travel R ok inner) (hrun : Guides R inner run) {l : Action.Loop}
    (h : ∀ n ∈ l.body, inner n) (passes i : Nat) (items : Cursor) :
    (Action.iterate run route l passes i items).Yields (R items) := by
  induction passes generalizing i items with
  | zero => exact .throw
  | succ passes ih =>
    rw [Action.iterate_succ]
    refine (T.pass hrun h i items).bind fun x hx => ?_
    split
    · exact (ih (i + 1) x.1).mono fun _ => T.trans hx
    · exact .pure hx

theorem runLoop (T : Travel R ok inner) (hrun : Guides R inner run) {passes : Nat}
    {l : Action.Loop} (h : head.atSign = true → ∀ n ∈ l.body, inner n) (c : Cursor) :
    (Action.runLoop passes run route head l c).Yields fun o => R c o.1 := by
  unfold Action.runLoop
  split
  · rename_i hatSign
    exact (T.iterate hrun (h hatSign) passes 0 c).bind fun c₁ hc => .pure hc
  · exact T.read fun v c₁ => .after fun items => .after fun _ => .pure (T.refl c₁)

theorem runIteration (T : Travel R ok inner) (hrun : Guides R inner run) {passes : Nat}
    (h : ok (.group .iteration head clauses separators closing) c) :
    (Action.runIteration passes run route head clauses closing c).Yields fun o => R c o.1 := by
  unfold Action.runIteration
  refine T.settle fun s c₁ _ => ?_
  dsimp only
  split
  · rename_i hempty
    refine T.read fun v c₂ => .after fun nodes => ?_
    exact T.runLoop hrun (l := ⟨nodes, _, _, _⟩) (fun hatSign n _ => T.given h hempty hatSign n) c₂
  · exact T.runLoop hrun (l := ⟨_, _, _, _⟩) (fun _ => of_mem_headD (T.clauses h)) c₁

theorem runCaseConversion (hrun : Guides R inner run)
    (h : ∀ clause ∈ clauses, ∀ n ∈ clause, inner n) :
    (Action.runCaseConversion run route head clauses c).Yields fun o => R c o.1 :=
  .after fun _ => hrun _ _ _ (of_mem_headD h)

theorem render (hrun : Guides R inner run) {room : Nat} {o : Options} {text : Text}
    {exit : Option Exit} (h : ∀ n ∈ nodes, inner n)
    (hrender : Action.render run room o nodes c = .ok (text, c', exit)) : R c c' := by
  unfold Action.render Action.perform at hrender
  obtain ⟨s, -, hrender⟩ := exists_of_bind_ok hrender
  cases hperform : run { room := room - 2 } nodes c s with
  | error e s₁ => simp [hperform] at hrender
  | ok outcome s₁ =>
    rw [hperform] at hrender
    obtain ⟨t, -, hrender⟩ := exists_of_bind_ok hrender
    cases hrender
    exact hrun _ _ _ h s _ s₁ hperform

theorem renderSegments (T : Travel R ok inner) (hrun : Guides R inner run) {room : Nat}
    {o : Options} {texts : List Text} (h : ∀ clause ∈ clauses, ∀ n ∈ clause, inner n)
    (hrender : Action.renderSegments run room o clauses c = .ok (texts, c')) : R c c' := by
  induction clauses generalizing c texts with
  | nil =>
    cases hrender
    exact T.refl _
  | cons clause clauses ih =>
    unfold Action.renderSegments at hrender
    obtain ⟨⟨text, c₁, exit⟩, hfirst, hrender⟩ := exists_of_bind_ok hrender
    have hc := render hrun (h clause List.mem_cons_self) hfirst
    dsimp only at hrender
    split at hrender
    · cases hrender
      exact hc
    · obtain ⟨⟨texts, c₂⟩, hothers, hrender⟩ := exists_of_bind_ok hrender
      cases hrender
      have hclauses := fun clause hclause => h clause (List.mem_cons_of_mem _ hclause)
      exact T.trans hc (ih hclauses hothers)

theorem renderOverflow (T : Travel R ok inner) (hrun : Guides R inner run) {room : Nat}
    {o : Options} {overflow : Option (Text × Value × Value)}
    (h : ∀ clause ∈ clauses, ∀ n ∈ clause, inner n)
    (hrender : Action.renderOverflow run room o clauses separators c = .ok (overflow, c')) :
    R c c' := by
  unfold Action.renderOverflow at hrender
  split at hrender
  · rename_i clause separator hclause _
    obtain ⟨⟨text, c₁, exit⟩, hfirst, hrender⟩ := exists_of_bind_ok hrender
    obtain ⟨⟨s, c₂⟩, hsettle, hrender⟩ := exists_of_bind_ok hrender
    cases hrender
    exact T.trans (render hrun (h clause (overflow_mem hclause)) hfirst) (T.settleAll hsettle)
  · cases hrender
    exact T.refl _

theorem segments_subset : segments clauses separators ⊆ clauses := by
  unfold segments
  split
  · exact List.drop_subset 1 clauses
  · exact List.Subset.refl clauses

theorem runJustification (T : Travel R ok inner) (hrun : Guides R inner run)
    (h : ∀ clause ∈ clauses, ∀ n ∈ clause, inner n) :
    (Action.runJustification run route head clauses separators c).Yields fun o => R c o.1 := by
  unfold Action.runJustification
  refine T.settle fun s c₁ _ => .after fun refused => ?_
  split
  · exact .throw
  refine .after fun o => T.step (fun _ _ => T.renderOverflow hrun h) fun overflow c₂ => ?_
  refine T.step (fun _ _ => T.renderSegments hrun fun clause hclause =>
    h clause (segments_subset hclause)) fun texts c₃ => .after fun laid => ?_
  dsimp only
  split
  · exact .after fun text => .after fun _ => .pure (T.refl c₃)
  · refine .after fun d => .after fun overflowing => ?_
    split
    · exact .after fun _ => .after fun text => .after fun _ => .pure (T.refl c₃)
    · exact .after fun text => .after fun _ => .pure (T.refl c₃)

theorem runAround (T : Travel R ok inner) (run : Runner) (route : Route) (o : Options)
    (block : Except Complaint Block) (items c : Cursor) :
    (Action.runAround run route o block items c).Yields fun o => R c o.1 := by
  unfold Action.runAround
  split
  · exact .throw
  · exact .after fun _ => .pure (T.refl c)

theorem runBlock (T : Travel R ok inner) :
    (Action.runBlock run route head clauses separators closing c).Yields fun o => R c o.1 := by
  unfold Action.runBlock
  refine .after fun o => ?_
  have around := T.runAround run route o (Block.ofClauses head clauses separators closing)
  dsimp only
  split
  · refine (Yields.lift fun c₁ h => T.last h).bind fun c₁ hc => ?_
    exact (around c c₁).mono fun _ => T.trans hc
  · refine T.read fun v c₁ => ?_
    dsimp only
    split
    · exact around _ c₁
    · exact around _ c₁
    · exact .after fun _ => .pure (T.refl c₁)

theorem runRecursive (T : Travel R ok inner) (hrun : Guides R inner run)
    (h : ok (.atom .recursive head) c) :
    (Action.runRecursive run route head c).Yields fun o => R c o.1 := by
  unfold Action.runRecursive
  refine T.read fun v c₁ => .after fun nodes => ?_
  dsimp only
  split
  · rename_i hatSign
    exact hrun _ _ _ fun n _ => T.recursive h hatSign n
  · exact T.read fun v c₂ => .after fun items => .after fun _ => .pure (T.refl c₂)

/-! ## Nodes -/

theorem runNode (T : Travel R ok inner) (hrun : Guides R inner run) {passes : Nat} (h : ok n c) :
    (Action.runNode passes run route n c).Yields fun o => R c o.1 := by
  unfold Action.runNode
  split
  · exact .after fun _ => .pure (T.refl c)
  · exact .after fun _ => .pure (T.refl c)
  · exact .throw
  · exact T.runRecursive hrun h
  · exact T.runAtom h
  · exact T.runConditional hrun (T.clauses h)
  · exact T.runIteration hrun h
  · exact runCaseConversion hrun (T.clauses h)
  · exact T.runJustification hrun (T.clauses h)
  · exact T.runBlock

theorem runNodes (T : Travel R (fun n _ => inner n) inner) (hrun : Guides R inner run)
    {passes : Nat} (h : ∀ n ∈ nodes, inner n) :
    (Action.runNodes passes run route nodes c).Yields fun o => R c o.1 := by
  induction nodes generalizing c with
  | nil => exact .pure (T.refl c)
  | cons n nodes ih =>
    unfold Action.runNodes
    refine (T.runNode hrun (h n List.mem_cons_self)).bind ?_
    rintro ⟨c₁, exit⟩ hc
    cases exit with
    | none =>
      exact (ih fun n hn => h n (List.mem_cons_of_mem _ hn)).mono fun _ => T.trans hc
    | some exit => exact .pure hc

/-- **From the start to the end of every run, the relation holds.** -/
theorem guides_runWithin (T : Travel R (fun n _ => inner n) inner) (passes depth : Nat) :
    Guides R inner (Action.runWithin passes depth) := by
  induction depth with
  | zero => exact fun _ _ _ _ => .throw
  | succ depth ih => exact fun _ _ _ h => .after fun _ => T.runNodes ih h

end Travel

end Tilde
