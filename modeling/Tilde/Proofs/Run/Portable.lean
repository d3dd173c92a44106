import Tilde.Proofs.Run.Inner

/-!
# What every stream can do

Any stream takes text and line breaks and knows its column and its margin; newlines, indentations
and blocks are for pretty printers only. An action is portable if it is made up of the former.

* `Action.Portable`: made up of what every stream can do, along routes of some kind;
* `Action.Extends`: properties that are handed on from such actions, and from the nodes inside of a
  group to the group;
* **`Action.portable_runNode`**: so is the run of a node that does not ask for a printer, if the
  runs inside of it are.
-/

namespace Tilde

/-- What can be seen of any device: its column, its margin and its options. -/
def Device.front (d : Device) : Column where
  column := d.currentColumn
  maxColumn := d.maxColumn
  options := d.options

namespace Action

/-- The action does nothing but what every stream can do, along such routes: it writes values, ends
lines, adds folds, and looks at the front of the device. -/
inductive Portable (ok : Route → Prop) : {α : Type} → Action α → Prop
  | pure {α : Type} (x : α) : Portable ok (pure x : Action α)
  | throw {α : Type} (e : Fault) : Portable ok (throw e : Action α)
  | bind {α β : Type} {a : Action α} {k : α → Action β} (ha : Portable ok a)
      (hk : ∀ x, Portable ok (k x)) : Portable ok (a >>= k)
  | look {α : Type} {k : Device → Action α} (hk : ∀ d, Portable ok (k d))
      (hfront : ∀ d, k d = k (.column d.front)) : Portable ok (device >>= k)
  | newFold (mode : FoldMode) : Portable ok (newFold mode)
  | write {route : Route} (hroute : ok route) (v : Value) : Portable ok (writeValue route v)
  | endLine {route : Route} (hroute : ok route) : Portable ok (endLine route)

namespace Portable

variable {ok ok' : Route → Prop} {α β : Type} {a : Action α} {route : Route}

theorem lift (x : Except Fault α) : Portable ok (Action.lift x) := by
  cases x with
  | ok x => exact .pure x
  | error e => exact .throw e

theorem discard (ha : Portable ok a) : Portable ok (discard a) := by
  show Portable ok ((fun _ => ()) <$> a)
  rw [map_eq_pure_bind]
  exact ha.bind fun _ => .pure ()

theorem checkRoom (route : Route) (calls : Nat) : Portable ok (checkRoom route calls) := by
  unfold Action.checkRoom
  split
  · exact .throw _
  · exact .pure ()

theorem pastFolds (ha : Portable ok a) : Portable ok (pastFolds route a) :=
  (checkRoom route 2).bind fun _ => ha

theorem currentOptions : Portable ok currentOptions :=
  .look (fun d => .pure d.options) fun _ => rfl

theorem text (hroute : ok route) (s : Text) : Portable ok (Action.write route s) :=
  .write hroute (.text s)

theorem endLines (hroute : ok route) (n : Nat) : Portable ok (endLines route n) := by
  induction n with
  | zero => exact .pure ()
  | succ n ih => exact (endLine hroute).bind fun _ => ih

theorem freshLine (hroute : ok route) : Portable ok (freshLine route) := by
  refine pastFolds (.look (fun d => ?_) fun _ => rfl)
  split
  · exact (endLine hroute).bind fun _ => .pure true
  · exact .pure false

end Portable

/-! ## Simple directives -/

section

variable {ok : Route → Prop} {route : Route} {kind : Atom} {head : Head} {s : List Value}
  {c : Cursor} (hroute : ok route)

include hroute

theorem portable_repeatCharacter (x : Char) : Portable ok (repeatCharacter route x s) :=
  (Portable.lift _).bind fun t => .text hroute t

theorem portable_tabulate (hcolon : head.colon = false) : Portable ok (tabulate route head s) := by
  unfold tabulate
  rw [if_neg (by simp [hcolon])]
  refine (Portable.pure 0).bind fun origin => ?_
  refine .look (fun d => (Portable.lift _).bind fun spaces => ?_) fun _ => rfl
  cases spaces with
  | none => exact .pure ()
  | some spaces => exact .text hroute spaces

theorem portable_runSettled (h : Node.atomNeedsPrinter kind head = false) :
    Portable ok (runSettled route kind head s c) := by
  unfold runSettled
  cases kind with
  | aesthetic | standard | write | conditionalNewline | indentation | recursive => cases h
  | escape => exact .pure c
  | goTo => exact .lift _
  | tabulate => exact (portable_tabulate hroute h).bind fun _ => .pure c
  | newline | page | tilde => exact (portable_repeatCharacter hroute _).bind fun _ => .pure c
  | character =>
    refine (Portable.lift _).bind ?_
    rintro ⟨v, c⟩
    refine (Portable.lift _).bind fun code => ?_
    exact (Portable.text hroute _).bind fun _ => .pure c
  | freshLine =>
    refine (Portable.lift _).bind fun count => (Portable.lift _).bind fun below => ?_
    split
    · refine (Portable.freshLine hroute).discard.bind fun _ => (Portable.lift _).bind fun n => ?_
      exact (Portable.endLines hroute n).bind fun _ => .pure c
    · exact .pure c
  | plural =>
    have hrest (c : Cursor) : Portable ok (lift c.next >>= fun x => lift (x.1.equal (.int 1)) >>=
        fun one => write route (pluralText head.atSign one) >>= fun _ => pure x.2) := by
      refine (Portable.lift _).bind fun x => (Portable.lift _).bind fun one => ?_
      exact (Portable.text hroute _).bind fun _ => .pure x.2
    dsimp only
    split
    · exact (Portable.lift _).bind hrest
    · exact hrest c
  | radix | decimal | binary | octal | hexadecimal | fixed | exponential | general | monetary =>
    refine (Portable.lift _).bind ?_
    rintro ⟨v, c⟩
    refine .bind .currentOptions fun o => (Portable.lift _).bind fun x => ?_
    exact (Portable.write hroute x).bind fun _ => .pure c

theorem portable_runAtom (h : Node.atomNeedsPrinter kind head = false) :
    Portable ok (runAtom route kind head c) := by
  unfold runAtom
  refine (Portable.lift _).bind ?_
  rintro ⟨s, c⟩
  dsimp only
  split
  · refine (Portable.lift _).bind fun leaves => ?_
    split <;> exact .pure _
  · exact (portable_runSettled hroute h).bind fun c => .pure (c, none)

end

/-! ## Groups -/

/-- Such nodes run into portable actions, along routes of such a kind. -/
def Ports (ok inner : Route → Prop) (good : Node → Prop) (run : Runner) : Prop :=
  ∀ route nodes c, inner route → (∀ n ∈ nodes, good n) → Portable ok (run route nodes c)

/-- A property that portable actions have, and actions that are made up of such as have it. -/
structure Extends (ok : Route → Prop) (P : (α : Type) → Action α → Prop) : Prop where
  portable {α : Type} {a : Action α} (h : Portable ok a) : P α a
  bind {α β : Type} {a : Action α} {k : α → Action β} (ha : P α a) (hk : ∀ x, P β (k x)) :
    P β (a >>= k)

theorem extends_portable (ok : Route → Prop) : Extends ok fun _ a => Portable ok a where
  portable h := h
  bind := .bind

/-- Such nodes run into actions that have the property, along routes of such a kind. -/
def RunsInto (P : (α : Type) → Action α → Prop) (inner : Route → Prop) (good : Node → Prop)
    (run : Runner) : Prop :=
  ∀ route nodes c, inner route → (∀ n ∈ nodes, good n) → P Tilde.Outcome (run route nodes c)

namespace Extends

variable {ok inner : Route → Prop} {P : (α : Type) → Action α → Prop} {good : Node → Prop}
  {run : Runner} {route : Route} {passes : Nat} {head closing : Head} {clauses : List (List Node)}
  {separators : List Head} {c : Cursor} {l : Loop} {α β : Type} {a : Action α}

section

variable (hP : Extends ok P)

include hP

theorem pure (x : α) : P α (Pure.pure x) := hP.portable (.pure x)

theorem throw (e : Fault) : P α (MonadExcept.throw e) := hP.portable (.throw e)

theorem lift {x : Except Fault β} {k : β → Action α} (hk : ∀ y, P α (k y)) :
    P α (Action.lift x >>= k) := hP.bind (hP.portable (.lift x)) hk

theorem discard (ha : P α a) : P Unit (discard a) := by
  show P Unit ((fun _ => ()) <$> a)
  rw [map_eq_pure_bind]
  exact hP.bind ha fun _ => hP.pure ()

end

theorem runChosen (hP : Extends ok P) (hrun : RunsInto P inner good run) (hinner : inner route)
    (hclauses : ∀ clause ∈ clauses, ∀ n ∈ clause, good n) (v : Value) :
    P _ (runChosen run route clauses separators v c) := by
  unfold Action.runChosen
  split
  · dsimp only
    split
    · exact hrun _ _ _ hinner (Travel.of_mem_getD (fun clause hclause =>
        hclauses clause (Travel.choices_subset hclause)) _)
    · split
      · rename_i clause hfallback
        exact hrun _ _ _ hinner (hclauses clause (Travel.fallback_mem hfallback))
      · exact hP.pure (c, none)
  · exact hP.throw _

/-- **Conditionals** have the property if the nodes inside do. -/
theorem runConditional (hP : Extends ok P) (hrun : RunsInto P inner good run) (hinner : inner route)
    (hclauses : ∀ clause ∈ clauses, ∀ n ∈ clause, good n) :
    P _ (runConditional run route head clauses separators c) := by
  unfold Action.runConditional
  split
  · refine hP.lift ?_
    rintro ⟨v, c⟩
    exact hrun _ _ _ hinner (Travel.of_mem_getD hclauses _)
  · split
    · refine hP.lift fun v => ?_
      split
      · exact hrun _ _ _ hinner (Travel.of_mem_headD hclauses)
      · exact hP.lift fun x => hP.pure (x.2, none)
    · refine hP.lift ?_
      rintro ⟨s, c⟩
      dsimp only
      split
      · refine hP.lift ?_
        rintro ⟨v, c⟩
        exact hP.runChosen hrun hinner hclauses v
      · exact hP.runChosen hrun hinner hclauses _

theorem pass (hP : Extends ok P) (hrun : RunsInto P inner good run) (hinner : inner route)
    (hbody : ∀ n ∈ l.body, good n) (i : Nat) (items : Cursor) :
    P _ (pass run route l i items) := by
  unfold Action.pass
  refine hP.lift fun allowed => ?_
  split
  · exact hP.pure (items, false)
  split
  · exact hP.pure (items, false)
  split
  · refine hP.lift fun x => hP.lift fun sublist => ?_
    exact hP.bind (hrun _ _ _ hinner hbody) fun o => hP.pure _
  · refine hP.bind (hrun _ _ _ hinner hbody) fun o => ?_
    dsimp only
    split
    · exact hP.pure (o.1, false)
    split
    · exact hP.throw _
    · exact hP.pure (o.1, true)

theorem iterate (hP : Extends ok P) (hrun : RunsInto P inner good run) (hinner : inner route)
    (hbody : ∀ n ∈ l.body, good n) (passes i : Nat) (items : Cursor) :
    P _ (iterate run route l passes i items) := by
  induction passes generalizing i items with
  | zero => exact hP.throw .tooDeep
  | succ passes ih =>
    rw [iterate_succ]
    refine hP.bind (hP.pass hrun hinner hbody i items) fun x => ?_
    split
    · exact ih (i + 1) x.1
    · exact hP.pure x.1

theorem runLoop (hP : Extends ok P) (hrun : RunsInto P inner good run) (hinner : inner route)
    (hbody : ∀ n ∈ l.body, good n) : P _ (runLoop passes run route head l c) := by
  unfold Action.runLoop
  split
  · exact hP.bind (hP.iterate hrun hinner hbody passes 0 c) fun c => hP.pure (c, none)
  · refine hP.lift fun x => hP.lift fun items => ?_
    exact hP.bind (hP.discard (hP.iterate hrun hinner hbody passes 0 items)) fun _ =>
      hP.pure (x.2, none)

/-- So do **iterations**. -/
theorem runIteration (hP : Extends ok P) (hrun : RunsInto P inner good run) (hinner : inner route)
    (hclauses : ∀ clause ∈ clauses, ∀ n ∈ clause, good n)
    (hgiven : clauses.headD [] = [] → ∀ n, good n) :
    P _ (runIteration passes run route head clauses closing c) := by
  unfold Action.runIteration
  refine hP.lift ?_
  rintro ⟨s, c⟩
  dsimp only
  split
  · rename_i hempty
    refine hP.lift fun x => hP.lift fun nodes => ?_
    exact hP.runLoop hrun hinner fun n _ => hgiven hempty n
  · exact hP.runLoop hrun hinner (Travel.of_mem_headD hclauses)

/-- So do **case conversions**. -/
theorem runCaseConversion (hP : Extends ok P) (hrun : RunsInto P inner good run)
    (hinner : ∀ i, inner { route with folds := i :: route.folds })
    (hclauses : ∀ clause ∈ clauses, ∀ n ∈ clause, good n) :
    P _ (runCaseConversion run route head clauses c) :=
  hP.bind (hP.portable (.newFold _)) fun i => hrun _ _ _ (hinner i) (Travel.of_mem_headD hclauses)

/-- So do nodes one after the other. -/
theorem runNodes (hP : Extends ok P) {nodes : List Node}
    (hnodes : ∀ n ∈ nodes, ∀ c, P _ (runNode passes run route n c)) :
    P _ (runNodes passes run route nodes c) := by
  induction nodes generalizing c with
  | nil => exact hP.pure (c, none)
  | cons n nodes ih =>
    obtain ⟨hn, hnodes⟩ := List.forall_mem_cons.mp hnodes
    refine hP.bind (hn c) ?_
    rintro ⟨c, exit⟩
    cases exit with
    | none => exact ih hnodes
    | some exit => exact hP.pure (c, some exit)

end Extends

section

variable {ok : Route → Prop} {run : Runner} {route : Route} {head : Head}
  {clauses : List (List Node)} {separators : List Head} {c : Cursor}

/-- What a justification renders on streams of its own, it writes as a text. -/
theorem portable_runJustification (hroute : ok route) :
    Portable ok (runJustification run route head clauses separators c) := by
  unfold runJustification
  refine (Portable.lift _).bind ?_
  rintro ⟨s, c⟩
  refine (Portable.lift _).bind fun refused => ?_
  split
  · exact .throw _
  refine .bind .currentOptions fun o => (Portable.lift _).bind ?_
  rintro ⟨overflow, c⟩
  refine (Portable.lift _).bind ?_
  rintro ⟨texts, c⟩
  refine (Portable.lift _).bind ?_
  rintro ⟨columns, text⟩
  have hrest : Portable ok (do
      write route (← lift text)
      return (c, none) : Action Tilde.Outcome) :=
    (Portable.lift _).bind fun t => (Portable.text hroute t).bind fun _ => .pure (c, none)
  dsimp only
  split
  · exact hrest
  · refine .look (fun d => (Portable.lift _).bind fun overflowing => ?_) fun _ => rfl
    split
    · exact (Portable.text hroute _).bind fun _ => hrest
    · exact hrest

end

end Action

/-! ## Nodes -/

/-- All nodes that the node may run are such nodes. -/
def Node.Encloses (good : Node → Prop) : Node → Prop
  | .group kind _ clauses _ _ =>
    (∀ clause ∈ clauses, ∀ n ∈ clause, good n) ∧
      (kind = .iteration → clauses.headD [] = [] → ∀ n, good n)
  | _ => True

namespace Action

variable {ok inner : Route → Prop} {good : Node → Prop} {run : Runner} {route : Route}
  {passes : Nat} {n : Node} {c : Cursor}

/-- **A node that does not ask for a printer runs into a portable action**, if those inside do. -/
theorem portable_runNode (hrun : Ports ok inner good run) (hroute : ok route)
    (hinner : inner route) (hfold : ∀ i, inner { route with folds := i :: route.folds })
    (hneeds : n.needsPrinter = false) (hgood : n.Encloses good) :
    Portable ok (runNode passes run route n c) := by
  unfold runNode
  split
  · exact (Portable.text hroute _).bind fun _ => .pure (c, none)
  · exact (Portable.text hroute _).bind fun _ => .pure (c, none)
  · exact .throw _
  · cases hneeds
  · exact portable_runAtom hroute hneeds
  · exact (extends_portable ok).runConditional hrun hinner hgood.1
  · exact (extends_portable ok).runIteration hrun hinner hgood.1 (hgood.2 rfl)
  · exact (extends_portable ok).runCaseConversion hrun hfold hgood.1
  · exact portable_runJustification hroute
  · cases hneeds

/-- So do such nodes one after the other. -/
theorem portable_runNodes {nodes : List Node} (hrun : Ports ok inner good run) (hroute : ok route)
    (hinner : inner route) (hfold : ∀ i, inner { route with folds := i :: route.folds })
    (hneeds : ∀ n ∈ nodes, n.needsPrinter = false) (hgood : ∀ n ∈ nodes, n.Encloses good) :
    Portable ok (runNodes passes run route nodes c) :=
  (extends_portable ok).runNodes fun n hn _ =>
    portable_runNode hrun hroute hinner hfold (hneeds n hn) (hgood n hn)

end Action

end Tilde
