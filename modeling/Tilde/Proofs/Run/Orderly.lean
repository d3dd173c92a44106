import Tilde.Proofs.Run.Portable

/-!
# Blocks around actions

Formatters and printed values begin and end logical blocks in one way only: around an action, with
what is done inside in between, or not at all.

* `Action.Orderly`: actions that begin and end blocks in this way;
* **`Orderly.print`**: so do values that are printed, whatever they contain;
* **`Orderly.run`**: so do nodes of any kind that are run.
-/

namespace Tilde.Action

/-- Besides what every stream can do, the action takes newlines and indentations, outputs what is held
back, and puts blocks around actions of its kind; it begins and ends no block in another way. -/
inductive Orderly : {α : Type} → Action α → Prop
  | portable {α : Type} {a : Action α} (h : Portable (fun _ => True) a) : Orderly a
  | bind {α β : Type} {a : Action α} {k : α → Action β} (ha : Orderly a)
      (hk : ∀ x, Orderly (k x)) : Orderly (a >>= k)
  | look {α : Type} {k : Device → Action α} (hk : ∀ d, Orderly (k d)) : Orderly (device >>= k)
  | newline (route : Route) (kind : NewlineKind) : Orderly (newline route kind)
  | indent (route : Route) (offset : Value) (relative : Bool) :
      Orderly (indent route offset relative)
  | flush (route : Route) : Orderly (flush route)
  | within (route : Route) (level : Option Int) (opening perLine closing : Text)
      {body : Action Unit} (h : Orderly body) :
      Orderly (within route level opening perLine closing body)

theorem extends_orderly : Extends (fun _ => True) fun _ a => Orderly a where
  portable := .portable
  bind := .bind

namespace Orderly

variable {α β : Type} {k : β → Action α} {route : Route}

theorem pure (x : α) : Orderly (Pure.pure x : Action α) := extends_orderly.pure x

theorem throw (e : Fault) : Orderly (MonadExcept.throw e : Action α) := extends_orderly.throw e

theorem lift {x : Except Fault β} (hk : ∀ y, Orderly (k y)) : Orderly (Action.lift x >>= k) :=
  extends_orderly.lift hk

theorem write (route : Route) (text : Text) : Orderly (write route text) :=
  .portable (.text trivial text)

theorem descend {k : Route → Action α} (calls : Nat) (hk : ∀ route, Orderly (k route)) :
    Orderly (descend route calls >>= k) := by
  refine .bind ?_ hk
  unfold Action.descend
  split
  · exact throw _
  · exact pure _

/-! ## Values -/

theorem printSeparator (route : Route) (o : Options) : Orderly (printSeparator route o) := by
  refine .bind (write route _) fun _ => ?_
  split
  · exact newline route .fill
  · exact pure ()

/-- What is left out if there is nothing behind it. -/
theorem rest {body : Action Unit} {p : Prop} [Decidable p] (h : Orderly body) :
    Orderly (if p then body else Pure.pure ()) := by
  split
  · exact h
  · exact pure ()

mutual

/-- **Values** are printed so. -/
theorem print (route : Route) (o : Options) (v : Value) : Orderly (print route o v) := by
  unfold Action.print
  refine descend _ fun route => ?_
  match v with
  | .text s =>
    dsimp only
    split <;> exact write route _
  | .int n => exact lift fun t => write route t
  | .list vs | .set vs | .frozenSet vs | .deque vs =>
    exact within route _ _ _ _ (orderly_printItems route o 0 vs)
  | .tuple vs => exact within route _ _ _ _ (orderly_printTuple route o vs)
  | .dict es => exact within route _ _ _ _ (orderly_printEntries route o 0 es)
  | .layoutObject written shown layout vs =>
    dsimp only
    split
    · exact within route _ _ _ _ (orderly_printLayout route o layout.newline 0 vs)
    · exact write route _
  | .nothing | .bool _ | .float _ | .decimal _ | .fraction _ | .complex .. | .bytes _ | .control _
  | .object .. => exact write route _

theorem orderly_printItems (route : Route) (o : Options) (i : Nat) (vs : List Value) :
    Orderly (printItems route o i vs) := by
  unfold printItems
  match vs with
  | [] => exact pure ()
  | v :: vs =>
    dsimp only
    split
    · exact write route _
    · refine .bind (print route o v) fun _ => rest ?_
      exact .bind (printSeparator route o) fun _ => orderly_printItems route o (i + 1) vs

theorem orderly_printTuple (route : Route) (o : Options) (vs : List Value) :
    Orderly (printTuple route o vs) := by
  unfold printTuple
  match vs with
  | [] => exact pure ()
  | v :: vs =>
    have hitems := orderly_printItems route o 1 vs
    dsimp only
    split
    · exact write route _
    · refine .bind (print route o v) fun _ => .bind (write route _) fun _ => rest ?_
      refine .bind (write route _) fun _ => ?_
      split
      · exact .bind (newline route .fill) fun _ => hitems
      · exact hitems

theorem orderly_printEntries (route : Route) (o : Options) (i : Nat) (es : List (Value × Value)) :
    Orderly (printEntries route o i es) := by
  unfold printEntries
  match es with
  | [] => exact pure ()
  | (k, v) :: es =>
    dsimp only
    split
    · exact write route _
    · refine .bind (print route o k) fun _ => .bind (write route _) fun _ => ?_
      refine .bind (print route o v) fun _ => rest ?_
      exact .bind (printSeparator route o) fun _ => orderly_printEntries route o (i + 1) es

theorem orderly_printLayout (route : Route) (o : Options) (kind : NewlineKind) (i : Nat)
    (vs : List Value) : Orderly (printLayout route o kind i vs) := by
  unfold printLayout
  match vs with
  | [] => exact pure ()
  | v :: vs =>
    dsimp only
    split
    · exact write route _
    · refine .bind (print route o v) fun _ => rest (.bind (write route _) fun _ => ?_)
      exact .bind (newline route kind) fun _ => orderly_printLayout route o kind (i + 1) vs

end

/-! ## Directives -/

variable {passes : Nat} {runner : Runner} {kind : Atom} {head closing : Head} {s : List Value}
  {clauses : List (List Node)} {separators : List Head} {c : Cursor} {n : Node}

theorem currentOptions {k : Options → Action α} (hk : ∀ o, Orderly (k o)) :
    Orderly (currentOptions >>= k) := .bind (.portable .currentOptions) hk

theorem printPadded (route : Route) (escape : Bool) (v : Value) :
    Orderly (printPadded route head s escape v) := by
  unfold Action.printPadded
  refine currentOptions fun o => ?_
  dsimp only
  split
  · exact print route _ _
  · exact lift fun printed => lift fun field => write route field

theorem tabulate (route : Route) : Orderly (tabulate route head s) := by
  have hblockStart : Orderly blockStart := by
    refine .look fun d => ?_
    cases d with
    | printer p => exact pure _
    | column c => exact throw _
  unfold Action.tabulate
  dsimp only
  split
  on_goal 1 => refine .bind hblockStart fun origin => ?_
  on_goal 2 => refine .bind (pure 0) fun origin => ?_
  all_goals
    refine .look fun d => lift fun spaces => ?_
    cases spaces with
    | none => exact pure ()
    | some spaces => exact write route spaces

theorem runSettled (route : Route) : Orderly (runSettled route kind head s c) := by
  by_cases hportable : Node.atomNeedsPrinter kind head = false
  · exact .portable (portable_runSettled trivial hportable)
  unfold Action.runSettled
  cases kind with
  | aesthetic | standard =>
    refine lift ?_
    rintro ⟨v, c⟩
    exact .bind (printPadded route _ v) fun _ => pure c
  | write =>
    refine lift ?_
    rintro ⟨v, c⟩
    exact currentOptions fun o => .bind (print route _ v) fun _ => pure c
  | conditionalNewline => exact .bind (newline route _) fun _ => pure c
  | indentation => exact .bind (indent route _ _) fun _ => pure c
  | tabulate => exact .bind (tabulate route) fun _ => pure c
  | recursive => exact pure c
  | _ => exact absurd rfl hportable

/-- **Simple directives** run so. -/
theorem runAtom (route : Route) : Orderly (runAtom route kind head c) := by
  unfold Action.runAtom
  refine lift ?_
  rintro ⟨s, c⟩
  dsimp only
  split
  · refine lift fun leaves => ?_
    split <;> exact pure _
  · exact .bind (runSettled route) fun c => pure (c, none)

/-- The runner runs all nodes so. -/
def Runs (runner : Runner) : Prop :=
  RunsInto (fun _ a => Orderly a) (fun _ => True) (fun _ => True) runner

theorem Runs.all (hrunner : Runs runner) (route : Route) (nodes : List Node) (c : Cursor) :
    Orderly (runner route nodes c) := hrunner route nodes c trivial fun _ _ => trivial

theorem runRecursive (hrunner : Runs runner) : Orderly (runRecursive runner route head c) := by
  unfold Action.runRecursive
  refine lift ?_
  rintro ⟨v, c⟩
  refine lift fun nodes => ?_
  dsimp only
  split
  · exact hrunner.all route nodes c
  · refine lift ?_
    rintro ⟨v, c'⟩
    refine lift fun items => ?_
    exact .bind (extends_orderly.discard (hrunner.all route nodes items)) fun _ => pure (c', none)

/-- **Logical blocks** are around what they enclose. -/
theorem runBlock (hrunner : Runs runner) :
    Orderly (runBlock runner route head clauses separators closing c) := by
  have around (o : Options) (items c : Cursor) : Orderly
      (runAround runner route o (Block.ofClauses head clauses separators closing) items c) := by
    unfold runAround
    split
    · exact throw _
    · refine .bind (within route _ _ _ _ ?_) fun _ => pure (c, none)
      exact extends_orderly.discard (hrunner.all route _ items)
  unfold Action.runBlock
  refine currentOptions fun o => ?_
  dsimp only
  split
  · exact lift fun c' => around o c c'
  · refine lift ?_
    rintro ⟨v, c'⟩
    cases v with
    | list items | tuple items => exact around o (.ofList items) c'
    | _ => exact .bind (print route o _) fun _ => pure (c', none)

/-- A node runs so if the nodes inside of it do. -/
theorem runNode (hrunner : Runs runner) : Orderly (runNode passes runner route n c) := by
  unfold Action.runNode
  split
  · exact .bind (write route _) fun _ => pure (c, none)
  · exact .bind (write route _) fun _ => pure (c, none)
  · exact throw _
  · exact runRecursive hrunner
  · exact runAtom route
  · exact extends_orderly.runConditional hrunner trivial fun _ _ _ _ => trivial
  · exact extends_orderly.runIteration hrunner trivial (fun _ _ _ _ => trivial) fun _ _ => trivial
  · exact extends_orderly.runCaseConversion hrunner (fun _ => trivial) fun _ _ _ _ => trivial
  · exact .portable (portable_runJustification trivial)
  · exact runBlock hrunner

theorem runs_runWithin (passes depth : Nat) : Runs (runWithin passes depth) := by
  induction depth with
  | zero => exact fun _ _ _ _ _ => throw _
  | succ depth ih =>
    intro route nodes c _ _
    exact descend 2 fun route => extends_orderly.runNodes fun n _ c => runNode ih

/-- **Nodes** run so, however they are nested. -/
theorem run (limits : Limits) (route : Route) (nodes : List Node) (c : Cursor) :
    Orderly (run limits route nodes c) :=
  (runs_runWithin limits.passes limits.depth).all _ nodes c

end Orderly

end Tilde.Action
