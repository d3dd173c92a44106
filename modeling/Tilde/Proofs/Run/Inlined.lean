import Tilde.Proofs.Run.Inner
import Tilde.Proofs.Run.Interchange
import Tilde.Proofs.Run.Supplied
import Tilde.Proofs.Run.Tandem

/-!
# Control strings among the arguments

A control string that is found among the arguments comes to what it comes to by itself
(**`Formatter.format_recursive`**), unless it goes back to the first argument, or feels how many there
are in front (`Formatter.exists_format_recursive_ne`).

* `Node.Steps`: the nodes that move by literal numbers from where they stand;
* `Formatter.Obeys`: the formatter's own run obeys a rule;
* `Formatter.runFlushed_of_toSink`: what succeeds on any stream succeeds on a printer;
* `Formatter.exists_toSink_of_obeys`: another argument in front;
* `Action.run_control`: the directive that runs a control string.
-/

namespace Tilde

/-! ## Steps -/

/-- A parameter that is missing or a number. -/
def Parameter.IsLiteral : Parameter → Prop
  | .absent | .number _ => True
  | _ => False

/-- As long as the node goes over the arguments at hand, it moves by literal numbers from where it
stands, and runs only what it encloses. -/
inductive Node.Steps : Node → Prop
  | text {s : Text} : Steps (.text s)
  | copies {x : Char} {count : Nat} : Steps (.copies x count)
  | foreign : Steps .foreign
  | atom {kind : Atom} {head : Head}
      (hgoTo : kind = .goTo → head.atSign = false ∧ (head.parameters.headD .absent).IsLiteral)
      (hcontrol : kind = .recursive → head.atSign = false) : Steps (.atom kind head)
  | group {kind : Group} {head closing : Head} {clauses : List (List Node)} {separators : List Head}
      (hgiven : (Node.group kind head clauses separators closing).goesOn = true → kind = .iteration →
        clauses.headD [] ≠ [])
      (h : (Node.group kind head clauses separators closing).goesOn = true →
        ∀ clause ∈ clauses, ∀ n ∈ clause, Steps n) :
      Steps (.group kind head clauses separators closing)

theorem Node.Steps.goesWhole {n : Node} (h : n.Steps) (c : Cursor) : n.GoesWhole c := by
  cases h with
  | @atom kind head hgoTo =>
    cases kind with
    | goTo =>
      obtain ⟨hatSign, hliteral⟩ := hgoTo rfl
      intro s c' hs
      obtain ⟨⟨v, c₁⟩, hv, hs⟩ := exists_of_bind_ok hs
      cases hs
      refine ⟨hatSign, ?_⟩
      cases hparameter : head.parameters.headD .absent with
      | absent =>
        rw [hparameter] at hv
        cases hv
        exact .inl rfl
      | number n =>
        rw [hparameter] at hv
        cases hv
        exact .inr rfl
      | _ =>
        rw [hparameter] at hliteral
        exact hliteral.elim
    | _ => trivial
  | _ => trivial

theorem kept_steps : (Rule.tandem True).Kept fun top n _ => top = true → n.Steps where
  allows h := ⟨.inl trivial, fun htop => (h htop).goesWhole _⟩
  along h _ := h
  inside := by
    intro top n c nodes c' h henters m hm hinside
    obtain ⟨htop, hgoesOn⟩ := Bool.and_eq_true_iff.mp hinside
    have hn := h htop
    cases henters with
    | clause hkind hnodes hc =>
      obtain ⟨clause, hclause, hm⟩ := hnodes m hm
      cases hn with
      | group _ hgroup => exact hgroup hgoesOn clause hclause m hm
    | pass hcolon hnodes hover | sublist hcolon hnodes hover hnext hc' =>
      cases hn with
      | group hgiven hgroup =>
        obtain hnodes | ⟨hempty, -⟩ := hnodes
        · obtain ⟨clause, hclause, hm⟩ := hnodes m hm
          exact hgroup hgoesOn clause hclause m hm
        · exact absurd hempty (hgiven hgoesOn rfl)
    | block hblock hover =>
      cases hn with
      | group _ hgroup =>
        refine forall_of_ofClauses (P := Node.Steps) (fun _ => .text) (fun _ _ => ?_) hblock
          (hgroup hgoesOn) m hm
        exact .atom nofun nofun
    | control hv hnodes hover =>
      cases hn with
      | atom hgoTo hcontrol => exact absurd hgoesOn (by simp [Node.goesOn, hcontrol rfl])

/-! ## Formatters -/

/-- The formatter's own run obeys the rule, on the stream that it takes. -/
def Formatter.Obeys {σ : Type} (rule : Rule σ) (x : σ) (f : Formatter) (limits : Limits) (o : Options)
    (c : Cursor) : Prop :=
  ∀ s, freshStream o f.nodes = .ok s →
    Action.Obeys rule x limits.passes limits.depth { room := limits.depth } f.nodes c s

/-- So it is if the nodes move by literal numbers only. -/
theorem Formatter.obeys_of_steps {f : Formatter} (h : ∀ n ∈ f.nodes, n.Steps) (limits : Limits)
    (o : Options) (c : Cursor) : f.Obeys (.tandem True) true limits o c :=
  fun _ _ => kept_steps.obeys fun n hn _ => h n hn

namespace Action

open Cursor (Alongside)

variable {passes depth depth' : Nat} {route : Route} {nodes : List Node} {c c' : Cursor} {s s' : Stream}
  {outcome : Tilde.Outcome}

/-- A run that obeys the rule comes to the same beside another argument in front. -/
theorem exists_run_of_obeys {top : Bool} (hobeys : Obeys (.tandem True) top passes depth route nodes c s)
    (hdepth : depth ≤ depth') (hs : s.Unharmed) (hc : Alongside top c c')
    (hrun : runWithin passes depth route nodes c s = .ok outcome s') :
    ∃ outcome', runWithin passes depth' route nodes c' s = .ok outcome' s' ∧ outcome'.2 = outcome.2 := by
  have hmirrors : Mirrors _ _ False top (runUnder (.tandem True) .tooDeep passes depth top)
      (runWithin passes depth') := tandem_same.mirrors_runUnder rfl hdepth (Nat.le_refl passes) id
  have hfollowed := @hmirrors true 0 route route rfl nodes nodes (Node.allAlike_refl nodes) c c' hc s s
    ⟨rfl, hs⟩
  rw [hobeys, hrun] at hfollowed
  cases hrun' : runWithin passes depth' route nodes c' s with
  | error e t =>
    rw [hrun'] at hfollowed
    exact hfollowed.elim
  | ok outcome' t =>
    rw [hrun'] at hfollowed
    obtain ⟨houtcomes, rfl, -⟩ := hfollowed
    exact ⟨outcome', rfl, houtcomes.2⟩

/-- A run may be as deep as one likes. -/
theorem exists_run_of_le (hdepth : depth ≤ depth') (hs : s.Unharmed)
    (hrun : runWithin passes depth route nodes c s = .ok outcome s') :
    ∃ outcome', runWithin passes depth' route nodes c s = .ok outcome' s' ∧ outcome'.2 = outcome.2 := by
  have hobeys : Obeys (.tandem True) false passes depth route nodes c s :=
    kept_steps.obeys fun _ _ => nofun
  exact exists_run_of_obeys hobeys hdepth hs (.refl c) hrun

end Action

namespace Formatter

variable {source : Value} {f : Formatter} {limits limits' : Limits} {o : Options} {p : Printer}
  {nodes nodes' : List Node} {c c' : Cursor} {outcome outcome' : Outcome} {s : Stream} {t w : Text}
  {arguments : List Value}

/-- What a run on a printer that is flushed comes to. -/
theorem runFlushed_eq_ok : runFlushed limits p nodes c = (.ok outcome, t) ↔
    ∃ s s', Action.run limits {} nodes c { device := .printer p } = .ok outcome s ∧
      Action.flush {} s = .ok () s' ∧ s'.device.output = t := by
  unfold runFlushed Action.perform
  cases Action.run limits {} nodes c { device := .printer p } with
  | error e s => simp
  | ok x s =>
    cases hflush : Action.flush {} s <;> simp [hflush]

/-- Nodes that ask for a printer run on one that is flushed. -/
theorem toSink_eq_runFlushed (h : f.needsPrinter = true) (hp : Printer.create o none 0 = .ok p)
    (limits : Limits) (c : Cursor) : f.toSink limits o c = runFlushed limits p f.nodes c := by
  have happly : f.apply limits {} c (sinkStream o) = (do
      Action.put standardRoom (runFlushed limits p f.nodes c).2
      Action.lift (runFlushed limits p f.nodes c).1 : Action Outcome) (sinkStream o) := by
    show (if f.needsPrinter then _ else _ : Action Outcome) _ = _
    rw [h]
    show (Action.lift (Printer.create o none 0) >>= _ : Action Outcome) _ = _
    rw [hp]
    rfl
  have hput := Action.put_column (c := { maxColumn := o.rightMargin, options := o }) rfl standardRoom
    (runFlushed limits p f.nodes c).2 #[]
  unfold toSink Action.perform
  rw [happly, show sinkStream o = ⟨.column { maxColumn := o.rightMargin, options := o }, #[]⟩ from rfl,
    Action.bind_of_ok hput]
  have houtput := Column.output_write { maxColumn := o.rightMargin, options := o }
    (runFlushed limits p f.nodes c).2 rfl
  cases hrun : (runFlushed limits p f.nodes c).1 <;> exact Prod.ext hrun.symm houtput

/-- **What succeeds on the stream that the nodes ask for** succeeds on a printer. -/
theorem runFlushed_of_toSink (hf : ofSource source = .ok f)
    (hdepth : f.needsPrinter = true ∨ 3 * Node.nestingOfAll f.nodes + 11 ≤ limits.depth)
    (hp : Printer.create o none 0 = .ok p) (h : f.toSink limits o c = (.ok outcome, t)) :
    runFlushed limits p f.nodes c = (.ok outcome, t) := by
  cases hneeds : f.needsPrinter with
  | true => exact (toSink_eq_runFlushed hneeds hp limits c).symm.trans h
  | false =>
    have hdepth := hdepth.resolve_left (by simp [hneeds])
    have hagrees := (portable_run hf hneeds hdepth c).agrees (fun _ => .inr) (standsIn_create hp)
    rw [toSink_of_needsPrinter hneeds, Action.perform] at h
    cases hrun : Action.run limits {} f.nodes c (sinkStream o) with
    | error e s =>
      rw [hrun] at h
      cases h
    | ok x s =>
      rw [hrun] at h hagrees
      cases h
      cases hrun' : Action.run limits {} f.nodes c { device := .printer p } with
      | error e t =>
        rw [hrun'] at hagrees
        cases hagrees
      | ok y t =>
        rw [hrun'] at hagrees
        obtain ⟨rfl, hlike⟩ := hagrees
        obtain ⟨t', hflush, houtput⟩ := Action.flush_standsIn hlike
        exact runFlushed_eq_ok.mpr ⟨t, t', hrun', hflush, houtput⟩

/-- The stream for nodes that ask for a printer. -/
theorem freshStream_printer (h : f.needsPrinter = true) (hp : Printer.create o none 0 = .ok p) :
    freshStream o f.nodes = .ok { device := .printer p } := by
  unfold freshStream
  rw [if_pos (by exact h), hp]
  rfl

/-- The stream for nodes that ask for none. -/
theorem freshStream_sink (h : f.needsPrinter = false) : freshStream o f.nodes = .ok (sinkStream o) := by
  unfold freshStream
  rw [if_neg (by simpa [needsPrinter] using h)]
  rfl

/-- **Another argument in front** makes no difference to a run that obeys the rule. -/
theorem exists_toSink_of_obeys (hobeys : f.Obeys (.tandem True) true limits o c)
    (hc : Cursor.Alongside true c c') (h : f.toSink limits o c = (.ok outcome, t)) :
    ∃ outcome', f.toSink limits o c' = (.ok outcome', t) ∧ outcome'.2 = outcome.2 := by
  obtain ⟨p, hp⟩ : ∃ p, Printer.create o none 0 = .ok p := ⟨_, rfl⟩
  cases hneeds : f.needsPrinter with
  | true =>
    have hunharmed : p.stopped = none := by
      cases hp
      rfl
    rw [toSink_eq_runFlushed hneeds hp] at h
    obtain ⟨s, s', hrun, hflush, htext⟩ := runFlushed_eq_ok.mp h
    obtain ⟨outcome', hrun', hexit⟩ := Action.exists_run_of_obeys
      (hobeys _ (freshStream_printer hneeds hp)) (Nat.le_refl _) (Stream.unharmed_printer hunharmed #[]) hc
      hrun
    refine ⟨outcome', ?_, hexit⟩
    rw [toSink_eq_runFlushed hneeds hp]
    exact runFlushed_eq_ok.mpr ⟨s, s', hrun', hflush, htext⟩
  | false =>
    rw [toSink_of_needsPrinter hneeds, Action.perform] at h
    rw [toSink_of_needsPrinter hneeds, Action.perform]
    cases hrun : Action.run limits {} f.nodes c (sinkStream o) with
    | error e s =>
      rw [hrun] at h
      cases h
    | ok x s =>
      rw [hrun] at h
      cases h
      obtain ⟨outcome', hrun', hexit⟩ := Action.exists_run_of_obeys
        (hobeys _ (freshStream_sink hneeds)) (Nat.le_refl _) (Stream.unharmed_column _ #[]) hc hrun
      refine ⟨outcome', ?_, hexit⟩
      rw [show Action.run limits {} f.nodes c' (sinkStream o) = .ok outcome' s from hrun']

end Formatter

namespace Action

variable {limits : Limits} {w : Text} {v : Value} {vs : List Value} {head : Head}

/-- Two calls lead to a directive that runs a control string, which is the next argument. -/
theorem run_control (hw : compile w = .ok nodes) (limits : Limits) (head : Head) {c c' : Cursor}
    (hnext : c.next = .ok (.text w, c')) :
    run ⟨limits.depth + 2, limits.passes⟩ {} [.atom .recursive head] c =
      if head.atSign then
        runWithin limits.passes (limits.depth + 1) { room := limits.depth } nodes c'
      else (do
        let (v, c) ← lift c'.next
        discard (runWithin limits.passes (limits.depth + 1) { room := limits.depth } nodes
          (← lift (Cursor.ofValue v none)))
        return (c, none)) := by
  have hroom : ¬limits.depth + 2 < 2 := by omega
  have hnodes : nodesOf (.text w) = .ok nodes := hw
  show (descend { room := limits.depth + 2 } 2 >>= fun route =>
    runNodes limits.passes (runWithin limits.passes (limits.depth + 1)) route [.atom .recursive head] c) = _
  unfold descend
  rw [if_neg hroom, pure_bind, runNodes_singleton]
  show runRecursive _ _ head c = _
  unfold runRecursive
  rw [hnext]
  show (lift (nodesOf (.text w)) >>= _) = _
  rw [hnodes]
  rfl

/-- With an at-sign, its nodes go on from the next argument. -/
theorem run_control_atSign (hw : compile w = .ok nodes) (hatSign : head.atSign = true)
    (limits : Limits) (vs : List Value) :
    run ⟨limits.depth + 2, limits.passes⟩ {} [.atom .recursive head] (.ofList (.text w :: vs)) =
      runWithin limits.passes (limits.depth + 1) { room := limits.depth } nodes
        ⟨(.text w :: vs).toArray, .int 1, none⟩ :=
  (run_control hw limits head (Cursor.next_of_nat (.text w :: vs) 0 none)).trans (if_pos hatSign)

/-- Without one, they go over the list that is the next argument. -/
theorem run_control_list (hw : compile w = .ok nodes) (hatSign : head.atSign = false)
    (limits : Limits) (vs : List Value) :
    run ⟨limits.depth + 2, limits.passes⟩ {} [.atom .recursive head] (.ofList [.text w, .list vs]) = (do
      discard (runWithin limits.passes (limits.depth + 1) { room := limits.depth } nodes (.ofList vs))
      return (⟨#[.text w, .list vs], .int 2, none⟩, none)) := by
  have hnext : Cursor.next ⟨#[.text w, .list vs], .int 1, none⟩ =
      .ok (.list vs, ⟨#[.text w, .list vs], .int 2, none⟩) :=
    Cursor.next_of_nat [.text w, .list vs] 1 none
  refine (run_control hw limits head (Cursor.next_of_nat [.text w, .list vs] 0 none)).trans ?_
  rw [hatSign, if_neg Bool.false_ne_true]
  show (lift (Cursor.next ⟨#[.text w, .list vs], .int 1, none⟩) >>= _) = _
  rw [hnext]
  rfl

end Action

namespace Formatter

variable {f : Formatter} {limits : Limits} {o : Options} {p : Printer} {c c' : Cursor}
  {outcome : Outcome} {w t : Text} {arguments : List Value}

theorem exists_of_format {control : Value} (hf : ofValue control = .ok f)
    (h : format limits control arguments o = .ok t) :
    ∃ outcome, f.toSink limits o (.ofList arguments) = (.ok outcome, t) := by
  unfold format at h
  rw [hf] at h
  simp only [bind, Except.bind] at h
  split at h
  · rename_i outcome text hrun
    cases h
    exact ⟨outcome, hrun⟩
  · cases h

/-- A directive that runs a control string writes what its nodes do, if they succeed. -/
theorem format_control {control : Text} {head : Head}
    (hcontrol : compile control = .ok [.atom .recursive head])
    (hp : Printer.create o none 0 = .ok p)
    (h : runFlushed limits p [.atom .recursive head] (.ofList arguments) = (.ok outcome, t)) :
    format limits (.text control) arguments o = .ok t := by
  have hf : ofValue (.text control) = .ok ⟨[.atom .recursive head]⟩ := by
    show (compile control >>= fun nodes => pure (Formatter.mk nodes)) = _
    rw [hcontrol]
    rfl
  have hsink : Formatter.toSink ⟨[.atom .recursive head]⟩ limits o (.ofList arguments) =
      (.ok outcome, t) := (toSink_eq_runFlushed (f := ⟨[.atom .recursive head]⟩) rfl hp limits _).trans h
  unfold format
  rw [hf]
  simp only [bind, Except.bind, hsink]
  rfl

theorem exists_compile_atSign : ∃ head, compile "~@?".toList = .ok [.atom .recursive head] ∧
    head.atSign = true :=
  ⟨⟨[], [], false, true, 0, 3⟩, by with_unfolding_all rfl, rfl⟩

theorem exists_compile_list : ∃ head, compile "~?".toList = .ok [.atom .recursive head] ∧
    head.atSign = false :=
  ⟨⟨[], [], false, false, 0, 2⟩, by with_unfolding_all rfl, rfl⟩

/-- **A control string among the arguments** comes to what it comes to by itself, as long as it moves
over the arguments at hand by whole numbers from where it stands: with the arguments behind it, and
with a list of them. -/
theorem format_recursive (hf : ofSource (.text w) = .ok f)
    (hdepth : f.needsPrinter = true ∨ 3 * Node.nestingOfAll f.nodes + 11 ≤ limits.depth)
    (hobeys : f.Obeys (.tandem True) true limits o (.ofList arguments))
    (h : format limits (.text w) arguments o = .ok t) :
    format ⟨limits.depth + 2, limits.passes⟩ (.text "~@?".toList) (.text w :: arguments) o = .ok t ∧
      format ⟨limits.depth + 2, limits.passes⟩ (.text "~?".toList) [.text w, .list arguments] o =
        .ok t := by
  obtain ⟨p, hp⟩ : ∃ p, Printer.create o none 0 = .ok p := ⟨_, rfl⟩
  have hw : compile w = .ok f.nodes := by
    obtain ⟨nodes, hnodes, heq⟩ := exists_of_bind_ok hf
    cases heq
    exact hnodes
  have hunharmed : p.stopped = none := by
    cases hp
    rfl
  have hunharmed := Stream.unharmed_printer hunharmed #[]
  obtain ⟨outcome, hrun⟩ := exists_of_format (show ofValue (.text w) = .ok f from hf) h
  constructor
  · obtain ⟨head, hcontrol, hatSign⟩ := exists_compile_atSign
    have hc : Cursor.Alongside true (.ofList arguments) ⟨(.text w :: arguments).toArray, .int 1, none⟩ :=
      .shifted (.text w) arguments (Nat.zero_le _) rfl
    obtain ⟨outcome', hrun', -⟩ := exists_toSink_of_obeys hobeys hc hrun
    obtain ⟨s, s', hinside, hflush, htext⟩ :=
      runFlushed_eq_ok.mp (runFlushed_of_toSink hf hdepth hp hrun')
    obtain ⟨outcome', hdeeper, -⟩ := Action.exists_run_of_le (Nat.le_succ limits.depth) hunharmed hinside
    have hinlined := Action.run_control_atSign hw hatSign limits arguments
    rw [← hinlined] at hdeeper
    exact format_control hcontrol hp (runFlushed_eq_ok.mpr ⟨s, s', hdeeper, hflush, htext⟩)
  · obtain ⟨head, hcontrol, hatSign⟩ := exists_compile_list
    obtain ⟨s, s', hinside, hflush, htext⟩ := runFlushed_eq_ok.mp (runFlushed_of_toSink hf hdepth hp hrun)
    obtain ⟨outcome', hdeeper, -⟩ := Action.exists_run_of_le (Nat.le_succ limits.depth) hunharmed hinside
    have hlisted : Action.run ⟨limits.depth + 2, limits.passes⟩ {} [.atom .recursive head]
        (.ofList [.text w, .list arguments]) { device := .printer p } =
          .ok (⟨#[.text w, .list arguments], .int 2, none⟩, none) s := by
      rw [Action.run_control_list hw hatSign]
      exact Action.bind_of_ok ((Action.bind_of_ok hdeeper).trans rfl)
    exact format_control hcontrol hp (runFlushed_eq_ok.mpr ⟨s, s', hlisted, hflush, htext⟩)

/-- Two numbers, a step back to the first one, and a list, in which the nodes may go where they like. -/
theorem format_recursive_steps :
    let w := "~2@{~D~^, ~}~2:*~D~*~:{~*~0@*~D~}".toList
    let arguments : List Value := [.int 1, .int 2, .list [.list [.int 3, .int 4]]]
    ∃ f, ofSource (.text w) = .ok f ∧ f.Obeys (.tandem True) true ⟨40, 9⟩ {} (.ofList arguments) ∧
      format ⟨40, 9⟩ (.text w) arguments {} = .ok "1, 2, 13".toList ∧
      format ⟨42, 9⟩ (.text "~@?".toList) (.text w :: arguments) {} = .ok "1, 2, 13".toList ∧
      format ⟨42, 9⟩ (.text "~?".toList) [.text w, .list arguments] {} = .ok "1, 2, 13".toList := by
  intro w arguments
  let plain (start stop : Nat) : Head := ⟨[], [], false, false, start, stop⟩
  let numbers : Node := .group .iteration ⟨[.number 2], [1], false, true, 0, 12⟩
    [[.atom .decimal (plain 4 6), .atom .escape (plain 6 8), .text ", ".toList]] [] (plain 10 12)
  let sublists : Node := .group .iteration ⟨[], [], true, false, 20, 33⟩
    [[.atom .goTo (plain 23 25), .atom .goTo ⟨[.number 0], [26], false, true, 25, 29⟩,
      .atom .decimal (plain 29 31)]] [] (plain 31 33)
  let f : Formatter := ⟨[numbers, .atom .goTo ⟨[.number 2], [13], true, false, 12, 16⟩,
    .atom .decimal (plain 16 18), .atom .goTo (plain 18 20), sublists]⟩
  have hf : ofSource (.text w) = .ok f := by with_unfolding_all rfl
  have hsteps : ∀ n ∈ f.nodes, n.Steps := by
    have hatom {kind : Atom} {head : Head} (hkind : kind ≠ .goTo ∧ kind ≠ .recursive) :
        (Node.atom kind head).Steps :=
      .atom (fun h => absurd h hkind.1) fun h => absurd h hkind.2
    simp only [f, List.forall_mem_cons, List.not_mem_nil, false_implies, implies_true, and_true]
    refine ⟨.group (fun _ _ => List.cons_ne_nil _ _) fun _ => ?_, ?_, hatom (by decide), ?_, .group ?_ ?_⟩
    · simp only [List.forall_mem_cons, List.not_mem_nil, false_implies, implies_true, and_true]
      exact ⟨hatom (by decide), hatom (by decide), .text⟩
    · exact .atom (fun _ => ⟨rfl, trivial⟩) nofun
    · exact .atom (fun _ => ⟨rfl, trivial⟩) nofun
    · simp [Node.goesOn]
    · simp [Node.goesOn]
  have hformat : format ⟨40, 9⟩ (.text w) arguments {} = .ok "1, 2, 13".toList :=
    eq_ok_of_toOption (by decide +kernel)
  have hobeys := obeys_of_steps hsteps ⟨40, 9⟩ {} (.ofList arguments)
  have hsame := format_recursive hf (by decide +kernel) hobeys hformat
  exact ⟨f, hf, hobeys, hformat, hsame⟩

/-- **An argument in front can be felt** by a cursor that moves by a fraction: one that is too small to
count beside it has still left the beginning, where there is nothing in front. -/
theorem exists_format_recursive_ne : ∃ (w : Text) (arguments : List Value) (f : Formatter) (goTo escape : Head),
    ofSource (.text w) = .ok f ∧
      f.nodes = [.atom .goTo goTo, .atom .escape escape, .text ['x']] ∧ goTo.atSign = false ∧
      format .standard (.text w) arguments {} = .ok ['x'] ∧
      format .standard (.text "~@?".toList) (.text w :: arguments) {} = .ok [] := by
  let w := "~V*~#,1^x".toList
  let arguments : List Value := [.float (.finite false 6084722881095501 (-105)), .text ['a']]
  let goTo : Head := ⟨[.next], [1], false, false, 0, 3⟩
  let escape : Head := ⟨[.remaining, .number 1], [4, 6], false, false, 3, 8⟩
  have hf : ofSource (.text w) = .ok ⟨[.atom .goTo goTo, .atom .escape escape, .text ['x']]⟩ := by
    with_unfolding_all rfl
  exact ⟨w, arguments, _, goTo, escape, hf, rfl, rfl, eq_ok_of_toOption (by decide +kernel),
    eq_ok_of_toOption (by decide +kernel)⟩

end Formatter

end Tilde
