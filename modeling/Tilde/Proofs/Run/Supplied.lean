import Tilde.Proofs.Directive.Bracketed
import Tilde.Proofs.Fold.Route
import Tilde.Proofs.Run.Position
import Tilde.Format.Run

/-!
# Parameters that the arguments supply

A parameter `V` takes the next argument. It means the same as the number or character that the
argument is, written in its place, on the arguments behind. A `#` before it counts the argument that
it takes, so there the number of arguments has to be written, too.

* `Literal`, `fill`: what is written in place of the parameters;
* `Suits`: the literals are what the parameters have to be;
* `settleAll_fill`: the settings are the same;
* `Node.withParameters`: the directive with these parameters, as it is compiled;
* **`Action.run_withParameters`**: the run is the same.
-/

namespace Tilde

/-! ## Literals -/

/-- What can be written as a parameter and be an argument, too. -/
inductive Literal
  | number (n : Int)
  | character (x : Char)

namespace Literal

def parameter : Literal → Parameter
  | number n => .number n
  | character x => .character x

def value : Literal → Value
  | number n => .int n
  | character x => .text [x]

end Literal

/-- The parameters with literals in place of each `V`, and in place of each `#` before one with the
number of arguments that are left, if so many are left at first. -/
def fill : List Parameter → List Literal → Int → List Parameter
  | .next :: ps, l :: ls, left => l.parameter :: fill ps ls (left - 1)
  | .remaining :: ps, l :: ls, left => .number left :: fill ps (l :: ls) left
  | p :: ps, ls, left => p :: fill ps ls left
  | [], _, _ => []

/-- There are as many literals as parameters `V`, and each is what the parameter has to be. -/
inductive Suits : List (String × ParameterKind) → List Parameter → List Literal → Prop
  | nil {wanted : List (String × ParameterKind)} : Suits wanted [] []
  | next {name : String} {kind : ParameterKind} {wanted : List (String × ParameterKind)}
      {ps : List Parameter} {l : Literal} {ls : List Literal}
      (accepts : kind.accepts l.parameter = true) (h : Suits wanted ps ls) :
      Suits ((name, kind) :: wanted) (.next :: ps) (l :: ls)
  | other {w : String × ParameterKind} {wanted : List (String × ParameterKind)} {p : Parameter}
      {ps : List Parameter} {ls : List Literal} (hp : p ≠ .next) (h : Suits wanted ps ls) :
      Suits (w :: wanted) (p :: ps) ls

/-- The next arguments are the values, and then the cursor is the other one. -/
def Cursor.Reads : Cursor → List Value → Cursor → Prop
  | c, [], c' => c' = c
  | c, v :: vs, c' => ∃ c₁, c.next = .ok (v, c₁) ∧ c₁.Reads vs c'

variable {wanted : List (String × ParameterKind)} {ps : List Parameter} {ls : List Literal}
  {l : Literal} {c c' : Cursor} {n : Int} {defaults : List Value} {v : Value}

@[simp] theorem fill_nil (ps : List Parameter) (left : Int) : fill ps [] left = ps := by
  induction ps with
  | nil => rfl
  | cons p ps ih => cases p <;> simp [fill, ih]

theorem isEmpty_fill (ps : List Parameter) (ls : List Literal) (left : Int) :
    (fill ps ls left).isEmpty = ps.isEmpty := by
  fun_cases fill ps ls left <;> rfl

theorem Suits.eq_nil (h : Suits [] ps ls) : ps = [] := by
  cases h
  rfl

/-- A count that the arguments supply is a number. -/
theorem Suits.single {name : String} (h : Suits [(name, .integer)] ps ls) (hnext : .next ∈ ps) :
    ps = [.next] ∧ ∃ n, ls = [.number n] := by
  cases h with
  | nil => simp at hnext
  | @next _ _ _ ps l ls accepts h =>
    obtain rfl := h.eq_nil
    cases h
    cases l with
    | number n => exact ⟨rfl, n, rfl⟩
    | character x => simp [Literal.parameter, ParameterKind.accepts] at accepts
  | other hp h =>
    obtain rfl := h.eq_nil
    exact absurd (List.mem_singleton.mp hnext).symm hp

theorem Suits.length_le (h : Suits wanted ps ls) : ps.length ≤ wanted.length := by
  induction h <;> simp_all

/-! ## Settings -/

theorem settle_literal (l : Literal) (default : Value) (c : Cursor) :
    l.parameter.settle default c = .ok (l.value, c) := by
  cases l <;> rfl

theorem settle_next (hnext : c.next = .ok (l.value, c')) (default : Value) :
    Parameter.next.settle default c = .ok (l.value, c') := by
  simp only [Parameter.settle, hnext]
  cases l <;> rfl

/-- **Literals in place of `V` give the same settings.** -/
theorem settleAll_fill (hsuits : Suits wanted ps ls) (hn : c.At n)
    (hreads : c.Reads (ls.map Literal.value) c') (hlength : ps.length ≤ defaults.length) :
    settleAll (fill ps ls (c.length - n)) defaults c' = settleAll ps defaults c := by
  induction hsuits generalizing c n defaults with
  | nil =>
    cases hreads
    rw [fill_nil]
  | @next name kind wanted ps l ls accepts h ih =>
    obtain _ | ⟨default, defaults⟩ := defaults
    · simp at hlength
    obtain ⟨c₁, hnext, hreads⟩ := hreads
    obtain ⟨m, hm, -, rfl⟩ := Cursor.of_next hnext
    obtain rfl := Option.some.inj (hn.symm.trans hm)
    have hrest := ih (c.at_moved (n + 1)) hreads (Nat.le_of_succ_le_succ hlength)
    have hleft : (c.length : Int) - n - 1 = (c.moved (.int (n + 1))).length - (n + 1) := by
      show (c.length : Int) - n - 1 = c.length - (n + 1)
      omega
    simp only [fill, settleAll, List.headD_cons, List.tail_cons, settle_literal, settle_next hnext,
      hleft, hrest, bind, Except.bind]
  | @other w wanted p ps ls hp h ih =>
    obtain _ | ⟨l, ls⟩ := ls
    · cases hreads
      rw [fill_nil]
    obtain _ | ⟨default, defaults⟩ := defaults
    · simp at hlength
    have hrest := ih hn hreads (Nat.le_of_succ_le_succ hlength)
    cases p with
    | next => exact absurd rfl hp
    | remaining =>
      have hremaining : c.remaining = .ok (.int (c.length - n)) := Cursor.remaining_of_at hn
      simp only [fill, settleAll, List.headD_cons, List.tail_cons, Parameter.settle, hremaining,
        Except.map, hrest, bind, Except.bind]
    | absent | number | character =>
      simp only [fill, settleAll, List.headD_cons, List.tail_cons, Parameter.settle, hrest, bind,
        Except.bind]

/-! ## Simple directives -/

namespace Action

variable {passes : Nat} {run : Runner} {route : Route} {head : Head} {kind : Atom}
  {clauses : List (List Node)} {separators : List Head} {closing : Head}

/-- Simple directives look at their parameters only to see whether there are any. -/
theorem runSettled_withParameters (hempty : ps.isEmpty = head.parameters.isEmpty) (s : List Value) :
    runSettled route kind { head with parameters := ps } s c = runSettled route kind head s c := by
  have hprint (escape : Bool) (v : Value) :
      printPadded route { head with parameters := ps } s escape v =
        printPadded route head s escape v := by
    simp only [printPadded, hempty]
  cases kind <;> first | rfl | simp only [runSettled, hprint]

theorem runAtom_withParameters (hempty : ps.isEmpty = head.parameters.isEmpty)
    (hsettle : settleAll ps kind.defaults c' = settleAll head.parameters kind.defaults c) :
    runAtom route kind { head with parameters := ps } c' = runAtom route kind head c := by
  simp only [runAtom, Head.settle, hsettle]
  refine bind_congr fun x => ?_
  cases kind <;> first | rfl | simp only [runSettled_withParameters hempty]

/-! ## Groups -/

theorem runConditional_withParameters (hcolon : head.colon = false) (hatSign : head.atSign = false)
    (hsettle : settleAll ps Group.conditional.defaults c' =
      settleAll head.parameters Group.conditional.defaults c) :
    runConditional run route { head with parameters := ps } clauses separators c' =
      runConditional run route head clauses separators c := by
  simp only [runConditional, Head.settle, hsettle, hcolon, hatSign]
  rfl

theorem runIteration_withParameters
    (hsettle : settleAll ps Group.iteration.defaults c' =
      settleAll head.parameters Group.iteration.defaults c) :
    runIteration passes run route { head with parameters := ps } clauses closing c' =
      runIteration passes run route head clauses closing c := by
  simp only [runIteration, Head.settle, hsettle]

theorem runJustification_withParameters
    (hsettle : settleAll ps Group.justification.defaults c' =
      settleAll head.parameters Group.justification.defaults c) :
    runJustification run route { head with parameters := ps } clauses separators c' =
      runJustification run route head clauses separators c := by
  simp only [runJustification, Head.settle, hsettle]

end Action

/-! ## Empty texts -/

/-- Nothing is closed, and no operation has gone wrong. -/
def Stream.IsOpen (s : Stream) : Prop :=
  match s.device with
  | .column c => c.closed = false
  | .printer p => p.closed = false ∧ p.stopped = none

namespace Action

theorem fold_nil (route : Route) (s : Stream) : fold route [] s = .ok [] s := by
  unfold fold
  induction route.folds with
  | nil => rfl
  | cons i folds ih =>
    rw [List.foldlM_cons, bind_of_ok (foldOnce_nil i s)]
    exact ih

theorem put_nil {s : Stream} (hopen : s.IsOpen) (room : Nat) :
    ∃ s', put room [] s = .ok () s' ∧ s.Like s' := by
  obtain ⟨device, folds⟩ := s
  cases device with
  | column c =>
    have hwrite : c.write [] = c := by simp [Column.write, columnAfter]
    refine ⟨_, put_column hopen room [] folds, ?_⟩
    rw [hwrite]
    exact .same _
  | printer p =>
    obtain ⟨hclosed, hstopped⟩ := hopen
    have hwrite (r : Option Nat) :
        Printer.write { p with room := r } [] = .ok { p with room := r } := by
      simp [Printer.write, Printer.whileOpen, hclosed, Printer.writeLines, Printer.writeText,
        Printer.conclude, hstopped, bind, Except.bind]
    refine ⟨_, ?_, .room p folds (some (room - layoutCalls))⟩
    show onPrinter room (·.write []) ⟨.printer p, folds⟩ = _
    simp only [onPrinter, hwrite]

/-- On an open stream, nothing is left behind by an empty text. -/
theorem write_nil {s : Stream} (hopen : s.IsOpen) (hroom : route.folds.length + 4 ≤ route.room) :
    ∃ s', write route [] s = .ok () s' ∧ s.Like s' := by
  rw [write, bind_of_ok (checkRoom_of_le hroom), bind_of_ok (fold_nil route s)]
  exact put_nil hopen _

end Action

/-! ## Directives -/

namespace Node

/-- The parameters of a directive. -/
def parameters (n : Node) : List Parameter := (n.head?.map (·.parameters)).getD []

/-- What the parameters of a directive have to be. -/
def takes : Node → List (String × ParameterKind)
  | .atom kind _ => (Command.atom kind).parameters
  | .group kind .. => (Command.opening kind.bracket).parameters
  | _ => []

/-- Running the directive begins with its settings. -/
def SettlesFirst : Node → Prop
  | .group .conditional head .. => head.colon = false ∧ head.atSign = false
  | .group .logicalBlock .. => False
  | _ => True

/-- The directive with other parameters, as it is compiled: copies of a character are text if it is
known how many there are. -/
def withParameters (ps : List Parameter) : Node → Except Excess (List Node)
  | .atom kind head =>
    match (Command.atom kind).repeated?, ps with
    | some x, [.number n] =>
      (Text.asCount n).map fun count => if count = 0 then [] else [.copies x count]
    | _, _ => .ok [.atom kind { head with parameters := ps }]
  | .group kind head clauses separators closing =>
    .ok [.group kind { head with parameters := ps } clauses separators closing]
  | n => .ok [n]

end Node

/-- What a lexeme that encloses nothing adds to a list of nodes. -/
def Lexeme.nodes : Lexeme → List Node
  | .text s => if s.isEmpty then [] else [.text s]
  | .copies x count => if count = 0 then [] else [.copies x count]
  | .directive (.atom kind) head => [.atom kind head]
  | .directive .. => []

/-- A simple directive that is allowed is compiled to these nodes. -/
theorem nodes_ofDirective {kind : Atom} {head : Head} (hps : ps ≠ [])
    (hallowed : checkHead (.atom kind) { head with parameters := ps } = .ok ()) :
    (Lexeme.ofDirective (.atom kind) { head with parameters := ps }).map Lexeme.nodes =
      ((Node.atom kind head).withParameters ps).mapError .excessive := by
  cases hrepeated : (Command.atom kind).repeated? with
  | none =>
    simp only [Lexeme.ofDirective, hrepeated, hallowed, Node.withParameters]
    rfl
  | some x =>
    have hpermission : (Command.atom kind).permission = .neither := by
      cases kind <;> first | rfl | cases hrepeated
    have hmodifiers : head.colon = false ∧ head.atSign = false := by
      rw [checkHead, hpermission] at hallowed
      cases hcolon : head.colon <;> cases hatSign : head.atSign <;>
        simp [Permission.check, hcolon, hatSign] at hallowed ⊢
    obtain ⟨parameters, offsets, colon, atSign, start, stop⟩ := head
    obtain ⟨rfl, rfl⟩ := hmodifiers
    simp only [Lexeme.ofDirective, hrepeated, Node.withParameters]
    rw [if_neg (by simp)]
    split
    · exact absurd rfl hps
    · rename_i n
      dsimp only
      cases Text.asCount n <;> rfl
    · rename_i hother
      rw [hallowed]
      split
      · exact absurd rfl (hother _)
      · rfl

namespace Action

variable {passes : Nat} {run : Runner} {route : Route} {node : Node}

/-- Running the directive is the same as running the compiled nodes on the other cursor. If there
are none, it leaves open streams as they are. If they cannot be compiled, it fails for the same
reason. -/
def RunsAs (passes : Nat) (run : Runner) (route : Route) (node : Node) (c c' : Cursor) :
    Except Excess (List Node) → Prop
  | .ok [] => ∀ s, s.IsOpen → route.folds.length + 4 ≤ route.room →
    ∃ s', runNode passes run route node c s = .ok (c', none) s' ∧ s.Like s'
  | .ok nodes => runNode passes run route node c = runNodes passes run route nodes c'
  | .error e => ∀ s, runNode passes run route node c s = .error (.ofExcess e) s

theorem runNodes_singleton (n : Node) (c : Cursor) :
    runNodes passes run route [n] c = runNode passes run route n c := by
  rw [runNodes]
  conv_rhs => rw [← bind_pure (runNode passes run route n c)]
  refine bind_congr ?_
  rintro ⟨c₁, _ | exit⟩ <;> rfl

theorem length_takes (kind : Atom) :
    (Command.atom kind).parameters.length = kind.defaults.length := by
  cases kind <;> rfl

theorem repeatText_int (x : Char) (n : Int) : Value.repeatText [x] (.int n) =
    Fault.bounded ((Text.asCount n).map fun count => List.replicate count x) := by
  have htimes (m : Int) : Text.times [x] m = List.replicate m.toNat x := by
    simp [Text.times]
  simp only [Value.repeatText, Value.asInteger, Value.integer?, Text.repeated, Text.asCount, bind,
    Except.bind]
  cases Text.asIndex n with
  | error e => rfl
  | ok m =>
    simp only [List.length_singleton, Nat.one_mul, htimes]
    cases Text.checkLength m.toNat <;> rfl

theorem runNode_repeated {kind : Atom} {head : Head} {x : Char} {n : Int}
    (hrepeated : (Command.atom kind).repeated? = some x) (hparameters : head.parameters = [.next])
    (hnext : c.next = .ok (.int n, c')) : runNode passes run route (.atom kind head) c = (do
      write route (← lift (Value.repeatText [x] (.int n)))
      return (c', none)) := by
  have hsettle : head.settle [.int 1] c = .ok ([.int n], c') := by
    simp [Head.settle, hparameters, settleAll, Parameter.settle, hnext, bind, Except.bind, pure,
      Except.pure]
  cases kind <;> cases hrepeated <;>
    simp [runNode, runAtom, Atom.defaults, hsettle, lift, runSettled, repeatCharacter, setting]

theorem runsAs_copies {kind : Atom} {head : Head} {x : Char} {n : Int}
    (hrepeated : (Command.atom kind).repeated? = some x) (hparameters : head.parameters = [.next])
    (hnext : c.next = .ok (.int n, c')) :
    RunsAs passes run route (.atom kind head) c c'
      ((Text.asCount n).map fun count => if count = 0 then [] else [.copies x count]) := by
  have hrun := @runNode_repeated c c' passes run route kind head x n hrepeated hparameters hnext
  rw [repeatText_int] at hrun
  cases hcount : Text.asCount n with
  | error e =>
    intro s
    rw [hrun, hcount]
    rfl
  | ok count =>
    rw [hcount] at hrun
    obtain _ | count := count
    · intro s hopen hroom
      obtain ⟨s', hwrite, hlike⟩ := write_nil hopen hroom
      refine ⟨s', ?_, hlike⟩
      rw [hrun]
      simp [Except.map, Fault.bounded, lift, bind, EStateM.bind, hwrite, pure, EStateM.pure]
    · show runNode passes run route (.atom kind head) c =
        runNodes passes run route [.copies x (count + 1)] c'
      rw [runNodes_singleton, hrun]
      rfl

theorem parameters_of_repeated {kind : Atom} {x : Char}
    (h : (Command.atom kind).repeated? = some x) :
    (Command.atom kind).parameters = [("count", .integer)] := by
  cases kind <;> first | rfl | cases h

theorem runNode_atom {kind : Atom} {head : Head} (h : (Command.atom kind).parameters ≠ [])
    (c : Cursor) : runNode passes run route (.atom kind head) c = runAtom route kind head c := by
  cases kind <;> first | rfl | exact absurd rfl h

/-- **A parameter `V` means the same as the literal that it takes.** -/
theorem run_withParameters (hnext : .next ∈ node.parameters) (hsettles : node.SettlesFirst)
    (hn : c.At n) (hreads : c.Reads (ls.map Literal.value) c')
    (hsuits : Suits node.takes node.parameters ls) (passes : Nat) (run : Runner) (route : Route) :
    RunsAs passes run route node c c'
      (node.withParameters (fill node.parameters ls (c.length - n))) := by
  have hsettle {defaults : List Value} (h : node.takes.length = defaults.length) :=
    settleAll_fill hsuits hn hreads (hsuits.length_le.trans h.le)
  have htakes : node.takes ≠ [] := by
    intro htakes
    rw [htakes] at hsuits
    simp [hsuits.eq_nil] at hnext
  cases node with
  | text | copies | foreign => exact absurd rfl htakes
  | atom kind head =>
    cases hrepeated : (Command.atom kind).repeated? with
    | none =>
      simp only [Node.withParameters, hrepeated]
      show runNode passes run route _ c = runNodes passes run route [_] c'
      rw [runNodes_singleton, runNode_atom htakes, runNode_atom htakes]
      exact (runAtom_withParameters (isEmpty_fill _ _ _) (hsettle (length_takes kind))).symm
    | some x =>
      rw [Node.takes, parameters_of_repeated hrepeated] at hsuits
      obtain ⟨hparameters, m, rfl⟩ := hsuits.single hnext
      obtain ⟨c₁, hread, rfl⟩ := hreads
      have hfill (left : Int) :
          fill (Node.atom kind head).parameters [.number m] left = [.number m] := by
        rw [hparameters]
        rfl
      simp only [Node.withParameters, hrepeated, hfill]
      exact runsAs_copies hrepeated hparameters hread
  | group kind head clauses separators closing =>
    show runNode passes run route _ c = runNodes passes run route [_] c'
    rw [runNodes_singleton]
    cases kind with
    | conditional => exact (runConditional_withParameters hsettles.1 hsettles.2 (hsettle rfl)).symm
    | iteration => exact (runIteration_withParameters (hsettle rfl)).symm
    | caseConversion => exact absurd rfl htakes
    | justification => exact (runJustification_withParameters (hsettle rfl)).symm
    | logicalBlock => exact hsettles.elim

/-- A column and a character from the arguments. -/
theorem run_withParameters_decimal :
    let head : Head := ⟨[.next, .next], [1, 3], false, false, 0, 5⟩
    let c : Cursor := .ofList [.int 5, .text ['*'], .int 42]
    parse "~V,VD".toList = .ok [.atom .decimal head] ∧
      c.Reads [.int 5, .text ['*']] (c.moved (.int 2)) ∧
      RunsAs 1 (Action.run ⟨1, 1⟩) {} (.atom .decimal head) c (c.moved (.int 2))
        (.ok [.atom .decimal { head with parameters := [.number 5, .character '*'] }]) := by
  intro head c
  have hreads : c.Reads ([.number 5, .character '*'].map Literal.value) (c.moved (.int 2)) :=
    ⟨_, rfl, _, rfl, rfl⟩
  have hsuits : Suits (Node.atom .decimal head).takes head.parameters
      [.number 5, .character '*'] := .next rfl (.next rfl .nil)
  have hnext : .next ∈ (Node.atom .decimal head).parameters := List.mem_cons_self
  refine ⟨by with_unfolding_all rfl, hreads, ?_⟩
  exact run_withParameters hnext trivial (c.at_moved 0) hreads hsuits 1 (Action.run ⟨1, 1⟩) {}

/-- A `#` to the left counts the argument that `V` takes: `~#,V^` leaves if one argument is left,
and `~#,1^` behind it does not. -/
theorem exists_run_ne :
    let head : Head := ⟨[.remaining, .next], [1, 3], false, false, 0, 5⟩
    let c : Cursor := .ofList [.int 1]
    let c' := c.moved (.int 1)
    parse "~#,V^x".toList = .ok [.atom .escape head, .text ['x']] ∧ c.Reads [.int 1] c' ∧ ∀ s,
      runNode 1 (Action.run ⟨1, 1⟩) {} (.atom .escape head) c s = .ok (c', some .upAndOut) s ∧
      runNode 1 (Action.run ⟨1, 1⟩) {}
        (.atom .escape { head with parameters := [.remaining, .number 1] }) c' s =
          .ok (c', none) s := by
  intro head c c'
  refine ⟨by with_unfolding_all rfl, ⟨_, rfl, rfl⟩, fun s => ⟨?_, ?_⟩⟩ <;> with_unfolding_all rfl

end Action

end Tilde
