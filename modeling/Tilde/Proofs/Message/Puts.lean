import Tilde.Proofs.Decimal.Agreement
import Tilde.Proofs.Directive.Refusal
import Tilde.Proofs.Run.Alongside
import Tilde.Proofs.Run.Interchange

/-!
# Runs that put a text on a printer

What a run puts on an idle printer is what its steps put there, one after the other.

* `Action.Puts`: an action gives a result and puts a text on every printer;
* `Puts.bind`, `Puts.cons`: one step after another, one node after another;
* `Puts.aesthetic`, `Puts.decimal`, `Puts.tabulate` and so on: what directives put there;
* **`Formatter.format_of_puts`**: what a run puts on a printer is what formatting gives.
-/

namespace Tilde

open Tilde.Stream (StandsIn)

/-! ## Spaces -/

theorem Value.ceilingQuotient_one (a : ℤ) :
    (Value.int a).ceilingQuotient (.int 1) = .ok (.int a) := by
  show Except.map Number.toValue (Number.ceilingQuotient (.integer a) (.integer 1)) = _
  have hfloor : (Number.integer a).floorQuotient (.integer 1) = .ok (.integer a) := by
    show Except.ok (Number.integer (a.fdiv 1)) = _
    rw [Int.fdiv_one]
  have hrest : (Number.integer a).remainder (.integer 1) = .ok (.integer 0) := by
    show Except.ok (Number.integer (a.fmod 1)) = _
    rw [Int.fmod_one]
  rw [Number.ceilingQuotient, hfloor, hrest]
  rfl

/-- **A relative tabulation by single columns** writes as many spaces as it is told, wherever it
starts. -/
theorem tabText_relative (column : Int) {n : Nat} (hmemory : n < Text.memoryLimit) :
    tabText? true column (.int n) (.int 1) = .ok (some (List.replicate n ' ')) := by
  have hone : (Value.int 1).ordinary? = some 1 := rfl
  have hcolumns : column + n - column = n := by omega
  have hpast : isPastStops true column (.int n) (.int 1) = .ok false := rfl
  rw [tabText?, hpast, ok_bind, if_neg Bool.false_ne_true, hone]
  cases hordinary : (Value.int n).ordinary? with
  | some m =>
    obtain rfl := Value.ordinary?_eq hordinary
    have hspaces : tabSpaces true column n 1 = n := by
      unfold tabSpaces
      simp
    dsimp only
    rw [hspaces, Text.blanks, Int.toNat_natCast]
    rfl
  | none =>
    have hcount : tabCount true column (.int n) (.int 1) = .ok (.int n) := by
      simp only [tabCount, Value.less_integer, Value.plus_integer, Value.ceilingQuotient_one,
        Value.times_integer, Value.minus_integer, bind, Except.bind, one_mul, hcolumns]
      rfl
    have hspaces : Value.repeatText [' '] (.int n) = .ok (List.replicate n ' ') := by
      have hlimit : (n : ℤ) < Text.memoryLimit := Int.ofNat_lt.mpr hmemory
      rw [Value.repeatText_of_fits ' ' (Int.natCast_nonneg n) hlimit, Int.toNat_natCast]
    dsimp only
    rw [hcount, ok_bind, hspaces, ok_bind]
    rfl

/-! ## Settings and numerals -/

theorem Head.settle_nil {head : Head} (hhead : head.parameters = []) (defaults : List Value)
    (c : Cursor) : head.settle defaults c = .ok (defaults, c) := by
  unfold Head.settle
  rw [hhead]
  induction defaults with
  | nil => rfl
  | cons v defaults ih =>
    rw [settleAll, List.headD_nil, List.tail_nil]
    show (settleAll [] defaults c >>= fun x => _) = _
    rw [ih]
    rfl

/-- The numeral of an integer. -/
theorem numberValue_decimal {head : Head} (hcolon : head.colon = false)
    (hatSign : head.atSign = false) (room : Nat) (o : Options) (n : Int) :
    numberValue .decimal head Atom.decimal.defaults room o (.int n) =
      .ok (.text (Radix.decimal n)) := by
  have hdigits : Value.magnitudeDigits (.integer n.natAbs) (.int 10) =
      .ok (Radix.magnitude 10 n.natAbs) := by
    rw [Value.magnitudeDigits, Value.commonRadix?, List.findM?, Value.equal_integer]
    rfl
  have hstyle : (integerSettings head Atom.decimal.defaults 0).style? = some {} := by
    unfold integerSettings IntegerSettings.style?
    rw [hcolon, hatSign]
    rfl
  have hfield : IntegerStyle.fieldOf {} (IntegerStyle.sign {} n) (Radix.magnitude 10 n.natAbs) =
      Radix.decimal n := by
    have hwidth (s : Text) : (0 - (s.length : Int)).toNat = 0 := by omega
    show List.replicate _ ' ' ++ _ = _
    rw [hwidth]
    rfl
  show Except.map Value.text (integerField _ room o (.int n) (.int 10)) = _
  unfold integerField
  dsimp only
  rw [hdigits, hstyle]
  exact congrArg (fun u => Except.ok (Value.text u)) hfield

/-! ## Routes -/

/-- The route passes no fold, and so many calls are left. -/
structure Route.Straight (calls : Nat) (route : Route) : Prop where
  folds : route.folds = []
  room : calls ≤ route.room

namespace Route.Straight

variable {route : Route} {calls k : Nat}

theorem mono (h : route.Straight calls) (hk : k ≤ calls) : route.Straight k :=
  ⟨h.folds, hk.trans h.room⟩

theorem descend (h : route.Straight (k + calls)) :
    Route.Straight k { route with room := route.room - calls } :=
  ⟨h.folds, Nat.le_sub_of_add_le h.room⟩

theorem ample (h : route.Straight calls) : route.Ample calls := by
  rw [Ample, h.folds, List.length_nil, Nat.zero_add]
  exact h.room

end Route.Straight

namespace Action

variable {α β : Type} {o : Options} {a : Action α} {k : α → Action β} {x : α} {y : β} {u v : Text}
  {route : Route} {passes depth : Nat} {run : Runner} {n : Node} {nodes : List Node}
  {c c' c'' : Cursor} {head : Head} {outcome : Tilde.Outcome}

/-- On every printer with the options that stands in for a column stream, the action gives the
result and puts the text there, through no fold. -/
def Puts (o : Options) (a : Action α) (x : α) (u : Text) : Prop :=
  ∀ ⦃c : Column⦄ ⦃folds : Array Fold⦄ ⦃t : Stream⦄, c.options = o →
    StandsIn False ⟨.column c, folds⟩ t →
    ∃ t', a t = .ok x t' ∧ StandsIn False ⟨.column (c.write u), folds⟩ t'

namespace Puts

/-! ## Steps -/

theorem pure (x : α) : Puts o (pure x) x [] := fun _ _ t _ h =>
  ⟨t, rfl, by rwa [Column.write_nil]⟩

theorem bind (ha : Puts o a x u) (hk : Puts o (k x) y v) : Puts o (a >>= k) y (u ++ v) := by
  intro c folds t ho h
  obtain ⟨t₁, hrun, h₁⟩ := ha ho h
  obtain ⟨t₂, hrun', h₂⟩ := hk (show (c.write u).options = o from ho) h₁
  rw [← Column.write_append] at h₂
  exact ⟨t₂, (bind_of_ok hrun).trans hrun', h₂⟩

/-- A step that puts nothing on the printer. -/
theorem after (ha : Puts o a x []) (hk : Puts o (k x) y v) : Puts o (a >>= k) y v := ha.bind hk

/-- What is made of the result. -/
theorem map (ha : Puts o a x u) (f : α → β) : Puts o (a >>= fun x => Pure.pure (f x)) (f x) u := by
  have hpure : Puts o (Pure.pure (f x)) (f x) [] := .pure _
  have hbind := @bind _ _ o a (fun x => Pure.pure (f x)) x (f x) u [] ha hpure
  rwa [List.append_nil] at hbind

theorem lift {e : Except Fault α} (he : e = .ok x) : Puts o (Action.lift e) x [] := he ▸ .pure x

theorem currentOptions : Puts o currentOptions o [] := by
  intro c folds t ho h
  cases h with
  | @intro c p opened idle column options lead lines folds =>
    refine ⟨_, congrArg (EStateM.Result.ok · _) (options.trans ho), ?_⟩
    rw [Column.write_nil]
    exact .intro opened idle column options lead lines folds

/-- What is done whatever the device is. -/
theorem looking {k : Device → Action β} (hk : ∀ d, Puts o (k d) y v) : Puts o (device >>= k) y v :=
  fun _ _ t ho h => hk t.device ho h

theorem write (hroute : route.Straight 9) (u : Text) : Puts o (Action.write route u) () u := by
  intro c folds t ho h
  have hopened : c.closed = false := by
    cases h
    assumption
  have hcolumn : Action.write route u ⟨.column c, folds⟩ = .ok () ⟨.column (c.write u), folds⟩ := by
    have hcheck : route.folds.length + 4 ≤ route.room := (hroute.mono (by decide)).ample
    have hfold : Action.fold route u ⟨.column c, folds⟩ = .ok u ⟨.column c, folds⟩ := by
      rw [Action.fold, hroute.folds]
      rfl
    rw [Action.write, bind_of_ok (checkRoom_of_le hcheck), bind_of_ok hfold]
    exact put_column hopened _ u folds
  have hagrees : Agrees (StandsIn False) (Action.write route u ⟨.column c, folds⟩)
      (Action.write route u t) := writeValue_standsIn h (.inr hroute.ample) (.text u)
  rw [hcolumn] at hagrees
  cases hrun : Action.write route u t with
  | error e t' =>
    rw [hrun] at hagrees
    exact hagrees.elim
  | ok _ t' =>
    rw [hrun] at hagrees
    exact ⟨t', rfl, hagrees.2⟩

theorem descend {calls : Nat} {k : Route → Action α} (hroom : calls ≤ route.room)
    (hk : Puts o (k { route with room := route.room - calls }) x u) :
    Puts o (Action.descend route calls >>= k) x u := by
  unfold Action.descend
  rw [if_neg (Nat.not_lt.mpr hroom)]
  exact (Puts.pure _).after hk

/-! ## Nodes -/

theorem nil (c : Cursor) : Puts o (runNodes passes run route [] c) (c, none) [] := .pure _

theorem cons (hn : Puts o (runNode passes run route n c) (c', none) u)
    (hnodes : Puts o (runNodes passes run route nodes c') outcome v) :
    Puts o (runNodes passes run route (n :: nodes) c) outcome (u ++ v) := hn.bind hnodes

/-- The last node of a list. -/
theorem last (hn : Puts o (runNode passes run route n c) (c', none) u) :
    Puts o (runNodes passes run route [n] c) (c', none) u := by
  have hcons := hn.cons (.nil c')
  rwa [List.append_nil] at hcons

/-- The nodes that a level of nesting runs. -/
theorem level (hroom : 2 ≤ route.room) (h : Puts o (runNodes passes (runWithin passes depth)
    { route with room := route.room - 2 } nodes c) outcome u) :
    Puts o (runWithin passes (depth + 1) route nodes c) outcome u := descend hroom h

theorem text (hroute : route.Straight 9) (u : Text) (c : Cursor) :
    Puts o (runNode passes run route (.text u) c) (c, none) u := (write hroute u).map _

/-- Nodes that are nothing but text. -/
theorem plain (hroute : route.Straight 9) (h : plainText? nodes = some u)
    (c : Cursor) : Puts o (runNodes passes run route nodes c) (c, none) u := by
  fun_induction plainText? nodes generalizing u with
  | case1 =>
    obtain rfl := Option.some.inj h
    exact .nil c
  | case2 s nodes ih =>
    obtain ⟨v, hv, rfl⟩ := Option.map_eq_some_iff.mp h
    exact (text hroute s c).cons (ih hv)
  | case3 x count nodes ih =>
    obtain ⟨v, hv, rfl⟩ := Option.map_eq_some_iff.mp h
    exact Puts.cons ((write hroute (List.replicate count x)).map _) (ih hv)
  | case4 => cases h

/-! ## Directives -/

/-- A simple directive, once its settings are known. -/
theorem atom {kind : Atom} {s : List Value} (hrecursive : kind ≠ .recursive)
    (hescape : kind ≠ .escape) (hsettle : head.settle kind.defaults c = .ok (s, c'))
    (h : Puts o (runSettled route kind head s c') c'' u) :
    Puts o (runNode passes run route (.atom kind head) c) (c'', none) u := by
  have hnode : runNode passes run route (.atom kind head) c = runAtom route kind head c := by
    cases kind <;> first | rfl | exact absurd rfl hrecursive
  rw [hnode]
  refine (Puts.lift hsettle).after ?_
  cases kind <;> first | exact h.map _ | exact absurd rfl hescape

theorem aesthetic (hroute : route.Straight 11) (ho : o.enclosure = none)
    (hhead : head.parameters = []) (hnext : c.next = .ok (.text u, c')) :
    Puts o (runNode passes run route (.atom .aesthetic head) c) (c', none) u := by
  have hprint : Puts o (print route { o with escape := false } (.text u)) () u := by
    have hwrite : Puts o (Action.write { route with room := route.room - 2 } u) () u :=
      write hroute.descend u
    have hroom : 2 ≤ route.room := (hroute.mono (by decide)).room
    have hcalls : printCalls { o with escape := false } (.text u) = 2 := by
      show 2 + (if o.enclosure.isSome then 1 else 0) = 2
      rw [ho]
      rfl
    rw [print, hcalls, ho]
    exact descend hroom hwrite
  have hpadded : Puts o (printPadded route head Atom.aesthetic.defaults false (.text u)) () u := by
    refine currentOptions.after ?_
    rw [hhead]
    exact hprint
  refine atom (by decide) (by decide) (Head.settle_nil hhead _ c) ?_
  exact (Puts.lift hnext).after (hpadded.map fun _ => c')

theorem decimal (hroute : route.Straight 9) (hhead : head.parameters = [])
    (hcolon : head.colon = false) (hatSign : head.atSign = false) {n : Int}
    (hnext : c.next = .ok (.int n, c')) :
    Puts o (runNode passes run route (.atom .decimal head) c) (c', none) (Radix.decimal n) := by
  have hvalue := numberValue_decimal hcolon hatSign route.room o n
  have hwrite : Puts o (writeValue route (.text (Radix.decimal n))) () (Radix.decimal n) :=
    write hroute _
  refine atom (by decide) (by decide) (Head.settle_nil hhead _ c) ((Puts.lift hnext).after ?_)
  exact currentOptions.after ((Puts.lift hvalue).after (hwrite.map fun _ => c'))

/-- The ending of a noun for the number of things that the last argument was. -/
theorem plural (hroute : route.Straight 9) (hhead : head.parameters = [])
    (hcolon : head.colon = true) {n : Int} (hback : c.relative (.int (-1)) = .ok c')
    (hnext : c'.next = .ok (.int n, c'')) :
    Puts o (runNode passes run route (.atom .plural head) c) (c'', none)
      (pluralText head.atSign (decide (n = 1))) := by
  have hwrite := @write o route hroute (pluralText head.atSign (decide (n = 1)))
  refine atom (by decide) (by decide) (Head.settle_nil hhead _ c) ?_
  unfold runSettled
  rw [hcolon]
  refine (Puts.lift hback).after ((Puts.lift hnext).after ?_)
  exact (Puts.lift (Value.equal_integer n 1)).after (hwrite.map fun _ => c'')

/-- A tabulation by so many columns. -/
theorem tabulate (hroute : route.Straight 9) (hcolon : head.colon = false)
    (hatSign : head.atSign = true) {n : Nat} (hmemory : n < Text.memoryLimit)
    (hsettle : head.settle Atom.tabulate.defaults c = .ok ([.int n, .int 1], c')) :
    Puts o (runNode passes run route (.atom .tabulate head) c) (c', none)
      (List.replicate n ' ') := by
  have htabulate : Puts o (Action.tabulate route head [.int n, .int 1]) ()
      (List.replicate n ' ') := by
    unfold Action.tabulate
    rw [hcolon, hatSign]
    refine (Puts.pure 0).after (looking fun d => ?_)
    exact (Puts.lift (tabText_relative _ hmemory)).after (write hroute _)
  exact atom (by decide) (by decide) hsettle (htabulate.map fun _ => c')

/-- A clause that is run if the next argument is true, which it may read itself. -/
theorem ifPresent {clause : List Node} {separators : List Head} {closing : Head} {w : Value}
    (hcolon : head.colon = false) (hatSign : head.atSign = true)
    (hpeek : c.peek (.int 0) = .ok w) (htrue : w.isTrue = true)
    (hclause : Puts o (run route clause c) outcome u) :
    Puts o (runNode passes run route (.group .conditional head [clause] separators closing) c)
      outcome u := by
  show Puts o (runConditional run route head [clause] separators c) outcome u
  unfold runConditional
  rw [hcolon, hatSign]
  refine (Puts.lift hpeek).after ?_
  rw [htrue]
  exact hclause

/-- The next argument is skipped if it is not true. -/
theorem unlessPresent {clause : List Node} {separators : List Head} {closing : Head} {w : Value}
    (hcolon : head.colon = false) (hatSign : head.atSign = true)
    (hpeek : c.peek (.int 0) = .ok w) (hfalse : w.isTrue = false) (hnext : c.next = .ok (w, c')) :
    Puts o (runNode passes run route (.group .conditional head [clause] separators closing) c)
      (c', none) [] := by
  show Puts o (runConditional run route head [clause] separators c) (c', none) []
  unfold runConditional
  rw [hcolon, hatSign]
  refine (Puts.lift hpeek).after ?_
  rw [hfalse]
  exact (Puts.lift hnext).after (.pure _)

/-- One of two clauses by the truth of the next argument. -/
theorem either {no yes : List Node} {separators : List Head} {closing : Head} {w : Value}
    (hcolon : head.colon = true) (hnext : c.next = .ok (w, c'))
    (hclause : Puts o (run route (if w.isTrue then yes else no) c') outcome u) :
    Puts o (runNode passes run route (.group .conditional head [no, yes] separators closing) c)
      outcome u := by
  show Puts o (runConditional run route head [no, yes] separators c) outcome u
  unfold runConditional
  rw [hcolon]
  refine (Puts.lift hnext).after ?_
  show Puts o (run route ([no, yes].getD (if w.isTrue then 1 else 0) []) c') outcome u
  cases hw : w.isTrue <;> rw [hw] at hclause <;> exact hclause

/-- A control string among the arguments, run on the list that follows. -/
theorem recursive {w args : Value} {c₁ : Cursor} (hatSign : head.atSign = false)
    (hnext : c.next = .ok (w, c')) (hnodes : nodesOf w = .ok nodes)
    (hargs : c'.next = .ok (args, c'')) (hlist : Cursor.ofValue args none = .ok c₁)
    (hrun : Puts o (run route nodes c₁) outcome u) :
    Puts o (runNode passes run route (.atom .recursive head) c) (c'', none) u := by
  show Puts o (runRecursive run route head c) (c'', none) u
  unfold runRecursive
  refine (Puts.lift hnext).after ((Puts.lift hnodes).after ?_)
  rw [hatSign]
  exact (Puts.lift hargs).after ((Puts.lift hlist).after ((hrun.map _).map _))

end Puts

end Action

/-! ## Formatting -/

/-- **What a run puts on a printer is what formatting gives.** -/
theorem Formatter.format_of_puts {limits : Limits} {o : Options} {control u : Text}
    {nodes : List Node} {args : List Value} (hcompile : compile control = .ok nodes)
    (hneeds : Node.anyNeedsPrinter nodes = true)
    (h : ∃ outcome, Action.Puts o (Action.run limits {} nodes (.ofList args)) outcome u) :
    format limits (.text control) args o = .ok u := by
  obtain ⟨outcome, hputs⟩ := h
  let below : Column := { maxColumn := o.rightMargin, options := o }
  have hbelow : (below.write u).output = u := Column.output_write below u rfl
  obtain ⟨p, hp⟩ : ∃ p, Printer.create o none 0 = .ok p := ⟨_, rfl⟩
  obtain ⟨t, hrun, hlike⟩ := hputs rfl (standsIn_create hp)
  obtain ⟨t', hflush, houtput⟩ := Action.flush_standsIn hlike
  have hflushed : runFlushed limits p nodes (.ofList args) = (.ok outcome, u) := by
    unfold runFlushed Action.perform
    rw [hrun]
    dsimp only
    rw [hflush]
    exact congrArg (Prod.mk _) (houtput.trans hbelow)
  have happly : apply ⟨nodes⟩ limits {} (.ofList args) (sinkStream o) =
      .ok outcome ⟨.column (below.write u), #[]⟩ := by
    have hcolumn := @Action.put_column below rfl standardRoom u #[]
    show (if needsPrinter ⟨nodes⟩ then _ else _ : Action Outcome) (sinkStream o) = _
    rw [show needsPrinter ⟨nodes⟩ = true from hneeds, if_pos rfl]
    show (Action.lift (Printer.create o none 0) >>= _) (sinkStream o) = _
    rw [hp]
    show (Action.put standardRoom (runFlushed limits p nodes (.ofList args)).2 >>= fun _ =>
      Action.lift (runFlushed limits p nodes (.ofList args)).1) (sinkStream o) = _
    rw [hflushed]
    exact Action.bind_of_ok hcolumn
  have hsink : toSink ⟨nodes⟩ limits o (.ofList args) = (.ok outcome, u) := by
    unfold toSink Action.perform
    rw [happly]
    exact congrArg (Prod.mk _) hbelow
  have hsource : ofValue (.text control) = .ok ⟨nodes⟩ := ofSource_of_compile hcompile
  rw [format, hsource, ok_bind, hsink]
  rfl

end Tilde
