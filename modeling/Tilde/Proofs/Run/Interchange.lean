import Tilde.Proofs.Fold.Aloof
import Tilde.Proofs.Layout.Scroll
import Tilde.Proofs.Run.Printerless

/-!
# Any stream will do

Nodes that ask for no pretty printer run on one just as they run on a column stream: what comes of
the run is the same, and after a flush so is the text (**`Formatter.runFlushed_eq_toSink`**).

* `Stream.StandsIn`: an idle printer shows what a column stream shows;
* **`Action.Portable.agrees`**: what every stream can do keeps it so;
* `Node.nesting`: how deeply groups are nested, which bounds the calls that the run takes.
-/

namespace Tilde

/-- A printer that is idle shows what a column stream shows, and puts nothing before its lines. If
they are `endless`, no line is ever too long. -/
inductive Stream.StandsIn (endless : Prop) : Stream → Stream → Prop
  | intro {c : Column} {p : Printer} (opened : c.closed = false) (idle : p.Idle)
      (column : p.scroll.column = c) (options : p.options = c.options) (lead : p.scroll.lead = [])
      (lines : endless → c.maxColumn = none) (folds : Array Fold) :
      StandsIn endless ⟨.column c, folds⟩ ⟨.printer p, folds⟩

/-- The route has so many calls left besides one for every fold. -/
def Route.Ample (calls : Nat) (route : Route) : Prop := route.folds.length + calls ≤ route.room

open Tilde.Stream (StandsIn)
open Tilde.Route (Ample)

namespace Action

variable {α : Type} {a : Action α} {s t : Stream} {route : Route} {endless : Prop}

/-- Two outcomes agree if the results do and the streams are related, or if the faults do. -/
def Agrees (R : Stream → Stream → Prop) : EStateM.Result Fault Stream α →
    EStateM.Result Fault Stream α → Prop
  | .ok x s, .ok y t => x = y ∧ R s t
  | .error e _, .error e' _ => e = e'
  | _, _ => False

/-! ## Steps -/

theorem front_of_standsIn (h : s.StandsIn endless t) : s.device.front = t.device.front := by
  cases h with
  | @intro c p opened idle column options lead lines folds =>
    have hcolumn : p.column = c.column := by
      rw [idle.column_eq, ← column]
      rfl
    have hmax : p.base.maxColumn = c.maxColumn := by
      rw [← column]
      rfl
    show Column.mk c.column 0 c.maxColumn c.options [] false =
      ⟨p.column, 0, p.base.maxColumn, p.options, [], false⟩
    rw [hcolumn, hmax, options]

theorem agrees_of_aloof (ha : a.Aloof) (h : s.StandsIn endless t) : Agrees (StandsIn endless) (a s) (a t) := by
  cases h with
  | @intro c p opened idle column options lead lines folds =>
    obtain ⟨folds', -, ⟨x, hx⟩ | ⟨e, he⟩⟩ := ha folds
    · rw [hx, hx]
      exact ⟨rfl, .intro opened idle column options lead lines folds'⟩
    · rw [he, he]
      rfl

/-- What agrees goes on alike. -/
theorem Agrees.bind {β : Type} {R R' : Stream → Stream → Prop} {k : α → Action β}
    (ha : Agrees R (a s) (a t)) (hk : ∀ x s t, R s t → Agrees R' (k x s) (k x t)) :
    Agrees R' ((a >>= k) s) ((a >>= k) t) := by
  simp only [Bind.bind, EStateM.bind]
  cases hs : a s <;> cases ht : a t <;> rw [hs, ht] at ha
  · obtain ⟨rfl, hR⟩ := ha
    exact hk _ _ _ hR
  · cases ha
  · cases ha
  · exact ha

/-- There is room to write text to the printer. -/
theorem spacious_of_standsIn {c : Column} {p : Printer} {room : Nat} (column : p.scroll.column = c)
    (lines : endless → c.maxColumn = none) (hroom : endless ∨ layoutCalls < room) :
    Printer.Spacious { p with room := some (room - layoutCalls) } := by
  obtain hendless | hroom := hroom
  · have hmax : p.base.maxColumn = c.maxColumn := by
      rw [← column]
      rfl
    exact .inl (hmax.trans (lines hendless))
  · refine .inr fun hzero => ?_
    have := Option.some.inj hzero
    omega

/-- Text can be written to either stream. -/
theorem put_standsIn (h : s.StandsIn endless t) {room : Nat} (hroom : endless ∨ layoutCalls < room)
    (text : Text) : Agrees (StandsIn endless) (put room text s) (put room text t) := by
  cases h with
  | @intro c p opened idle column options lead lines folds =>
    have hspace := spacious_of_standsIn column lines hroom
    have hwrite := Printer.idle_write (idle.room (some (room - layoutCalls))) hspace text
    have hput : put room text ⟨.printer p, folds⟩ =
        onPrinter room (·.write text) ⟨.printer p, folds⟩ := rfl
    rw [put_column opened, hput]
    unfold onPrinter
    dsimp only
    cases hrun : { p with room := some (room - layoutCalls) }.write text with
    | error stop =>
      rw [hrun] at hwrite
      cases hwrite
    | ok q =>
      rw [hrun] at hwrite
      obtain ⟨hidle, hscroll⟩ := hwrite
      have hscroll : q.scroll = p.scroll.write text := (Except.ok.inj hscroll).symm
      have hcolumn : q.scroll.column = c.write text := by
        rw [hscroll, Scroll.write, lead, Text.led_nil, column]
      have hoptions : q.options = c.options := (congrArg Scroll.options hscroll).trans options
      have hlead : q.scroll.lead = [] := by
        rw [hscroll]
        exact lead
      exact ⟨rfl, .intro (c := c.write text) opened hidle hcolumn hoptions hlead lines folds⟩

theorem putValue_standsIn (h : s.StandsIn endless t) {room : Nat}
    (hroom : endless ∨ layoutCalls < room) (v : Value) :
    Agrees (StandsIn endless) (putValue room v s) (putValue room v t) := by
  cases v with
  | text text => exact put_standsIn h hroom text
  | _ =>
    cases h with
    | @intro c p opened idle column options lead lines folds =>
      have hcheck : checkOpen ⟨.printer p, folds⟩ = .ok () ⟨.printer p, folds⟩ := by
        show (if p.closed then throw .closedStream else pure () : Action Unit) _ = _
        rw [idle.opened]
        rfl
      show Agrees (StandsIn endless) (.error _ _) ((checkOpen >>= fun _ => throw _) _)
      rw [bind_of_ok hcheck]
      rfl

theorem writeValue_standsIn (h : s.StandsIn endless t) (hroute : endless ∨ route.Ample 9)
    (v : Value) : Agrees (StandsIn endless) (writeValue route v s) (writeValue route v t) := by
  have hroom : endless ∨ layoutCalls < route.room - route.folds.length := by
    refine hroute.imp_right fun hroute => ?_
    unfold Route.Ample at hroute
    unfold layoutCalls
    omega
  have hcheck := agrees_of_aloof (.checkRoom route 4) h
  cases v with
  | text text =>
    refine hcheck.bind fun _ s t h => (agrees_of_aloof (.fold route text) h).bind fun u s t h => ?_
    exact put_standsIn h hroom u
  | _ =>
    refine hcheck.bind fun _ s t h => (agrees_of_aloof (.foldValues route _) h).bind fun w s t h => ?_
    exact putValue_standsIn h hroom w

theorem endLine_standsIn (h : s.StandsIn endless t) (hroute : endless ∨ route.Ample 9) :
    Agrees (StandsIn endless) (endLine route s) (endLine route t) := by
  have hroom : endless ∨ layoutCalls < route.room := by
    refine hroute.imp_right fun hroute => ?_
    unfold Route.Ample at hroute
    unfold layoutCalls
    omega
  exact (agrees_of_aloof (.checkRoom route 2) h).bind fun _ s t h => put_standsIn h hroom ['\n']

/-- A flush puts out all that the column stream shows. -/
theorem flush_standsIn (h : s.StandsIn endless t) :
    ∃ t', flush {} t = .ok () t' ∧ t'.device.output = s.device.output := by
  cases h with
  | @intro c p opened idle column options lead lines folds =>
    have hspace : Printer.Spacious { p with room := some (standardRoom - layoutCalls) } :=
      spacious_of_standsIn column lines (.inr (by decide))
    obtain ⟨q, hflush, -, -, hbase⟩ := Printer.idle_flush (idle.room _) hspace
    refine ⟨⟨.printer q, folds⟩, ?_, ?_⟩
    · show onPrinter standardRoom (·.flush) ⟨.printer p, folds⟩ = _
      unfold onPrinter
      dsimp only
      rw [hflush]
    · show q.base.output = c.output
      rw [hbase, ← column]
      rfl

/-- **What every stream can do comes to the same on a printer that stands in.** -/
theorem Portable.agrees {ok : Route → Prop} (ha : Portable ok a)
    (hok : ∀ route, ok route → endless ∨ route.Ample 9) (h : s.StandsIn endless t) :
    Agrees (StandsIn endless) (a s) (a t) := by
  induction ha generalizing s t with
  | pure x => exact ⟨rfl, h⟩
  | throw e => rfl
  | bind _ _ iha ihk => exact (iha h).bind fun x s t h => ihk x h
  | @look α k hk hfront ih =>
    show Agrees (StandsIn endless) (k s.device s) (k t.device t)
    rw [hfront t.device, ← front_of_standsIn h, ← hfront]
    exact ih s.device h
  | newFold mode => exact agrees_of_aloof (.newFold mode) h
  | write hroute v => exact writeValue_standsIn h (hok _ hroute) v
  | endLine hroute => exact endLine_standsIn h (hok _ hroute)

/-- A column stream refuses what only printers can do, and a printer in its place does not. -/
theorem not_portable_of_onPrinter {a : Action Unit} {room : Nat} {f : Printer → Except Printer.Stop Printer}
    (ha : ∀ s, a s = onPrinter room f s)
    (hf : ∀ p : Printer, p.Idle → p.scroll.depth = 0 → p.base.maxColumn = none →
      ∀ stop, f p = .error stop → stop.fault ≠ .unsupported) :
    ¬Portable (fun _ => True) a := by
  intro hportable
  obtain ⟨p, -, hidle, hscroll⟩ := Printer.idle_create { rightMargin := none } 0
  let c : Column := { options := { rightMargin := none } }
  have hstart : Stream.StandsIn True ⟨.column c, #[]⟩ ⟨.printer p, #[]⟩ :=
    .intro (c := c) rfl hidle (by rw [hscroll]) (congrArg Scroll.options hscroll)
      (by rw [hscroll]; rfl) (fun _ => rfl) #[]
  have hagrees := hportable.agrees (fun _ _ => .inl trivial) hstart
  have hmax : p.base.maxColumn = none := congrArg (·.column.maxColumn) hscroll
  have hdepth : p.scroll.depth = 0 := by
    rw [hscroll]
    rfl
  have hprinter := hf { p with room := some (room - layoutCalls) } (hidle.room _) hdepth hmax
  rw [ha, ha] at hagrees
  unfold onPrinter at hagrees
  dsimp only at hagrees
  cases hrun : f { p with room := some (room - layoutCalls) } with
  | ok q =>
    rw [hrun] at hagrees
    exact hagrees
  | error stop =>
    rw [hrun] at hagrees
    exact hprinter stop hrun (Eq.symm hagrees)

/-- **What only printers can do is not portable.** -/
theorem not_portable {room : Nat} (hroom : 5 ≤ room) :
    (∀ kind, ¬Portable (fun _ => True) (newline { room := room } kind)) ∧
      (∀ n relative, ¬Portable (fun _ => True) (indent { room := room } (.int n) relative)) ∧
      (∀ opening closing,
        ¬Portable (fun _ => True) (begin { room := room } opening [] closing none)) ∧
      ¬Portable (fun _ => True) (finish { room := room }) := by
  have hcheck {calls : Nat} (hcalls : calls ≤ 5) (s : Stream) :
      checkRoom { room := room } calls s = .ok () s := by
    refine checkRoom_of_le ?_
    show 0 + calls ≤ room
    omega
  refine ⟨fun kind => ?_, fun n relative => ?_, fun opening closing => ?_, ?_⟩
  · refine not_portable_of_onPrinter (fun s => bind_of_ok (hcheck (by decide) s)) ?_
    intro p hidle _ hmax stop hstop
    obtain ⟨q, hnewline⟩ := Printer.idle_newline hidle hmax kind
    rw [show p.newline kind = .error stop from hstop] at hnewline
    cases hnewline
  · refine not_portable_of_onPrinter (fun s => bind_of_ok (hcheck (by decide) s)) ?_
    intro p hidle _ hmax stop hstop
    have hindent := Printer.idle_indent hidle (some (.integer n)) relative
    rw [show p.indent (some (.integer n)) relative = .error stop from hstop] at hindent
    cases hindent
  · refine not_portable_of_onPrinter (f := (·.begin opening [] closing none))
      (fun s => bind_of_ok (hcheck (by decide) s)) ?_
    intro p hidle _ hmax stop hstop
    have hbegin := Printer.idle_begin hidle opening [] closing none
    rw [show p.begin opening [] closing none = .error stop from hstop] at hbegin
    cases hbegin
  · refine not_portable_of_onPrinter (fun s => bind_of_ok (hcheck (by decide) s)) ?_
    intro p hidle hdepth hmax stop hstop
    have hfinish := Printer.idle_finish hidle
    rw [if_pos hdepth, show p.finish = .error stop from hstop] at hfinish
    cases hfinish
    exact nofun

end Action

/-! ## Depth -/

namespace Node

mutual

/-- How many groups are nested inside each other at most. -/
def nesting : Node → Nat
  | .group _ _ clauses _ _ => nestingOfClauses clauses + 1
  | _ => 0

/-- How many groups are nested inside each other in the clauses. -/
def nestingOfClauses : List (List Node) → Nat
  | [] => 0
  | clause :: clauses => max (nestingOfAll clause) (nestingOfClauses clauses)

/-- How many groups are nested inside each other in the nodes. -/
def nestingOfAll : List Node → Nat
  | [] => 0
  | n :: ns => max n.nesting (nestingOfAll ns)

end

variable {n : Node} {nodes : List Node} {clauses : List (List Node)}

theorem nesting_le (h : n ∈ nodes) : n.nesting ≤ nestingOfAll nodes := by
  induction nodes with
  | nil => cases h
  | cons m nodes ih =>
    rw [nestingOfAll]
    rcases List.mem_cons.mp h with rfl | h
    · exact Nat.le_max_left _ _
    · exact (ih h).trans (Nat.le_max_right _ _)

theorem nesting_lt {kind : Group} {head closing : Head} {separators : List Head}
    {clause : List Node} (hclause : clause ∈ clauses) (h : n ∈ clause) :
    n.nesting < (group kind head clauses separators closing).nesting := by
  rw [nesting, Nat.lt_succ_iff]
  refine (nesting_le h).trans ?_
  induction clauses with
  | nil => cases hclause
  | cons clause' clauses ih =>
    rw [nestingOfClauses]
    rcases List.mem_cons.mp hclause with rfl | hclause
    · exact Nat.le_max_left _ _
    · exact (ih hclause).trans (Nat.le_max_right _ _)

end Node

namespace Action

variable {passes depth k : Nat} {route : Route} {nodes : List Node} {c : Cursor}

/-- The calls that are left besides those of the nodes are enough for every stream. -/
theorem portable_runWithin (hnodes : ∀ n ∈ nodes, n.Printerless ∧ n.nesting < k)
    (hroute : route.Ample (3 * k + 8)) :
    Portable (Ample 9) (runWithin passes depth route nodes c) := by
  induction depth generalizing k route nodes c with
  | zero => exact .throw _
  | succ depth ih =>
    unfold Route.Ample at hroute
    show Portable (Ample 9) (descend route 2 >>= fun route' => runNodes passes _ route' nodes c)
    unfold descend
    rw [if_neg (by omega), pure_bind]
    cases k with
    | zero =>
      obtain rfl : nodes = [] := List.eq_nil_iff_forall_not_mem.mpr fun n hn =>
        Nat.not_lt_zero _ (hnodes n hn).2
      exact .pure (c, none)
    | succ k =>
      have hrun : Ports (Ample 9) (Ample (3 * k + 8)) (fun n => n.Printerless ∧ n.nesting < k)
          (runWithin passes depth) := fun route nodes c hroute hnodes => ih hnodes hroute
      refine portable_runNodes hrun ?_ ?_ (fun i => ?_) (fun n hn => (hnodes n hn).1.needsPrinter)
        fun n hn => ?_
      · show route.folds.length + 9 ≤ route.room - 2
        omega
      · show route.folds.length + (3 * k + 8) ≤ route.room - 2
        omega
      · show route.folds.length + 1 + (3 * k + 8) ≤ route.room - 2
        omega
      · obtain ⟨hprinterless, hnesting⟩ := hnodes n hn
        cases n with
        | group kind head clauses separators closing =>
          refine ⟨fun clause hclause m hm => ⟨hprinterless.inner clause hclause m hm, ?_⟩, ?_⟩
          · have hinside : m.nesting < (Node.group kind head clauses separators closing).nesting :=
              Node.nesting_lt hclause hm
            omega
          · rintro rfl hempty
            exact absurd hempty hprinterless.headD_ne_nil
        | _ => trivial

end Action

/-! ## Formatters -/

namespace Formatter

open Tilde.Action (Portable Agrees perform)

variable {source : Value} {f : Formatter} {limits : Limits}

theorem toSink_of_needsPrinter (h : f.needsPrinter = false) (limits : Limits) (o : Options)
    (c : Cursor) :
    f.toSink limits o c = ((perform (Action.run limits {} f.nodes c) (sinkStream o)).1,
      (perform (Action.run limits {} f.nodes c) (sinkStream o)).2.device.output) := by
  have happly : f.apply limits {} c (sinkStream o) = Action.run limits {} f.nodes c (sinkStream o) := by
    show (if f.needsPrinter then _ else Action.run limits {} f.nodes c : Action Outcome) _ = _
    rw [h]
    rfl
  unfold toSink perform
  rw [happly]

/-- A printer that has just been created stands in for an empty sink. -/
theorem standsIn_create {o : Options} {p : Printer} (hp : Printer.create o none 0 = .ok p) :
    (sinkStream o).StandsIn False { device := .printer p } := by
  obtain ⟨q, hq, hidle, hscroll⟩ := Printer.idle_create o 0
  obtain rfl : q = p := Except.ok.inj (hq.symm.trans hp)
  exact .intro (c := { maxColumn := o.rightMargin, options := o }) rfl hidle (by rw [hscroll])
    (congrArg Scroll.options hscroll) (by rw [hscroll]; rfl) False.elim #[]

/-- With calls enough for groups that are nested so deeply, the run is portable. -/
theorem portable_run (hf : ofSource source = .ok f) (h : f.needsPrinter = false)
    (hdepth : 3 * Node.nestingOfAll f.nodes + 11 ≤ limits.depth) (c : Cursor) :
    Portable (Ample 9) (Action.run limits {} f.nodes c) := by
  refine Action.portable_runWithin (k := Node.nestingOfAll f.nodes + 1) (fun n hn => ?_) ?_
  · exact ⟨printerless hf h n hn, Nat.lt_succ_of_le (Node.nesting_le hn)⟩
  · show 0 + (3 * (Node.nestingOfAll f.nodes + 1) + 8) ≤ limits.depth
    omega

end Formatter

end Tilde
