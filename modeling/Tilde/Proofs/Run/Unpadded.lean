import Tilde.Proofs.Directive.Respelled
import Tilde.Proofs.Run.Inlined

/-!
# Padding that is not asked for

A directive that prints a value in a field makes a text of it first, on a printer of its own, and one
without parameters prints it to the stream at once. Where no padding is asked for, either comes to the
same, in whatever a control string puts around it, if blocks may be nested at any depth and no
conditional newline is taken. The text has to be printed somewhere else, which takes a few more calls.

* `Beside`: idle printers on which the same has been written;
* **`tandem_beside`**: printing a value and writing it as a text come to the same on them;
* `Node.Unbroken`: nodes that take no conditional newline;
* **`Formatter.toSink_of_alike`**: runs of nodes that are alike but for such zeros come to the same;
* **`Formatter.format_respelled`**: so do control strings that are;
* `Formatter.exists_format_respelled_ne`: with a limit on depth they may not.
-/

namespace Tilde

open Tilde.Action (Mirrored Leads Utters Mute)
open Tilde.Stream (Wrote)

/-- The same has been written to two printers, which are idle and the second one of which has some room,
or there is one column stream. The folds are the same, and there are so many at least. -/
inductive Beside : Bool → Nat → Stream → Stream → Prop
  | printers {k : Nat} {p q : Printer} {folds : Array Fold} (idle : p.Idle) (idle' : q.Idle)
    (spacious : q.Spacious) (scroll : q.scroll = p.scroll) (plain : p.scroll.options.Plain)
    (enough : k ≤ folds.size) : Beside true k ⟨.printer p, folds⟩ ⟨.printer q, folds⟩
  | column {k : Nat} {c : Column} {folds : Array Fold} (plain : c.options.Plain)
    (enough : k ≤ folds.size) : Beside false k ⟨.column c, folds⟩ ⟨.column c, folds⟩

/-- The routes pass the same folds, no one twice, and all of them among the first so many. The second
route has so much more room that it does not matter on which of them the folds are passed. -/
structure Outlasts (k : Nat) (r r' : Route) : Prop where
  folds : r'.folds = r.folds
  nodup : r.folds.Nodup
  bound : ∀ i ∈ r.folds, i < k
  room : 3 * r.room + 2 * r.folds.length + 42 ≤ 2 * r'.room

/-- The same before a call, for which the first route may have no room. -/
structure MayOutlast (k : Nat) (r r' : Route) : Prop where
  folds : r'.folds = r.folds
  nodup : r.folds.Nodup
  bound : ∀ i ∈ r.folds, i < k
  room : 2 ≤ r.room → 3 * r.room + 2 * r.folds.length + 40 ≤ 2 * r'.room

namespace Beside

variable {lays : Bool} {k k' : Nat} {s t : Stream}

theorem unharmed (h : Beside lays k s t) : s.Unharmed := by
  cases h with
  | printers idle => exact Stream.unharmed_printer idle.unharmed _
  | column => exact Stream.unharmed_column _ _

theorem front (h : Beside lays k s t) : t.device.front = s.device.front := by
  cases h with
  | @printers _ p q folds idle idle' spacious scroll =>
    have hcolumn : q.column = p.column := by
      rw [idle.column_eq, idle'.column_eq]
      exact congrArg (fun x : Scroll => x.column.column) scroll
    have hmax : q.base.maxColumn = p.base.maxColumn :=
      congrArg (fun x : Scroll => x.column.maxColumn) scroll
    have hoptions : q.options = p.options := congrArg Scroll.options scroll
    show Column.mk q.column 0 q.base.maxColumn q.options [] false =
      ⟨p.column, 0, p.base.maxColumn, p.options, [], false⟩
    rw [hcolumn, hmax, hoptions]
  | column => rfl

theorem mono (h : Beside lays k s t) (hk : k' ≤ k) : Beside lays k' s t := by
  cases h with
  | printers idle idle' spacious scroll plain enough =>
    exact .printers idle idle' spacious scroll plain (hk.trans enough)
  | column plain enough => exact .column plain (hk.trans enough)

theorem size_le (h : Beside lays k s t) : k ≤ s.folds.size := by
  cases h with
  | printers _ _ _ _ _ enough => exact enough
  | column _ enough => exact enough

/-- They stand so with another fold. -/
theorem push (h : Beside lays k s t) (fold : Tilde.Fold) :
    Beside lays (s.folds.size + 1) { s with folds := s.folds.push fold }
      { t with folds := t.folds.push fold } := by
  cases h with
  | printers idle idle' spacious scroll plain =>
    exact .printers idle idle' spacious scroll plain (Array.size_push fold).ge
  | column plain => exact .column plain (Array.size_push fold).ge

/-- Flushed, they have put out the same. -/
theorem flushed (h : Beside lays k s t) : Leads Eq s.flushedOutput t.flushedOutput := by
  cases h with
  | @printers _ p q folds idle idle' spacious scroll =>
    have hspares := Printer.spares_flush idle.unharmed
    obtain ⟨q', hflush', -, -, hbase'⟩ := Printer.idle_flush idle' spacious
    unfold Stream.flushedOutput
    dsimp only
    rw [hflush']
    cases hflush : p.flush with
    | error stop =>
      rw [hflush] at hspares
      exact .inl hspares.1
    | ok p' =>
      show p'.base.output = q'.base.output
      rw [Action.base_of_flush idle hflush, hbase']
      exact (congrArg (fun x : Scroll => x.column.output) scroll).symm
  | column => exact .refl _

end Beside

theorem Operation.Scrolls.options {op : Operation} {f : Scroll → Except Fault Scroll} (hop : op.Scrolls f)
    {x y : Scroll} (h : f x = .ok y) : y.options = x.options := by
  cases hop with
  | write t =>
    cases h
    rfl
  | begin opening perLine closing =>
    unfold Scroll.begin at h
    cases hlead : Printer.leadBelow x.lead perLine (x.column.write opening).column with
    | error e => simp [hlead, bind, Except.bind] at h
    | ok lead =>
      simp only [hlead, bind, Except.bind] at h
      cases h
      rfl
  | finish =>
    dsimp only at h
    split_ifs at h
    cases h
    rfl
  | indent offset relative =>
    unfold Scroll.indent Except.map at h
    cases offset with
    | none => cases h
    | some n =>
      dsimp only at h
      split at h <;> cases h
      rfl

namespace Action

variable {lays : Bool} {k : Nat} {r r' : Route}

/-! ## Steps -/

/-- What is done to a scroll is done to both. -/
theorem mirrored_operation {op : Operation} {f : Scroll → Except Fault Scroll} (hop : op.Scrolls f)
    (hspares : ∀ p : Printer, p.stopped = none → Printer.Spares (fun e => e.isFatal = true) (op.run p))
    (room : Nat) {room' : Nat} (hroom : layoutCalls < room') :
    Mirrored (Beside lays k) Eq (onPrinter room fun p => op.run p) (onPrinter room' fun p => op.run p) := by
  intro s t h
  have honPrinter : (onPrinter room fun p => op.run p).Spares fun e => e.isFatal = true := .onPrinter rfl hspares
  have hfails := honPrinter s h.unharmed
  cases hrun : onPrinter room (fun p => op.run p) s with
  | error e s' =>
    rw [hrun] at hfails
    exact .inl hfails
  | ok _ s' =>
    cases h with
    | column => cases hrun
    | @printers _ p q folds idle idle' spacious scroll plain enough =>
      obtain ⟨p', rfl, hidle, hscroll⟩ := ok_of_onPrinter hop idle hrun
      obtain ⟨q', hq', hidle', hspace', hscroll'⟩ := onPrinter_eq_ok hop idle' hroom (scroll ▸ hscroll) folds
      rw [hq']
      have hplain : p'.scroll.options.Plain := (hop.options hscroll) ▸ plain
      exact ⟨rfl, .printers hidle hidle' hspace' hscroll' hplain enough⟩

/-- What leaves the device alone comes to the same. -/
theorem mirrored_aloof {α : Type} {a : Action α} (ha : a.Aloof) : Mirrored (Beside lays k) Eq a a := by
  have hfolds {d d' : Device} {folds : Array Fold}
      (hbeside : ∀ folds', folds.size ≤ folds'.size → Beside lays k ⟨d, folds'⟩ ⟨d', folds'⟩) :
      Followed (Beside lays k) Eq (a ⟨d, folds⟩) (a ⟨d', folds⟩) := by
    obtain ⟨folds', hsize, ⟨x, hx⟩ | ⟨e, he⟩⟩ := ha folds
    · rw [hx, hx]
      exact ⟨rfl, hbeside folds' hsize⟩
    · rw [he, he]
      exact .inr ⟨_, rfl, hbeside folds' hsize⟩
  intro s t h
  cases h with
  | printers idle idle' spacious scroll plain enough =>
    exact hfolds fun _ hsize => .printers idle idle' spacious scroll plain (enough.trans hsize)
  | column plain enough => exact hfolds fun _ hsize => .column plain (enough.trans hsize)

theorem mirrored_checkRoom (h : Outlasts k r r') (calls : Nat) :
    Mirrored (Beside lays k) Eq (checkRoom r calls) (checkRoom r' calls) := by
  obtain ⟨hfolds, -, -, hroom⟩ := h
  unfold checkRoom
  by_cases hdeep : r.room < r.folds.length + calls
  · rw [if_pos hdeep]
    exact .fatal (fun _ _ => Beside.unharmed) rfl
  · rw [if_neg hdeep, if_neg (by rw [hfolds]; omega)]
    exact .pure rfl

theorem mirrored_put {room room' : Nat} (hroom : layoutCalls < room') (text : Text) :
    Mirrored (Beside lays k) Eq (put room text) (put room' text) := by
  intro s t h
  cases h with
  | printers idle idle' spacious scroll plain enough =>
    exact mirrored_operation (.write text) (fun p hp => Printer.spares_write hp text) room hroom _ _
      (.printers idle idle' spacious scroll plain enough)
  | @column _ c folds plain enough =>
    show Followed _ _ ((if c.closed then throw .closedSink else pure () : Action Unit)
      ⟨.column (c.write text), folds⟩) ((if c.closed then throw .closedSink else pure () : Action Unit)
      ⟨.column (c.write text), folds⟩)
    split_ifs
    · exact .inl ⟨rfl, Stream.unharmed_column _ _⟩
    · exact ⟨rfl, .column plain enough⟩

theorem layoutCalls_lt (h : Outlasts k r r') :
    layoutCalls < r'.room - r'.folds.length := by
  obtain ⟨hfolds, -, -, hroom⟩ := h
  rw [hfolds]
  unfold layoutCalls
  omega

theorem mirrored_putValue {room room' : Nat} (hroom : layoutCalls < room') (v : Value) :
    Mirrored (Beside lays k) Eq (putValue room v) (putValue room' v) := by
  have hcheck {p : Printer} (hp : p.Idle) (folds : Array Fold) :
      checkOpen ⟨.printer p, folds⟩ = .ok () ⟨.printer p, folds⟩ := by
    show (if p.closed then throw .closedStream else pure () : Action Unit) _ = _
    rw [hp.opened]
    rfl
  cases v with
  | text text => exact mirrored_put hroom text
  | _ =>
    intro s t h
    cases h with
    | @printers _ p q folds idle idle' spacious scroll plain enough =>
      show Followed _ _ ((checkOpen >>= fun _ => throw _ : Action Unit) _)
        ((checkOpen >>= fun _ => throw _ : Action Unit) _)
      rw [bind_of_ok (hcheck idle folds), bind_of_ok (hcheck idle' folds)]
      exact .inr ⟨_, rfl, .printers idle idle' spacious scroll plain enough⟩
    | column plain enough => exact .inr ⟨_, rfl, .column plain enough⟩

theorem mirrored_writeValue (h : Outlasts k r r') (v : Value) :
    Mirrored (Beside lays k) Eq (writeValue r v) (writeValue r' v) := by
  have hput := layoutCalls_lt h
  have hcheck := @mirrored_checkRoom lays _ _ _ h 4
  cases v with
  | text text =>
    refine hcheck.bind_eq fun _ => ?_
    unfold fold
    rw [h.folds] at hput ⊢
    exact (mirrored_aloof (.foldlM (fun text i => .foldOnce i text) r.folds text)).bind_eq fun t =>
      mirrored_put hput t
  | _ =>
    refine hcheck.bind_eq fun _ => ?_
    rw [h.folds] at hput ⊢
    exact (mirrored_aloof (.foldlM (fun v i => .foldValue i v) r.folds _)).bind_eq fun v =>
      mirrored_putValue hput v

theorem mirrored_endLine (h : Outlasts k r r') :
    Mirrored (Beside lays k) Eq (endLine r) (endLine r') :=
  (mirrored_checkRoom h 2).bind_eq fun _ =>
    mirrored_put (Nat.lt_of_lt_of_le (layoutCalls_lt h) (Nat.sub_le _ _)) _

theorem mirrored_indent (h : Outlasts k r r') (offset : Value) (relative : Bool) :
    Mirrored (Beside lays k) Eq (indent r offset relative) (indent r' offset relative) :=
  (mirrored_checkRoom h 2).bind_eq fun _ =>
    mirrored_operation (.indent offset.number? relative) (fun _ hp => Printer.spares_indent hp _ relative) _
      (Nat.lt_of_lt_of_le (layoutCalls_lt h) (Nat.sub_le _ _))

theorem mirrored_blockStart : Mirrored (Beside lays k) Eq blockStart blockStart := by
  intro s t h
  cases h with
  | @printers _ p q folds idle idle' spacious scroll plain enough =>
    have hstart {p : Printer} (hp : p.Idle) :
        (p.block p.current).startColumn = (p.scroll.margins.headD {}).startColumn := by
      rw [Printer.margins_of_idle hp]
      rfl
    refine ⟨?_, .printers idle idle' spacious scroll plain enough⟩
    show (p.block p.current).startColumn = (q.block q.current).startColumn
    rw [hstart idle, hstart idle', scroll]
  | column plain enough => exact .inl ⟨rfl, Stream.unharmed_column _ _⟩

/-! ## Blocks -/

theorem mirrored_begin (h : Outlasts k r r') (opening perLine closing : Text) :
    Mirrored (Beside lays k) Eq (begin r opening perLine closing none)
      (begin r' opening perLine closing none) := by
  have hput := layoutCalls_lt h
  refine (mirrored_checkRoom h 5).bind_eq fun _ => ?_
  rw [h.folds] at hput ⊢
  refine (mirrored_aloof (.foldlM (fun x i => ?_) r.folds (perLine, opening))).bind_eq fun x => ?_
  · exact .bind (.foldOnce i x.1) fun _ => .bind (.foldOnce i x.2) fun _ => .pure _
  · exact mirrored_operation (.begin x.2 x.1 closing)
      (fun _ hp => Printer.spares_stroke hp (.begin x.2 x.1 closing)) _ hput

theorem mirrored_enter (h : Outlasts k r r') (opening perLine closing : Text) :
    Mirrored (Beside lays k) Eq (enter r none opening perLine closing)
      (enter r' none opening perLine closing) := by
  intro s t hs
  have hfails := @Spares.enter r none opening perLine closing s hs.unharmed
  cases hrun : enter r none opening perLine closing s with
  | error e s' =>
    rw [hrun] at hfails
    exact .inl hfails
  | ok begun s' =>
    cases hs with
    | column => cases hrun
    | @printers _ p q folds idle idle' spacious scroll plain enough =>
      have hbegin := mirrored_begin h opening perLine closing _ _
        (.printers idle idle' spacious scroll plain enough)
      have hstarts : (begin r opening perLine closing none).Spares fun e => e.isFatal = true :=
        .begin (fun _ => id) fun p opening perLine hp => Printer.spares_stroke hp (.begin opening perLine closing)
      have hstarts := hstarts _ (Stream.unharmed_printer idle.unharmed folds)
      rw [enter_eq, if_neg (by simp [idle.opened])] at hrun
      rw [enter_eq, if_neg (by simp [idle'.opened])]
      cases hbegun : begin r opening perLine closing none ⟨.printer p, folds⟩ with
      | ok _ s₁ =>
        rw [hbegun] at hbegin hrun
        cases hrun
        cases hbegun' : begin r' opening perLine closing none ⟨.printer q, folds⟩ <;>
          rw [hbegun'] at hbegin
        · exact ⟨rfl, hbegin.2⟩
        · exact hbegin.elim
      | error e s₁ =>
        rw [hbegun] at hstarts hrun
        cases e with
        | levelExceeded d => cases hstarts.1
        | _ => cases hrun

theorem mirrored_foldClosing (i : Nat) : Mirrored (Beside lays k) Eq (foldClosing i) (foldClosing i) := by
  intro s t hs
  cases hs with
  | column => exact .inl ⟨rfl, Stream.unharmed_column _ _⟩
  | @printers _ p q folds idle idle' spacious scroll plain enough =>
    have hclosing : (q.block q.current).closing = (p.block p.current).closing := by
      rw [idle.closing_eq, idle'.closing_eq, scroll]
    obtain ⟨hidle, hscroll⟩ := Printer.idle_reclose idle (Tilde.pass folds i (p.block p.current).closing).2
    obtain ⟨hidle', hscroll'⟩ := Printer.idle_reclose idle' (Tilde.pass folds i (p.block p.current).closing).2
    rw [foldClosing_eq, foldClosing_eq, hclosing]
    refine ⟨rfl, .printers hidle hidle' spacious ?_ ?_ ?_⟩
    · rw [hscroll, hscroll', scroll]
    · exact plain
    · rwa [size_pass]

theorem mirrored_finish (h : Outlasts k r r') :
    Mirrored (Beside lays k) Eq (finish r) (finish r') := by
  have hput := layoutCalls_lt h
  have hclosings (is : List Nat) : Mirrored (Beside lays k) Eq (is.forM foldClosing) (is.forM foldClosing) := by
    induction is with
    | nil => exact .pure rfl
    | cons i is ih => exact (mirrored_foldClosing i).bind_eq fun _ => ih
  refine (mirrored_checkRoom h 4).bind_eq fun _ => ?_
  rw [h.folds] at hput ⊢
  exact (hclosings _).bind_eq fun _ =>
    mirrored_operation .finish (fun _ hp => Printer.spares_finish hp) _ hput

/-! ## Values -/

/-- The same text has been written to both. -/
theorem followed_of_wrote {k : Nat} {s t s' : Stream} {r : Route} {text : Text} {b : Action Unit}
    {q : Printer} {folds : Array Fold} (h : Beside true k s t) (hs : Wrote r.folds text s s')
    (ht : Wrote r.folds text t ⟨.printer q, folds⟩) (hspace : q.Spacious)
    (hrun : b t = .ok () ⟨.printer q, folds⟩) : Followed (Beside true k) Eq (.ok () s') (b t) := by
  rw [hrun]
  refine ⟨rfl, ?_⟩
  cases h with
  | printers idle idle' spacious scroll plain enough =>
    cases hs with
    | intro hidle hscroll =>
      generalize ht' : Stream.mk (.printer q) folds = t' at ht
      cases ht with
      | intro hidle' hscroll' =>
        cases ht'
        refine .printers hidle hidle' hspace ?_ ?_ ?_
        · rw [hscroll, hscroll', scroll]
        · rw [hscroll]
          exact plain
        · rwa [size_passAll]

variable {o : Options}

/-- **To print a value** comes to writing the text of it. -/
theorem mirrored_printed (h : Outlasts k r r') (ho : o.Plain) (v : Value) :
    Mirrored (Beside true k) Eq (print r o v) (lift (v.toText r'.room o) >>= write r') := by
  intro s t hs
  have hspeaks := speaks_print ho v
  have hfails := hspeaks.spares r s hs.unharmed
  cases hrun : print r o v s with
  | error e s' =>
    rw [hrun] at hfails
    exact .inl hfails
  | ok _ s' =>
    obtain ⟨hfolds, hnodup, -, hroom⟩ := h
    have hbeside := hs
    cases hs with
    | @printers _ p q folds idle idle' spacious scroll plain enough =>
      obtain ⟨calls, text, hutters⟩ | hmute := hspeaks.utters
      · obtain ⟨hcalls, hwrote⟩ := hutters.said idle hnodup hrun
        have hwrite := Utters.write text
        have htext : v.toText r'.room o = .ok text := hutters.toText_eq (by omega)
        obtain ⟨q', folds', hrun', hspace⟩ := hwrite.ample (r := r') idle' spacious (hfolds ▸ hnodup)
          (by rw [hfolds]; omega) folds
        obtain ⟨-, hwrote'⟩ := hwrite.said idle' (hfolds ▸ hnodup) hrun'
        rw [htext]
        exact followed_of_wrote hbeside hwrote (hfolds ▸ hwrote') hspace hrun'
      · exact absurd hrun (hmute idle hnodup)

/-- **To write the text of a value** comes to printing it. -/
theorem mirrored_written (h : Outlasts k r r') (ho : o.Plain) (v : Value) :
    Mirrored (Beside true k) Eq (lift (v.toText r.room o) >>= write r) (print r' o v) := by
  intro s t hs
  obtain ⟨hfolds, hnodup, -, hroom⟩ := h
  have hspeaks := speaks_print ho v
  have hbeside := hs
  cases htext : v.toText r.room o with
  | error e => exact .inl ⟨isFatal_toText ho htext, hs.unharmed⟩
  | ok text =>
    show Followed _ _ (write r text s) _
    have hfails := Spares.write r text s hs.unharmed
    cases hrun : write r text s with
    | error e s' =>
      rw [hrun] at hfails
      exact .inl hfails
    | ok _ s' =>
      cases hs with
      | @printers _ p q folds idle idle' spacious scroll plain enough =>
        obtain ⟨-, hwrote⟩ := (Utters.write text).said idle hnodup hrun
        obtain ⟨calls, text', hutters⟩ | hmute := hspeaks.utters
        · obtain ⟨rfl, hcalls⟩ := hutters.of_toText htext
          obtain ⟨q', folds', hrun', hspace⟩ := hutters.ample (r := r') idle' spacious (hfolds ▸ hnodup)
            (by rw [hfolds]; omega) folds
          obtain ⟨-, hwrote'⟩ := hutters.said idle' (hfolds ▸ hnodup) hrun'
          exact followed_of_wrote hbeside hwrote (hfolds ▸ hwrote') hspace hrun'
        · exact absurd htext hmute.toText_ne

end Action

/-! ## Runs -/

/-- **Idle printers** on which the same has been written will do, along routes of which the second has so
much more room. -/
theorem tandem_beside : Tandem Beside MayOutlast Outlasts False True where
  unharmed := Beside.unharmed
  front := Beside.front
  plain h := by
    cases h with
    | printers _ _ _ _ plain => exact .inr plain
    | column plain => exact .inr plain
  newFold := by
    intro lays k s t r r' hs hr mode
    have hsize : k ≤ s.folds.size := hs.size_le
    have hnew : s.folds.size ∉ r.folds := fun hi => absurd (hr.bound _ hi) (Nat.not_lt.mpr hsize)
    have hroutes : MayOutlast (s.folds.size + 1) { r with folds := s.folds.size :: r.folds }
        { r' with folds := s.folds.size :: r'.folds } := by
      refine ⟨congrArg (s.folds.size :: ·) hr.folds, List.nodup_cons.mpr ⟨hnew, hr.nodup⟩, ?_, fun _ => ?_⟩
      · refine List.forall_mem_cons.mpr ⟨Nat.lt_succ_self _, fun i hi => ?_⟩
        exact Nat.lt_succ_of_lt (Nat.lt_of_lt_of_le (hr.bound i hi) hsize)
      · have := hr.room
        simp only [List.length_cons]
        omega
    refine ⟨s.folds.size, s.folds.size + 1, _, _, rfl, ?_, hroutes, hs.push { mode := mode }, fun _ _ h =>
      h.mono (Nat.le_succ_of_le hsize)⟩
    cases hs <;> rfl
  relax h := ⟨h.folds, h.nodup, h.bound, fun _ => Nat.le_trans (by omega) h.room⟩
  descend h hcalls hroom := by
    have hroom' := h.room (hcalls.trans hroom)
    exact ⟨by omega, h.folds, h.nodup, h.bound, by dsimp only; omega⟩
  fresh h := ⟨rfl, List.nodup_nil, nofun, by have := h.room; simp only [List.length_nil]; omega⟩
  spare h hroom := by
    have := h.room
    rw [h.folds]
    omega
  writeValue h v := Action.mirrored_writeValue h v
  endLine h := Action.mirrored_endLine h
  newline := False.elim
  indent h offset relative := Action.mirrored_indent h offset relative
  enter h hlevel opening perLine closing := by
    rw [hlevel.resolve_left id]
    exact Action.mirrored_enter h opening perLine closing
  finish h := Action.mirrored_finish h
  blockStart := Action.mirrored_blockStart
  printer ho hp := by
    obtain ⟨p, hp', hidle, hscroll⟩ := Printer.idle_create _ 0
    cases hp.symm.trans hp'
    refine .printers hidle hidle ?_ rfl ?_ (Nat.zero_le _)
    · cases hp
      exact .inr nofun
    · rw [hscroll]
      exact ho.resolve_left id
  column ho := .column (ho.resolve_left id) (Nat.zero_le _)
  flushed := Beside.flushed
  printed := by
    intro _ k r r' h o ho v
    exact Action.mirrored_printed h (ho.resolve_left id) v
  written := by
    intro _ k r r' h o ho v
    exact Action.mirrored_written h (ho.resolve_left id) v

/-! ## Formatters -/

/-- Both can be flushed at last. -/
theorem Beside.flush {k : Nat} {s t : Stream} (h : Beside true k s t) : ∃ s' t',
    Action.flush {} s = .ok () s' ∧ Action.flush {} t = .ok () t' ∧ t'.device.output = s'.device.output := by
  cases h with
  | @printers _ p q folds idle idle' spacious scroll =>
    have hflush {p : Printer} (hp : p.Idle) : ∃ p', Action.flush {} ⟨.printer p, folds⟩ =
        .ok () ⟨.printer p', folds⟩ ∧ p'.base.output = p.scroll.column.output := by
      have hspace : { p with room := some (standardRoom - Action.layoutCalls) }.Spacious :=
        .inr (show some (standardRoom - Action.layoutCalls) ≠ some 0 by decide)
      obtain ⟨p', hflush, -, -, hbase⟩ := Printer.idle_flush (hp.room _) hspace
      refine ⟨p', ?_, congrArg Column.output hbase⟩
      show Action.onPrinter standardRoom (·.flush) ⟨.printer p, folds⟩ = _
      unfold Action.onPrinter
      dsimp only
      rw [hflush]
    obtain ⟨p', hp', houtput⟩ := hflush idle
    obtain ⟨q', hq', houtput'⟩ := hflush idle'
    refine ⟨_, _, hp', hq', ?_⟩
    show q'.base.output = p'.base.output
    rw [houtput, houtput', scroll]

/-- No conditional newline is taken, be it in the node or in what it encloses. -/
inductive Node.Unbroken : Node → Prop
  | text {s : Text} : Unbroken (.text s)
  | copies {x : Char} {count : Nat} : Unbroken (.copies x count)
  | foreign : Unbroken .foreign
  | atom {kind : Atom} {head : Head} (hquiet : (Node.atom kind head).IsQuiet) (hkind : kind ≠ .recursive) :
      Unbroken (.atom kind head)
  | group {kind : Group} {head closing : Head} {clauses : List (List Node)} {separators : List Head}
      (hgiven : kind = .iteration → clauses.headD [] ≠ [])
      (hplain : kind = .logicalBlock → closing.atSign = false)
      (h : ∀ clause ∈ clauses, ∀ n ∈ clause, Unbroken n) :
      Unbroken (.group kind head clauses separators closing)

theorem kept_unbroken : (Rule.tandem False).Kept fun top n _ => top = false ∧ n.Unbroken where
  allows := by
    rintro top n c ⟨rfl, hn⟩
    refine ⟨.inr ?_, nofun⟩
    cases hn with
    | atom hquiet => exact hquiet
    | _ => trivial
  along h _ := h
  inside := by
    rintro top n c nodes c' ⟨rfl, hn⟩ henters m hm
    refine ⟨rfl, ?_⟩
    cases henters with
    | clause hkind hnodes =>
      obtain ⟨clause, hclause, hm⟩ := hnodes m hm
      cases hn with
      | group _ _ h => exact h clause hclause m hm
    | pass hcolon hnodes | sublist hcolon hnodes =>
      cases hn with
      | group hgiven _ h =>
        obtain hnodes | ⟨hempty, -⟩ := hnodes
        · obtain ⟨clause, hclause, hm⟩ := hnodes m hm
          exact h clause hclause m hm
        · exact absurd hempty (hgiven rfl)
    | block hblock =>
      cases hn with
      | group _ hplain h =>
        obtain ⟨body, hbody, heq⟩ := body_of_ofClauses hblock
        rw [heq, if_neg (by simp [hplain rfl])] at hm
        exact h body hbody m hm
    | control =>
      cases hn with
      | atom _ hkind => exact absurd rfl hkind

/-- So there is none in a run. -/
theorem Formatter.obeys_of_unbroken {f : Formatter} (h : ∀ n ∈ f.nodes, n.Unbroken) (limits : Limits)
    (o : Options) (c : Cursor) : f.Obeys (.tandem False) false limits o c :=
  fun _ _ => kept_unbroken.obeys fun n hn => ⟨rfl, h n hn⟩

namespace Action

variable {passes passes' depth depth' : Nat} {nodes nodes' : List Node} {lays : Bool} {c : Cursor} {s s' : Stream}
  {outcome : Tilde.Outcome}

/-- A run without conditional newlines comes to the same for nodes that are alike but for zeros. -/
theorem exists_run_of_alike (hnodes : Node.AllAlike (lays = true ∧ True) nodes nodes')
    (hobeys : Obeys (.tandem False) false passes depth { room := depth } nodes c s)
    (hpasses : passes ≤ passes') (hdepth : 3 * depth + 40 ≤ 2 * depth') (hs : Beside lays 0 s s)
    (hrun : runWithin passes depth { room := depth } nodes c s = .ok outcome s') :
    ∃ outcome' t', runWithin passes' depth' { room := depth' } nodes' c s = .ok outcome' t' ∧
      outcome'.2 = outcome.2 ∧ Beside lays 0 s' t' := by
  have hroutes : MayOutlast 0 { room := depth } { room := depth' } :=
    ⟨rfl, List.nodup_nil, nofun, fun _ => hdepth⟩
  have hmirrors : Mirrors _ _ True false (runUnder (.tandem False) .tooDeep passes depth false)
      (runWithin passes' depth') := tandem_beside.mirrors_runUnder rfl (by omega) hpasses nofun
  have hfollowed := hmirrors hroutes hnodes (.refl c) s s hs
  rw [hobeys, hrun] at hfollowed
  cases hrun' : runWithin passes' depth' { room := depth' } nodes' c s with
  | error e t =>
    rw [hrun'] at hfollowed
    exact hfollowed.elim
  | ok outcome' t =>
    rw [hrun'] at hfollowed
    obtain ⟨⟨-, hexit⟩, hbeside⟩ := hfollowed
    exact ⟨outcome', t, rfl, hexit, hbeside⟩

end Action

namespace Formatter

variable {f f' : Formatter} {limits limits' : Limits} {o : Options} {c : Cursor} {outcome : Outcome}
  {t : Text}

/-- **Zeros that are added or left out** make no difference to a run without conditional newlines, if
blocks may be nested at any depth. -/
theorem toSink_of_alike (hnodes : Node.AllAlike True f.nodes f'.nodes) (ho : o.Plain)
    (hobeys : f.Obeys (.tandem False) false limits o c) (hpasses : limits.passes ≤ limits'.passes)
    (hdepth : 3 * limits.depth + 40 ≤ 2 * limits'.depth) (h : f.toSink limits o c = (.ok outcome, t)) :
    ∃ outcome', f'.toSink limits' o c = (.ok outcome', t) ∧ outcome'.2 = outcome.2 := by
  have hneeds : f'.needsPrinter = f.needsPrinter := Node.anyNeedsPrinter_eq hnodes
  cases hprinter : f.needsPrinter with
  | true =>
    obtain ⟨p, hp, -⟩ := Printer.idle_create o 0
    have halike : Node.AllAlike (true = true ∧ True) f.nodes f'.nodes :=
      Node.allAlike_mono (fun _ _ => ⟨rfl, trivial⟩) hnodes
    rw [toSink_eq_runFlushed hprinter hp] at h
    obtain ⟨s, s', hrun, hflush, htext⟩ := runFlushed_eq_ok.mp h
    obtain ⟨outcome', t', hrun', hexit, hbeside⟩ := Action.exists_run_of_alike halike
      (hobeys _ (freshStream_printer hprinter hp)) hpasses hdepth (tandem_beside.printer (.inr ho) hp) hrun
    obtain ⟨_, u, hflushed, hflush', houtput⟩ := hbeside.flush
    cases hflush.symm.trans hflushed
    refine ⟨outcome', ?_, hexit⟩
    rw [toSink_eq_runFlushed (hneeds.trans hprinter) hp]
    exact runFlushed_eq_ok.mpr ⟨t', u, hrun', hflush', houtput.trans htext⟩
  | false =>
    have halike : Node.AllAlike (false = true ∧ True) f.nodes f'.nodes := Node.allAlike_mono (fun _ hany =>
      absurd (hprinter.symm.trans hany) Bool.false_ne_true) hnodes
    rw [toSink_of_needsPrinter hprinter, Action.perform] at h
    rw [toSink_of_needsPrinter (hneeds.trans hprinter), Action.perform]
    cases hrun : Action.run limits {} f.nodes c (sinkStream o) with
    | error e s =>
      rw [hrun] at h
      cases h
    | ok outcome s =>
      rw [hrun] at h
      cases h
      obtain ⟨outcome', t', hrun', hexit, hbeside⟩ := Action.exists_run_of_alike halike
        (hobeys _ (freshStream_sink hprinter)) hpasses hdepth (tandem_beside.column (.inr ho)) hrun
      rw [show Action.run limits' {} f'.nodes c (sinkStream o) = .ok outcome' t' from hrun']
      cases hbeside
      exact ⟨outcome', rfl, hexit⟩

variable {w w' : Text} {arguments : List Value}

/-- **A directive that prints a value in a field** may ask for no padding by a zero, wherever it stands in
the control string. -/
theorem format_respelled (hw : w.Respelled w') (hf : ofSource (.text w) = .ok f) (ho : o.Plain)
    (hobeys : f.Obeys (.tandem False) false limits o (.ofList arguments))
    (hpasses : limits.passes ≤ limits'.passes) (hdepth : 3 * limits.depth + 40 ≤ 2 * limits'.depth)
    (h : format limits (.text w) arguments o = .ok t) : format limits' (.text w') arguments o = .ok t := by
  obtain ⟨nodes, hnodes, heq⟩ := exists_of_bind_ok hf
  cases heq
  obtain ⟨nodes', hnodes', halike⟩ := parse_respelled hw (compile_eq_ok.mp hnodes)
  obtain ⟨outcome, hrun⟩ := exists_of_format (show ofValue (.text w) = .ok ⟨nodes⟩ from hf) h
  have hsame : ∃ outcome', (Formatter.mk nodes').toSink limits' o (.ofList arguments) = (.ok outcome', t) ∧
      outcome'.2 = outcome.2 := toSink_of_alike halike ho hobeys hpasses hdepth hrun
  obtain ⟨outcome', hrun', -⟩ := hsame
  have hf' : ofValue (.text w') = .ok ⟨nodes'⟩ := by
    show (compile w' >>= fun nodes => pure (Formatter.mk nodes)) = _
    rw [compile_eq_ok.mpr hnodes']
    rfl
  unfold format
  rw [hf']
  simp only [bind, Except.bind, hrun']
  rfl

/-- Two lists, one of them in a block, with the letters of both in upper case. -/
theorem format_respelled_block :
    let w : Text := "~:@(~<~A~:> ~S~)".toList
    let w' : Text := "~:@(~<~0A~:> ~0S~)".toList
    let arguments : List Value := [.list [.list [.text ['a'], .int 2]], .list [.text ['b']]]
    ∃ f, w.Respelled w' ∧ ofSource (.text w) = .ok f ∧ Options.Plain {} ∧
      f.Obeys (.tandem False) false ⟨40, 9⟩ {} (.ofList arguments) ∧
      format ⟨40, 9⟩ (.text w) arguments {} = .ok "[A, 2] ['B']".toList ∧
      format ⟨80, 9⟩ (.text w') arguments {} = .ok "[A, 2] ['B']".toList := by
  intro w w' arguments
  have hw : w.Respelled w' := by
    rw [show w = "~:@(".toList ++ ("~<".toList ++ '~' :: ([] ++ ([] ++ 'A' :: ("~:>".toList ++ ([' '] ++
        '~' :: ([] ++ ([] ++ 'S' :: "~)".toList))))))) by decide +kernel,
      show w' = "~:@(".toList ++ ("~<".toList ++ '~' :: (['0'] ++ ([] ++ 'A' :: ("~:>".toList ++ ([' '] ++
        '~' :: (['0'] ++ ([] ++ 'S' :: "~)".toList))))))) by decide +kernel]
    refine .lexeme (by decide +kernel) (.lexeme (by decide +kernel) (.zero .absent .given nofun (by decide) ?_))
    refine .lexeme (by decide +kernel) (.lexeme (by decide +kernel) ?_)
    exact .zero .absent .given nofun (by decide) (.refl _)
  let plain (start stop : Nat) : Head := ⟨[], [], false, false, start, stop⟩
  let block : Node := .group .logicalBlock (plain 4 11) [[.atom .aesthetic (plain 6 8)]] []
    ⟨[], [], true, false, 8, 11⟩
  let f : Formatter := ⟨[.group .caseConversion ⟨[], [], true, true, 0, 16⟩
    [[block, .text [' '], .atom .standard (plain 12 14)]] [] (plain 14 16)]⟩
  have hf : ofSource (.text w) = .ok f := by with_unfolding_all rfl
  have hunbroken : ∀ n ∈ f.nodes, n.Unbroken := by
    simp only [f, List.forall_mem_cons, List.not_mem_nil, false_implies, implies_true, and_true]
    refine .group nofun nofun ?_
    simp only [List.forall_mem_cons, List.not_mem_nil, false_implies, implies_true, and_true]
    refine ⟨.group nofun (fun _ => rfl) ?_, .text, .atom trivial (by decide)⟩
    simp only [List.forall_mem_cons, List.not_mem_nil, false_implies, implies_true, and_true]
    exact .atom trivial (by decide)
  have hobeys := obeys_of_unbroken hunbroken ⟨40, 9⟩ {} (.ofList arguments)
  have hformat : format ⟨40, 9⟩ (.text w) arguments {} = .ok "[A, 2] ['B']".toList :=
    eq_ok_of_toOption (by decide +kernel)
  exact ⟨f, hw, hf, ⟨rfl, rfl⟩, hobeys, hformat,
    format_respelled hw hf ⟨rfl, rfl⟩ hobeys (Nat.le_refl _) (by decide) hformat⟩

/-- **With a limit on depth** it may matter: a text of its own is not inside the block. -/
theorem exists_format_respelled_ne : ∃ (w w' : Text) (arguments : List Value) (o : Options),
    w.Respelled w' ∧ o.pretty = false ∧ format .standard (.text w) arguments o = .ok ['#'] ∧
      format .standard (.text w') arguments o = .ok "[1]".toList := by
  have hw : Text.Respelled "~<~A~:>".toList "~<~0A~:>".toList := by
    rw [show "~<~A~:>".toList = "~<".toList ++ '~' :: ([] ++ ([] ++ 'A' :: "~:>".toList)) by decide +kernel,
      show "~<~0A~:>".toList = "~<".toList ++ '~' :: (['0'] ++ ([] ++ 'A' :: "~:>".toList)) by decide +kernel]
    exact .lexeme (by decide +kernel) (.zero .absent .given nofun (by decide) (.refl _))
  exact ⟨_, _, [.list [.list [.int 1]]], { level := some 1 }, hw, rfl,
    eq_ok_of_toOption (by decide +kernel), eq_ok_of_toOption (by decide +kernel)⟩

end Formatter

end Tilde
