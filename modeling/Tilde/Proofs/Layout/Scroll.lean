import Tilde.Proofs.Column
import Tilde.Proofs.Layout.Run
import Tilde.Proofs.Layout.Safe
import Tilde.Proofs.Layout.Written

/-!
# Scrolls

As long as no conditional newline comes, a printer breaks no line that has not been written: what it
puts out is a scroll, in which every line begins with the lead of its block.

* `Scroll`: the column stream that takes the text, and the blocks that are open;
* `Printer.Idle`: the printers that have buffered nothing, and `Printer.scroll`: what they amount to;
* **`idle_write`**, **`idle_begin`**, **`idle_finish`**, **`idle_indent`**, **`idle_flush`**: what
  operations do to the scroll.
-/

namespace Tilde

/-- What text is laid out by in an open block: what its lines begin with, where it starts, and what
ends it. -/
structure Margin where
  lead : Text := []
  startColumn : Int := 0
  closing : Text := []
  deriving DecidableEq, Repr

/-- The text that has been written, and the open blocks, innermost first. -/
structure Scroll where
  column : Column
  options : Options
  margins : List Margin

/-- A text whose lines begin with a lead, except the first. -/
def Text.led (lead : Text) (s : Text) : Text :=
  s.flatMap fun c => if c = '\n' then '\n' :: lead else [c]

namespace Text

theorem led_append (lead s t : Text) : led lead (s ++ t) = led lead s ++ led lead t :=
  List.flatMap_append

theorem led_of_flat {lead s : Text} (h : '\n' ∉ s) : led lead s = s := by
  induction s with
  | nil => rfl
  | cons c s ih =>
    obtain ⟨hc, hs⟩ := List.ne_and_not_mem_of_not_mem_cons h
    rw [led, List.flatMap_cons, if_neg hc.symm]
    exact congrArg (c :: ·) (ih hs)

theorem led_nil (s : Text) : led [] s = s := by
  have hsingle : (fun c => if c = '\n' then ['\n'] else [c]) = fun c : Char => [c] := by
    funext c
    split_ifs with hc
    · rw [hc]
    · rfl
  rw [led, hsingle, List.flatMap_singleton']

end Text

namespace Scroll

/-- What the lines of the current block begin with. -/
def lead (s : Scroll) : Text := (s.margins.headD {}).lead

/-- Writes a text. -/
def write (s : Scroll) (t : Text) : Scroll :=
  { s with column := s.column.write (Text.led s.lead t) }

/-- Begins a block, unless its lead cannot be made. -/
def begin (s : Scroll) (opening perLine closing : Text) : Except Fault Scroll := do
  let column := s.column.write opening
  let lead ← Printer.leadBelow s.lead perLine column.column
  let column := column.write perLine
  return { s with column := column, margins := ⟨lead, column.column, closing⟩ :: s.margins }

/-- Ends the current block. -/
def finish (s : Scroll) : Scroll :=
  { s with
    column := s.column.write (s.margins.headD {}).closing
    margins := s.margins.tail }

/-- How many blocks are open. -/
def depth (s : Scroll) : Nat := s.margins.length - 1

/-- Sets an indentation, which no line of a scroll has; but it may be impossible. -/
def indent (s : Scroll) (offset : Option Number) (relative : Bool) : Except Fault Scroll :=
  let origin := if relative then s.column.column else (s.margins.headD {}).startColumn
  match offset with
  | some n => ((Number.integer origin).plus n).map fun _ => s
  | none => .error .wrongType

/-- Exchanges what ends the current block. -/
def reclose (s : Scroll) (closing : Text) : Scroll :=
  { s with margins := s.margins.modifyHead fun m => { m with closing := closing } }

theorem write_append (s : Scroll) (t u : Text) : s.write (t ++ u) = (s.write t).write u := by
  simp only [write, Text.led_append, Column.write_append]
  rfl

end Scroll

namespace Printer

/-- A block of the printer as text is laid out by it. -/
def margin (p : Printer) (i : Nat) : Margin :=
  ⟨(p.block i).lead, (p.block i).startColumn, (p.block i).closing⟩

/-- What the printer has put out, white space that is held back included. -/
def shown (p : Printer) : Column := p.base.write p.held

/-- What the printer amounts to. -/
def scroll (p : Printer) : Scroll := ⟨p.shown, p.options, p.path.map p.margin⟩

/-- Nothing is buffered, nothing has gone wrong, and the open blocks are where they should be. -/
structure Idle (p : Printer) : Prop where
  flowing : p.buffering = false
  empty : p.pending = .empty
  unharmed : p.stopped = none
  opened : p.closed = false
  flat : '\n' ∉ p.held
  rooted : p.path ≠ []
  inside : ∀ i ∈ p.path, i < p.blocks.size
  ordered : p.path.Pairwise (· > ·)

variable {p q : Printer} {s t : Text}

namespace Idle

theorem lead_scroll (h : p.Idle) : p.scroll.lead = (p.block p.current).lead := by
  unfold Scroll.lead scroll current
  cases hpath : p.path with
  | nil => exact absurd hpath h.rooted
  | cons i around => rfl

theorem buffer_eq (h : p.Idle) : p.buffer = [] := by
  rw [buffer, h.empty]
  rfl

theorem column_eq (h : p.Idle) : p.column = p.shown.column := by
  unfold column shown Column.write
  rw [h.empty, columnAfter_eq h.flat]
  exact Int.add_zero _

/-- An operation that leaves the blocks in place leaves the printer idle. -/
theorem congr (h : p.Idle) (hflowing : q.buffering = false) (hempty : q.pending = .empty)
    (hunharmed : q.stopped = none) (hopened : q.closed = false) (hflat : '\n' ∉ q.held)
    (hpath : q.path = p.path) (hsize : q.blocks.size = p.blocks.size) : q.Idle where
  flowing := hflowing
  empty := hempty
  unharmed := hunharmed
  opened := hopened
  flat := hflat
  rooted := hpath ▸ h.rooted
  inside := by
    rw [hpath, hsize]
    exact h.inside
  ordered := hpath ▸ h.ordered

theorem room (h : p.Idle) (room : Option Nat) : { p with room := room }.Idle :=
  h.congr h.flowing h.empty h.unharmed h.opened h.flat rfl rfl

end Idle

@[simp] theorem scroll_room (p : Printer) (room : Option Nat) :
    { p with room := room }.scroll = p.scroll := rfl

/-! ## Text -/

theorem trailing_flat (h : '\n' ∉ s) : '\n' ∉ (Text.splitTrailing s).2 := fun hmem =>
  h (Text.splitTrailing_append s ▸ List.mem_append_right _ hmem)

/-- **A text without line breaks** is put out at once, but for the white space at its end. -/
theorem idle_writeText (h : p.Idle) (hs : '\n' ∉ s) :
    (p.writeText s).Idle ∧ (p.writeText s).scroll = { p.scroll with column := p.shown.write s } := by
  unfold writeText
  split_ifs with hempty hbuffering
  · rw [List.isEmpty_iff.mp hempty]
    exact ⟨h, by rw [Column.write_nil]; rfl⟩
  · rw [h.flowing] at hbuffering
    cases hbuffering
  · refine ⟨h.congr h.flowing h.empty h.unharmed h.opened (trailing_flat hs) rfl rfl, ?_⟩
    have hshown : ((p.base.write p.held).write (Text.splitTrailing s).1).write
        (Text.splitTrailing s).2 = p.shown.write s := by
      rw [← Column.write_append, Text.splitTrailing_append]
      rfl
    exact congrArg (Scroll.mk · p.options p.scroll.margins) hshown

/-! ## Line breaks -/

/-- There is room for breaking up sections, or no line is ever too long. -/
def Spacious (p : Printer) : Prop := p.base.maxColumn = none ∨ p.room ≠ some 0

/-- There is nothing to be output. Only without any room, on a line that is too long, that is not found
out. -/
theorem Idle.writeBuffered_of_idle (h : p.Idle) :
    p.writeBuffered = p ∨ ¬p.Spacious ∧ p.writeBuffered.stopped ≠ none := by
  have hwrite (q : Printer) (hq : p.writeLine p.buffer = (q, [])) :
      p.writeBuffered = { q with pending := .empty, buffering := false } := by
    simp only [writeBuffered, hq, List.isEmpty_nil, if_true]
  have hself : { p with pending := .empty, buffering := false } = p := by
    obtain ⟨⟨⟩, _⟩ := p
    rw [← h.empty, ← h.flowing]
  by_cases hfits : p.fits [] = true
  · refine .inl ((hwrite p ?_).trans hself)
    rw [h.buffer_eq, writeLine, if_pos hfits]
  by_cases hroom : p.room = some 0
  · have hspace : ¬p.Spacious := by
      rintro (hmax | hne)
      · exact hfits (by simp [fits, hasRoom, hmax])
      · exact hne hroom
    refine .inr ⟨hspace, ?_⟩
    rw [hwrite (p.stop .tooDeep) ?_]
    · exact stopped_stop_ne p .tooDeep
    · rw [h.buffer_eq, writeLine, if_neg hfits, settle, if_pos hroom]
      rfl
  · refine .inl ((hwrite p ?_).trans hself)
    rw [h.buffer_eq, writeLine, if_neg hfits, settle_of_flat hroom rfl]
    rfl

theorem margin_markBroken (p : Printer) (path : Path) (i : Nat) :
    (p.markBroken path).margin i = p.margin i :=
  field_markBroken (fun b => Margin.mk b.lead b.startColumn b.closing) (fun _ _ _ => rfl) p path i

/-- A break in the current block, where nothing is buffered. -/
theorem idle_breakHere (h : p.Idle) :
    p.putHeld.breakHere.Idle ∧ p.putHeld.breakHere.scroll = p.scroll.write ['\n'] := by
  have ho := (Outputs.putHeld p).trans (.breakHere _)
  have hheld : p.putHeld.breakHere.held = [] := by
    rw [breakHere, markBroken_eq]
    rfl
  have hbase : p.putHeld.breakHere.base = p.shown.write ('\n' :: (p.block p.current).lead) := by
    rw [breakHere, markBroken_eq]
    rfl
  refine ⟨h.congr (ho.buffering.trans h.flowing) (ho.pending.trans h.empty) ?_
    (ho.closed.trans h.opened) (by simp [hheld]) ho.path ho.size, ?_⟩
  · rw [breakHere, markBroken_eq]
    exact h.unharmed
  · have hled : Text.led p.scroll.lead ['\n'] = '\n' :: (p.block p.current).lead := by
      rw [h.lead_scroll]
      exact List.append_nil _
    have hmargins : p.putHeld.breakHere.path.map p.putHeld.breakHere.margin = p.path.map p.margin := by
      rw [ho.path]
      exact List.map_congr_left fun i _ => margin_markBroken _ _ i
    rw [Scroll.write, hled, scroll, shown, hbase, hheld, Column.write_nil, hmargins, ho.options]
    rfl

/-- **A line break in a text** is followed by the lead. -/
theorem idle_literalNewline (h : p.Idle) (hs : p.literalNewline.stopped = none) :
    p.literalNewline.Idle ∧ p.literalNewline.scroll = p.scroll.write ['\n'] := by
  rw [literalNewline_eq] at hs ⊢
  obtain heq | ⟨-, hstopped⟩ := h.writeBuffered_of_idle
  · rw [heq]
    exact idle_breakHere h
  · exact absurd ((Outputs.putHeld _).trans (.breakHere _) |>.unharmed hs) hstopped

theorem unharmed_literalNewline (h : p.Idle) (hspace : p.Spacious) :
    p.literalNewline.stopped = none := by
  obtain heq | ⟨hcramped, -⟩ := h.writeBuffered_of_idle
  · rw [literalNewline_eq, heq]
    exact (idle_breakHere h).1.unharmed
  · exact absurd hspace hcramped

/-- What a piece of text and the line break behind it do. -/
theorem idle_textBreak {acc : Text} (h : p.Idle) (hacc : '\n' ∉ acc)
    (hs : (p.writeText acc.reverse).literalNewline.stopped = none) :
    (p.writeText acc.reverse).literalNewline.Idle ∧
      (p.writeText acc.reverse).literalNewline.scroll = p.scroll.write (acc.reverse ++ ['\n']) := by
  have hflat : '\n' ∉ acc.reverse := fun hmem => hacc (List.mem_reverse.mp hmem)
  obtain ⟨hidle, hscroll⟩ := idle_writeText h hflat
  obtain ⟨hidle', hscroll'⟩ := idle_literalNewline hidle hs
  refine ⟨hidle', hscroll'.trans ?_⟩
  rw [Scroll.write_append, hscroll, Scroll.write.eq_1 p.scroll, Text.led_of_flat hflat]
  rfl

/-- **A text** goes to the scroll, its line breaks followed by the lead. -/
theorem idle_writeLines {acc : Text} (h : p.Idle) (hacc : '\n' ∉ acc)
    (hs : (p.writeLines acc s).stopped = none) :
    (p.writeLines acc s).Idle ∧ (p.writeLines acc s).scroll = p.scroll.write (acc.reverse ++ s) := by
  fun_induction writeLines p acc s with
  | case1 p acc =>
    have hflat : '\n' ∉ acc.reverse := fun hmem => hacc (List.mem_reverse.mp hmem)
    obtain ⟨hidle, hscroll⟩ := idle_writeText h hflat
    refine ⟨hidle, hscroll.trans ?_⟩
    rw [List.append_nil, Scroll.write, Text.led_of_flat hflat]
    rfl
  | case2 p acc s ih =>
    have hbreak : (p.writeText acc.reverse).literalNewline.stopped = none := by
      rw [writeLines_eq] at hs
      exact unharmed_foldl _ hs
    obtain ⟨hidle, hscroll⟩ := idle_textBreak h hacc hbreak
    obtain ⟨hidle', hscroll'⟩ := ih hidle List.not_mem_nil hs
    refine ⟨hidle', hscroll'.trans ?_⟩
    rw [hscroll, ← Scroll.write_append]
    simp
  | case3 p acc c s hc ih =>
    have hacc' : '\n' ∉ c :: acc := List.not_mem_cons_of_ne_of_not_mem (Ne.symm hc) hacc
    simpa using ih h hacc' hs

theorem Spacious.congr (h : p.Spacious)
    (hcolumn : q.scroll.column.maxColumn = p.scroll.column.maxColumn) (hroom : q.room = p.room) :
    q.Spacious := by
  have hmax : q.base.maxColumn = p.base.maxColumn := hcolumn
  rwa [Spacious, hmax, hroom]

theorem unharmed_writeLines {acc : Text} (h : p.Idle) (hacc : '\n' ∉ acc) (hspace : p.Spacious) :
    (p.writeLines acc s).stopped = none := by
  fun_induction writeLines p acc s with
  | case1 p acc =>
    have hflat : '\n' ∉ acc.reverse := fun hmem => hacc (List.mem_reverse.mp hmem)
    exact (idle_writeText h hflat).1.unharmed
  | case2 p acc s ih =>
    have hflat : '\n' ∉ acc.reverse := fun hmem => hacc (List.mem_reverse.mp hmem)
    obtain ⟨hidle, hscroll⟩ := idle_writeText h hflat
    have hspace' : (p.writeText acc.reverse).Spacious :=
      hspace.congr (by rw [hscroll]; rfl) (takes_stroke p (.text acc.reverse)).room
    have hbreak := unharmed_literalNewline hidle hspace'
    obtain ⟨-, hscroll'⟩ := idle_literalNewline hidle hbreak
    exact ih (idle_textBreak h hacc hbreak).1 List.not_mem_nil
      (hspace'.congr (by rw [hscroll']; rfl) (Takes.literal (p := p.writeText acc.reverse)).room)
  | case3 p acc c s hc ih =>
    exact ih h (List.not_mem_cons_of_ne_of_not_mem (Ne.symm hc) hacc) hspace

/-! ## Operations -/

/-- An operation on an idle printer fails for a reason that the scroll gives, or it leaves an idle
printer with such a scroll. -/
def Rolls (x : Except Fault Scroll) : Except Stop Printer → Prop
  | .ok q => q.Idle ∧ x = .ok q.scroll
  | .error stop => x = .error stop.fault

theorem whileOpen_of_idle (h : p.Idle) : p.whileOpen = .ok () := by
  rw [whileOpen, h.opened]
  rfl

/-- **Writing** never fails, if there is any room. -/
theorem idle_write (h : p.Idle) (hspace : p.Spacious) (t : Text) :
    Rolls (.ok (p.scroll.write t)) (p.write t) := by
  have hs := unharmed_writeLines (s := t) h List.not_mem_nil hspace
  obtain ⟨hidle, hscroll⟩ := idle_writeLines h List.not_mem_nil hs
  rw [write, whileOpen_of_idle h]
  show Rolls _ (p.writeLines [] t).conclude
  rw [conclude_of_unharmed hs]
  exact ⟨hidle, congrArg _ hscroll.symm⟩

/-- Whatever the room, if writing succeeds, the text has gone to the scroll. -/
theorem idle_of_write (h : p.Idle) (hwrite : p.write t = .ok q) :
    q.Idle ∧ q.scroll = p.scroll.write t := by
  obtain ⟨rfl, hs⟩ := eq_of_conclude (of_whileOpen hwrite).2
  exact idle_writeLines h List.not_mem_nil hs

theorem conclude_stop (hs : p.stopped = none) (e : Fault) :
    (p.stop e).conclude = .error ⟨e, { toPrinterState := p.toPrinterState }⟩ := by
  rw [stop, hs]
  rfl

theorem depth_eq (p : Printer) : p.scroll.depth = p.depth := by
  rw [Scroll.depth, scroll, List.length_map, depth]

theorem margins_of_idle (h : p.Idle) :
    p.scroll.margins = p.margin p.current :: p.path.tail.map p.margin := by
  unfold scroll current
  cases hpath : p.path with
  | nil => exact absurd hpath h.rooted
  | cons i around => rfl

/-- The blocks that have been there before a new one are as they were. -/
theorem margins_push (h : p.Idle) (b : BlockState) (path : Path) :
    p.path.map { p with blocks := p.blocks.push b, path := path }.margin = p.path.map p.margin := by
  refine List.map_congr_left fun i hi => ?_
  unfold margin
  rw [block_push, if_neg (Nat.ne_of_lt (h.inside i hi))]

theorem startBlock_cons (p : Printer) (i j : Nat) (around : Path) :
    p.startBlock (i :: j :: around) =
      match leadBelow (p.block j).lead (p.block i).perLine (p.base.write (p.block i).opening).column with
      | .error e => ((p.tell .start).put (p.block i).opening).stop e
      | .ok lead =>
        let q := ((p.tell .start).put (p.block i).opening).put (p.block i).perLine
        q.modifyBlock i fun b =>
          { b with lead := lead, startColumn := q.base.column, indent := .integer q.base.column } :=
  rfl

theorem idle_openBlock (h : p.Idle) (opening perLine closing : Text) :
    Rolls (p.scroll.begin opening perLine closing) (p.openBlock opening perLine closing).conclude := by
  let fresh : BlockState := {
    opening := opening, perLine := perLine, closing := closing, lead := (p.block p.current).lead }
  let p' : Printer := { p.putHeld with
    blocks := p.blocks.push fresh, path := p.blocks.size :: p.path }
  obtain ⟨i, around, hpath⟩ := List.exists_cons_of_ne_nil h.rooted
  have hopen : p.openBlock opening perLine closing = p'.startBlock (p.blocks.size :: i :: around) := by
    rw [openBlock, h.flowing, hpath]
    simp only [p', hpath, Bool.false_eq_true, if_false, fresh]
  have hfresh : p'.block p.blocks.size = fresh :=
    (block_push p fresh (p.blocks.size :: p.path) p.blocks.size).trans (if_pos rfl)
  have hi : i < p.blocks.size := h.inside i (hpath ▸ List.mem_cons_self)
  have hlead : (p'.block i).lead = p.scroll.lead := by
    rw [h.lead_scroll, current, hpath]
    exact congrArg BlockState.lead
      ((block_push p fresh (p.blocks.size :: p.path) i).trans (if_neg (Nat.ne_of_lt hi)))
  rw [hopen, startBlock_cons, hfresh, hlead]
  unfold Scroll.begin
  show Rolls (leadBelow p.scroll.lead perLine (p.shown.write opening).column >>= _) (conclude
    (match leadBelow p.scroll.lead perLine (p.shown.write opening).column with
      | .error e => _
      | .ok lead => _))
  cases leadBelow p.scroll.lead perLine (p.shown.write opening).column with
  | error e =>
    dsimp only
    rw [conclude_stop (by exact h.unharmed)]
    rfl
  | ok lead =>
    dsimp only
    set q := ((p'.tell .start).put fresh.opening).put fresh.perLine with hq
    set r := q.modifyBlock p.blocks.size fun b =>
      { b with lead := lead, startColumn := q.base.column, indent := .integer q.base.column } with hr
    have hsize : r.blocks.size = p.blocks.size + 1 :=
      (size_modifyBlock q p.blocks.size _).trans (Array.size_push _)
    have hidle : r.Idle := by
      refine ⟨h.flowing, h.empty, h.unharmed, h.opened, List.not_mem_nil, List.cons_ne_nil _ _, ?_, ?_⟩
      · rw [hsize]
        exact List.forall_mem_cons.mpr ⟨Nat.lt_succ_self _, fun j hj => Nat.lt_succ_of_lt (h.inside j hj)⟩
      · exact List.pairwise_cons.mpr ⟨h.inside, h.ordered⟩
    have hnew : r.margin p.blocks.size = ⟨lead, q.base.column, closing⟩ := by
      have hblock : r.block p.blocks.size = { fresh with
          lead := lead, startColumn := q.base.column, indent := .integer q.base.column } := by
        rw [hr, block_modifyBlock, if_pos ⟨rfl, (Array.size_push _).symm ▸ Nat.lt_succ_self _⟩]
        exact congrArg (fun b : BlockState => { b with
          lead := lead, startColumn := q.base.column, indent := .integer q.base.column }) hfresh
      rw [margin, hblock]
    have hold : p.path.map r.margin = p.path.map p.margin := by
      rw [← margins_push h fresh (p.blocks.size :: p.path)]
      refine List.map_congr_left fun j hj => ?_
      rw [margin, hr, block_modifyBlock_of_ne (Nat.ne_of_gt (h.inside j hj))]
      rfl
    rw [conclude_of_unharmed (by exact h.unharmed)]
    refine ⟨hidle, congrArg Except.ok ?_⟩
    show Scroll.mk q.base p.options (⟨lead, q.base.column, closing⟩ :: p.path.map p.margin) =
      ⟨r.base.write [], p.options, r.margin p.blocks.size :: p.path.map r.margin⟩
    rw [hnew, hold, Column.write_nil]
    rfl

/-- **Beginning a block** is refused if there are as many blocks as the limit. -/
theorem idle_begin (h : p.Idle) (opening perLine closing : Text) (level : Option Int) :
    if level.any fun n => decide (n ≤ (p.scroll.depth : Int)) then
      p.begin opening perLine closing level = .error ⟨.levelExceeded p.scroll.depth, p⟩
    else Rolls (p.scroll.begin opening perLine closing) (p.begin opening perLine closing level) := by
  rw [begin, whileOpen_of_idle h, depth_eq]
  split_ifs with hlevel
  · rfl
  · exact idle_openBlock h opening perLine closing

/-- **Ending a block** writes its closing text. -/
theorem idle_finish (h : p.Idle) :
    if p.scroll.depth = 0 then p.finish = .error ⟨.noOpenBlock, p⟩
    else Rolls (.ok p.scroll.finish) p.finish := by
  rw [finish, whileOpen_of_idle h, depth_eq]
  split_ifs with hdepth
  · rfl
  have hclose : p.closeBlock = { p.putHeld.endBlock p.path with path := p.path.tail } := by
    rw [closeBlock, h.flowing]
    rfl
  have htail : p.path.tail ≠ [] := by
    intro htail
    refine hdepth ?_
    rw [depth, ← List.length_tail, htail]
    rfl
  have hidle : p.closeBlock.Idle := by
    rw [hclose]
    exact ⟨h.flowing, h.empty, h.unharmed, h.opened, List.not_mem_nil, htail,
      fun i hi => h.inside i (List.mem_of_mem_tail hi), h.ordered.sublist (List.tail_sublist _)⟩
  show Rolls (.ok p.scroll.finish) p.closeBlock.conclude
  rw [conclude_of_unharmed hidle.unharmed]
  refine ⟨hidle, congrArg Except.ok ?_⟩
  rw [hclose, Scroll.finish, margins_of_idle h]
  exact congrArg (Scroll.mk · p.options _) (Column.write_nil _).symm

/-- **Setting an indentation** shows nowhere. -/
theorem idle_indent (h : p.Idle) (offset : Option Number) (relative : Bool) :
    Rolls (p.scroll.indent offset relative) (p.indent offset relative) := by
  have hcolumn : p.base.column + p.held.length = p.scroll.column.column :=
    (columnAfter_eq h.flat).symm
  have hstart : (p.block (p.path.headD 0)).startColumn = (p.scroll.margins.headD {}).startColumn := by
    rw [margins_of_idle h]
    rfl
  rw [indent, whileOpen_of_idle h, h.flowing]
  show Rolls _ (p.setIndent p.path offset relative).conclude
  unfold setIndent Scroll.indent
  dsimp only
  rw [hcolumn, hstart]
  cases offset with
  | none =>
    dsimp only
    rw [conclude_stop h.unharmed]
    rfl
  | some n =>
    dsimp only
    cases (Number.integer (if relative = true then p.scroll.column.column
      else (p.scroll.margins.headD {}).startColumn)).plus n with
    | error e =>
      dsimp only
      rw [conclude_stop h.unharmed]
      rfl
    | ok m =>
      dsimp only
      set q := p.modifyBlock (p.path.headD 0) fun b => { b with indent := m }
      have hidle : q.Idle :=
        h.congr h.flowing h.empty h.unharmed h.opened h.flat rfl (size_modifyBlock _ _ _)
      have hmargins : p.path.map q.margin = p.path.map p.margin :=
        List.map_congr_left fun i _ => field_modifyBlock
          (fun b => Margin.mk b.lead b.startColumn b.closing)
          (f := fun b => { b with indent := m }) (fun _ => rfl) p (p.path.headD 0) i
      rw [conclude_of_unharmed hidle.unharmed]
      exact ⟨hidle, congrArg (fun ms => Except.ok (Scroll.mk p.shown p.options ms)) hmargins.symm⟩

/-- A conditional newline is taken, where no line can be too long. -/
theorem idle_newline (h : p.Idle) (hmax : p.base.maxColumn = none) (kind : NewlineKind) :
    ∃ q, p.newline kind = .ok q := by
  have hs : (p.conditionalNewline kind).stopped = none := by
    unfold conditionalNewline
    split_ifs
    · exact unharmed_literalNewline h (.inl hmax)
    · unfold append enqueue
      rw [if_pos (by simp [bufferFits, hasRoom, hmax])]
      exact h.unharmed
  refine ⟨p.conditionalNewline kind, ?_⟩
  rw [newline, whileOpen_of_idle h]
  exact conclude_of_unharmed hs

/-- **Flushing** puts out what is held back. -/
theorem idle_flush (h : p.Idle) (hspace : p.Spacious) :
    ∃ q, p.flush = .ok q ∧ q.Idle ∧ q.scroll = p.scroll ∧ q.base = p.shown := by
  obtain heq | ⟨hcramped, -⟩ := h.writeBuffered_of_idle
  · refine ⟨p.putHeld, ?_, ?_, ?_, rfl⟩
    · rw [flush, heq, conclude_of_unharmed (p := p.putHeld) h.unharmed]
    · exact h.congr h.flowing h.empty h.unharmed h.opened List.not_mem_nil rfl rfl
    · exact congrArg (Scroll.mk · p.options _) (Column.write_nil _)
  · exact absurd hspace hcramped

/-- Exchanging what ends the current block. -/
theorem idle_reclose (h : p.Idle) (closing : Text) :
    (p.modifyBlock p.current fun b => { b with closing := closing }).Idle ∧
      (p.modifyBlock p.current fun b => { b with closing := closing }).scroll =
        p.scroll.reclose closing := by
  refine ⟨h.congr h.flowing h.empty h.unharmed h.opened h.flat rfl (size_modifyBlock _ _ _), ?_⟩
  set q := p.modifyBlock p.current fun b => { b with closing := closing } with hq
  obtain ⟨i, around, hpath⟩ := List.exists_cons_of_ne_nil h.rooted
  have hcurrent : p.current = i := by rw [current, hpath]; rfl
  have hnew : q.margin i = { p.margin i with closing := closing } := by
    rw [margin, hq, block_modifyBlock, if_pos ⟨hcurrent, h.inside i (hpath ▸ List.mem_cons_self)⟩]
    rfl
  have hold : around.map q.margin = around.map p.margin := by
    refine List.map_congr_left fun j hj => ?_
    have hlt : j < i := (List.pairwise_cons.mp (hpath ▸ h.ordered)).1 j hj
    rw [margin, hq, hcurrent, block_modifyBlock_of_ne (Nat.ne_of_gt hlt)]
    rfl
  show Scroll.mk p.shown p.options (p.path.map q.margin) =
    ⟨p.shown, p.options, (p.path.map p.margin).modifyHead fun m => { m with closing := closing }⟩
  rw [hpath, List.map_cons, List.map_cons, hnew, hold]
  rfl

/-- **A new printer** is idle, on an empty scroll. -/
theorem idle_create (o : Options) (column : Int) :
    ∃ p, create o none column = .ok p ∧ p.Idle ∧
      p.scroll = ⟨{ column := column, maxColumn := o.rightMargin, options := o }, o, [{}]⟩ := by
  refine ⟨_, rfl, ⟨rfl, rfl, rfl, rfl, List.not_mem_nil, List.cons_ne_nil _ _, ?_, ?_⟩, ?_⟩
  · simp
  · simp
  · exact congrArg (Scroll.mk · o [{}]) (Column.write_nil _)

end Printer

end Tilde
