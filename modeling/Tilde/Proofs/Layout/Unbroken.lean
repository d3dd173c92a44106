import Tilde.Proofs.Layout.Ink

/-!
# Layouts on one line

**`output_of_fits`**: when all that is said to a printer fits on the line that it begins on, and no
newline has to break, the sink takes just that, in order, with all its white space. Nothing goes
wrong on the way, unless the lines of a block would begin with more than there is memory for
(`exists_fits_not_output`).

* `oneLine`, `Balanced`: what operations print if no line is broken, and operations that end just
  the blocks that they begin;
* `Unbroken`: all that has been said has been output or is in the buffer, and no line is broken;
* `Unbroken.putToken`, `Unbroken.issue`: one token less to be output, or one more;
* `Unbroken.takes`: a stroke that stays on the line keeps it unbroken.
-/

namespace Tilde

/-! ## What is said -/

/-- The number can be added to every column. -/
def Number.Addable (n : Number) : Prop := ∀ column : Int, ∃ m, (Number.integer column).plus n = .ok m

theorem Number.addable_integer (n : Int) : (Number.integer n).Addable :=
  fun column => ⟨.integer (column + n), rfl⟩

/-- The operation stays on the line: it writes no line break, and its newline may stay unbroken. -/
def Operation.StaysOnLine : Operation → Prop
  | begin opening perLine closing _ => '\n' ∉ opening ∧ '\n' ∉ perLine ∧ '\n' ∉ closing
  | write s => '\n' ∉ s
  | newline kind => kind = .linear ∨ kind = .fill ∨ kind = .miser
  | indent offset _ => ∃ n ∈ offset, n.Addable
  | finish | flush => True
  | endLine | freshLine => False

/-- The lines of the block begin with nothing of their own. -/
def Operation.PlainLines : Operation → Prop
  | begin _ perLine _ _ => perLine = []
  | _ => True

/-- The operations end just the blocks that they begin, and so many that are open already. No block
is refused. -/
def Balanced : Nat → List Operation → Prop
  | depth, [] => depth = 0
  | depth, .begin _ _ _ level :: ops => (∀ n ∈ level, (depth : Int) < n) ∧ Balanced (depth + 1) ops
  | depth, .finish :: ops => 0 < depth ∧ Balanced (depth - 1) ops
  | depth, _ :: ops => Balanced depth ops

/-- What operations print if no line is broken. Of the blocks that are open already the closing texts
are given, that of the innermost first. -/
def oneLine : List Text → List Operation → Text
  | _, [] => []
  | closings, .begin opening perLine closing _ :: ops =>
    opening ++ perLine ++ oneLine (closing :: closings) ops
  | closings, .finish :: ops => closings.headD [] ++ oneLine closings.tail ops
  | closings, .write s :: ops => s ++ oneLine closings ops
  | closings, _ :: ops => oneLine closings ops

/-- The place of a line: where it begins, how long it gets, and the margin. -/
structure Stretch where
  column : Int
  length : Nat
  margin : Option Int

/-- The line ends before the margin. -/
def Stretch.Fits (l : Stretch) : Prop := ∀ limit ∈ l.margin, l.column + l.length < limit

/-- There is memory for white space as far as the line gets. -/
def Stretch.Alignable (l : Stretch) : Prop :=
  -(Text.indexLimit : Int) ≤ l.column ∧ l.column + l.length < Text.memoryLimit

/-- The token stays on the line as long as no newline has broken. -/
def Token.StaysOnLine (t : Token) : Prop :=
  match t.kind with
  | .newline kind _ => kind ≠ .mandatory
  | .indent _ offset _ => ∃ n ∈ offset, n.Addable
  | _ => True

/-- The stroke stays on the line. -/
def Stroke.StaysOnLine (l : Stretch) : Stroke → Prop
  | .begin _ perLine _ => perLine = [] ∨ l.Alignable
  | .newline kind => kind ≠ .mandatory ∧ kind ≠ .literal
  | .indent offset _ => ∃ n ∈ offset, n.Addable
  | _ => True

/-! ## Printers -/

namespace Printer

variable {l : Stretch} {p p' q : Printer} {s : Stroke} {kind : TokenKind} {t : Token}
variable {ts : List Token} {text : Text}

/-- What a stroke prints if no line is broken. -/
def lineOf (p : Printer) : Stroke → Text
  | .begin opening perLine _ => opening ++ perLine
  | .finish => (p.block p.current).closing
  | .text s => s
  | .newline _ | .indent .. | .flush => []

/-- No line has been broken: what has been said has been output, is held back, or is in the tokens.
What the lines of a block would begin with reaches no further than the output does. -/
structure Unbroken (l : Stretch) (text : Text) (p : Printer) (ts : List Token) : Prop where
  unharmed : p.stopped = none
  isOpen : p.closed = false
  sinkOpen : p.base.closed = false
  margin : p.base.maxColumn = l.margin
  flat : Flat p ts
  stays : ∀ t ∈ ts, t.StaysOnLine
  whole : ∀ i, (p.block i).broken = false
  perLine : ∀ i, (p.block i).perLine = [] ∨ l.Alignable
  lead : ∀ i, ((p.block i).lead.length : Int) ≤ max l.column 0 + p.base.output.length
  text : p.base.output ++ p.held ++ ts.flatMap p.printed = text
  column : p.base.column = l.column + p.base.output.length

/-! ### Single tokens -/

theorem length_repeated {n : Int} (hlow : -(Text.indexLimit : Int) ≤ n)
    (hhigh : n < Text.memoryLimit) :
    ∃ gap, Fault.bounded (Text.repeated [' '] n) = .ok gap ∧ gap.length = n.toNat := by
  have hlimits : (Text.memoryLimit : Int) ≤ Text.indexLimit := by decide
  have hpositive : 0 < Text.memoryLimit := by decide
  have hindex : n < Text.indexLimit := Int.lt_of_lt_of_le hhigh hlimits
  have hcheck : Text.checkLength n.toNat = .ok () := by
    unfold Text.checkLength
    rw [if_neg (by omega), if_neg (by omega)]
  refine ⟨Text.times [' '] n, ?_, ?_⟩
  · simp [Text.repeated, Text.asIndex, hlow, hindex, hcheck, bind, Except.bind, pure, Except.pure,
      Fault.bounded]
  · simp [Text.times]

/-- What the lines of a block begin with ends where the block's first line does. -/
theorem exists_leadBelow_of_alignable {parentLead perLine : Text} {column : Int}
    (h : perLine = [] ∨ -(Text.indexLimit : Int) ≤ column - parentLead.length ∧
      column - parentLead.length < Text.memoryLimit) :
    ∃ lead, leadBelow parentLead perLine column = .ok lead ∧
      (lead.length : Int) ≤ max column parentLead.length + perLine.length := by
  unfold leadBelow
  split_ifs with hperLine
  · exact ⟨parentLead, rfl, by omega⟩
  · obtain ⟨hlow, hhigh⟩ := h.resolve_left (by simpa using hperLine)
    obtain ⟨gap, hgap, hlength⟩ := length_repeated hlow hhigh
    refine ⟨parentLead ++ gap ++ perLine, by rw [hgap]; rfl, ?_⟩
    simp only [List.length_append, hlength]
    omega

namespace Unbroken

theorem breaksAnyway (h : Unbroken l text p (t :: ts)) {kind : NewlineKind} {path : Path}
    (hkind : t.kind = .newline kind path) : p.breaksAnyway kind (path.headD 0) = false := by
  have hstays := h.stays t List.mem_cons_self
  simp only [Token.StaysOnLine, hkind] at hstays
  cases kind <;> simp_all [Printer.breaksAnyway, h.whole]

theorem length_le (h : Unbroken l text p (t :: ts)) :
    p.base.output.length + p.held.length + (p.printed t).length ≤ text.length := by
  rw [← h.text]
  simp only [List.flatMap_cons, List.length_append]
  omega

/-- The start of a block does no harm. -/
theorem exists_lead (h : Unbroken l text p (t :: ts)) (hroom : text.length ≤ l.length) {path : Path}
    (hkind : t.kind = .blockStart path) :
    ∃ lead, leadBelow (p.putHeld.leadAround path) (p.putHeld.block (path.headD 0)).perLine
        (columnAfter p.putHeld.base.column (p.putHeld.block (path.headD 0)).opening) = .ok lead ∧
      (lead.length : Int) ≤
        max l.column 0 + (p.base.output.length + p.held.length + (p.printed t).length : Nat) := by
  have hopening := h.flat.opening (path.headD 0)
  have hlength := h.length_le
  have hcolumn := h.column
  have haround : ((p.putHeld.leadAround path).length : Int) ≤
      max l.column 0 + p.base.output.length := by
    unfold leadAround
    split
    · exact h.lead _
    · simp only [List.length_nil]
      omega
  have hprinted : (p.printed t).length =
      (p.block (path.headD 0)).opening.length + (p.block (path.headD 0)).perLine.length := by
    simp [Printer.printed, hkind]
  have hwritten : p.putHeld.base.column = p.base.column + p.held.length :=
    columnAfter_eq h.flat.held
  rw [block_putHeld, columnAfter_eq hopening, hwritten]
  have hpossible := (h.perLine (path.headD 0)).imp_right fun halign =>
    show -(Text.indexLimit : Int) ≤ p.base.column + p.held.length +
          (p.block (path.headD 0)).opening.length - (p.putHeld.leadAround path).length ∧
        p.base.column + p.held.length + (p.block (path.headD 0)).opening.length -
          (p.putHeld.leadAround path).length < Text.memoryLimit by
      obtain ⟨hlow, hhigh⟩ := halign
      omega
  obtain ⟨lead, hlead, hle⟩ := exists_leadBelow_of_alignable hpossible
  exact ⟨lead, hlead, by omega⟩

/-- Nothing goes wrong when a token is output. -/
theorem unharmed_putToken (h : Unbroken l text p (t :: ts)) (hroom : text.length ≤ l.length) :
    (p.putToken t).stopped = none := by
  have hs := h.unharmed
  have hstays := h.stays t List.mem_cons_self
  unfold Token.StaysOnLine at hstays
  unfold Printer.putToken
  cases hkind : t.kind with
  | text body trailing => exact hs
  | blockStart path =>
    obtain ⟨lead, hlead, -⟩ := h.exists_lead hroom hkind
    simp only [startBlock_eq hlead]
    exact hs
  | blockEnd path => exact hs
  | newline kind path =>
    simp only [h.breaksAnyway hkind, Bool.false_eq_true, if_false]
    exact hs
  | indent path offset relative =>
    rw [hkind] at hstays
    obtain ⟨n, rfl, hn⟩ := hstays
    unfold setIndent
    obtain ⟨m, hm⟩ := hn (if relative = true then p.base.column + p.held.length
      else (p.block (path.headD 0)).startColumn)
    simp only [hm]
    exact hs

theorem whole_putToken (h : Unbroken l text p (t :: ts)) (i : Nat) :
    ((p.putToken t).block i).broken = false := by
  cases ht : t.isNewline with
  | false => exact (broken_putToken ht i).trans (h.whole i)
  | true =>
    obtain ⟨kind, path, hkind⟩ := Token.isNewline_iff.mp ht
    have hput : p.putToken t = p.putHeld := by
      simp only [Printer.putToken, hkind, h.breaksAnyway hkind, Bool.false_eq_true, if_false]
    rw [hput]
    exact h.whole i

/-- The output only gets longer. -/
theorem lead_putToken (h : Unbroken l text p (t :: ts)) (hroom : text.length ≤ l.length) {s : Text}
    (hbase : (p.putToken t).base = p.base.write s)
    (hs : s ++ (p.putToken t).held = p.held ++ p.printed t) (i : Nat) :
    (((p.putToken t).block i).lead.length : Int) ≤
      max l.column 0 + (p.putToken t).base.output.length := by
  have hlonger : (p.base.output.length : Int) ≤ (p.putToken t).base.output.length := by
    rw [hbase, Column.output_write _ _ h.sinkOpen, List.length_append]
    omega
  have hkept := Int.le_trans (h.lead i) (Int.add_le_add_left hlonger _)
  cases hkind : t.kind with
  | blockStart path =>
    obtain ⟨lead, hlead, hle⟩ := h.exists_lead hroom hkind
    have heq : p.putToken t = p.putHeld.startBlock path := by rw [Printer.putToken, hkind]
    -- the start of a block holds nothing back
    have hheld : (p.putToken t).held = [] := by rw [heq]; simp
    have hlength := congrArg List.length hs
    rw [hheld, List.append_nil, List.length_append] at hlength
    have hwritten : (p.putToken t).base.output.length = p.base.output.length + s.length := by
      rw [hbase, Column.output_write _ _ h.sinkOpen, List.length_append]
    rw [hwritten, hlength, ← Nat.add_assoc]
    rw [hwritten, hlength, ← Nat.add_assoc] at hkept
    rw [heq, startBlock_eq hlead, block_modifyBlock]
    split_ifs
    · exact hle
    · exact hkept
  | newline kind path =>
    have hput : p.putToken t = p.putHeld := by
      simp only [Printer.putToken, hkind, h.breaksAnyway hkind, Bool.false_eq_true, if_false]
    rw [hput] at hkept ⊢
    exact hkept
  | indent path offset relative =>
    have hput : p.putToken t = p.setIndent path offset relative := by rw [Printer.putToken, hkind]
    rw [hput] at hkept ⊢
    rw [lead_setIndent]
    exact hkept
  | text body trailing =>
    have hblock : (p.putToken t).block i = p.block i := by rw [Printer.putToken, hkind]; rfl
    rwa [hblock]
  | blockEnd path =>
    have hblock : (p.putToken t).block i = p.block i := by rw [Printer.putToken, hkind]; rfl
    rwa [hblock]

/-- **One token less to be output.** -/
theorem putToken (h : Unbroken l text p (t :: ts)) (hroom : text.length ≤ l.length) :
    Unbroken l text (p.putToken t) ts := by
  have ho := Outputs.putToken p t
  have hs := h.unharmed_putToken hroom
  obtain ⟨s, hbase, hwritten⟩ := exists_write_putToken hs fun kind path => h.breaksAnyway
  have houtput : (p.putToken t).base.output = p.base.output ++ s := by
    rw [hbase, Column.output_write _ _ h.sinkOpen]
  have hflat : '\n' ∉ s := by
    have hline : '\n' ∉ p.held ++ p.printed t := by
      simpa using ⟨h.flat.held, h.flat.printed List.mem_cons_self⟩
    rw [← hwritten, List.mem_append, not_or] at hline
    exact hline.1
  refine ⟨hs, ho.closed.trans h.isOpen, ho.sinkClosed.trans h.sinkOpen, ho.maxColumn.trans h.margin,
    h.flat.putToken, fun t' ht' => h.stays t' (List.mem_cons_of_mem _ ht'), h.whole_putToken,
    fun i => ?_, h.lead_putToken hroom hbase hwritten, ?_, ?_⟩
  · rw [ho.perLine]
    exact h.perLine i
  · rw [houtput, List.append_assoc _ s, hwritten, funext ho.printed, ← h.text]
    simp
  · rw [houtput, hbase, List.length_append]
    have := h.column
    show columnAfter p.base.column s = _
    rw [columnAfter_eq hflat]
    omega

theorem putTokens (h : Unbroken l text p ts) (hroom : text.length ≤ l.length) :
    Unbroken l text (p.putTokens ts) [] := by
  induction ts generalizing p with
  | nil => exact h
  | cons t ts ih => exact ih (h.putToken hroom)

theorem putHeld (h : Unbroken l text p []) : Unbroken l text p.putHeld [] where
  unharmed := h.unharmed
  isOpen := h.isOpen
  sinkOpen := h.sinkOpen
  margin := h.margin
  flat := h.flat.putHeld
  stays := h.stays
  whole := h.whole
  perLine := h.perLine
  lead i := by
    have := h.lead i
    rw [base_putHeld, Column.output_write _ _ h.sinkOpen, List.length_append, block_putHeld]
    omega
  text := by
    rw [base_putHeld, Column.output_write _ _ h.sinkOpen]
    simpa using h.text
  column := by
    have := h.column
    rw [base_putHeld, Column.output_write _ _ h.sinkOpen, List.length_append]
    show columnAfter p.base.column p.held = _
    rw [columnAfter_eq h.flat.held]
    omega

theorem restate (h : Unbroken l text p ts) (path : Path) (position : Nat) (pending : Buffer)
    (buffering : Bool) : Unbroken l text { p with
      path := path, position := position, pending := pending, buffering := buffering } ts :=
  ⟨h.unharmed, h.isOpen, h.sinkOpen, h.margin,
    ⟨h.flat.held, h.flat.opening, h.flat.perLine, h.flat.closing, h.flat.text⟩, h.stays, h.whole,
    h.perLine, h.lead, h.text, h.column⟩

/-- All that is in the buffer fits. -/
theorem fits (h : Unbroken l text p ts) (hsound : Sound p ts) (hl : l.Fits)
    (hroom : text.length ≤ l.length) : p.fits ts = true := by
  cases hlimit : p.base.maxColumn with
  | none => simp [Printer.fits, hasRoom, hlimit]
  | some limit =>
    rw [fits_iff hlimit, hsound.extent_eq]
    have := hl limit (h.margin ▸ hlimit)
    have := h.column
    have hlength := congrArg List.length h.text
    simp only [List.length_append] at hlength
    omega

end Unbroken

/-! ### Strokes -/

theorem writeLine_of_fits (h : p.fits ts = true) : p.writeLine ts = (p, ts) := by
  rw [writeLine, if_pos h]

/-- A stroke says what its token prints. -/
theorem Issues.lineOf (hi : Issues p s kind p') (start : Nat) :
    p'.printed (p'.tokenAt start kind) = p.lineOf s := by
  cases hi with
  | text => exact Text.splitTrailing_append _
  | begin b => simp [printed, tokenAt, Printer.lineOf, block_push]
  | _ => rfl

namespace Unbroken

/-- **One token more.** -/
theorem issue (h : Unbroken l text p ts) (hsound : Sound p ts) (hi : Issues p s kind p')
    (hflat : s.NewlineFree) (hstays : s.StaysOnLine l) (start : Nat) :
    Unbroken l (text ++ p.lineOf s) p' (ts ++ [p'.tokenAt start kind]) := by
  have hstate := hi.state
  have hbase : p'.base = p.base := by rw [hstate]
  have hheld : p'.held = p.held := by rw [hstate]
  have hblock {α : Type} {Q : α → Prop} (f : BlockState → α) (hf : ∀ i, Q (f (p.block i)))
      (hb : ∀ b : BlockState, s = .begin b.opening b.perLine b.closing → b.broken = false →
        b.lead = (p.block p.current).lead → Q (f b)) (i : Nat) : Q (f (p'.block i)) := by
    cases hi with
    | begin b whole _ lead =>
      rw [block_push]
      split_ifs
      · exact hb b rfl whole lead
      · exact hf i
    | _ => exact hf i
  refine ⟨by rw [hstate]; exact h.unharmed, by rw [hstate]; exact h.isOpen, hbase ▸ h.sinkOpen,
    hbase ▸ h.margin, h.flat.issue hflat hi start, fun t ht => ?_, ?_, ?_, ?_, ?_,
    hbase ▸ h.column⟩
  · rcases List.mem_append.mp ht with ht | ht
    · exact h.stays t ht
    · obtain rfl := List.mem_singleton.mp ht
      cases hi with
      | newline => exact hstays.1
      | indent => exact hstays
      | _ => trivial
  · exact hblock (Q := (· = false)) BlockState.broken h.whole fun b _ hb _ => hb
  · refine hblock (Q := fun perLine => perLine = [] ∨ l.Alignable) BlockState.perLine h.perLine ?_
    rintro b rfl - -
    exact hstays
  · rw [hbase]
    refine hblock (Q := fun lead : Text =>
      (lead.length : Int) ≤ max l.column 0 + p.base.output.length) BlockState.lead h.lead ?_
    intro b _ _ hb
    rw [hb]
    exact h.lead _
  · rw [hbase, hheld, List.flatMap_append, List.flatMap_congr fun t ht => hsound.printed hi ht,
      List.flatMap_singleton, hi.lineOf, ← List.append_assoc, h.text]

theorem leave (h : Unbroken l text q ts) : Unbroken l text (p.leave s q) ts := by
  cases s with
  | finish => exact h.restate _ _ _ _
  | _ => exact h

/-- **A stroke that stays on the line keeps it unbroken.** -/
theorem takes (h : Unbroken l text p p.buffer) (hp : Buffered p) (hflat : s.NewlineFree)
    (hstays : s.StaysOnLine l) (hl : l.Fits) (hroom : (text ++ p.lineOf s).length ≤ l.length)
    (ht : Takes p s q) : Unbroken l (text ++ p.lineOf s) q q.buffer := by
  cases ht with
  | nothing => simpa [Printer.lineOf] using h
  | @direct s kind p' t hidle flat issues hkind =>
    have hissue := h.issue hp.sound issues hflat hstays 0
    rw [hp.buffer_eq_nil hidle, List.nil_append] at hissue
    have hput := hissue.putToken hroom
    rw [← putToken_kind p' (t := t) hkind] at hput
    rw [buffer_leave, issues.buffer_putToken, hp.buffer_eq_nil hidle]
    exact hput.leave
  | @enqueued s kind p' issues =>
    have hissue := h.issue hp.sound issues hflat hstays p.position
    have hfits := hissue.fits (hp.sound.issue issues hp.within hp.position) hl hroom
    rw [writeLine_of_fits (by exact hfits)]
    rw [buffer_leave, buffer_keep]
    exact (hissue.restate _ _ _ _).leave
  | literal => exact absurd rfl hstays.2
  | flush =>
    rw [Printer.lineOf, List.append_nil] at hroom ⊢
    rw [writeBuffered_putHeld, writeLine_of_fits (h.fits hp.sound hl hroom)]
    have hput := (h.restate p.path p.position (.ofList p.buffer) p.buffering).putTokens hroom
    exact hput.putHeld.restate _ _ .empty false

end Unbroken

/-! ### Operations -/

theorem Nested.depth {a : Account} (h : Nested a p) : p.depth = a.closings.length := by
  obtain ⟨root, hroot⟩ := h
  have hlength := congrArg List.length hroot
  rw [List.length_map, List.length_append, List.length_singleton] at hlength
  rw [Printer.depth, hlength, Nat.add_sub_cancel]

/-- **An operation that stays on the line is a stroke that does.** -/
theorem exists_stroke {a : Account} {op : Operation} {ops : List Operation}
    (hopen : p.closed = false) (hnested : Nested a p) (hstays : op.StaysOnLine)
    (halign : op.PlainLines ∨ l.Alignable) (hbalanced : Balanced a.closings.length (op :: ops)) :
    ∃ s, op.run p = (p.stroke s).conclude ∧ p.Allows s ∧ s.NewlineFree ∧ s.StaysOnLine l ∧
      oneLine a.closings (op :: ops) = p.lineOf s ++ oneLine (a.stroke s).closings ops ∧
      Balanced (a.stroke s).closings.length ops := by
  have hwhile : p.whileOpen = .ok () := by simp [whileOpen, hopen]
  have hdepth := hnested.depth
  cases op with
  | begin opening perLine closing level =>
    refine ⟨.begin opening perLine closing, ?_, trivial, hstays, halign, rfl, hbalanced.2⟩
    have hlevel : (level.any fun n => decide (n ≤ (p.depth : Int))) = false := by
      rw [Option.any_eq_false]
      intro n hn
      simpa [hdepth] using hbalanced.1 n hn
    simp [Operation.run, Printer.begin, hwhile, hlevel, stroke, bind, Except.bind]
  | finish =>
    have hallowed : p.Allows .finish := by
      have := hbalanced.1
      rw [← hdepth, Printer.depth] at this
      show 1 < p.path.length
      omega
    have hne : p.depth ≠ 0 := by
      rw [hdepth]
      exact Nat.ne_of_gt hbalanced.1
    refine ⟨.finish, ?_, hallowed, trivial, trivial, ?_, ?_⟩
    · simp [Operation.run, Printer.finish, hwhile, hne, stroke, bind, Except.bind]
    · rw [lineOf, ← hnested.closing hallowed]
      rfl
    · simpa [Account.stroke] using hbalanced.2
  | write s =>
    refine ⟨.text s, ?_, trivial, hstays, trivial, rfl, hbalanced⟩
    rw [← writeLines_text hstays]
    simp [Operation.run, Printer.write, hwhile, bind, Except.bind]
  | newline kind =>
    refine ⟨.newline kind, ?_, trivial, trivial, ?_, rfl, hbalanced⟩
    · simp [Operation.run, Printer.newline, hwhile, stroke, bind, Except.bind]
    · rcases hstays with rfl | rfl | rfl <;> simp [Stroke.StaysOnLine]
  | indent offset relative =>
    refine ⟨.indent offset relative, ?_, trivial, trivial, hstays, rfl, hbalanced⟩
    cases hbuffering : p.buffering <;>
      simp [Operation.run, Printer.indent, hwhile, hbuffering, stroke, bind, Except.bind]
  | endLine => exact hstays.elim
  | freshLine => exact hstays.elim
  | flush => exact ⟨.flush, rfl, trivial, trivial, trivial, rfl, hbalanced⟩

/-- **Operations that stay on the line keep it unbroken.** -/
theorem exists_runAll {a : Account} {ops : List Operation} (h : Unbroken l text p p.buffer)
    (hp : Buffered p) (hnested : Nested a p) (hstays : ∀ op ∈ ops, op.StaysOnLine)
    (halign : (∀ op ∈ ops, op.PlainLines) ∨ l.Alignable)
    (hbalanced : Balanced a.closings.length ops) (hl : l.Fits)
    (hroom : (text ++ oneLine a.closings ops).length ≤ l.length) :
    ∃ q, p.runAll ops = .ok q ∧ Unbroken l (text ++ oneLine a.closings ops) q q.buffer ∧
      Buffered q ∧ q.depth = 0 := by
  induction ops generalizing a p text with
  | nil =>
    refine ⟨p, rfl, ?_, hp, hnested.depth.trans hbalanced⟩
    rwa [oneLine, List.append_nil]
  | cons op ops ih =>
    obtain ⟨s, hrun, hallowed, hflat, hline, hsaid, hrest⟩ := exists_stroke (l := l) h.isOpen hnested
      (hstays op List.mem_cons_self) (halign.imp_left fun hplain => hplain op List.mem_cons_self)
      hbalanced
    rw [hsaid, ← List.append_assoc] at hroom ⊢
    have htake := takes_stroke p s
    have hstroke := h.takes hp hflat hline hl
      (Nat.le_trans (by simp only [List.length_append]; omega) hroom) htake
    have hs := hstroke.unharmed
    obtain ⟨q, hq, hlast⟩ := ih hstroke (hp.takes hallowed htake hs)
      (hnested.stroke hp.within hallowed htake)
      (fun op' hop' => hstays op' (List.mem_cons_of_mem _ hop'))
      (halign.imp_left fun hplain op' hop' => hplain op' (List.mem_cons_of_mem _ hop')) hrest hroom
    refine ⟨q, runAll_cons.mpr ⟨_, ?_, hq⟩, hlast⟩
    rw [hrun, conclude_of_unharmed hs]

theorem unbroken_create {options : Options} {width : Option Int} {column : Int}
    (hcreate : create options width column = .ok p) (length : Nat) :
    Unbroken ⟨column, length, p.base.maxColumn⟩ [] p p.buffer := by
  have hflat := flat_create hcreate
  obtain ⟨o, -, rfl⟩ := exists_of_create hcreate
  refine ⟨rfl, rfl, rfl, rfl, hflat, by simp [buffer, Buffer.toList], ?_, ?_, ?_, rfl, ?_⟩
  · simp [block_of_blocks]
  · exact fun i => Or.inl (by simp [block_of_blocks])
  · intro i
    simp only [block_of_blocks, List.length_nil]
    omega
  · simp [Column.output]

/-- **A layout that fits on one line is printed on one line.** Where there is no margin, or all that
is said to a new printer ends before it, the sink takes just that when the printer is closed. If the
lines of a block begin with a text of their own, there has to be memory for the white space before
it. -/
theorem output_of_fits {options : Options} {width : Option Int} {column : Int} {p : Printer}
    {ops : List Operation} (hcreate : create options width column = .ok p)
    (hbalanced : Balanced 0 ops) (hstays : ∀ op ∈ ops, op.StaysOnLine)
    (hfits : ∀ limit ∈ p.base.maxColumn, column + (oneLine [] ops).length < limit)
    (halign : (∀ op ∈ ops, op.PlainLines) ∨ -(Text.indexLimit : Int) ≤ column ∧
      column + (oneLine [] ops).length < Text.memoryLimit) :
    ∃ q r, p.runAll ops = .ok q ∧ q.close = .ok r ∧ r.base.output = oneLine [] ops := by
  obtain ⟨q, hrun, hq, hbuffered, hdepth⟩ := exists_runAll (unbroken_create hcreate _)
    (buffered_create hcreate) (nested_create hcreate) hstays halign hbalanced hfits
    (Nat.le_of_eq rfl)
  have hflush := hq.takes hbuffered (s := .flush) trivial trivial hfits
    (by simp [lineOf]) (takes_stroke q .flush)
  have hline : q.flush = .ok (q.stroke .flush) := conclude_of_unharmed hflush.unharmed
  have hpath : (q.stroke .flush).depth = 0 := by
    rw [Printer.depth, path_stroke]
    exact hdepth
  refine ⟨q, { q.stroke .flush with closed := true }, hrun, ?_, ?_⟩
  · simp [close, hq.isOpen, hline, hpath, bind, Except.bind, pure, Except.pure]
  · have htext := hflush.text
    rw [show (q.stroke .flush).buffer = [] from rfl, show (q.stroke .flush).held = [] from rfl]
      at htext
    simpa [lineOf] using htext

theorem output_of_fits_aligned :
    ∃ p q r, create {} (some 12) 2 = .ok p ∧
      p.runAll [.begin ['('] ['-'] [')'] (some 1), .write ['a', ' '], .newline .linear,
        .indent (some (.integer 1)) true, .flush, .write ['b', ' '], .newline .miser,
        .begin [] [] [] none, .write ['c'], .newline .fill, .finish, .finish] = .ok q ∧
      q.close = .ok r ∧ r.base.output = ['(', '-', 'a', ' ', 'b', ' ', 'c', ')'] := by
  obtain ⟨p, hcreate⟩ : ∃ p, create {} (some 12) 2 = .ok p := ⟨_, rfl⟩
  have hmargin : p.base.maxColumn = some 12 := by cases hcreate; rfl
  have hbalanced : Balanced 0 [.begin ['('] ['-'] [')'] (some 1), .write ['a', ' '],
      .newline .linear, .indent (some (.integer 1)) true, .flush, .write ['b', ' '],
      .newline .miser, .begin [] [] [] none, .write ['c'], .newline .fill, .finish, .finish] := by
    simp [Balanced]
  obtain ⟨q, r, hrun, hclose, houtput⟩ := output_of_fits hcreate hbalanced
    (by simp [Operation.StaysOnLine, Number.addable_integer])
    (by simp [hmargin, oneLine]) (Or.inr (by decide))
  exact ⟨p, q, r, hcreate, hrun, hclose, houtput⟩

/-- Where the white space before a block's per-line text cannot be made, the block does not start. -/
theorem exists_fits_not_output :
    ∃ (p : Printer) (ops : List Operation),
      create { rightMargin := none } none 9223372036854775808 = .ok p ∧
      Balanced 0 ops ∧ (∀ op ∈ ops, op.StaysOnLine) ∧ p.base.maxColumn = none ∧
      oneLine [] ops = ['>', 'a'] ∧ ∀ q, p.runAll ops ≠ .ok q := by
  refine ⟨{
    base := { column := 9223372036854775808, options := { rightMargin := none } }
    options := { rightMargin := none } }, [.begin [] ['>'] [] none, .write ['a'], .finish], rfl,
    by simp [Balanced], by simp [Operation.StaysOnLine], rfl, rfl, fun q hrun => ?_⟩
  refine absurd (congrArg (fun r => r.toOption.isSome) hrun) (?_ : _ ≠ true)
  decide +kernel

end Printer

end Tilde
