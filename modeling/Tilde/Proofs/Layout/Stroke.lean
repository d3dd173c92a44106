import Tilde.Proofs.Layout.Operation
import Tilde.Proofs.Layout.Settle

/-!
# What a stroke does

**`takes_stroke`**: a stroke appends a token to the buffer, or outputs it at once if nothing is
buffered; only literal newlines and flushes empty the buffer.

* `Printer.printed`: what a token prints if no line is broken;
* `Issues`: the token of a stroke and the printer in which it has still to be output;
* `writeBuffered_putHeld`, `literalNewline_eq`: what empties the buffer.
-/

namespace Tilde.Printer

/-- What a token prints if it does not break the line, white space at its end included. -/
def printed (p : Printer) (t : Token) : Text :=
  match t.kind with
  | .text body trailing => body ++ trailing
  | .blockStart path => (p.block (path.headD 0)).opening ++ (p.block (path.headD 0)).perLine
  | .blockEnd path => (p.block (path.headD 0)).closing
  | .newline .. | .indent .. => []

theorem printed_kind (p : Printer) {t t' : Token} (h : t.kind = t'.kind) :
    p.printed t = p.printed t' := by
  simp only [printed, h]

theorem Outputs.printed {p q : Printer} (h : Outputs p q) (t : Token) :
    q.printed t = p.printed t := by
  unfold Printer.printed
  split <;> simp only [h.opening, h.perLine, h.closing]

/-- A token of this kind from a position on. -/
def tokenAt (p : Printer) (start : Nat) (kind : TokenKind) : Token :=
  ⟨start, start + (p.printed ⟨0, 0, kind⟩).length, kind⟩

/-! ## The buffer -/

/-- A printer and what is left of a line, put into its buffer. -/
def keep (r : Printer × List Token) : Printer :=
  { r.1 with pending := .ofList r.2, buffering := !r.2.isEmpty }

@[simp] theorem buffer_keep (r : Printer × List Token) : (keep r).buffer = r.2 := by
  simp [keep, buffer]

theorem ofList_buffer (p : Printer) : .ofList p.buffer = p.pending := by
  rw [buffer]
  cases p.pending <;> simp [Buffer.toList, Buffer.ofList]

theorem enqueue_eq {p : Printer} (h : p.buffering = true) (t : Token) :
    p.enqueue t = keep ({ p with pending := p.pending.push t }.writeLine (p.buffer ++ [t])) := by
  have hbuffer : { p with pending := p.pending.push t }.buffer = p.buffer ++ [t] := by
    simp [buffer]
  have hbusy (q : Printer) (ho : Outputs { p with pending := p.pending.push t } q) :
      q.buffering = true := ho.buffering.trans h
  simp only [enqueue, hbuffer, keep]
  split_ifs with hfits
  · rw [bufferFits_eq, hbuffer] at hfits
    rw [writeLine, if_pos hfits, ← hbuffer, ofList_buffer, hbuffer]
    simp [h]
  · simp only [hbusy _ (.writeLine _ _), Bool.and_true]

theorem append_eq {p : Printer} (h : p.buffering = true) (width : Nat) (kind : TokenKind) :
    p.append width kind = keep ({ p with
      position := p.position + width
      pending := p.pending.push (Token.mk p.position (p.position + width) kind) }.writeLine
        (p.buffer ++ [Token.mk p.position (p.position + width) kind])) :=
  enqueue_eq (p := { p with position := p.position + width }) h _

/-! ## Strokes -/

/-- The kind of token that a stroke issues, and the printer that has still to output it. A new block
has not been broken. -/
inductive Issues (p : Printer) : Stroke → TokenKind → Printer → Prop
  | text {s : Text} (hs : s ≠ []) :
    Issues p (.text s) (.text (Text.splitTrailing s).1 (Text.splitTrailing s).2) p
  | begin (b : BlockState) (whole : b.broken = false) (wholeInside : b.brokenInside = false)
      (lead : b.lead = (p.block p.current).lead) :
    Issues p (.begin b.opening b.perLine b.closing) (.blockStart (p.blocks.size :: p.path))
      { p with blocks := p.blocks.push b, path := p.blocks.size :: p.path }
  | finish : Issues p .finish (.blockEnd p.path) p
  | newline {kind : NewlineKind} (hkind : kind ≠ .literal) :
    Issues p (.newline kind) (.newline kind p.path) p
  | indent (offset : Option Number) (relative : Bool) :
    Issues p (.indent offset relative) (.indent p.path offset relative) p

/-- After the end of a block the block around it is the current one. -/
def leave (p : Printer) (s : Stroke) (q : Printer) : Printer :=
  match s with
  | .finish => { q with path := p.path.tail }
  | _ => q

theorem stopped_leave (p : Printer) (s : Stroke) (q : Printer) : (p.leave s q).stopped = q.stopped := by
  cases s <;> rfl

theorem room_leave (p : Printer) (s : Stroke) (q : Printer) : (p.leave s q).room = q.room := by
  cases s <;> rfl

theorem buffer_leave (p : Printer) (s : Stroke) (q : Printer) : (p.leave s q).buffer = q.buffer := by
  cases s <;> rfl

/-- How a stroke is taken. -/
inductive Takes (p : Printer) : Stroke → Printer → Prop
  | nothing : Takes p (.text []) p
  | direct {s : Stroke} {kind : TokenKind} {p' : Printer} (t : Token) (idle : p.buffering = false)
      (flat : ∀ k, s ≠ .newline k) (issues : Issues p s kind p') (hkind : t.kind = kind) :
    Takes p s (p.leave s (p'.putToken t))
  | enqueued {s : Stroke} {kind : TokenKind} {p' : Printer} (issues : Issues p s kind p') :
    Takes p s (p.leave s (keep ({ p' with
      position := (p'.tokenAt p.position kind).stop
      pending := p.pending.push (p'.tokenAt p.position kind)
      buffering := true }.writeLine (p.buffer ++ [p'.tokenAt p.position kind]))))
  | literal : Takes p (.newline .literal) p.literalNewline
  | flush : Takes p .flush p.writeBuffered.putHeld

theorem Issues.state {p p' : Printer} {s : Stroke} {kind : TokenKind} (h : Issues p s kind p') :
    p' = { p with blocks := p'.blocks, path := p'.path } := by
  cases h <;> rfl

theorem takes_append {p p' : Printer} {s : Stroke} {kind : TokenKind} (h : Issues p s kind p') :
    Takes p s (p.leave s
      ({ p' with buffering := true }.append (p'.printed ⟨0, 0, kind⟩).length kind)) := by
  have htake := Takes.enqueued h
  rw [append_eq rfl]
  rw [h.state] at htake ⊢
  exact htake

theorem eq_of_buffering {p : Printer} (h : p.buffering = true) : { p with buffering := true } = p := by
  obtain ⟨⟨⟩, _⟩ := p
  simp_all

/-- **Every stroke is taken in one of these ways.** -/
theorem takes_stroke (p : Printer) (s : Stroke) : Takes p s (p.stroke s) := by
  cases s with
  | begin opening perLine closing =>
    cases h : p.buffering with
    | true =>
      have htake := takes_append (Issues.begin (p := p) {
        opening := opening, perLine := perLine, closing := closing
        lead := (p.block p.current).lead
        startColumn := p.column + (opening.length + perLine.length : Nat)
        indent := .integer (p.column + (opening.length + perLine.length : Nat)) } rfl rfl rfl)
      simpa [stroke, openBlock, h, leave, printed, block] using htake
    | false =>
      have htake := Takes.direct ⟨0, 0, _⟩ h (fun k hk => by cases hk) (Issues.begin (p := p) {
        opening := opening, perLine := perLine, closing := closing
        lead := (p.block p.current).lead } rfl rfl rfl) rfl
      simp only [stroke, openBlock, h]
      exact htake
  | finish =>
    cases h : p.buffering with
    | true =>
      have htake := takes_append (Issues.finish (p := p))
      rw [eq_of_buffering h] at htake
      simpa [stroke, closeBlock, h, leave, printed, current] using htake
    | false =>
      have htake := Takes.direct ⟨0, 0, _⟩ h (fun k hk => by cases hk) (Issues.finish (p := p)) rfl
      simpa [stroke, closeBlock, h, leave, putToken] using htake
  | text s =>
    by_cases hs : s = []
    · subst hs
      exact Takes.nothing
    cases h : p.buffering with
    | true =>
      have htake := takes_append (Issues.text (p := p) hs)
      rw [eq_of_buffering h] at htake
      simpa [stroke, writeText, h, hs, leave, printed, ← List.length_append, Text.splitTrailing_append]
        using htake
    | false =>
      have htake := Takes.direct ⟨0, 0, _⟩ h (fun k hk => by cases hk) (Issues.text (p := p) hs) rfl
      simpa [stroke, writeText, h, hs, leave, putToken] using htake
  | newline kind =>
    by_cases hkind : kind = .literal
    · subst hkind
      exact Takes.literal
    · have htake := takes_append (Issues.newline (p := p) hkind)
      simpa [stroke, conditionalNewline, hkind, leave, printed] using htake
  | indent offset relative =>
    cases h : p.buffering with
    | true =>
      have htake := takes_append (Issues.indent (p := p) offset relative)
      rw [eq_of_buffering h] at htake
      simpa [stroke, h, leave, printed] using htake
    | false =>
      have htake := Takes.direct ⟨0, 0, _⟩ h (fun k hk => by cases hk)
        (Issues.indent (p := p) offset relative) rfl
      simpa [stroke, h, leave, putToken] using htake
  | flush => exact .flush

/-! ## What a stroke issues -/

theorem block_push (p : Printer) (b : BlockState) (path : Path) (i : Nat) :
    { p with blocks := p.blocks.push b, path := path }.block i =
      if i = p.blocks.size then b else p.block i := by
  by_cases hi : i = p.blocks.size <;> simp [block, Array.getElem?_push, hi]

namespace Issues

variable {p p' : Printer} {s : Stroke} {kind : TokenKind}

theorem size_le (h : Issues p s kind p') : p.blocks.size ≤ p'.blocks.size := by
  cases h <;> simp

theorem exists_of_begin {opening perLine closing : Text}
    (h : Issues p (.begin opening perLine closing) kind p') :
    ∃ b : BlockState, b.opening = opening ∧ b.perLine = perLine ∧ b.closing = closing ∧
      b.broken = false ∧ b.brokenInside = false ∧ b.lead = (p.block p.current).lead ∧
      kind = .blockStart (p.blocks.size :: p.path) ∧
      p' = { p with blocks := p.blocks.push b, path := p.blocks.size :: p.path } := by
  generalize hs : Stroke.begin opening perLine closing = s at h
  cases h with
  | begin b whole wholeInside lead =>
    injection hs with hopening hperLine hclosing
    exact ⟨b, hopening.symm, hperLine.symm, hclosing.symm, whole, wholeInside, lead, rfl, rfl⟩
  | _ => cases hs

/-- The blocks that are there already stay as they are. -/
theorem block (h : Issues p s kind p') {i : Nat} (hi : i < p.blocks.size) :
    p'.block i = p.block i := by
  cases h with
  | begin b => rw [block_push, if_neg (Nat.ne_of_lt hi)]
  | _ => rfl

end Issues

/-! ## Emptying the buffer -/

theorem put_nil (p : Printer) : p.put [] = p := by
  simp [put, Column.write, columnAfter]

theorem putHeld_putHeld (p : Printer) : p.putHeld.putHeld = p.putHeld := by
  rw [putHeld.eq_1 p.putHeld, show p.putHeld.held = [] from rfl, put_nil]
  rfl

/-- Breaks the line in the current block as a literal newline does. -/
def breakHere (p : Printer) : Printer :=
  (p.put ('\n' :: (p.block p.current).lead)).markBroken p.path

theorem Outputs.breakHere (p : Printer) : Outputs p p.breakHere :=
  (put p _).trans (markBroken _ _)

theorem writeBuffered_putHeld (p : Printer) :
    p.writeBuffered.putHeld = { (({ (p.writeLine p.buffer).1 with
      pending := .ofList (p.writeLine p.buffer).2 }.putTokens (p.writeLine p.buffer).2).putHeld) with
      pending := .empty, buffering := false } := by
  simp only [writeBuffered]
  split_ifs with hrest
  · rw [List.isEmpty_iff.mp hrest]
    rfl
  · exact congrArg (fun q : Printer => { q with pending := .empty, buffering := false })
      (putHeld_putHeld _)

theorem literalNewline_eq (p : Printer) : p.literalNewline = p.writeBuffered.putHeld.breakHere :=
  rfl

end Tilde.Printer
