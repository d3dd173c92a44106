import Mathlib.Data.List.TakeWhile
import Tilde.Proofs.Cut.Congruent
import Tilde.Proofs.Layout.Invariant

/-!
# Text that is cut into two writes

**`outcome_write_append`**: it makes no difference to what is output in the end whether a text is
written by one operation or by two, if the cut does not go through white space and the first part
does not make the line too long.

* `Twin`: two printers of which the one has texts in two tokens of its buffer that the other has in
  one; `Twin.stroke`, `Twin.run`: they stay so.
-/

namespace Tilde

open Token (Cuts Joins)

namespace Printer

/-- The printers are the same, but that the second one may have two tokens in its buffer in the place
of one. -/
structure Twin (p p' : Printer) : Prop where
  congruent : Congruent p p'
  buffer : Cuts p.buffer p'.buffer

variable {p p' q q' : Printer} {ts ts' : List Token}

/-- Settles newlines if the line is too long. -/
def relieve (p : Printer) : Printer :=
  if p.bufferFits then p
  else
    let (p', rest) := p.writeLine p.buffer
    { p' with pending := .ofList rest, buffering := !rest.isEmpty && p'.buffering }

namespace Twin

theorem refl (p : Printer) : Twin p p := ⟨.refl p, .refl _⟩

theorem push (h : Twin p p') (t : Token) :
    Twin { p with pending := p.pending.push t } { p' with pending := p'.pending.push t } := by
  obtain ⟨⟨b, o, rfl, ho⟩, hbuffer⟩ := h
  refine ⟨⟨_, o, rfl, ho⟩, ?_⟩
  simpa [Printer.buffer] using hbuffer.append (.refl [t])

theorem relieve (h : Twin p p') : Twin p.relieve p'.relieve := by
  unfold Printer.relieve
  dsimp only
  rw [bufferFits_eq, bufferFits_eq, h.congruent.fits h.buffer]
  split_ifs
  · exact h
  · obtain ⟨hcongr, hleft⟩ := h.congruent.writeLine h.buffer
    rw [hleft.isEmpty]
    generalize p.writeLine p.buffer = r at *
    generalize p'.writeLine p'.buffer = r' at *
    obtain ⟨r, rest⟩ := r
    obtain ⟨r', rest'⟩ := r'
    obtain ⟨b, o, rfl, ho⟩ := hcongr
    exact ⟨⟨_, o, rfl, ho⟩, by simpa [Printer.buffer] using hleft⟩

theorem enqueue (h : Twin p p') (t : Token) : Twin (p.enqueue t) (p'.enqueue t) :=
  (h.push t).relieve

theorem append (h : Twin p p') (width : Nat) (kind : TokenKind) :
    Twin (p.append width kind) (p'.append width kind) := by
  unfold Printer.append
  dsimp only
  rw [h.congruent.position]
  refine enqueue ?_ _
  obtain ⟨⟨b, o, rfl, ho⟩, hbuffer⟩ := h
  exact ⟨⟨b, o, rfl, ho⟩, hbuffer⟩

/-- Output alone, which leaves the buffers as they are. -/
theorem outputs (h : Twin p p') (hcongr : Congruent q q') (ho : Outputs p q) (ho' : Outputs p' q') :
    Twin q q' := by
  refine ⟨hcongr, ?_⟩
  rw [Printer.buffer, ho.pending, Printer.buffer, ho'.pending]
  exact h.buffer

theorem column (h : Twin p p') : p'.column = p.column := by
  have hstart := h.buffer.head_start
  unfold Printer.column
  rw [h.congruent.base, h.congruent.held, h.congruent.position, Buffer.first?_eq, Buffer.first?_eq]
  unfold Printer.buffer at hstart
  cases hhead : p.pending.toList.head? <;> cases hhead' : p'.pending.toList.head? <;> simp_all

/-- Everything is output. -/
theorem drain (h : Twin p p') : Twin p.writeBuffered.putHeld p'.writeBuffered.putHeld := by
  obtain ⟨hcongr, hleft⟩ := h.congruent.writeLine h.buffer
  rw [writeBuffered_putHeld, writeBuffered_putHeld]
  have hput := (((hcongr.pending (.ofList (p.writeLine p.buffer).2)
    (.ofList (p'.writeLine p'.buffer).2)).putTokens hleft).putHeld)
  obtain ⟨b, o, heq, ho⟩ := hput
  refine ⟨⟨.empty, o, ?_, ho⟩, .nil⟩
  rw [heq]

theorem literalNewline (h : Twin p p') : Twin p.literalNewline p'.literalNewline := by
  have hdrain := h.drain
  rw [literalNewline_eq, literalNewline_eq]
  refine hdrain.outputs ?_ (.breakHere _) (.breakHere _)
  unfold Printer.breakHere Printer.current
  rw [hdrain.congruent.path, hdrain.congruent.block]
  exact (hdrain.congruent.put _).markBroken _

theorem openBlock (h : Twin p p') (opening perLine closing : Text) :
    Twin (p.openBlock opening perLine closing) (p'.openBlock opening perLine closing) := by
  unfold Printer.openBlock Printer.current
  dsimp only
  rw [h.congruent.buffering, h.congruent.path, h.congruent.blocks, h.congruent.block, h.column]
  split_ifs
  · refine append ?_ _ _
    obtain ⟨⟨b, o, rfl, ho⟩, hbuffer⟩ := h
    exact ⟨⟨b, o, rfl, ho⟩, hbuffer⟩
  · have hopen : Twin { p.putHeld with
        blocks := p.blocks.push {
          opening := opening, perLine := perLine, closing := closing
          lead := (p.block (p.path.headD 0)).lead }
        path := p.blocks.size :: p.path } { p'.putHeld with
        blocks := p.blocks.push {
          opening := opening, perLine := perLine, closing := closing
          lead := (p.block (p.path.headD 0)).lead }
        path := p.blocks.size :: p.path } := by
      obtain ⟨⟨b, o, rfl, ho⟩, hbuffer⟩ := h
      exact ⟨⟨b, o, rfl, ho⟩, hbuffer⟩
    exact hopen.outputs (hopen.congruent.startBlock _) (.startBlock _ _) (.startBlock _ _)

theorem closeBlock (h : Twin p p') : Twin p.closeBlock p'.closeBlock := by
  have hpath {q q' : Printer} (hq : Twin q q') (path : Path) :
      Twin { q with path := path } { q' with path := path } := by
    obtain ⟨⟨b, o, rfl, ho⟩, hbuffer⟩ := hq
    exact ⟨⟨b, o, rfl, ho⟩, hbuffer⟩
  unfold Printer.closeBlock Printer.current
  dsimp only
  rw [h.congruent.buffering, h.congruent.path, h.congruent.block]
  split_ifs
  · exact hpath (h.append _ _) _
  · refine hpath ?_ _
    exact h.outputs (h.congruent.putHeld.endBlock _) ((Outputs.putHeld _).trans (.endBlock _ _))
      ((Outputs.putHeld _).trans (.endBlock _ _))

theorem writeText (h : Twin p p') (s : Text) : Twin (p.writeText s) (p'.writeText s) := by
  unfold Printer.writeText
  dsimp only
  rw [h.congruent.buffering]
  split_ifs
  · exact h
  · exact h.append _ _
  · exact h.outputs ((h.congruent.putHeld.put _).hold _)
      ((Outputs.putHeld _).trans ((Outputs.put _ _).trans (.hold _ _)))
      ((Outputs.putHeld _).trans ((Outputs.put _ _).trans (.hold _ _)))

theorem conditionalNewline (h : Twin p p') (kind : NewlineKind) :
    Twin (p.conditionalNewline kind) (p'.conditionalNewline kind) := by
  unfold Printer.conditionalNewline
  rw [h.congruent.path]
  split_ifs
  · exact h.literalNewline
  · refine append ?_ _ _
    obtain ⟨⟨b, o, rfl, ho⟩, hbuffer⟩ := h
    exact ⟨⟨b, o, rfl, ho⟩, hbuffer⟩

/-- **Twins stay twins** whatever the stroke. -/
theorem stroke (h : Twin p p') (s : Stroke) : Twin (p.stroke s) (p'.stroke s) := by
  cases s with
  | begin opening perLine closing => exact h.openBlock opening perLine closing
  | finish => exact h.closeBlock
  | text s => exact h.writeText s
  | newline kind => exact h.conditionalNewline kind
  | indent offset relative =>
    unfold Printer.stroke
    dsimp only
    rw [h.congruent.buffering, h.congruent.path]
    split_ifs
    · exact h.append _ _
    · exact h.outputs (h.congruent.setIndent _ _ _) (.setIndent _ _ _ _) (.setIndent _ _ _ _)
  | flush => exact h.drain

theorem strokes (h : Twin p p') (ss : List Stroke) :
    Twin (ss.foldl Printer.stroke p) (ss.foldl Printer.stroke p') := by
  induction ss generalizing p p' with
  | nil => exact h
  | cons s ss ih => exact ih (h.stroke s)

end Twin

/-! ## The cut -/

/-- All of the second text is white space, and there is some at the end of the first. -/
def SplitsBlank (s t : Text) : Prop :=
  (∃ c ∈ s.getLast?, Text.isBlank c = true) ∧ ∀ c ∈ t, Text.isBlank c = true

theorem dropWhile_eq_self {P : Char → Bool} {l : Text} (h : ∀ c ∈ l.head?, P c = false) :
    l.dropWhile P = l ∧ l.takeWhile P = [] := by
  cases l with
  | nil => simp
  | cons c l => simp [h c (by simp)]

/-- The white space at the end of the whole is that at the end of the second part. -/
theorem splitTrailing_append_append {s t : Text} (hcut : ¬SplitsBlank s t) :
    Text.splitTrailing (s ++ t) = ((Text.splitTrailing s).1 ++ (Text.splitTrailing s).2 ++
      (Text.splitTrailing t).1, (Text.splitTrailing t).2) := by
  rw [Text.splitTrailing_append]
  simp only [Text.splitTrailing, List.reverse_append]
  by_cases hblank : ∀ c ∈ t, Text.isBlank c = true
  · have hrev : ∀ c ∈ t.reverse, Text.isBlank c = true := fun c hc =>
      hblank c (List.mem_reverse.mp hc)
    obtain ⟨hdrop, htake⟩ := dropWhile_eq_self (P := Text.isBlank) (l := s.reverse) fun c hc => by
      rw [List.head?_reverse] at hc
      by_contra hne
      exact hcut ⟨⟨c, hc, by simpa using hne⟩, hblank⟩
    rw [List.dropWhile_append_of_pos hrev, List.takeWhile_append_of_pos hrev, hdrop, htake,
      List.dropWhile_eq_nil_iff.mpr hrev, List.takeWhile_eq_self_iff.mpr hrev]
    simp
  · have hne : t.reverse.dropWhile Text.isBlank ≠ [] := by
      rw [Ne, List.dropWhile_eq_nil_iff]
      exact fun hc => hblank fun c hmem => hc c (List.mem_reverse.mpr hmem)
    have hlength : (t.reverse.takeWhile Text.isBlank).length ≠ t.reverse.length := fun hc => by
      have := (List.takeWhile_prefix (l := t.reverse) Text.isBlank).eq_of_length hc
      exact hne (List.dropWhile_eq_nil_iff.mpr (List.takeWhile_eq_self_iff.mp this))
    rw [List.dropWhile_append, List.takeWhile_append, if_neg hlength, if_neg (by simpa using hne)]
    simp

theorem writeText_idle {s : Text} (hidle : p.buffering = false) (hs : s ≠ []) :
    p.writeText s = { p.putHeld.put (Text.splitTrailing s).1 with
      held := (Text.splitTrailing s).2 } := by
  simp [writeText, hs, hidle]

/-- There is still room for the text on the line. -/
def HasRoomFor (p : Printer) (s : Text) : Prop :=
  p.buffer = [] ∨ p.hasRoom (Token.extent p.buffer + s.length) = true

/-- The token for a text that is written now. -/
def textToken (p : Printer) (s : Text) : Token :=
  ⟨p.position, p.position + s.length,
    .text (Text.splitTrailing s).1 (Text.splitTrailing s).2⟩

/-- A printer that has taken the token for a text. -/
def pushText (p : Printer) (s : Text) : Printer :=
  { p with position := p.position + s.length, pending := p.pending.push (p.textToken s) }

theorem buffer_pushText (p : Printer) (s : Text) :
    (p.pushText s).buffer = p.buffer ++ [p.textToken s] := by
  simp [pushText, buffer]

theorem writeText_busy {s : Text} (hbusy : p.buffering = true) (hs : s ≠ []) :
    p.writeText s = (p.pushText s).relieve := by
  simp only [writeText, List.isEmpty_iff, hs, hbusy, if_true, if_false]
  rfl

/-- Where there is room, nothing is settled. -/
theorem relieve_pushText {s : Text} (hp : Buffered p) (hbusy : p.buffering = true)
    (hroom : p.HasRoomFor s) : (p.pushText s).relieve = p.pushText s := by
  have hne := hp.busy.mp hbusy
  have hlast := hp.position _ (List.getLast?_eq_some_getLast hne)
  have hextent : Token.extent (p.buffer ++ [p.textToken s]) =
      Token.extent p.buffer + s.length := by
    obtain ⟨t, ht⟩ := List.exists_mem_of_ne_nil _ hne
    simp only [Token.extent, List.head?_append, List.getLast?_append, List.getLast?_singleton,
      List.head?_eq_some_head hne, List.getLast?_eq_some_getLast hne, Option.some_or, hlast,
      textToken]
    omega
  have hfits : (p.pushText s).bufferFits = true := by
    rw [bufferFits_eq, fits, buffer_pushText, hextent]
    exact hroom.resolve_left hne
  rw [relieve, if_pos hfits]

/-- **A text that is written in two parts** leads to a twin, if the cut does not go through white
space, and there is room for the first part on the line. -/
theorem twin_writeText {s t : Text} (hp : Buffered p) (hroom : p.HasRoomFor s)
    (hcut : t ≠ [] → ¬SplitsBlank s t) :
    Twin (p.writeText (s ++ t)) ((p.writeText s).writeText t) := by
  by_cases hs : s = []
  · subst hs
    exact .refl _
  by_cases ht : t = []
  · subst ht
    rw [List.append_nil]
    exact .refl _
  have hsplit := splitTrailing_append_append (hcut ht)
  have hst : s ++ t ≠ [] := by simp [hs]
  cases hbusy : p.buffering with
  | false =>
    rw [writeText_idle hbusy hst, writeText_idle hbusy hs, writeText_idle (by exact hbusy) ht,
      hsplit, ← put_append, ← put_append]
    exact .refl _
  | true =>
    rw [writeText_busy hbusy hst, writeText_busy hbusy hs, relieve_pushText hp hbusy hroom,
      writeText_busy (by exact hbusy) ht]
    refine Twin.relieve ⟨?_, ?_⟩
    · refine ⟨((p.pushText s).pushText t).pending, p.stopped, ?_, rfl⟩
      simp only [pushText, List.length_append, Nat.add_assoc]
    · rw [buffer_pushText, buffer_pushText, buffer_pushText, List.append_assoc]
      refine (Cuts.refl _).append (.joined ⟨rfl, ?_, ?_⟩ .nil)
      · simp [textToken, pushText, Nat.add_assoc]
      · exact ⟨_, _, _, _, by simp [textToken, hsplit], rfl, rfl⟩

/-! ## Operations -/

/-- Both operations fail, or they lead to twins. -/
inductive Paired : Except Stop Printer → Except Stop Printer → Prop
  | ok {p p' : Printer} (twin : Twin p p') : Paired (.ok p) (.ok p')
  | error (e e' : Stop) : Paired (.error e) (.error e')

namespace Paired

theorem conclude (h : Twin p p') : Paired p.conclude p'.conclude := by
  have hstopped := h.congruent.stopped
  unfold Printer.conclude
  cases hs : p.stopped <;> cases hs' : p'.stopped <;> simp_all
  · exact .ok h
  · exact .error _ _

theorem whileOpen (h : Twin p p') {x x' : Except Stop Printer} (hx : Paired x x') :
    Paired (do p.whileOpen; x) (do p'.whileOpen; x') := by
  unfold Printer.whileOpen
  rw [h.congruent.closed]
  split_ifs
  · exact .error _ _
  · exact hx

theorem bind {x x' : Except Stop Printer} {f : Printer → Except Stop Printer} (hx : Paired x x')
    (hf : ∀ p p', Twin p p' → Paired (f p) (f p')) : Paired (x.bind f) (x'.bind f) := by
  cases hx with
  | ok h => exact hf _ _ h
  | error e e' => exact .error e e'

theorem write (h : Twin p p') (s : Text) : Paired (p.write s) (p'.write s) := by
  refine .whileOpen h (conclude ?_)
  rw [writeLines_eq, writeLines_eq]
  exact h.strokes _

/-- **An operation leaves twins twins.** -/
theorem run (h : Twin p p') (op : Operation) : Paired (op.run p) (op.run p') := by
  have hdepth : p'.depth = p.depth := by rw [depth, h.congruent.path, depth]
  cases op with
  | begin opening perLine closing level =>
    refine .whileOpen h ?_
    rw [hdepth]
    split_ifs
    · exact .error _ _
    · exact conclude (h.openBlock _ _ _)
  | finish =>
    refine .whileOpen h ?_
    rw [hdepth]
    split_ifs
    · exact .error _ _
    · exact conclude h.closeBlock
  | write s => exact write h s
  | newline kind => exact .whileOpen h (conclude (h.conditionalNewline kind))
  | indent offset relative =>
    refine .whileOpen h ?_
    have hstroke := conclude (h.stroke (.indent offset relative))
    unfold stroke at hstroke
    dsimp only at hstroke
    split_ifs at hstroke ⊢ <;> simp_all
  | endLine => exact write h ['\n']
  | freshLine =>
    show Paired (Except.map _ p.freshLine) (Except.map _ p'.freshLine)
    unfold Printer.freshLine
    rw [h.column]
    split_ifs
    · have hwrite := write h ['\n']
      generalize p.write ['\n'] = x at *
      generalize p'.write ['\n'] = x' at *
      cases hwrite with
      | ok hq => exact .ok hq
      | error e e' => exact .error e e'
    · exact .ok h
  | flush => exact conclude h.drain

theorem runAll (h : Twin p p') (ops : List Operation) : Paired (p.runAll ops) (p'.runAll ops) := by
  induction ops generalizing p p' with
  | nil => exact .ok h
  | cons op ops ih => exact (run h op).bind fun _ _ hq => ih hq

theorem close (h : Twin p p') : Paired p.close p'.close := by
  unfold Printer.close
  rw [h.congruent.closed]
  split_ifs
  · exact .ok h
  · refine bind (conclude h.drain) fun q q' hq => ?_
    rw [depth, depth, hq.congruent.path]
    split_ifs
    · obtain ⟨⟨b, o, rfl, ho⟩, hbuffer⟩ := hq
      exact .ok ⟨⟨b, o, rfl, ho⟩, hbuffer⟩
    · exact .error _ _

end Paired

/-- What has been output when the operations have been carried out and the printer is closed. -/
def outcome (p : Printer) (ops : List Operation) : Option Text :=
  ((p.runAll ops).bind close).toOption.map fun q => q.base.output

/-- Twins output the same in the end. -/
theorem Paired.outcome {ops ops' : List Operation} (h : Paired (p.runAll ops) (p'.runAll ops')) :
    p'.outcome ops' = p.outcome ops := by
  have hclose := h.bind fun _ _ hq => .close hq
  unfold Printer.outcome
  generalize (p.runAll ops).bind Printer.close = x at *
  generalize (p'.runAll ops').bind Printer.close = x' at *
  cases hclose with
  | ok hq => exact congrArg (fun c : Column => some c.output) hq.congruent.base
  | error e e' => rfl

/-! ## Lines of a text -/

/-- The last line of a text is written by the last of its strokes, together with what follows it. -/
theorem exists_ofText_append (acc s : Text) (hacc : '\n' ∉ acc) :
    ∃ ss line, Stroke.ofText acc s = ss ++ [.text line] ∧ '\n' ∉ line ∧
      line <:+ acc.reverse ++ s ∧
      (∀ t, Stroke.ofText acc (s ++ t) = ss ++ Stroke.ofText line.reverse t) ∧
      (ss = [] ∧ line = acc.reverse ++ s ∨ ∃ ss', ss = ss' ++ [.newline .literal]) := by
  fun_induction Stroke.ofText acc s with
  | case1 acc =>
    exact ⟨[], acc.reverse, rfl, by simpa using hacc, by simp, by simp, Or.inl ⟨rfl, by simp⟩⟩
  | case2 acc s ih =>
    obtain ⟨ss, line, heq, hflat, hsuffix, happend, hss⟩ := ih (by simp)
    refine ⟨.text acc.reverse :: .newline .literal :: ss, line, by rw [heq]; rfl, hflat, ?_,
      fun t => ?_, Or.inr ?_⟩
    · exact hsuffix.trans ⟨acc.reverse ++ ['\n'], by simp⟩
    · rw [List.cons_append, Stroke.ofText, if_pos rfl, happend]
      rfl
    · rcases hss with ⟨rfl, -⟩ | ⟨ss', rfl⟩
      · exact ⟨[.text acc.reverse], rfl⟩
      · exact ⟨.text acc.reverse :: .newline .literal :: ss', rfl⟩
  | case3 acc c s hc ih =>
    obtain ⟨ss, line, heq, hflat, hsuffix, happend, hss⟩ := ih (by simpa [hacc] using Ne.symm hc)
    refine ⟨ss, line, heq, hflat, by simpa using hsuffix, fun t => ?_, by simpa using hss⟩
    rw [List.cons_append, Stroke.ofText, if_neg hc, happend]

/-- The first line of a text. -/
def firstLine (t : Text) : Text := t.takeWhile (· ≠ '\n')

/-- The first line of a text is written by the first of its strokes, together with what comes
before it. -/
theorem exists_ofText_cons (t : Text) :
    ∃ ss, ∀ acc, Stroke.ofText acc t = .text (acc.reverse ++ firstLine t) :: ss := by
  induction t with
  | nil => exact ⟨[], fun acc => by simp [Stroke.ofText, firstLine]⟩
  | cons c t ih =>
    obtain ⟨ss, hss⟩ := ih
    by_cases hc : c = '\n'
    · exact ⟨.newline .literal :: Stroke.ofText [] t, fun acc => by
        simp [Stroke.ofText, firstLine, hc]⟩
    · exact ⟨ss, fun acc => by rw [Stroke.ofText, if_neg hc, hss]; simp [firstLine, hc]⟩

/-- A cut between two texts goes through white space: the line that is cut has some before the cut,
and nothing else behind it. -/
structure Severs (s t : Text) : Prop where
  before : ∃ c ∈ s.getLast?, c ≠ '\n' ∧ Text.isBlank c = true
  inside : firstLine t ≠ []
  behind : ∀ c ∈ firstLine t, Text.isBlank c = true

/-- Behind a literal newline nothing is buffered. -/
theorem buffer_literalNewline (p : Printer) : p.literalNewline.buffer = [] := by
  rw [literalNewline_eq, buffer, (Outputs.breakHere _).pending, writeBuffered_putHeld]
  rfl

/-- A write is the strokes of its text. -/
theorem write_eq (hopen : p.closed = false) (s : Text) :
    p.write s = ((Stroke.ofText [] s).foldl stroke p).conclude := by
  simp [write, whileOpen, hopen, writeLines_eq, bind, Except.bind]

theorem closed_foldl (ss : List Stroke) : (ss.foldl stroke p).closed = p.closed := by
  induction ss generalizing p with
  | nil => rfl
  | cons s ss ih => exact ih.trans (takes_stroke p s).closed

theorem exists_conclude_of_stopped (hs : p.stopped ≠ none) : ∃ e, p.conclude = .error e := by
  obtain ⟨⟨e, s⟩, hs⟩ := Option.ne_none_iff_exists'.mp hs
  exact ⟨_, by rw [conclude, hs]⟩

/-- Strokes on twins, where it has been asked before the last stroke of the second one whether
anything has gone wrong. -/
theorem paired_interrupted {s : Stroke} (h : Twin p (q.stroke s)) (ss : List Stroke)
    {f : Printer → Except Stop Printer}
    (hf : q.stopped = none → f q = (ss.foldl stroke (q.stroke s)).conclude) :
    Paired (ss.foldl stroke p).conclude (q.conclude.bind f) := by
  by_cases hq : q.stopped = none
  · have hok : q.conclude = .ok q := by rw [conclude, hq]
    rw [hok]
    show Paired _ (f q)
    rw [hf hq]
    exact .conclude (h.strokes ss)
  · -- what has gone wrong remains
    have hharmed : (ss.foldl stroke p).stopped ≠ none := fun hc => by
      have hsame := h.congruent.stopped
      rw [unharmed_foldl ss hc] at hsame
      exact hq ((takes_stroke q s).unharmed (by simpa using hsame))
    obtain ⟨e, he⟩ := exists_conclude_of_stopped hq
    obtain ⟨e', he'⟩ := exists_conclude_of_stopped hharmed
    rw [he, he']
    exact .error _ _

/-- It makes no difference for an operation whether a text is cut. -/
theorem paired_write {s t : Text} (hp : Buffered p) (hroom : '\n' ∈ s ∨ p.HasRoomFor s)
    (hcut : ¬Severs s t) : Paired (p.write (s ++ t)) ((p.write s).bind fun q => q.write t) := by
  cases hopen : p.closed with
  | true =>
    simp only [write, whileOpen, hopen, if_true]
    exact .error _ _
  | false =>
    obtain ⟨ss, line, hs, hflat, hsuffix, happend, hss⟩ := exists_ofText_append [] s (by simp)
    obtain ⟨ss', ht⟩ := exists_ofText_cons t
    rw [write_eq hopen, write_eq hopen, happend, ht, hs, List.reverse_reverse, List.foldl_append,
      List.foldl_append]
    generalize hr : ss.foldl stroke p = r
    by_cases hharmed : r.stopped = none
    · have hsuffix' : line <:+ s := by simpa using hsuffix
      have hbuffered : Buffered r := by
        rw [← hr] at hharmed ⊢
        refine hp.strokes (strokes_foldl ss (fun u hu => ?_) hharmed)
        have hu' : u ∈ Stroke.ofText [] s := hs ▸ List.mem_append_left _ hu
        exact ne_finish_of_ofText hu'
      have hline : r.HasRoomFor line := by
        rcases hss with ⟨rfl, hline⟩ | ⟨ss₁, rfl⟩
        · rw [← hr, hline]
          exact hroom.resolve_left fun hc => hflat (by simpa [hline] using hc)
        · rw [← hr, List.foldl_append]
          exact Or.inl (buffer_literalNewline _)
      have hflat' (c : Char) (hc : c ∈ line.getLast?) : c ≠ '\n' := fun hn =>
        hflat (hn ▸ List.mem_of_getLast? hc)
      have htwin : Twin (r.writeText (line ++ firstLine t))
          ((r.writeText line).writeText (firstLine t)) :=
        twin_writeText hbuffered hline fun hne ⟨⟨c, hc, hblank⟩, hall⟩ =>
          hcut ⟨⟨c, getLast?_of_suffix hsuffix' c hc, hflat' c hc, hblank⟩, hne, hall⟩
      refine paired_interrupted (q := r.writeText line) (s := .text (firstLine t)) htwin ss'
        fun _ => ?_
      rw [write_eq, ht]
      · rfl
      · exact ((takes_stroke r (.text line)).closed.trans ((hr ▸ closed_foldl ss))).trans hopen
    · have hne (ss : List Stroke) : (ss.foldl stroke r).stopped ≠ none := fun hc =>
        hharmed (unharmed_foldl ss hc)
      obtain ⟨e, he⟩ := exists_conclude_of_stopped (hne [.text line])
      obtain ⟨e', he'⟩ := exists_conclude_of_stopped (hne (.text (line ++ firstLine t) :: ss'))
      rw [he, he']
      exact .error _ _

/-- **Text may be cut into two writes.** -/
theorem outcome_write_append {options : Options} {width : Option Int} {column : Int}
    {before after : List Operation} {s t : Text} (hcreate : create options width column = .ok p)
    (hroom : ∀ q, p.runAll before = .ok q → '\n' ∈ s ∨ q.HasRoomFor s) (hcut : ¬Severs s t) :
    p.outcome (before ++ .write s :: .write t :: after) =
      p.outcome (before ++ .write (s ++ t) :: after) := by
  have hrun : Paired (p.runAll (before ++ .write (s ++ t) :: after))
      (p.runAll (before ++ .write s :: .write t :: after)) := by
    rw [runAll_append, runAll_append]
    cases hbefore : p.runAll before with
    | error e => exact .error e e
    | ok q =>
      have hq := (buffered_create hcreate).strokes (strokes_strokesTaken hbefore)
      have hwrite := (paired_write hq (hroom q hbefore) hcut).bind fun _ _ htwin =>
        .runAll htwin after
      show Paired ((q.write (s ++ t)).bind _) ((q.write s).bind fun q => (q.write t).bind _)
      generalize q.write s = x at hwrite ⊢
      cases x <;> exact hwrite
  exact hrun.outcome

theorem outcome_write_append_buffering :
    ∃ p, create {} (some 4) 0 = .ok p ∧
      p.outcome [.write ['a'], .newline .linear, .write ['b', ' '], .write ['c']] =
        p.outcome [.write ['a'], .newline .linear, .write ['b', ' ', 'c']] := by
  obtain ⟨p, hcreate⟩ : ∃ p, create {} (some 4) 0 = .ok p := ⟨_, rfl⟩
  refine ⟨p, hcreate, @outcome_write_append _ {} (some 4) 0 [.write ['a'], .newline .linear] []
    ['b', ' '] ['c'] hcreate (fun q hrun => Or.inr (Or.inr ?_)) fun hcut => ?_⟩
  · cases hcreate
    cases hrun
    rfl
  · have := hcut.behind 'c' (by decide)
    revert this
    decide

/-- **White space that is cut** is not all dropped before a line break. -/
theorem exists_outcome_ne_of_severs :
    ∃ p, create {} none 0 = .ok p ∧ Severs ['a', ' '] [' '] ∧
      p.outcome [.write ['a', ' ', ' '], .newline .mandatory, .write ['b']] =
        some ['a', '\n', 'b'] ∧
      p.outcome [.write ['a', ' '], .write [' '], .newline .mandatory, .write ['b']] =
        some ['a', ' ', '\n', 'b'] := by
  refine ⟨_, rfl, ⟨⟨' ', rfl, by decide, rfl⟩, List.cons_ne_nil _ _, fun c hc => ?_⟩, ?_, ?_⟩
  · cases List.mem_singleton.mp hc
    rfl
  · decide +kernel
  · decide +kernel

/-- Newlines that are settled as soon as the first part of a text is written, or only with all of it:
the fill newline behind the inner block is forced to break. -/
def tightFill : List Operation :=
  [.begin [] [] [] none, .write ['p', 'p', 'p'], .newline .mandatory, .newline .fill,
    .begin [] [] [] none, .write ['x'], .newline .mandatory, .write ['y'], .finish, .newline .fill,
    .write ['z'], .finish, .newline .linear]

/-- **Without room for the first part**, newlines are settled earlier, and not in the same way. -/
theorem exists_outcome_ne_of_not_hasRoomFor :
    ∃ p, create { miserWidth := none } (some 8) 0 = .ok p ∧ ¬Severs ['a', 'a'] ['b', 'b', 'b', 'b'] ∧
      p.outcome (tightFill ++ [.write ['a', 'a', 'b', 'b', 'b', 'b']]) =
        some "ppp\nx\nyz\naabbbb".toList ∧
      p.outcome (tightFill ++ [.write ['a', 'a'], .write ['b', 'b', 'b', 'b']]) =
        some "ppp\nx\ny\nz\naabbbb".toList := by
  refine ⟨_, rfl, fun hcut => ?_, ?_, ?_⟩
  · have := hcut.behind 'b' (by decide)
    revert this
    decide
  · decide +kernel
  · decide +kernel

end Printer

end Tilde
