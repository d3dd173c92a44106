import Tilde.Proofs.Layout.Fatal

/-!
# What output leaves alone

Output changes the column stream, the white space held, what observers have been told, and what the
printer knows about the places of blocks. All else stays (**`Outputs`**): the texts of all blocks and
whatever else the printer has been given (`Frame`), the buffer, and the current block. If something
goes wrong, the state that is recorded for it has the same blocks open (`Agrees`).

* `Outputs.putToken`, `Outputs.breakLine`: single tokens;
* `Outputs.putTokens`: runs of them.
-/

namespace Tilde

/-- The same blocks are open, and the text at the end of each block is the same. -/
structure PrinterState.Agrees (s t : PrinterState) : Prop where
  path : t.path = s.path
  size : t.blocks.size = s.blocks.size
  closing : ∀ i, (t.blocks.getD i {}).closing = (s.blocks.getD i {}).closing

theorem PrinterState.Agrees.trans {s t u : PrinterState} (h : s.Agrees t) (h' : t.Agrees u) :
    s.Agrees u where
  path := h'.path.trans h.path
  size := h'.size.trans h.size
  closing i := (h'.closing i).trans (h.closing i)

namespace Printer

variable {p q r : Printer}

/-- Nothing about the printer has been decided anew: not where it prints to, nor how, nor the texts
of any block. Nothing that went wrong is forgotten, and what goes wrong now is
fatal. -/
structure Frame (p q : Printer) : Prop where
  closed : q.closed = p.closed
  options : q.options = p.options
  maxColumn : q.base.maxColumn = p.base.maxColumn
  sinkClosed : q.base.closed = p.base.closed
  size : q.blocks.size = p.blocks.size
  opening : ∀ i, (q.block i).opening = (p.block i).opening
  perLine : ∀ i, (q.block i).perLine = (p.block i).perLine
  closing : ∀ i, (q.block i).closing = (p.block i).closing
  unharmed : q.stopped = none → p.stopped = none
  fault : ∀ e s, q.stopped = some (e, s) → p.stopped = some (e, s) ∨ e.isFatal = true

theorem Frame.refl (p : Printer) : Frame p p := by
  refine ⟨rfl, rfl, rfl, rfl, rfl, fun _ => rfl, fun _ => rfl, fun _ => rfl, id, ?_⟩
  exact fun e s h => Or.inl h

theorem Frame.trans (h : Frame p q) (h' : Frame q r) : Frame p r where
  closed := h'.closed.trans h.closed
  options := h'.options.trans h.options
  maxColumn := h'.maxColumn.trans h.maxColumn
  sinkClosed := h'.sinkClosed.trans h.sinkClosed
  size := h'.size.trans h.size
  opening i := (h'.opening i).trans (h.opening i)
  perLine i := (h'.perLine i).trans (h.perLine i)
  closing i := (h'.closing i).trans (h.closing i)
  unharmed hr := h.unharmed (h'.unharmed hr)
  fault e s hr := (h'.fault e s hr).elim (h.fault e s) Or.inr

theorem Frame.of_stopped (hclosed : q.closed = p.closed) (hoptions : q.options = p.options)
    (hmax : q.base.maxColumn = p.base.maxColumn) (hsink : q.base.closed = p.base.closed)
    (hblocks : q.blocks = p.blocks) (hs : q.stopped = p.stopped) : Frame p q := by
  have hblock (i : Nat) : q.block i = p.block i := by rw [block, hblocks, block]
  refine ⟨hclosed, hoptions, hmax, hsink, by rw [hblocks], ?_, ?_, ?_, ?_, ?_⟩
  · exact fun i => by rw [hblock]
  · exact fun i => by rw [hblock]
  · exact fun i => by rw [hblock]
  · exact fun h => hs ▸ h
  · exact fun e s h => Or.inl (hs ▸ h)

theorem Frame.restate (p : Printer) (path : Path) (position : Nat) (pending : Buffer)
    (buffering : Bool) (room : Option Nat) :
    Frame p { p with
      path := path, position := position, pending := pending, buffering := buffering
      room := room } :=
  .of_stopped rfl rfl rfl rfl rfl rfl

/-- One printer comes from another by output alone. -/
structure Outputs (p q : Printer) : Prop extends Frame p q where
  path : q.path = p.path
  position : q.position = p.position
  pending : q.pending = p.pending
  buffering : q.buffering = p.buffering
  room : q.room = p.room
  recorded : ∀ e s, q.stopped = some (e, s) →
    p.stopped = some (e, s) ∨ p.toPrinterState.Agrees s

namespace Outputs

theorem agrees (h : Outputs p q) : p.toPrinterState.Agrees q.toPrinterState :=
  ⟨h.path, h.size, h.closing⟩

theorem refl (p : Printer) : Outputs p p :=
  ⟨.refl p, rfl, rfl, rfl, rfl, rfl, fun _ _ h => Or.inl h⟩

theorem trans (h : Outputs p q) (h' : Outputs q r) : Outputs p r where
  toFrame := h.toFrame.trans h'.toFrame
  path := h'.path.trans h.path
  position := h'.position.trans h.position
  pending := h'.pending.trans h.pending
  buffering := h'.buffering.trans h.buffering
  room := h'.room.trans h.room
  recorded e s hr := by
    rcases h'.recorded e s hr with hq | hq
    · exact h.recorded e s hq
    · exact Or.inr (h.agrees.trans hq)

end Outputs

/-! ## Blocks -/

theorem block_modifyBlock (p : Printer) (i j : Nat) (f : BlockState → BlockState) :
    (p.modifyBlock i f).block j =
      if i = j ∧ j < p.blocks.size then f (p.block j) else p.block j := by
  simp only [modifyBlock, block, Array.getD_eq_getD_getElem?, Array.getElem?_modify]
  by_cases hij : i = j <;> by_cases hj : j < p.blocks.size <;> simp [hij, hj]

theorem block_modifyBlock_of_ne {i j : Nat} (h : i ≠ j) (f : BlockState → BlockState) :
    (p.modifyBlock i f).block j = p.block j := by
  rw [block_modifyBlock, if_neg fun hc => h hc.1]

/-- What the change leaves alone in a block, it leaves alone in all. -/
theorem field_modifyBlock {α : Type} (g : BlockState → α) {f : BlockState → BlockState}
    (hg : ∀ b, g (f b) = g b) (p : Printer) (i j : Nat) :
    g ((p.modifyBlock i f).block j) = g (p.block j) := by
  rw [block_modifyBlock]
  split_ifs
  · exact hg _
  · rfl

theorem field_markBroken {α : Type} (g : BlockState → α)
    (hg : ∀ b broken inside, g { b with broken := broken, brokenInside := inside } = g b)
    (p : Printer) (path : Path) (j : Nat) : g ((p.markBroken path).block j) = g (p.block j) := by
  have hfold : ∀ (js : List Nat) (q : Printer), g ((js.foldl (fun p j =>
      p.modifyBlock j fun b => { b with broken := true, brokenInside := true }) q).block j) =
      g (q.block j) := by
    intro js
    induction js with
    | nil => exact fun q => rfl
    | cons i js ih =>
      intro q
      rw [List.foldl_cons, ih, field_modifyBlock g fun b => hg b true true]
  cases path with
  | nil => rfl
  | cons i around => rw [markBroken, hfold, field_modifyBlock g fun b => hg b true false]

@[simp] theorem size_modifyBlock (p : Printer) (i : Nat) (f : BlockState → BlockState) :
    (p.modifyBlock i f).blocks.size = p.blocks.size := by
  simp [modifyBlock]

/-! ## Output -/

namespace Outputs

theorem put (p : Printer) (s : Text) : Outputs p (p.put s) :=
  ⟨.of_stopped rfl rfl rfl rfl rfl rfl, rfl, rfl, rfl, rfl, rfl, fun _ _ h => Or.inl h⟩

theorem putHeld (p : Printer) : Outputs p p.putHeld :=
  ⟨.of_stopped rfl rfl rfl rfl rfl rfl, rfl, rfl, rfl, rfl, rfl, fun _ _ h => Or.inl h⟩

theorem hold (p : Printer) (s : Text) : Outputs p { p with held := s } :=
  ⟨.of_stopped rfl rfl rfl rfl rfl rfl, rfl, rfl, rfl, rfl, rfl, fun _ _ h => Or.inl h⟩

theorem tell (p : Printer) (e : BlockEvent) : Outputs p (p.tell e) :=
  ⟨.of_stopped rfl rfl rfl rfl rfl rfl, rfl, rfl, rfl, rfl, rfl, fun _ _ h => Or.inl h⟩

theorem stop (p : Printer) {e : Fault} (he : e.isFatal = true) : Outputs p (p.stop e) := by
  unfold Printer.stop
  split_ifs with hs
  · exact refl p
  · refine ⟨⟨rfl, rfl, rfl, rfl, rfl, fun _ => rfl, fun _ => rfl, fun _ => rfl, nofun, ?_⟩,
      rfl, rfl, rfl, rfl, rfl, ?_⟩
    · rintro e' s h
      cases h
      exact Or.inr he
    · rintro e' s h
      cases h
      exact Or.inr ⟨rfl, rfl, fun _ => rfl⟩

theorem modifyBlock (p : Printer) (i : Nat) {f : BlockState → BlockState}
    (hf : ∀ b, (f b).opening = b.opening ∧ (f b).perLine = b.perLine ∧ (f b).closing = b.closing) :
    Outputs p (p.modifyBlock i f) := by
  refine ⟨⟨rfl, rfl, rfl, rfl, size_modifyBlock p i f, ?_, ?_, ?_, id, ?_⟩, rfl, rfl, rfl, rfl,
    rfl, fun _ _ h => Or.inl h⟩
  · exact fun j => field_modifyBlock _ (fun b => (hf b).1) p i j
  · exact fun j => field_modifyBlock _ (fun b => (hf b).2.1) p i j
  · exact fun j => field_modifyBlock _ (fun b => (hf b).2.2) p i j
  · exact fun e s h => Or.inl h

theorem markBroken (p : Printer) (path : Path) : Outputs p (p.markBroken path) := by
  cases path with
  | nil => exact refl p
  | cons i around =>
    have hfold : ∀ (js : List Nat) (q : Printer), Outputs q (js.foldl (fun p j =>
        p.modifyBlock j fun b => { b with broken := true, brokenInside := true }) q) := by
      intro js
      induction js with
      | nil => exact refl
      | cons j js ih =>
        intro q
        exact (modifyBlock q j (f := fun b => { b with broken := true, brokenInside := true })
          fun b => ⟨rfl, rfl, rfl⟩).trans (ih _)
    exact (modifyBlock p i (f := fun b => { b with broken := true, brokenInside := false })
      fun b => ⟨rfl, rfl, rfl⟩).trans (hfold around _)

theorem putOrStop (p : Printer) {s : Except Fault Text} (hs : ∀ e, s = .error e → e.isFatal = true) :
    Outputs p (p.putOrStop s) := by
  cases s with
  | ok s => exact put p s
  | error e => exact stop p (hs e rfl)

theorem breakLine (p : Printer) (path : Path) : Outputs p (p.breakLine path) :=
  ((put p _).trans (hold _ _)).trans
    ((put _ _).trans ((putOrStop _ fun _ => isFatal_indentation).trans (markBroken _ _)))

theorem startBlock (p : Printer) (path : Path) : Outputs p (p.startBlock path) := by
  have hopening := (tell p .start).trans (put _ (p.block (path.headD 0)).opening)
  unfold Printer.startBlock
  dsimp only
  split
  · exact hopening.trans (stop _ (isFatal_leadBelow ‹_›))
  · exact hopening.trans ((put _ _).trans (modifyBlock _ _ fun b => ⟨rfl, rfl, rfl⟩))

theorem endBlock (p : Printer) (path : Path) : Outputs p (p.endBlock path) :=
  (put p _).trans (tell _ _)

theorem setIndent (p : Printer) (path : Path) (offset : Option Number) (relative : Bool) :
    Outputs p (p.setIndent path offset relative) := by
  unfold Printer.setIndent
  dsimp only
  split
  · exact modifyBlock _ _ fun b => ⟨rfl, rfl, rfl⟩
  · rename_i e herror
    refine stop _ ?_
    split at herror
    · exact isFatal_plus herror
    · cases herror
      rfl

theorem putToken (p : Printer) (t : Token) : Outputs p (p.putToken t) := by
  unfold Printer.putToken
  split
  · exact setIndent _ _ _ _
  · split
    · exact breakLine _ _
    · exact putHeld p
  · exact (putHeld p).trans ((put _ _).trans (hold _ _))
  · exact (putHeld p).trans (startBlock _ _)
  · exact (putHeld p).trans (endBlock _ _)

theorem putTokens (p : Printer) (ts : List Token) : Outputs p (p.putTokens ts) := by
  unfold Printer.putTokens
  induction ts generalizing p with
  | nil => exact refl p
  | cons t ts ih => exact (putToken p t).trans (ih _)

end Outputs

end Printer

end Tilde
