import Tilde.Proofs.Layout.Run

/-!
# The outermost level

The outermost level is around all blocks, and there is no text at its end. So it stays, whatever is
asked of a printer and whatever comes of it: an operation may be carried out, be refused, or fail on
its way (**`Standing.run`**, `Standing.close`).

* `PrinterState.Rooted`: what is known of the outermost level;
* `Firm`: it is known of the printer and of the state that is recorded when something goes wrong;
  `Firm.takes`: a stroke keeps it;
* `Standing`, `Stands`: the printer between operations, and when one has ended.
-/

namespace Tilde

/-- The outermost level is around all blocks, and there is no text at its end. -/
structure PrinterState.Rooted (s : PrinterState) : Prop where
  outermost : s.path.getLast? = some 0
  size : 0 < s.blocks.size
  closing : (s.blocks.getD 0 {}).closing = []

theorem PrinterState.Rooted.agrees {s t : PrinterState} (h : s.Rooted) (ha : s.Agrees t) :
    t.Rooted where
  outermost := ha.path ▸ h.outermost
  size := ha.size ▸ h.size
  closing := (ha.closing 0).trans h.closing

namespace Printer

variable {p p' q : Printer} {s : Stroke} {kind : TokenKind}

/-! ## Strokes -/

/-- The printer is rooted, and so is what is recorded in it. -/
structure Firm (p : Printer) : Prop where
  rooted : p.Rooted
  recorded : ∀ e s, p.stopped = some (e, s) → s.Rooted

namespace Firm

theorem outputs (h : Firm p) (ho : Outputs p q) : Firm q where
  rooted := h.rooted.agrees ho.agrees
  recorded e s hs := by
    rcases ho.recorded e s hs with hp | hp
    · exact h.recorded e s hp
    · exact h.rooted.agrees hp

theorem restate (h : Firm p) (position : Nat) (pending : Buffer) (buffering : Bool) :
    Firm { p with position := position, pending := pending, buffering := buffering } :=
  ⟨⟨h.rooted.outermost, h.rooted.size, h.rooted.closing⟩, h.recorded⟩

theorem issue (h : Firm p) (hi : Issues p s kind p') : Firm p' := by
  cases hi with
  | begin b =>
    refine ⟨⟨?_, ?_, ?_⟩, h.recorded⟩
    · rw [List.getLast?_cons, h.rooted.outermost, Option.getD_some]
    · simp
    · exact (congrArg BlockState.closing ((block_push p b _ 0).trans
        (if_neg (Nat.ne_of_lt h.rooted.size)))).trans h.rooted.closing
  | _ => exact h

/-- Behind the end of a block, there is still a level around. -/
theorem leave (hp : Firm p) (allowed : p.Allows s) (h : Firm q) : Firm (p.leave s q) := by
  cases s with
  | finish =>
    refine ⟨⟨?_, h.rooted.size, h.rooted.closing⟩, h.recorded⟩
    have hlength : p.path.length ≠ 1 := Nat.ne_of_gt allowed
    exact (List.getLast?_tail.trans (if_neg hlength)).trans hp.rooted.outermost
  | _ => exact h

theorem drain (h : Firm p) : Firm p.writeBuffered.putHeld := by
  rw [writeBuffered_putHeld]
  have hline := (h.outputs (.writeLine p p.buffer)).restate
    (p.writeLine p.buffer).1.position (.ofList (p.writeLine p.buffer).2)
    (p.writeLine p.buffer).1.buffering
  exact ((hline.outputs (.putTokens _ _)).outputs (.putHeld _)).restate _ _ _

theorem takes (h : Firm p) (allowed : p.Allows s) (ht : Takes p s q) : Firm q := by
  cases ht with
  | nothing => exact h
  | direct t idle flat issues hkind =>
    exact h.leave allowed ((h.issue issues).outputs (.putToken _ t))
  | @enqueued s kind p' issues =>
    have hissue := (h.issue issues).restate (p'.tokenAt p.position kind).stop
      (p.pending.push (p'.tokenAt p.position kind)) true
    have hline := hissue.outputs (.writeLine _ (p.buffer ++ [p'.tokenAt p.position kind]))
    exact h.leave allowed (hline.restate _ _ _)
  | literal =>
    rw [literalNewline_eq]
    exact h.drain.outputs (.breakHere _)
  | flush => exact h.drain

theorem stroke (h : Firm p) (allowed : p.Allows s) : Firm (p.stroke s) :=
  h.takes allowed (takes_stroke p s)

theorem strokes (h : Firm p) {ss : List Stroke} (hflat : ∀ s ∈ ss, s ≠ .finish) :
    Firm (ss.foldl Printer.stroke p) := by
  induction ss generalizing p with
  | nil => exact h
  | cons s ss ih =>
    refine ih (h.stroke ?_) fun s' hs' => hflat s' (List.mem_cons_of_mem _ hs')
    have := hflat s List.mem_cons_self
    cases s <;> first | exact trivial | exact absurd rfl this

end Firm

/-! ## Operations -/

/-- The printer between operations: it is rooted, and nothing is going wrong. -/
structure Standing (p : Printer) : Prop where
  rooted : p.Rooted
  unharmed : p.stopped = none

/-- Whether the operation has been carried out or not, the printer stands. -/
def Stands : Except Stop Printer → Prop
  | .ok p => p.Standing
  | .error stop => stop.printer.Standing

theorem Firm.stands (h : Firm p) : Stands p.conclude := by
  unfold conclude
  split
  · exact ⟨h.rooted, ‹_›⟩
  · exact ⟨h.recorded _ _ ‹_›, rfl⟩

theorem standing_create {options : Options} {width : Option Int} {column : Int}
    (h : create options width column = .ok p) : p.Standing := by
  unfold create at h
  split_ifs at h <;> cases h
  all_goals exact ⟨⟨rfl, Nat.one_pos, rfl⟩, rfl⟩

namespace Standing

theorem firm (h : p.Standing) : Firm p := by
  refine ⟨h.rooted, fun e s hs => ?_⟩
  rw [h.unharmed] at hs
  cases hs

theorem room (h : p.Standing) (room : Option Nat) : { p with room := room }.Standing :=
  ⟨⟨h.rooted.outermost, h.rooted.size, h.rooted.closing⟩, h.unharmed⟩

theorem closing (h : p.Standing) : (p.block 0).closing = [] := h.rooted.closing

/-- A block can be changed, but no text may be put at the end of the outermost level. -/
theorem modifyBlock (h : p.Standing) {i : Nat} {f : BlockState → BlockState}
    (hf : i = 0 → (f (p.block 0)).closing = []) : (p.modifyBlock i f).Standing := by
  refine ⟨⟨h.rooted.outermost, ?_, ?_⟩, h.unharmed⟩
  · rw [size_modifyBlock]
    exact h.rooted.size
  · show ((p.modifyBlock i f).block 0).closing = []
    rw [block_modifyBlock]
    split_ifs with hi
    · exact hf hi.1
    · exact h.closing

theorem conclude_stroke (h : p.Standing) (allowed : p.Allows s) : Stands (p.stroke s).conclude :=
  (h.firm.stroke allowed).stands

theorem whileOpen (h : p.Standing) {x : Except Stop Printer} (hx : Stands x) :
    Stands (do p.whileOpen; x) := by
  unfold Printer.whileOpen
  split_ifs
  · exact h
  · exact hx

theorem write (h : p.Standing) (s : Text) : Stands (p.write s) := by
  refine h.whileOpen (Firm.stands ?_)
  rw [writeLines_eq]
  exact h.firm.strokes fun s hs => ne_finish_of_ofText hs

theorem freshLine (h : p.Standing) : Stands (p.freshLine.map (·.2)) := by
  unfold Printer.freshLine
  split_ifs
  · have hwrite := h.write ['\n']
    cases hresult : p.write ['\n'] <;> rwa [hresult] at hwrite
  · exact h

theorem flush (h : p.Standing) : Stands p.flush := h.firm.drain.stands

/-- **Whatever comes of an operation, the printer stands.** -/
theorem run (h : p.Standing) (op : Operation) : Stands (op.run p) := by
  cases op with
  | begin opening perLine closing level =>
    refine h.whileOpen ?_
    split_ifs
    · exact h
    · exact h.conclude_stroke (s := .begin opening perLine closing) trivial
  | finish =>
    refine h.whileOpen ?_
    split_ifs with hdepth
    · exact h
    · refine h.conclude_stroke (s := .finish) ?_
      unfold depth at hdepth
      show 1 < p.path.length
      omega
  | write s => exact h.write s
  | newline kind => exact h.whileOpen (h.conclude_stroke (s := .newline kind) trivial)
  | indent offset relative =>
    refine h.whileOpen ?_
    have hstroke := h.conclude_stroke (s := .indent offset relative) trivial
    unfold stroke at hstroke
    split_ifs at hstroke ⊢ <;> exact hstroke
  | endLine => exact h.write ['\n']
  | freshLine => exact h.freshLine
  | flush => exact h.flush

theorem close (h : p.Standing) : Stands p.close := by
  unfold Printer.close
  split_ifs
  · exact h
  · have hflush := h.flush
    cases hresult : p.flush with
    | error stop => rwa [hresult] at hflush
    | ok q =>
      rw [hresult] at hflush
      show Stands (if q.depth = 0 then _ else _)
      split_ifs
      · exact ⟨⟨hflush.rooted.outermost, hflush.rooted.size, hflush.rooted.closing⟩,
          hflush.unharmed⟩
      · exact hflush

end Standing

end Printer

end Tilde
