import Tilde.Proofs.Layout.Rooted

/-!
# The blocks that are open

Which blocks are open is known of a printer, and also of the state that is recorded when something
goes wrong. Only the start and the end of a block change it, the start before anything is output, the
end after that. So what is open behind them depends on how they end (**`leaves_begin`**,
**`leaves_finish`**); all else leaves it alone (**`leaves_write`**, `leaves_newline` and so on).

* `Leaves`: which blocks are open behind an operation;
* `pathDuring`: the blocks that are open while a stroke is taken;
* `Records`: what is known of the blocks that were open when something went wrong.
-/

namespace Tilde.Printer

variable {p q : Printer} {s : Stroke} {Q : Path → Prop}

/-- Which blocks are open behind an operation: these if it is carried out, and such if it fails. -/
def Leaves (done : Path) (failed : Path → Prop) : Except Stop Printer → Prop
  | .ok p => p.path = done
  | .error stop => failed stop.printer.path

/-! ## Strokes -/

/-- The blocks that are open while a stroke is taken: a block is open before its start is output, and
until its end has been. -/
def pathDuring (p : Printer) : Stroke → Path
  | .begin .. => p.blocks.size :: p.path
  | _ => p.path

theorem Issues.pathDuring {p' : Printer} {kind : TokenKind} (h : Issues p s kind p') :
    p'.path = p.pathDuring s := by
  cases h <;> rfl

theorem Issues.stopped {p' : Printer} {kind : TokenKind} (h : Issues p s kind p') :
    p'.stopped = p.stopped := by
  cases h <;> rfl

/-- If something has gone wrong, such blocks were open. -/
def Records (Q : Path → Prop) (p : Printer) : Prop := ∀ e t, p.stopped = some (e, t) → Q t.path

theorem records_of_unharmed (hp : p.stopped = none) : Records Q p := by
  intro e t h
  rw [hp] at h
  cases h

namespace Records

theorem outputs (h : Records Q p) (hpath : Q p.path) (ho : Outputs p q) : Records Q q := by
  intro e t ht
  rcases ho.recorded e t ht with hp | hp
  · exact h e t hp
  · rw [hp.path]
    exact hpath

theorem leave (h : Records Q q) : Records Q (p.leave s q) := by
  cases s <;> exact h

theorem drain (h : Records Q p) (hpath : Q p.path) : Records Q p.writeBuffered.putHeld := by
  have hline := Outputs.writeLine p p.buffer
  have hbuffer : Records Q { (p.writeLine p.buffer).1 with pending := .ofList (p.writeLine p.buffer).2 } :=
    h.outputs (q := (p.writeLine p.buffer).1) hpath hline
  rw [writeBuffered_putHeld]
  have hpath' : Q (p.writeLine p.buffer).1.path := hline.path ▸ hpath
  have ho := Outputs.putTokens { (p.writeLine p.buffer).1 with
    pending := .ofList (p.writeLine p.buffer).2 } (p.writeLine p.buffer).2
  have hput := (hbuffer.outputs hpath' ho).outputs (ho.path ▸ hpath') (.putHeld _)
  exact hput

/-- **What goes wrong in a stroke** goes wrong while these blocks are open. -/
theorem stroke (h : Records Q p) (hpath : Q (p.pathDuring s)) : Records Q (p.stroke s) := by
  have hissue {kind : TokenKind} {p' : Printer} (issues : Issues p s kind p') :
      Records Q p' ∧ Q p'.path :=
    ⟨fun e t ht => h e t (issues.stopped ▸ ht), issues.pathDuring ▸ hpath⟩
  have htakes := takes_stroke p s
  generalize p.stroke s = q at htakes
  cases htakes with
  | nothing => exact h
  | @direct s kind p' t idle flat issues hkind =>
    exact leave ((hissue issues).1.outputs (hissue issues).2 (.putToken p' t))
  | @enqueued s kind p' issues =>
    have hline : Records Q (writeLine { p' with
        position := (p'.tokenAt p.position kind).stop
        pending := p.pending.push (p'.tokenAt p.position kind)
        buffering := true } (p.buffer ++ [p'.tokenAt p.position kind])).1 :=
      outputs (p := { p' with
        position := (p'.tokenAt p.position kind).stop
        pending := p.pending.push (p'.tokenAt p.position kind)
        buffering := true }) (hissue issues).1 (hissue issues).2 (.writeLine _ _)
    exact leave hline
  | literal =>
    rw [literalNewline_eq]
    refine (h.drain hpath).outputs ?_ (.breakHere _)
    rw [← stroke.eq_6, path_stroke]
    exact hpath
  | flush => exact h.drain hpath

end Records

/-- **Behind a stroke** that may go wrong. -/
theorem leaves_conclude (hp : p.stopped = none) (s : Stroke) :
    Leaves (p.pathAfter s) (· = p.pathDuring s) (p.stroke s).conclude := by
  have hrecords := (records_of_unharmed (Q := (· = p.pathDuring s)) hp).stroke rfl
  unfold conclude
  split
  · exact path_stroke p s
  · exact hrecords _ _ ‹_›

/-! ## Operations -/

theorem Leaves.whileOpen {done : Path} {failed : Path → Prop} {x : Except Stop Printer}
    (hp : failed p.path) (h : Leaves done failed x) : Leaves done failed (do p.whileOpen; x) := by
  unfold Printer.whileOpen
  split_ifs
  · exact hp
  · exact h

theorem Leaves.mono {done : Path} {failed failed' : Path → Prop} {x : Except Stop Printer}
    (h : Leaves done failed x) (hfailed : ∀ path, failed path → failed' path) :
    Leaves done failed' x := by
  cases x with
  | ok q => exact h
  | error stop => exact hfailed _ h

section

variable (hp : p.stopped = none)

include hp

/-- **Behind the start of a block** the block is open, unless the start has failed. -/
theorem leaves_begin (opening perLine closing : Text) (level : Option Int) :
    Leaves (p.blocks.size :: p.path) (fun path => path = p.path ∨ path = p.blocks.size :: p.path)
      (p.begin opening perLine closing level) := by
  refine .whileOpen (.inl rfl) ?_
  split_ifs
  · exact .inl rfl
  · exact (leaves_conclude hp (.begin opening perLine closing)).mono fun _ => .inr

/-- **Behind its end** a block is not open any longer, unless the end has failed. -/
theorem leaves_finish : Leaves p.path.tail (· = p.path) p.finish := by
  refine .whileOpen rfl ?_
  split_ifs
  · exact rfl
  · exact leaves_conclude hp .finish

theorem leaves_newline (kind : NewlineKind) : Leaves p.path (· = p.path) (p.newline kind) :=
  .whileOpen rfl (leaves_conclude hp (.newline kind))

theorem leaves_indent (offset : Option Number) (relative : Bool) :
    Leaves p.path (· = p.path) (p.indent offset relative) := by
  have h := leaves_conclude hp (.indent offset relative)
  refine .whileOpen rfl ?_
  unfold stroke at h
  split_ifs at h ⊢ <;> exact h

theorem leaves_flush : Leaves p.path (· = p.path) p.flush := leaves_conclude hp .flush

/-- **Text** is written by strokes that leave the blocks alone. -/
theorem leaves_write (t : Text) : Leaves p.path (· = p.path) (p.write t) := by
  have hstrokes (ss : List Stroke) (hss : ∀ s ∈ ss, ∀ q : Printer, q.pathAfter s = q.path ∧
      q.pathDuring s = q.path) (q : Printer) (hpath : q.path = p.path)
      (hrecords : Records (· = p.path) q) : (ss.foldl Printer.stroke q).path = p.path ∧
        Records (· = p.path) (ss.foldl Printer.stroke q) := by
    induction ss generalizing q with
    | nil => exact ⟨hpath, hrecords⟩
    | cons s ss ih =>
      obtain ⟨hs, hss⟩ := List.forall_mem_cons.mp hss
      refine ih hss (q.stroke s) ?_ (hrecords.stroke ?_)
      · rw [path_stroke, (hs q).1, hpath]
      · rw [(hs q).2, hpath]
  have hflat (s : Stroke) (hs : s ∈ Stroke.ofText [] t) (q : Printer) :
      q.pathAfter s = q.path ∧ q.pathDuring s = q.path := by
    cases s with
    | begin => exact absurd hs not_begin_of_ofText
    | finish => exact absurd rfl (ne_finish_of_ofText hs)
    | _ => exact ⟨rfl, rfl⟩
  obtain ⟨hpath, hrecords⟩ := hstrokes _ hflat p rfl (records_of_unharmed hp)
  refine .whileOpen rfl ?_
  rw [writeLines_eq]
  unfold conclude
  split
  · exact hpath
  · exact hrecords _ _ ‹_›

end

end Tilde.Printer
