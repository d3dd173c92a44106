import Tilde.Proofs.Layout.Stroke

/-!
# What is buffered

**`Buffered.strokes`**: whatever the strokes, something is buffered exactly while a newline is
undecided, the buffered tokens follow each other without a gap and take the room that they print,
and they fit on the line.

* `Sound`: tokens that are laid out well for a printer; `Sound.issue`: one token more;
* `Buffered`: the invariant of the printer between strokes; `Buffered.takes`: a stroke keeps it.
-/

namespace Tilde

/-- The blocks that a token names, innermost first. -/
def TokenKind.path : TokenKind → Path
  | text .. => []
  | blockStart path | blockEnd path | newline _ path | indent path .. => path

namespace Printer

/-! ## Paths -/

/-- The current path is not empty and stays within the blocks. -/
def Within (p : Printer) : Prop := p.path ≠ [] ∧ ∀ i ∈ p.path, i < p.blocks.size

namespace Within

variable {p p' q : Printer} {s : Stroke} {kind : TokenKind}

theorem outputs (h : p.Within) (ho : Outputs p q) : q.Within := by
  rwa [Within, ho.path, ho.size]

theorem issue (h : p.Within) (hi : Issues p s kind p') : p'.Within := by
  cases hi with
  | begin b =>
    refine ⟨List.cons_ne_nil _ _, fun i hmem => ?_⟩
    rw [Array.size_push]
    rcases List.mem_cons.mp hmem with rfl | hmem
    · exact Nat.lt_succ_self _
    · exact Nat.lt_succ_of_lt (h.2 i hmem)
  | _ => exact h

theorem leave (h : p.Within) (allowed : p.Allows s) (hsize : p.blocks.size ≤ q.blocks.size)
    (hq : q.Within) : (p.leave s q).Within := by
  cases s with
  | finish =>
    refine ⟨fun hnil => ?_, fun i hmem => ?_⟩
    · have : 1 < p.path.length := allowed
      have := congrArg List.length hnil
      simp only [Printer.leave, List.length_tail, List.length_nil] at this
      omega
    · exact Nat.lt_of_lt_of_le (h.2 i (List.mem_of_mem_tail hmem)) hsize
  | _ => exact hq

end Within

/-! ## Tokens -/

/-- Tokens without a gap between them, which take the room that they print and name blocks of the
printer. -/
structure Sound (p : Printer) (ts : List Token) : Prop where
  contiguous : Token.Contiguous ts
  width : ∀ t ∈ ts, t.stop = t.start + (p.printed t).length
  known : ∀ t ∈ ts, ∀ i ∈ t.kind.path, i < p.blocks.size
  root : 0 < p.blocks.size

theorem printed_newline {p : Printer} {t : Token} (h : t.isNewline = true) : p.printed t = [] := by
  obtain ⟨kind, path, hkind⟩ := Token.isNewline_iff.mp h
  simp [printed, hkind]

theorem getLast?_of_suffix {α : Type} {us ts : List α} (h : us <:+ ts) :
    ∀ t ∈ us.getLast?, t ∈ ts.getLast? := by
  obtain ⟨vs, rfl⟩ := h
  intro t ht
  simp_all [List.getLast?_append]

namespace Sound

variable {p q : Printer} {ts us : List Token} {t : Token}

theorem nil (h : 0 < p.blocks.size) : Sound p [] :=
  ⟨.nil, by simp, by simp, h⟩

theorem outputs (h : Sound p ts) (ho : Outputs p q) : Sound q ts where
  contiguous := h.contiguous
  width t ht := by rw [ho.printed, h.width t ht]
  known t ht i hi := ho.size ▸ h.known t ht i hi
  root := ho.size ▸ h.root

theorem of_suffix (h : Sound p ts) (hs : us <:+ ts) : Sound p us where
  contiguous := h.contiguous.of_suffix hs
  width t ht := h.width t (hs.subset ht)
  known t ht := h.known t (hs.subset ht)
  root := h.root

theorem left (h : Sound p (ts ++ us)) : Sound p ts where
  contiguous := h.contiguous.left
  width t ht := h.width t (List.mem_append_left _ ht)
  known t ht := h.known t (List.mem_append_left _ ht)
  root := h.root

theorem extent_eq (h : Sound p ts) : Token.extent ts = (ts.flatMap p.printed).length := by
  induction ts with
  | nil => rfl
  | cons t ts ih =>
    have hwidth := h.width t List.mem_cons_self
    rw [Token.extent_cons h.contiguous, ih (h.of_suffix (List.suffix_cons t ts)),
      List.flatMap_cons, List.length_append]
    omega

theorem headD_lt (h : Sound p ts) (ht : t ∈ ts) : t.kind.path.headD 0 < p.blocks.size := by
  cases hpath : t.kind.path with
  | nil => exact h.root
  | cons i path => exact h.known t ht i (by simp [hpath])

/-- A new block does not change what the tokens print. -/
theorem printed (h : Sound p ts) {s : Stroke} {kind : TokenKind} (hi : Issues p s kind q)
    (ht : t ∈ ts) : q.printed t = p.printed t := by
  have hlt := h.headD_lt ht
  unfold Printer.printed
  split <;> rename_i hkind <;> simp only [hkind, TokenKind.path] at hlt
  · rfl
  · rw [hi.block hlt]
  · rw [hi.block hlt]
  · rfl
  · rfl

/-- **One token more**, where the last one stops. -/
theorem issue (h : Sound p ts) {s : Stroke} {kind : TokenKind} (hi : Issues p s kind q)
    (hp : p.Within) {start : Nat} (hstart : ∀ u ∈ ts.getLast?, u.stop = start) :
    Sound q (ts ++ [q.tokenAt start kind]) := by
  have hprinted : q.printed (q.tokenAt start kind) = q.printed ⟨0, 0, kind⟩ := printed_kind q rfl
  have hpath := (hp.issue hi).2
  refine ⟨⟨?_, ?_, ?_⟩, ?_, ?_, Nat.lt_of_lt_of_le h.root hi.size_le⟩
  · exact h.contiguous.chain.append (.singleton _) (by simpa [tokenAt] using hstart)
  · intro t ht
    rcases List.mem_append.mp ht with ht | ht
    · exact h.contiguous.ordered t ht
    · obtain rfl := List.mem_singleton.mp ht
      exact Nat.le_add_right _ _
  · intro t ht hnewline
    rcases List.mem_append.mp ht with ht | ht
    · exact h.contiguous.flat t ht hnewline
    · obtain rfl := List.mem_singleton.mp ht
      rw [printed_newline hnewline] at hprinted
      simp [tokenAt, ← hprinted]
  · intro t ht
    rcases List.mem_append.mp ht with ht | ht
    · rw [h.printed hi ht, h.width t ht]
    · obtain rfl := List.mem_singleton.mp ht
      rw [hprinted]
      rfl
  · intro t ht i hmem
    rcases List.mem_append.mp ht with ht | ht
    · exact Nat.lt_of_lt_of_le (h.known t ht i hmem) hi.size_le
    · obtain rfl := List.mem_singleton.mp ht
      cases hi with
      | text => simp [tokenAt, TokenKind.path] at hmem
      | _ => exact hpath i hmem

end Sound

/-! ## The invariant -/

/-- A token that is output right away does not touch the buffer. -/
theorem Issues.buffer_putToken {p p' : Printer} {s : Stroke} {kind : TokenKind}
    (h : Issues p s kind p') (t : Token) : (p'.putToken t).buffer = p.buffer := by
  rw [buffer, (Outputs.putToken p' t).pending, h.state]
  rfl

/-- The buffer of a printer between strokes. -/
structure Buffered (p : Printer) : Prop where
  sound : Sound p p.buffer
  position : ∀ t ∈ p.buffer.getLast?, t.stop = p.position
  busy : p.buffering = true ↔ p.buffer ≠ []
  fits : p.buffer = [] ∨ p.fits p.buffer = true
  within : p.Within

namespace Buffered

variable {p p' q : Printer} {s : Stroke} {kind : TokenKind}

theorem idle (hq : q.Within) (hbuffer : q.buffer = []) (hbuffering : q.buffering = false) :
    Buffered q where
  sound := hbuffer ▸ .nil (Nat.lt_of_le_of_lt (Nat.zero_le _) (hq.2 _ (List.head_mem hq.1)))
  position := by simp [hbuffer]
  busy := by simp [hbuffer, hbuffering]
  fits := Or.inl hbuffer
  within := hq

theorem buffer_eq_nil (h : Buffered p) (hidle : p.buffering = false) : p.buffer = [] := by
  by_contra hne
  rw [h.busy.mpr hne] at hidle
  exact Bool.noConfusion hidle

/-- The buffer holds what is left of a line. -/
theorem keep {tokens : List Token} (hp : p.Within) (hsound : Sound p tokens)
    (hposition : ∀ t ∈ tokens.getLast?, t.stop = p.position)
    (hs : (p.writeLine tokens).1.stopped = none) : Buffered (Printer.keep (p.writeLine tokens)) := by
  have ho := Outputs.writeLine p tokens
  have hsuffix := writeLine_suffix p tokens
  have hfits := fits_writeLine hs
  generalize p.writeLine tokens = r at *
  constructor
  · rw [buffer_keep]
    obtain ⟨hcontiguous, hwidth, hknown, hroot⟩ := (hsound.of_suffix hsuffix).outputs ho
    exact ⟨hcontiguous, hwidth, hknown, hroot⟩
  · rw [buffer_keep]
    exact fun t ht => (hposition t (getLast?_of_suffix hsuffix t ht)).trans ho.position.symm
  · simp [Printer.keep, buffer]
  · rw [buffer_keep]
    exact hfits
  · exact Within.outputs (q := r.1) hp ho

theorem leave (h : Buffered q) (hp : p.Within) (allowed : p.Allows s)
    (hsize : p.blocks.size ≤ q.blocks.size) : Buffered (p.leave s q) := by
  obtain ⟨⟨hcontiguous, hwidth, hknown, hroot⟩, hposition, hbusy, hfits, hq⟩ := h
  have hleave := Within.leave (s := s) hp allowed hsize hq
  cases s <;> exact ⟨⟨hcontiguous, hwidth, hknown, hroot⟩, hposition, hbusy, hfits, hleave⟩

theorem drain (h : Buffered p) : Buffered p.writeBuffered.putHeld := by
  have hline : Within { (p.writeLine p.buffer).1 with pending := .ofList (p.writeLine p.buffer).2 } :=
    Within.outputs (q := (p.writeLine p.buffer).1) h.within (.writeLine p p.buffer)
  have hall := hline.outputs ((Outputs.putTokens _ (p.writeLine p.buffer).2).trans (.putHeld _))
  rw [writeBuffered_putHeld]
  exact idle hall rfl rfl

/-- **A stroke keeps the invariant.** -/
theorem takes (h : Buffered p) (allowed : p.Allows s) (ht : Takes p s q) (hs : q.stopped = none) :
    Buffered q := by
  cases ht with
  | nothing => exact h
  | @direct s kind p' t hidle flat issues hkind =>
    have ho := Outputs.putToken p' t
    refine leave (idle ((h.within.issue issues).outputs ho) ?_ ?_) h.within allowed ?_
    · rw [issues.buffer_putToken, h.buffer_eq_nil hidle]
    · rw [ho.buffering, issues.state]
      exact hidle
    · rw [ho.size]
      exact issues.size_le
  | @enqueued s kind p' issues =>
    obtain ⟨hcontiguous, hwidth, hknown, hroot⟩ := h.sound.issue issues h.within h.position
    have hp' : p'.Within := h.within.issue issues
    refine leave (keep hp' ⟨hcontiguous, hwidth, hknown, hroot⟩ (by simp) ?_) h.within allowed ?_
    · rwa [stopped_leave] at hs
    · have ho := Outputs.writeLine { p' with
        position := (p'.tokenAt p.position kind).stop
        pending := p.pending.push (p'.tokenAt p.position kind)
        buffering := true } (p.buffer ++ [p'.tokenAt p.position kind])
      exact issues.size_le.trans ho.size.ge
  | literal =>
    rw [literalNewline_eq]
    have hdrain := h.drain
    have ho := Outputs.breakHere p.writeBuffered.putHeld
    refine idle (hdrain.within.outputs ho) ?_ ?_
    · rw [buffer, ho.pending]
      rfl
    · rw [ho.buffering]
      rfl
  | flush => exact h.drain

theorem stroke (h : Buffered p) (allowed : p.Allows s) (hs : (p.stroke s).stopped = none) :
    Buffered (p.stroke s) :=
  h.takes allowed (takes_stroke p s) hs

theorem room (h : Buffered p) (room : Option Nat) : Buffered { p with room := room } := by
  obtain ⟨⟨hcontiguous, hwidth, hknown, hroot⟩, hposition, hbusy, hfits, hq⟩ := h
  exact ⟨⟨hcontiguous, hwidth, hknown, hroot⟩, hposition, hbusy, hfits, hq⟩

/-- **So do any strokes.** -/
theorem strokes (h : Buffered p) {ss : List Stroke} (hss : Strokes p ss q) : Buffered q := by
  induction hss with
  | nil p => exact h
  | cons room allowed unharmed rest ih => exact ih ((h.room room).stroke allowed unharmed)

end Buffered

end Printer

end Tilde
