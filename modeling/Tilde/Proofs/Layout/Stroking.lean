import Tilde.Proofs.Layout.Buffered

/-!
# Strokes, token by token

What holds of a printer and of the tokens that it has still to output is kept by every stroke, if it
is kept by single tokens: when one is issued, when one is output, and when all of them are
(`Stroking`, **`Stroking.stroke`**). It may be about the strokes taken so far, by an account that is
kept of them.
-/

namespace Tilde.Printer

/-- A relation between an account of the strokes taken, a printer and the tokens that it has still
to output, which is kept by every step of a stroke. `next` says how the account goes on with the
stroke that a printer takes. -/
structure Stroking {G : Type} (next : G → Printer → Stroke → G → Prop)
    (P : G → Printer → List Token → Prop) : Prop where
  settling (g : G) : Settling (P g)
  restate {g : G} {p : Printer} {ts : List Token} (path : Path) (position : Nat) (pending : Buffer)
      (buffering : Bool) (room : Option Nat) :
    P g p ts → P g { p with
      path := path, position := position, pending := pending, buffering := buffering
      room := room } ts
  nothing {g g' : G} {p : Printer} {ts : List Token} :
    next g p (.text []) g' → P g p ts → P g' p ts
  issue {g g' : G} {p p' : Printer} {s : Stroke} {kind : TokenKind} {ts : List Token}
      (start : Nat) :
    next g p s g' → Issues p s kind p' → Sound p ts → Sound p' (ts ++ [p'.tokenAt start kind]) →
    ts = [] ∨ p.fits ts = true → P g p ts → P g' p' (ts ++ [p'.tokenAt start kind])
  flush {g g' : G} {p q : Printer} {ts : List Token} :
    next g p .flush g' → ts = [] ∨ q.fits ts = true → (q.putTokens ts).stopped = none → P g q ts →
    P g' (q.putTokens ts).putHeld []
  literal {g g' : G} {p q : Printer} {ts : List Token} :
    next g p (.newline .literal) g' → ts = [] ∨ q.fits ts = true →
    (q.putTokens ts).stopped = none → q.path = p.path → P g q ts →
    P g' { (q.putTokens ts).putHeld with pending := .empty, buffering := false }.breakHere []

theorem putToken_kind (p : Printer) {t t' : Token} (h : t.kind = t'.kind) :
    p.putToken t = p.putToken t' := by
  simp only [putToken, h]

theorem Issues.isNewline {p p' : Printer} {s : Stroke} {kind : TokenKind} (h : Issues p s kind p')
    (flat : ∀ k, s ≠ .newline k) (start : Nat) : (p'.tokenAt start kind).isNewline = false := by
  cases h with
  | newline => exact absurd rfl (flat _)
  | _ => rfl

namespace Stroking

variable {G : Type} {next : G → Printer → Stroke → G → Prop} {P : G → Printer → List Token → Prop}
variable {g g' : G} {p q : Printer} {s : Stroke}

theorem leave (hP : Stroking next P) {ts : List Token} (h : P g q ts) : P g (p.leave s q) ts := by
  cases s with
  | finish => exact hP.restate _ _ _ _ _ h
  | _ => exact h

/-- Before everything is output, what can be settled is. -/
theorem drain (hP : Stroking next P) (hp : Buffered p) (h : P g p p.buffer)
    (hs : p.writeBuffered.putHeld.stopped = none) :
    ∃ q ts, (ts = [] ∨ q.fits ts = true) ∧ (q.putTokens ts).stopped = none ∧ q.path = p.path ∧
      P g q ts ∧
      p.writeBuffered.putHeld =
        { (q.putTokens ts).putHeld with pending := .empty, buffering := false } := by
  rw [writeBuffered_putHeld] at hs ⊢
  have ho := (Outputs.putTokens { (p.writeLine p.buffer).1 with
    pending := .ofList (p.writeLine p.buffer).2 } (p.writeLine p.buffer).2).trans (.putHeld _)
  have hunharmed : (p.writeLine p.buffer).1.stopped = none := ho.unharmed hs
  have hline := (hP.settling g).writeLine hunharmed hp.sound.contiguous []
    (by rwa [List.append_nil])
  rw [List.append_nil] at hline
  refine ⟨{ (p.writeLine p.buffer).1 with pending := .ofList (p.writeLine p.buffer).2 }, _,
    fits_writeLine hunharmed, hs, (Outputs.writeLine p p.buffer).path, ?_, rfl⟩
  exact hP.restate _ _ _ _ _ hline

/-- Of an empty buffer, the token that is issued is all that there is to output. -/
theorem issue_direct (hP : Stroking next P) (hnext : next g p s g') (hp : Buffered p)
    (h : P g p p.buffer) (hnil : p.buffer = []) {kind : TokenKind} {p' : Printer}
    (issues : Issues p s kind p') : P g' p' [p'.tokenAt 0 kind] := by
  have hissue := hP.issue 0 hnext issues hp.sound
    (hp.sound.issue issues hp.within (by simp [hnil])) hp.fits h
  rwa [hnil, List.nil_append] at hissue

/-- Else it comes behind the buffer, which is then written as lines. -/
theorem issue_enqueued (hP : Stroking next P) (hnext : next g p s g') (hp : Buffered p)
    (h : P g p p.buffer) {kind : TokenKind} {p' : Printer} (issues : Issues p s kind p') :
    Token.Contiguous (p.buffer ++ [p'.tokenAt p.position kind]) ∧
      P g' { p' with
        position := (p'.tokenAt p.position kind).stop
        pending := p.pending.push (p'.tokenAt p.position kind)
        buffering := true } (p.buffer ++ [p'.tokenAt p.position kind]) := by
  have hsound := hp.sound.issue issues hp.within hp.position
  exact ⟨hsound.contiguous, hP.restate _ _ _ _ _
    (hP.issue p.position hnext issues hp.sound hsound hp.fits h)⟩

theorem takes (hP : Stroking next P) (hnext : next g p s g') (hp : Buffered p)
    (h : P g p p.buffer) (ht : Takes p s q) (hs : q.stopped = none) : P g' q q.buffer := by
  cases ht with
  | nothing => exact hP.nothing hnext h
  | @direct s kind p' t hidle flat issues hkind =>
    have hnil := hp.buffer_eq_nil hidle
    have heq : p'.putToken t = p'.putToken (p'.tokenAt 0 kind) := putToken_kind p' hkind
    have hput := (hP.settling g').put (issues.isNewline flat 0) (by rwa [stopped_leave, heq] at hs)
      (hP.issue_direct hnext hp h hnil issues)
    rw [buffer_leave, issues.buffer_putToken, hnil]
    refine hP.leave ?_
    rwa [heq]
  | @enqueued s kind p' issues =>
    obtain ⟨hcontiguous, hissue⟩ := hP.issue_enqueued hnext hp h issues
    have hline := (hP.settling g').writeLine (by rwa [stopped_leave] at hs) hcontiguous []
      (by rwa [List.append_nil])
    rw [List.append_nil] at hline
    rw [buffer_leave, buffer_keep]
    exact hP.leave (hP.restate _ _ _ _ _ hline)
  | literal =>
    rw [literalNewline_eq] at hs ⊢
    obtain ⟨r, ts, hfits, hs, hpath, hr, heq⟩ := hP.drain hp h
      ((Outputs.breakHere _).unharmed hs)
    have hbuffer : p.writeBuffered.putHeld.breakHere.buffer = [] := by
      rw [buffer, (Outputs.breakHere _).pending]
      rfl
    rw [hbuffer, heq]
    exact hP.literal hnext hfits hs hpath hr
  | flush =>
    obtain ⟨r, ts, hfits, hs, -, hr, heq⟩ := hP.drain hp h hs
    rw [heq]
    exact hP.restate _ _ _ _ _ (hP.flush hnext hfits hs hr)

theorem stroke (hP : Stroking next P) (g' : G) (hnext : next g p s g') (hp : Buffered p)
    (h : P g p p.buffer) (hs : (p.stroke s).stopped = none) :
    P g' (p.stroke s) (p.stroke s).buffer :=
  hP.takes hnext hp h (takes_stroke p s) hs

end Stroking

end Tilde.Printer
