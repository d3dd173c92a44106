import Tilde.Proofs.Linear.Laid

/-!
# What is queued

Between what has been laid out and the strokes taken there are the tokens that have still to be
output. A printer that has got somewhere by output agrees with one that has got there directly
(`Agrees`), and the tokens left are those of the strokes left (`Queued`); **`Agrees.put`**: so it is
after the next token.

* `Queued.append`: strokes taken in addition.
-/

namespace Tilde.Printer

/-! ## Tokens and strokes -/

/-- The tokens that strokes have issued, from a number of blocks and a path to others, with the
texts of the blocks that they begin. -/
inductive Queued (block : Nat → BlockState) :
    Nat → Path → List Stroke → List Token → Nat → Path → Prop
  | nil (n : Nat) (π : Path) : Queued block n π [] [] n π
  | text {n m : Nat} {π σ : Path} {s : Text} {t : Token} {ss : List Stroke} {ts : List Token}
      (hs : s ≠ [] ∧ '\n' ∉ s)
      (kind : t.kind = .text (Text.splitTrailing s).1 (Text.splitTrailing s).2)
      (rest : Queued block n π ss ts m σ) : Queued block n π (.text s :: ss) (t :: ts) m σ
  | newline {n m : Nat} {π σ : Path} {t : Token} {ss : List Stroke} {ts : List Token}
      (kind : t.kind = .newline .linear π) (rest : Queued block n π ss ts m σ) :
      Queued block n π (.newline .linear :: ss) (t :: ts) m σ
  | begin {n m : Nat} {π σ : Path} {opening perLine closing : Text} {t : Token} {ss : List Stroke}
      {ts : List Token} (kind : t.kind = .blockStart (n :: π))
      (plain : (Stroke.begin opening perLine closing).IsPlain)
      (texts : (block n).opening = opening ∧ (block n).perLine = perLine ∧
        (block n).closing = closing)
      (whole : (block n).broken = false ∧ (block n).brokenInside = false)
      (rest : Queued block (n + 1) (n :: π) ss ts m σ) :
      Queued block n π (.begin opening perLine closing :: ss) (t :: ts) m σ
  | finish {n m i : Nat} {π σ : Path} {t : Token} {ss : List Stroke} {ts : List Token}
      (kind : t.kind = .blockEnd (i :: π)) (inside : π ≠ [])
      (rest : Queued block n π ss ts m σ) :
      Queued block n (i :: π) (.finish :: ss) (t :: ts) m σ

namespace Queued

variable {block block' : Nat → BlockState} {n m l : Nat} {π σ τ : Path} {ss ss' : List Stroke}
  {ts ts' : List Token}

theorem le (h : Queued block n π ss ts m σ) : n ≤ m := by
  induction h with
  | nil => exact Nat.le_refl _
  | begin kind plain texts whole rest ih => omega
  | _ => assumption

/-- What matters of the blocks are those to come. -/
theorem congr (h : Queued block n π ss ts m σ)
    (hblock : ∀ i, n ≤ i → i < m → block' i = block i) : Queued block' n π ss ts m σ := by
  induction h with
  | nil => exact .nil _ _
  | text hs kind rest ih => exact .text hs kind (ih hblock)
  | newline kind rest ih => exact .newline kind (ih hblock)
  | @begin n m _ _ _ _ _ _ _ _ kind plain texts whole rest ih =>
    have heq := hblock n (Nat.le_refl n) rest.le
    exact .begin kind plain (heq ▸ texts) (heq ▸ whole)
      (ih fun i hi => hblock i (Nat.le_of_succ_le hi))
  | finish kind inside rest ih => exact .finish kind inside (ih hblock)

theorem append (h : Queued block n π ss ts m σ) (h' : Queued block m σ ss' ts' l τ) :
    Queued block n π (ss ++ ss') (ts ++ ts') l τ := by
  induction h with
  | nil => exact h'
  | text hs kind rest ih => exact .text hs kind (ih h')
  | newline kind rest ih => exact .newline kind (ih h')
  | begin kind plain texts whole rest ih => exact .begin kind plain texts whole (ih h')
  | finish kind inside rest ih => exact .finish kind inside (ih h')

theorem eq_nil (h : Queued block n π ss [] m σ) : ss = [] := by
  cases h
  rfl

theorem path_of_newline {t : Token} {kind : NewlineKind} {path : Path}
    (h : Queued block n π ss (t :: ts) m σ) (hkind : t.kind = .newline kind path) : path = π := by
  cases h <;> simp_all

end Queued

/-! ## Agreement -/

/-- The printer has output the same as the other one, and what is known of the blocks is the same as
far as they have begun. White space may have been written that the other one still holds, if `kept`
is true. -/
structure Agrees (kept : Prop) (p r : Printer) : Prop where
  size : r.blocks.size ≤ p.blocks.size
  blocks : ∀ i < r.blocks.size, p.block i = r.block i
  output : (p.base = r.base ∧ p.held = r.held) ∨ kept ∧ p.held = [] ∧ p.base = r.putHeld.base

namespace Agrees

variable {kept : Prop} {p r : Printer}

theorem putHeld (h : Agrees kept p r) : p.putHeld.base = r.putHeld.base := by
  rcases h.output with ⟨hbase, hheld⟩ | ⟨-, hheld, hbase⟩
  · rw [base_putHeld, hbase, hheld, base_putHeld]
  · rw [base_putHeld, hheld, ← hbase]
    simp [Column.write, columnAfter]

theorem modifyBlock (h : Agrees kept p r) (i : Nat) (f : BlockState → BlockState) :
    Agrees kept (p.modifyBlock i f) (r.modifyBlock i f) where
  size := by simpa using h.size
  blocks j hj := by
    rw [size_modifyBlock] at hj
    have := h.size
    simp only [block_modifyBlock, h.blocks j hj, hj, show j < p.blocks.size by omega]
  output := h.output

theorem markBroken (h : Agrees kept p r) (path : Path) :
    Agrees kept (p.markBroken path) (r.markBroken path) := by
  cases path with
  | nil => exact h
  | cons i around =>
    have hfold : ∀ (js : List Nat) {p r : Printer}, Agrees kept p r →
        Agrees kept (js.foldl (fun p j =>
          p.modifyBlock j fun b => { b with broken := true, brokenInside := true }) p)
        (js.foldl (fun p j =>
          p.modifyBlock j fun b => { b with broken := true, brokenInside := true }) r) := by
      intro js
      induction js with
      | nil => exact id
      | cons j js ih => exact fun h => ih (h.modifyBlock j _)
    exact hfold around (h.modifyBlock i _)

theorem put (h : Agrees False p r) (s : Text) : Agrees False (p.put s) (r.put s) where
  size := h.size
  blocks := h.blocks
  output := h.output.imp (fun hc => ⟨congrArg (·.write s) hc.1, hc.2⟩) fun hc => hc.1.elim

theorem putOrStop (h : Agrees False p r) (s : Except Fault Text) :
    Agrees False (p.putOrStop s) (r.putOrStop s) := by
  cases s with
  | ok s => exact h.put s
  | error e =>
    unfold Printer.putOrStop
    constructor
    · rw [toPrinterState_stop, toPrinterState_stop]
      exact h.size
    · intro i hi
      rw [toPrinterState_stop] at hi
      rw [block_stop, block_stop]
      exact h.blocks i hi
    · rw [base_stop, base_stop, held_stop, held_stop]
      exact h.output.imp_right fun hc => hc.1.elim

/-- The next line begins in the same way. -/
theorem breakLine (h : Agrees False p r) {path : Path} (hpath : path.headD 0 < r.blocks.size) :
    Agrees False (p.breakLine path) (r.breakLine path) := by
  obtain ⟨hbase, hheld⟩ := h.output.resolve_right fun hc => hc.1
  have hline : Agrees False { p.put ['\n'] with held := [] } { r.put ['\n'] with held := [] } :=
    ⟨h.size, h.blocks, Or.inl ⟨congrArg (·.write ['\n']) hbase, rfl⟩⟩
  unfold Printer.breakLine
  rw [h.blocks _ hpath]
  exact ((hline.put _).putOrStop _).markBroken path

theorem text {s : Text} {t : Token} (h : Agrees kept p r) (hidle : r.buffering = false)
    (hs : s ≠ [])
    (hkind : t.kind = .text (Text.splitTrailing s).1 (Text.splitTrailing s).2) :
    Agrees False (p.putToken t) (r.stroke (.text s)) := by
  rw [stroke_text hidle hs]
  simp only [putToken, hkind]
  exact ⟨h.size, h.blocks, Or.inl
    ⟨congrArg (fun c : Column => c.write (Text.splitTrailing s).1) h.putHeld, rfl⟩⟩

theorem blockEnd {t : Token} (h : Agrees kept p r) (hidle : r.buffering = false)
    (hcurrent : r.path.headD 0 < r.blocks.size) (hkind : t.kind = .blockEnd r.path) :
    Agrees False (p.putToken t) (r.stroke .finish) := by
  rw [stroke_finish hidle]
  simp only [putToken, hkind]
  refine ⟨h.size, h.blocks, Or.inl ⟨?_, rfl⟩⟩
  show p.putHeld.base.write (p.block (r.path.headD 0)).closing =
    r.putHeld.base.write (r.block (r.path.headD 0)).closing
  rw [h.putHeld, h.blocks _ hcurrent]

/-- A block starts in the same way, whatever has been known of its place. -/
theorem startBlock {n : Nat} {π : Path} (hsize : r.blocks.size = n + 1)
    (hle : n + 1 ≤ p.blocks.size) (hbase : p.base = r.base) (hheld : p.held = r.held)
    (hblocks : ∀ i < n, p.block i = r.block i) (hπ : ∀ i ∈ π, i < n)
    (htexts : (p.block n).opening = (r.block n).opening ∧
      (p.block n).perLine = (r.block n).perLine ∧ (p.block n).closing = (r.block n).closing)
    (hmarks : (p.block n).broken = (r.block n).broken ∧
      (p.block n).brokenInside = (r.block n).brokenInside)
    (hs : (p.startBlock (n :: π)).stopped = none) :
    Agrees False (p.startBlock (n :: π)) (r.startBlock (n :: π)) := by
  obtain ⟨hopening, hperLine, hclosing⟩ := htexts
  obtain ⟨lead, hlead⟩ := exists_leadBelow hs
  have haround : p.leadAround (n :: π) = r.leadAround (n :: π) := by
    cases π with
    | nil => rfl
    | cons j around => exact congrArg BlockState.lead (hblocks j (hπ j List.mem_cons_self))
  have hlead' : leadBelow (r.leadAround (n :: π)) (r.block ((n :: π).headD 0)).perLine
      (columnAfter r.base.column (r.block ((n :: π).headD 0)).opening) = .ok lead := by
    rw [← haround, ← hbase]
    simpa only [List.headD_cons, hopening, hperLine] using hlead
  rw [startBlock_eq hlead, startBlock_eq hlead']
  simp only [List.headD_cons, hopening, hperLine, hbase]
  refine ⟨?_, fun i hi => ?_, Or.inl ⟨congrArg (fun c : Column => c.write _) hbase, hheld⟩⟩
  · rw [size_modifyBlock, size_modifyBlock]
    exact hsize.trans_le hle
  · rw [size_modifyBlock] at hi
    have hi' : i < n + 1 := hsize ▸ hi
    rw [block_modifyBlock, block_modifyBlock]
    by_cases hin : n = i
    · subst hin
      rw [if_pos ⟨rfl, Nat.lt_of_lt_of_le hi' hle⟩, if_pos ⟨rfl, hi⟩]
      have hsame (q : Printer) (s : Text) : ((q.tell .start).put s).block n = q.block n := rfl
      simp only [hsame, hopening, hperLine, hclosing, hmarks]
    · rw [if_neg fun hc => hin hc.1, if_neg fun hc => hin hc.1]
      exact hblocks i (by omega)

theorem blockStart {opening perLine closing : Text} {t : Token} (h : Agrees kept p r)
    (hidle : r.buffering = false) (hwithin : ∀ i ∈ r.path, i < r.blocks.size)
    (hsize : r.blocks.size < p.blocks.size)
    (hkind : t.kind = .blockStart (r.blocks.size :: r.path))
    (htexts : (p.block r.blocks.size).opening = opening ∧
      (p.block r.blocks.size).perLine = perLine ∧ (p.block r.blocks.size).closing = closing)
    (hwhole : (p.block r.blocks.size).broken = false ∧
      (p.block r.blocks.size).brokenInside = false)
    (hs : (p.putToken t).stopped = none) :
    Agrees False (p.putToken t) (r.stroke (.begin opening perLine closing)) := by
  have hput : p.putToken t = p.putHeld.startBlock (r.blocks.size :: r.path) := by
    simp only [putToken, hkind]
  rw [hput] at hs ⊢
  rw [stroke_begin hidle]
  have hpush (i : Nat) := block_push r.putHeld {
    opening := opening, perLine := perLine, closing := closing
    lead := (r.block r.current).lead } (r.blocks.size :: r.path) i
  have hnew := (hpush r.blocks.size).trans (if_pos rfl)
  refine startBlock (by simp) hsize h.putHeld rfl (fun i hi => ?_) hwithin ?_ ?_ hs
  · exact (h.blocks i hi).trans ((hpush i).trans (if_neg (Nat.ne_of_lt hi))).symm
  · exact ⟨htexts.1.trans (congrArg BlockState.opening hnew).symm,
      htexts.2.1.trans (congrArg BlockState.perLine hnew).symm,
      htexts.2.2.trans (congrArg BlockState.closing hnew).symm⟩
  · exact ⟨hwhole.1.trans (congrArg BlockState.broken hnew).symm,
      hwhole.2.trans (congrArg BlockState.brokenInside hnew).symm⟩

/-- **The next token, unless it is a newline, is the next stroke.** -/
theorem next {t : Token} {ss : List Stroke} {ts : List Token} {m : Nat} {σ : Path}
    (h : Agrees kept p r) (hidle : r.buffering = false)
    (hwithin : ∀ i ∈ r.path, i < r.blocks.size) (hm : m ≤ p.blocks.size)
    (hq : Queued p.block r.blocks.size r.path ss (t :: ts) m σ) (ht : t.isNewline = false)
    (hs : (p.putToken t).stopped = none) :
    ∃ s ss', ss = s :: ss' ∧ s.IsPlain ∧ r.Allows s ∧ Agrees False (p.putToken t) (r.stroke s) ∧
      Queued (p.putToken t).block (r.stroke s).blocks.size (r.stroke s).path ss' ts m σ := by
  generalize hn : r.blocks.size = n at hq
  generalize hπ : r.path = π at hq
  cases hq with
  | @text _ _ _ _ s _ ss' _ plain kind rest =>
    refine ⟨_, ss', rfl, plain, trivial, h.text hidle plain.1 kind, ?_⟩
    have hblocks : (p.putToken t).block = p.block := by
      simp only [putToken, kind]
      rfl
    rw [hblocks, stroke_text hidle plain.1]
    exact hn ▸ hπ ▸ rest
  | newline kind rest =>
    rw [Token.isNewline_of_kind kind] at ht
    cases ht
  | @begin _ _ _ _ opening perLine closing _ ss' _ kind plain texts whole rest =>
    subst hn hπ
    refine ⟨_, ss', rfl, plain, trivial, h.blockStart hidle hwithin
      (Nat.lt_of_lt_of_le rest.le hm) kind texts whole hs, ?_⟩
    have ho := Outputs.startBlock { r.putHeld with
      blocks := r.blocks.push {
        opening := opening, perLine := perLine, closing := closing
        lead := (r.block r.current).lead }
      path := r.blocks.size :: r.path } (r.blocks.size :: r.path)
    rw [stroke_begin hidle, ho.size, ho.path, Array.size_push]
    refine rest.congr fun i hi _ => ?_
    have hput : p.putToken t = p.putHeld.startBlock (r.blocks.size :: r.path) := by
      simp only [putToken, kind]
    rw [hput] at hs ⊢
    obtain ⟨lead, hlead⟩ := exists_leadBelow hs
    rw [startBlock_eq hlead]
    exact block_modifyBlock_of_ne (Nat.ne_of_lt hi) _
  | @finish _ _ i π _ _ ss' _ kind inside rest =>
    have hcurrent : r.path.headD 0 < r.blocks.size := hwithin _ (by simp [hπ])
    have allowed : r.Allows .finish := by
      show 1 < r.path.length
      rw [hπ, List.length_cons]
      have := List.length_pos_iff.mpr inside
      omega
    refine ⟨_, ss', rfl, trivial, allowed, h.blockEnd hidle hcurrent (hπ ▸ kind), ?_⟩
    have hblocks : (p.putToken t).block = p.block := by
      simp only [putToken, kind]
      rfl
    rw [hblocks, stroke_finish hidle]
    show Queued p.block r.blocks.size r.path.tail ss' ts m σ
    rw [hn, hπ]
    exact rest

end Agrees

end Tilde.Printer
