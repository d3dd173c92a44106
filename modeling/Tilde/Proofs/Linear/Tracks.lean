import Tilde.Proofs.Linear.Calm
import Tilde.Proofs.Linear.Queued

/-!
# The printer tracks direct layout

A printer that takes strokes has always output what direct layout of some of them outputs, and the
tokens that it has still to output are those of the others (`Tracks`). The newlines of a block in
which one has been kept are in a section that stays on the line, as long as the white space before
them is no less than it has been before the first one.

* `Tracks.putToken`: tokens that are no newlines;
* `Tracks.breaks_eq_false`, `Tracks.breakLine`, `Tracks.pass`: newlines are decided as they have been
  in their block before.
-/

namespace Tilde.Printer

/-- The printer `p` has output what comes of the strokes `ss` if they are laid out directly, with
the decisions `f`, which leads to `r`; and `ts` are the tokens of the strokes `ss'` that follow. The
blocks in which newlines have been kept are whole, and if it is `calm` in them, their sections stay
on the line. -/
structure Tracks (start : Printer) (kept : Prop) (calm : Nat → Prop) (f : Nat → Option Bool)
    (r p : Printer) (ss ss' : List Stroke) (ts : List Token) : Prop where
  laid : Laid start ss f r
  agrees : Agrees kept p r
  size : p.blocks.size = (Gaps.after (ss ++ ss')).size
  queued : Queued p.block r.blocks.size r.path ss' ts p.blocks.size (Gaps.after (ss ++ ss')).path
  steady : (Gaps.after ss).Steady (· ≤ ·) ss'
  sound : Sound p ts
  flat : Flat p ts
  whole : ∀ i ∈ r.path, f i = some false → (p.block i).broken = false
  calm : ∀ i around slack, i :: around <:+ r.path → calm i → f i = some false →
    (Gaps.after ss).first i = some slack → Calm slack p (i :: around) ts

namespace Tracks

variable {start r p : Printer} {kept : Prop} {calm : Nat → Prop} {f : Nat → Option Bool}
  {ss ss' : List Stroke} {t : Token} {ts rest : List Token}

theorem mono {kept' : Prop} {calm' : Nat → Prop}
    (h : Tracks start False calm f r p ss ss' ts) (hcalm : ∀ i, calm' i → calm i) :
    Tracks start kept' calm' f r p ss ss' ts where
  laid := h.laid
  agrees := ⟨h.agrees.size, h.agrees.blocks, h.agrees.output.imp_right fun hc => hc.1.elim⟩
  size := h.size
  queued := h.queued
  steady := h.steady
  sound := h.sound
  flat := h.flat
  whole := h.whole
  calm i around slack hsuffix hi := h.calm i around slack hsuffix (hcalm i hi)

/-! ## Tokens that are no newlines -/

/-- A stroke that is no newline begins a block or leaves one. -/
theorem suffix_of_stroke {s : Stroke} {i : Nat} {around : Path} (hr : r.buffering = false)
    (hs : s.IsPlain) (hi : i ≠ r.blocks.size) (h : i :: around <:+ (r.stroke s).path) :
    i :: around <:+ r.path := by
  cases s with
  | begin opening perLine closing =>
    rw [stroke_begin hr, (Outputs.startBlock _ _).path] at h
    rcases List.suffix_cons_iff.mp h with h | h
    · exact absurd (List.cons.inj h).1 hi
    · exact h
  | finish =>
    rw [stroke_finish hr] at h
    exact h.trans (List.tail_suffix _)
  | text s =>
    rw [stroke_text hr hs.1] at h
    exact h
  | _ => exact hs.elim

/-- **A token that is no newline is output.** -/
theorem putToken (hstart : start.Unused) (h : Tracks start kept calm f r p ss ss' (t :: ts))
    (ht : t.isNewline = false) (hs : (p.putToken t).stopped = none) :
    ∃ s ss'', ss' = s :: ss'' ∧
      Tracks start False calm f (r.stroke s) (p.putToken t) (ss ++ [s]) ss'' ts := by
  have hr := h.laid.regular hstart
  obtain ⟨s, ss'', rfl, hplain, allowed, hagrees, hqueued⟩ :=
    h.agrees.next hr.idle hr.within (Nat.le_refl _) h.queued ht hs
  have ho := Outputs.putToken p t
  have hnew (i : Nat) (hi : f i = some false) : i ≠ r.blocks.size :=
    Nat.ne_of_lt (hr.known i (by simp [hi]))
  refine ⟨s, ss'', rfl, h.laid.stroke hplain allowed, hagrees, ?_, ?_, ?_,
    (h.sound.of_suffix (List.suffix_cons t ts)).outputs ho, h.flat.putToken, ?_, ?_⟩
  · rw [ho.size, h.size, List.append_assoc, List.singleton_append]
  · rw [ho.size, List.append_assoc, List.singleton_append]
    exact hqueued
  · rw [Gaps.after_concat]
    exact h.steady.2
  · intro i hi hf
    rw [broken_putToken ht]
    obtain ⟨inner, around, hpath⟩ := List.append_of_mem hi
    have hsuffix : i :: around <:+ (r.stroke s).path := ⟨inner, hpath.symm⟩
    exact h.whole i ((suffix_of_stroke hr.idle hplain (hnew i hf) hsuffix).subset
      List.mem_cons_self) hf
  · intro i around slack hsuffix hi hf hslack
    rw [Gaps.after_concat, Gaps.first_step hplain] at hslack
    have hcalm := h.calm i around slack (suffix_of_stroke hr.idle hplain (hnew i hf) hsuffix) hi hf
      hslack
    exact hcalm.putToken h.sound h.flat (Token.breaksOutside_of_not_isNewline ht)
      (fun kind path hkind => by rw [Token.isNewline_of_kind hkind] at ht; cases ht) hs

/-! ## Newlines -/

/-- The next newline is one of the current block. -/
theorem newline {kind : NewlineKind} {path : Path} (h : Tracks start kept calm f r p ss ss' (t :: ts))
    (hkind : t.kind = .newline kind path) :
    kind = .linear ∧ path = r.path ∧ ∃ ss'', ss' = .newline .linear :: ss'' ∧
      Queued p.block r.blocks.size r.path ss'' ts p.blocks.size (Gaps.after (ss ++ ss')).path := by
  have hq := h.queued
  generalize hall : (Gaps.after (ss ++ ss')).path = σ at hq ⊢
  generalize hπ : r.path = π at hq ⊢
  cases hq with
  | @newline _ _ _ _ _ ss'' _ hkind' rest =>
    rw [hkind] at hkind'
    cases hkind'
    exact ⟨rfl, rfl, ss'', rfl, rest⟩
  | _ => simp_all

theorem breaksOutside_current {kind : NewlineKind} {i : Nat} {around : Path}
    (hr : Regular (Gaps.after ss) f r) (hkind : t.kind = .newline kind r.path)
    (hsuffix : i :: around <:+ r.path) : t.breaksOutside (i :: around) = false := by
  obtain ⟨inner, hpath⟩ := hsuffix
  have hdescending := hr.descending
  rw [← hpath] at hdescending hkind
  cases inner with
  | nil =>
    rw [Token.breaksOutside_eq hkind]
    have hnot : i ∉ around := fun hi =>
      Nat.lt_irrefl i ((List.pairwise_cons.mp hdescending).1 i hi)
    simpa using hnot
  | cons k inner =>
    rw [Token.breaksOutside_eq hkind]
    have hnot : k ∉ around := fun hk =>
      Nat.lt_irrefl k ((List.pairwise_cons.mp hdescending).1 k (by simp [hk]))
    simpa using hnot

theorem first_newline (hr : Regular (Gaps.after ss) f r) (i : Nat) :
    (Gaps.after (ss ++ [.newline .linear])).first i =
      if i = r.current then some (((Gaps.after ss).first i).getD (Gaps.after ss).trailing)
      else (Gaps.after ss).first i := by
  rw [Gaps.after_concat, Gaps.step, hr.path]
  rfl

/-- No block on the path has a broken one inside. -/
theorem current_whole (hr : Regular (Gaps.after ss) f r) (hagrees : Agrees kept p r) {i : Nat}
    (hi : i ∈ r.path) (hwhole : (p.block i).broken = false) :
    (p.block r.current).broken = false := by
  by_contra hbroken
  have hcurrent := hr.within _ hr.current_mem
  rw [hagrees.blocks _ hcurrent, Bool.not_eq_false] at hbroken
  have haround := hr.around r.current r.path.tail ⟨[], hr.path_eq.symm⟩ hbroken
  rw [hagrees.blocks _ (hr.within i hi)] at hwhole
  rw [hr.path_eq] at hi
  rcases List.mem_cons.mp hi with rfl | hi
  · rw [hwhole] at hbroken
    cases hbroken
  · rw [haround i hi] at hwhole
    cases hwhole

/-- **A newline stays on the line** if one has been kept in its block or in a block around it. -/
theorem breaks_eq_false {kind : NewlineKind} {path : Path} {i : Nat} (hstart : start.Unused)
    (h : Tracks start False (fun _ => True) f r p ss ss' (t :: (ts ++ rest)))
    (hkind : t.kind = .newline kind path) (hi : i ∈ r.path) (hf : f i = some false) :
    p.breaks kind (path.headD 0) (Token.sectionOf path ts) (Token.subsectionOf path ts) = false := by
  have hr := h.laid.regular hstart
  obtain ⟨rfl, rfl, ss'', rfl, -⟩ := h.newline hkind
  have hwhole := current_whole hr h.agrees hi (h.whole i hi hf)
  have hheld : (Gaps.after ss).trailing = p.held.length := by
    obtain ⟨-, hheld⟩ := h.agrees.output.resolve_right fun hc => hc.1
    refine hheld ▸ hr.held.resolve_left fun hmarked => ?_
    rw [h.agrees.blocks _ (hr.within _ hr.current_mem), hr.marked _ hmarked] at hwhole
    cases hwhole
  cases hslack : (Gaps.after ss).first i with
  | none => simp [(hr.first i).mp hslack] at hf
  | some slack =>
    obtain ⟨inner, around, hpath⟩ := List.append_of_mem hi
    have hsuffix : i :: around <:+ r.path := ⟨inner, hpath.symm⟩
    have hle : slack ≤ (Gaps.after ss).trailing := h.steady.1 i (by rwa [hr.path]) slack hslack
    have hcalm := (h.calm i around slack hsuffix trivial hf hslack).pass h.sound.contiguous
      (Token.isNewline_of_kind hkind) (breaksOutside_current hr hkind hsuffix)
    have hfits := hcalm.fits_section hsuffix h.sound.contiguous.tail (hheld ▸ hle)
    show ((p.block r.current).broken || !p.fits (Token.sectionOf r.path ts)) = false
    rw [hwhole, hfits]
    rfl

/-- A newline breaks the line, if none has been kept in its block and those around it. -/
theorem broken {kind : NewlineKind} {path : Path} (kept' : Prop) (calm' : Nat → Prop)
    (hstart : start.Unused) (h : Tracks start kept calm f r p ss ss' (t :: ts)) (hexact : ¬kept)
    (hkind : t.kind = .newline kind path) (hnone : ∀ i ∈ r.path, f i ≠ some false) :
    ∃ ss'', ss' = .newline .linear :: ss'' ∧
      Tracks start kept' calm' (Function.update f r.current (some true)) (r.breakLine r.path)
        (p.breakLine path) (ss ++ [.newline .linear]) ss'' ts := by
  have hr := h.laid.regular hstart
  obtain ⟨rfl, rfl, ss'', rfl, hrest⟩ := h.newline hkind
  have ho := Outputs.breakLine p r.path
  have ho' := Outputs.breakLine r r.path
  have hlaid := h.laid.newline true (hnone _ hr.current_mem)
  have hexact' : Agrees False p r :=
    ⟨h.agrees.size, h.agrees.blocks, h.agrees.output.imp_right fun hc => (hexact hc.1).elim⟩
  obtain ⟨hsize, hblocks, houtput⟩ := hexact'.breakLine (hr.within _ hr.current_mem)
  have hall : ss ++ [.newline .linear] ++ ss'' = ss ++ .newline .linear :: ss'' := by simp
  have hnone' : ∀ i ∈ (r.breakLine r.path).path,
      Function.update f r.current (some true) i ≠ some false := by
    intro i hi
    rw [ho'.path] at hi
    rw [Function.update_apply]
    split_ifs
    · simp
    · exact hnone i hi
  refine ⟨ss'', rfl, hlaid, ⟨hsize, hblocks, houtput.imp_right fun hc => hc.1.elim⟩, ?_, ?_, ?_,
    (h.sound.of_suffix (List.suffix_cons t ts)).outputs ho, ?_, ?_, ?_⟩
  · rw [ho.size, hall, h.size]
  · rw [ho.size, ho'.size, ho'.path, hall]
    refine hrest.congr fun i hi _ => block_breakLine (fun hmem => ?_) p
    exact absurd (hr.within i hmem) (by omega)
  · rw [Gaps.after_concat]
    exact h.steady.2
  · exact h.flat.outputs ho (by simp) (List.subset_cons_self t ts)
  · exact fun i hi hf => absurd hf (hnone' i hi)
  · exact fun i around slack hsuffix _ hf =>
      absurd hf (hnone' i (hsuffix.subset List.mem_cons_self))

/-- A newline that breaks the line in settling. -/
theorem breakLine {kind : NewlineKind} {path : Path} (hstart : start.Unused)
    (h : Tracks start False (fun _ => True) f r p ss ss' (t :: (ts ++ rest)))
    (hkind : t.kind = .newline kind path)
    (hbreaks : p.breaks kind (path.headD 0) (Token.sectionOf path ts)
      (Token.subsectionOf path ts) = true) :
    ∃ ss'', ss' = .newline .linear :: ss'' ∧
      Tracks start False (fun _ => True) (Function.update f r.current (some true))
        (r.breakLine r.path) (p.breakLine path) (ss ++ [.newline .linear]) ss'' (ts ++ rest) := by
  refine h.broken False (fun _ => True) hstart id hkind fun i hi hf => ?_
  rw [h.breaks_eq_false hstart hkind hi hf] at hbreaks
  cases hbreaks

/-- A newline that is passed over in settling, since its section fits. -/
theorem pass {kind : NewlineKind} {path : Path} (hstart : start.Unused)
    (h : Tracks start False (fun _ => True) f r p ss ss' (t :: (ts ++ rest)))
    (hkind : t.kind = .newline kind path)
    (hbreaks : p.breaks kind (path.headD 0) (Token.sectionOf path ts)
      (Token.subsectionOf path ts) = false) (hfits : p.fits (t :: ts) = false) :
    ∃ ss'', ss' = .newline .linear :: ss'' ∧
      Tracks start False (fun _ => True) (Function.update f r.current (some false)) r p
        (ss ++ [.newline .linear]) ss'' (ts ++ rest) := by
  have hr := h.laid.regular hstart
  obtain ⟨rfl, rfl, ss'', rfl, hrest⟩ := h.newline hkind
  obtain ⟨hwhole, hsection⟩ : (p.block r.current).broken = false ∧
      p.fits (Token.sectionOf r.path ts) = true := by
    have hbreaks' : ((p.block r.current).broken || !p.fits (Token.sectionOf r.path ts)) = false :=
      hbreaks
    simpa using hbreaks'
  have hlawful : f r.current ≠ some true := fun hmarked => by
    rw [h.agrees.blocks _ (hr.within _ hr.current_mem), hr.marked _ hmarked] at hwhole
    cases hwhole
  have hnewline := Token.isNewline_of_kind hkind
  have hall : ss ++ [.newline .linear] ++ ss'' = ss ++ .newline .linear :: ss'' := by simp
  refine ⟨ss'', rfl, h.laid.newline false hlawful, h.agrees, by rw [hall, h.size],
    by rw [hall]; exact hrest, ?_, h.sound.of_suffix (List.suffix_cons t _),
    ⟨h.flat.held, h.flat.opening, h.flat.perLine, h.flat.closing,
      fun u hu => h.flat.text u (List.mem_cons_of_mem t hu)⟩, ?_, ?_⟩
  · rw [Gaps.after_concat]
    exact h.steady.2
  · intro i hi hf
    rw [Function.update_apply] at hf
    split_ifs at hf with hcase
    · exact hcase ▸ hwhole
    · exact h.whole i hi hf
  · intro i around slack hsuffix _ hf hslack
    have hinside := breaksOutside_current hr hkind hsuffix
    rw [first_newline hr] at hslack
    rw [Function.update_apply] at hf
    split_ifs at hf hslack with hcase
    · subst hcase
      cases hfirst : (Gaps.after ss).first r.current with
      | none =>
        have hnone := (hr.first _).mp hfirst
        obtain ⟨-, hheld⟩ := h.agrees.output.resolve_right fun hc => hc.1
        have hslack' : slack = p.held.length := by
          rw [hheld, ← hr.held.resolve_left (by simp [hnone])]
          simpa [hfirst] using hslack.symm
        have hc : Token.Contiguous ((t :: ts) ++ rest) := h.sound.contiguous
        rw [hr.eq_path hsuffix, hslack']
        exact .of_fits hc.left hnewline hsection hfits
      | some slack' =>
        obtain rfl : slack' = slack := by simpa [hfirst] using hslack
        have hkept : f r.current = some false := by
          cases hdecided : f r.current with
          | none => simp [(hr.first _).mpr hdecided] at hfirst
          | some b =>
            cases b with
            | true => exact absurd hdecided hlawful
            | false => rfl
        exact (h.calm _ around _ hsuffix trivial hkept hfirst).pass h.sound.contiguous hnewline
          hinside
    · exact (h.calm i around slack hsuffix trivial hf hslack).pass h.sound.contiguous hnewline
        hinside

end Tracks

end Tilde.Printer
