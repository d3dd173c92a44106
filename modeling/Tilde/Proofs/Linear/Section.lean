import Tilde.Proofs.Linear.Tracks

/-!
# Sections output at once

A section that is known to fit is output at once, and so is all that is left at the end. Its newlines
break the line only where others have broken in their blocks (**`Inside.putTokens`**). Behind a
section comes a newline of a block outside, so all blocks of the section are over
(`Inside.exact`).
-/

namespace Tilde.Printer

namespace Tracks

variable {start r p : Printer} {kept : Prop} {calm : Nat → Prop} {f : Nat → Option Bool}
  {ss ss' : List Stroke} {t : Token} {ts us rest : List Token}

/-- A newline that stays on the line when its section is output. -/
theorem keep {kind : NewlineKind} {path : Path} (kept' : Prop) (hstart : start.Unused)
    (h : Tracks start kept calm f r p ss ss' (t :: ts)) (hkind : t.kind = .newline kind path)
    (hwhole : (p.block r.current).broken = false) (hcalm : ¬calm r.current) (hkept : kept') :
    ∃ ss'', ss' = .newline .linear :: ss'' ∧ p.putToken t = p.putHeld ∧
      (p.putHeld.stopped = none →
        Tracks start kept' calm (Function.update f r.current (some false)) r p.putHeld
          (ss ++ [.newline .linear]) ss'' ts) := by
  have hr := h.laid.regular hstart
  obtain ⟨rfl, rfl, ss'', rfl, hrest⟩ := h.newline hkind
  have hlawful : f r.current ≠ some true := fun hmarked => by
    rw [h.agrees.blocks _ (hr.within _ hr.current_mem), hr.marked _ hmarked] at hwhole
    cases hwhole
  have hany : p.breaksAnyway .linear (r.path.headD 0) = false := hwhole
  have hput : p.putToken t = p.putHeld := by
    simp only [Printer.putToken, hkind, hany, Bool.false_eq_true, if_false]
  have hall : ss ++ [.newline .linear] ++ ss'' = ss ++ .newline .linear :: ss'' := by simp
  refine ⟨ss'', rfl, hput, fun hs => ⟨h.laid.newline false hlawful, ?_, by rw [hall]; exact h.size,
    by rw [hall]; exact hrest, ?_, ?_, ?_, ?_, ?_⟩⟩
  · exact ⟨h.agrees.size, h.agrees.blocks, Or.inr ⟨hkept, rfl, h.agrees.putHeld⟩⟩
  · rw [Gaps.after_concat]
    exact h.steady.2
  · exact (h.sound.of_suffix (List.suffix_cons t ts)).outputs (.putHeld p)
  · exact h.flat.outputs (.putHeld p) (by simp) (List.subset_cons_self t ts)
  · intro i hi hf
    rw [Function.update_apply] at hf
    split_ifs at hf with hcase
    · exact hcase ▸ hwhole
    · exact h.whole i hi hf
  · intro i around slack hsuffix hi hf hslack
    rw [first_newline hr] at hslack
    rw [Function.update_apply] at hf
    split_ifs at hf hslack with hcase
    · exact absurd (hcase ▸ hi) hcalm
    · have hsection := (h.calm i around slack hsuffix hi hf hslack).putToken h.sound h.flat
        (breaksOutside_current hr hkind hsuffix) (fun kind path hkind' => by
          obtain ⟨rfl, rfl⟩ : kind = .linear ∧ path = r.path := by simp_all
          exact hany) (hput ▸ hs)
      rwa [hput] at hsection

end Tracks

/-- A section is being output whose newlines are not of the blocks `outer`, all of which are around
it. -/
structure Inside (start : Printer) (outer : Path) (f : Nat → Option Bool) (r p : Printer)
    (ss ss' : List Stroke) (ts : List Token) : Prop where
  tracks : Tracks start (f r.current = some false ∧ r.current ∉ outer) (· ∈ outer) f r p ss ss' ts
  bound : ∀ k ∈ outer, k < r.blocks.size
  inner : ∀ i ∈ r.path, i ∈ outer ∨ ∀ k ∈ outer, k < i

namespace Inside

variable {start r p : Printer} {outer : Path} {f : Nat → Option Bool} {ss ss' : List Stroke}
  {t : Token} {ts us : List Token}

theorem exists_path {s : Stroke} (hr : r.buffering = false) (hs : s.IsPlain)
    (hbound : ∀ k ∈ outer, k < r.blocks.size)
    (hinner : ∀ i ∈ r.path, i ∈ outer ∨ ∀ k ∈ outer, k < i) :
    (∀ k ∈ outer, k < (r.stroke s).blocks.size) ∧
      ∀ i ∈ (r.stroke s).path, i ∈ outer ∨ ∀ k ∈ outer, k < i := by
  cases s with
  | begin opening perLine closing =>
    rw [stroke_begin hr, (Outputs.startBlock _ _).path, (Outputs.startBlock _ _).size,
      Array.size_push]
    refine ⟨fun k hk => Nat.lt_succ_of_lt (hbound k hk), fun i hi => ?_⟩
    rcases List.mem_cons.mp hi with rfl | hi
    · exact Or.inr hbound
    · exact hinner i hi
  | finish =>
    rw [stroke_finish hr]
    exact ⟨hbound, fun i hi => hinner i (List.mem_of_mem_tail hi)⟩
  | text s =>
    rw [stroke_text hr hs.1]
    exact ⟨hbound, hinner⟩
  | _ => exact hs.elim

/-- A token of the section is output. -/
theorem putToken (hstart : start.Unused) (h : Inside start outer f r p ss ss' (t :: ts))
    (ht : ∀ kind i around, t.kind = .newline kind (i :: around) → i ∉ outer)
    (hs : (p.putToken t).stopped = none) :
    ∃ f' r' ss₁ ss₂, ss₁ ++ ss₂ = ss ++ ss' ∧ Inside start outer f' r' (p.putToken t) ss₁ ss₂ ts := by
  have hr := h.tracks.laid.regular hstart
  cases hnewline : t.isNewline with
  | false =>
    obtain ⟨s, ss'', rfl, htracks⟩ := h.tracks.putToken hstart hnewline hs
    have hplain : s.IsPlain := by
      obtain ⟨s', ss₁, heq, hplain, -⟩ := h.tracks.agrees.next hr.idle hr.within (Nat.le_refl _)
        h.tracks.queued hnewline hs
      exact (List.cons.inj heq).1 ▸ hplain
    obtain ⟨hbound, hinner⟩ := exists_path hr.idle hplain h.bound h.inner
    exact ⟨f, _, _, ss'', by simp, htracks.mono fun _ hi => hi, hbound, hinner⟩
  | true =>
    obtain ⟨kind, path, hkind⟩ := Token.isNewline_iff.mp hnewline
    obtain ⟨rfl, rfl, -⟩ := h.tracks.newline hkind
    have houter : r.current ∉ outer := ht _ _ _ (hr.path_eq ▸ hkind)
    cases hbroken : (p.block r.current).broken with
    | true =>
      have hnone : ∀ i ∈ r.path, f i ≠ some false := fun i hi hf => by
        rw [Tracks.current_whole hr h.tracks.agrees hi (h.tracks.whole i hi hf)] at hbroken
        cases hbroken
      have hput : p.putToken t = p.breakLine r.path := by
        have hany : p.breaksAnyway .linear (r.path.headD 0) = true := hbroken
        simp only [Printer.putToken, hkind, hany, if_true]
      have ho := Outputs.breakLine r r.path
      obtain ⟨ss'', rfl, htracks⟩ := h.tracks.broken
        (Function.update f r.current (some true) (r.breakLine r.path).current = some false ∧
          (r.breakLine r.path).current ∉ outer) (· ∈ outer) hstart
        (fun hkept => hnone _ hr.current_mem hkept.1) hkind hnone
      rw [hput]
      exact ⟨_, _, _, ss'', by simp, htracks, ho.size.symm ▸ h.bound, ho.path.symm ▸ h.inner⟩
    | false =>
      obtain ⟨ss'', rfl, hput, htracks⟩ := h.tracks.keep
        (Function.update f r.current (some false) r.current = some false ∧ r.current ∉ outer)
        hstart hkind hbroken houter ⟨Function.update_self .., houter⟩
      rw [hput] at hs ⊢
      exact ⟨_, _, _, ss'', by simp, htracks hs, h.bound, h.inner⟩

/-- **A section is output at once.** -/
theorem putTokens (hstart : start.Unused) (h : Inside start outer f r p ss ss' (us ++ ts))
    (hus : ∀ t ∈ us, ∀ kind i around, t.kind = .newline kind (i :: around) → i ∉ outer)
    (hs : (p.putTokens us).stopped = none) :
    ∃ f' r' ss₁ ss₂, ss₁ ++ ss₂ = ss ++ ss' ∧
      Inside start outer f' r' (p.putTokens us) ss₁ ss₂ ts := by
  induction us generalizing f r p ss ss' with
  | nil => exact ⟨f, r, ss, ss', rfl, h⟩
  | cons t us ih =>
    obtain ⟨f₁, r₁, ss₁, ss₂, hall, h₁⟩ := h.putToken hstart (hus t List.mem_cons_self)
      ((Outputs.putTokens (p.putToken t) us).unharmed hs)
    obtain ⟨f₂, r₂, ss₃, ss₄, hall', h₂⟩ := ih h₁ (fun u hu => hus u (List.mem_cons_of_mem t hu)) hs
    exact ⟨f₂, r₂, ss₃, ss₄, hall'.trans hall, h₂⟩

/-- Behind the section, nothing that has been kept in it matters. -/
theorem exact {path : Path} (hstart : start.Unused)
    (h : Inside start path.tail f r p ss ss' (t :: ts)) (hout : t.breaksOutside path = true) :
    Tracks start False (fun _ => True) f r p ss ss' (t :: ts) := by
  have hr := h.tracks.laid.regular hstart
  obtain ⟨kind, path', hkind⟩ := Token.isNewline_iff.mp (Token.isNewline_of_breaksOutside hout)
  obtain ⟨-, rfl, -⟩ := h.tracks.newline hkind
  have hcurrent : r.current ∈ path.tail := by
    rw [hr.path_eq] at hkind
    rw [Token.breaksOutside_eq hkind] at hout
    simpa using hout
  obtain ⟨hlaid, ⟨hsize, hblocks, houtput⟩, hall, hqueued, hsteady, hsound, hflat, hwhole, hcalm⟩ :=
    h.tracks
  refine ⟨hlaid, ⟨hsize, hblocks, houtput.imp_right fun hc => absurd hcurrent hc.1.2⟩, hall, hqueued,
    hsteady, hsound, hflat, hwhole, fun i around slack hsuffix _ => hcalm i around slack hsuffix ?_⟩
  have hmem := hsuffix.subset List.mem_cons_self
  refine (h.inner i hmem).resolve_right fun hlt => ?_
  have hgt := hlt _ hcurrent
  have hdescending := hr.descending
  rw [hr.path_eq] at hmem hdescending
  rcases List.mem_cons.mp hmem with rfl | hmem
  · exact Nat.lt_irrefl _ hgt
  · exact Nat.lt_asymm hgt ((List.pairwise_cons.mp hdescending).1 i hmem)

end Inside

end Tilde.Printer
