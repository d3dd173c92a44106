import Tilde.Proofs.Linear.Section

/-!
# Strokes of linear layout

A printer follows the strokes that it has taken if it tracks direct layout of the first of them and
has still to output the others, or if all of them are laid out (`Follows`). **`follows_stroking`**:
this is kept by every stroke of linear layout (`Progress.Goes`).
-/

namespace Tilde.Printer

/-- The strokes that have issued tokens so far, before and after all is output. -/
inductive Progress
  | ongoing (ss : List Stroke)
  | finished (ss : List Stroke)

/-- The strokes go on with a stroke of linear layout. -/
inductive Progress.Goes : Progress → Printer → Stroke → Progress → Prop
  | token {ss : List Stroke} {p : Printer} {s : Stroke} (issuing : s.IsPlain ∨ s = .newline .linear)
      (path : p.path = (Gaps.after ss).path) (allowed : p.Allows s)
      (suits : (Gaps.after ss).Suits (· ≤ ·) s) : Goes (ongoing ss) p s (ongoing (ss ++ [s]))
  | nothing {ss : List Stroke} {p : Printer} : Goes (ongoing ss) p (.text []) (ongoing ss)
  | flush {ss : List Stroke} {p : Printer} : Goes (ongoing ss) p .flush (finished ss)

/-- The printer has still to output the last of the tokens, or has laid out all. -/
def Follows (start : Printer) : Progress → Printer → List Token → Prop
  | .ongoing all, p, ts => ∃ f r ss ss', ss ++ ss' = all ∧
      Tracks start False (fun _ => True) f r p ss ss' ts
  | .finished all, p, ts => ts = [] ∧ ∃ f r, Laid start all f r ∧ p.base = r.putHeld.base

variable {start r p p' : Printer} {f : Nat → Option Bool} {ss ss' : List Stroke} {s : Stroke}
  {ts rest : List Token}

theorem newlineFree_of_linear (issuing : s.IsPlain ∨ s = .newline .linear) : s.NewlineFree := by
  rcases issuing with hplain | rfl
  · cases s with
    | text s => exact hplain.2
    | begin opening perLine closing => exact hplain
    | _ => trivial
  · trivial

theorem Issues.size_step {g : Gaps} {kind : TokenKind} (hi : Issues p s kind p')
    (issuing : s.IsPlain ∨ s = .newline .linear) (hsize : p.blocks.size = g.size) :
    p'.blocks.size = (g.step s).size := by
  cases hi with
  | begin b => simpa [Gaps.step] using hsize
  | text hs =>
    rw [Gaps.step, if_neg hs]
    exact hsize
  | _ => exact hsize

/-- The token of a stroke is queued for it. -/
theorem Issues.queued {g : Gaps} {kind : TokenKind} (hi : Issues p s kind p') (start' : Nat)
    (issuing : s.IsPlain ∨ s = .newline .linear) (hpath : p.path = g.path)
    (hsize : p.blocks.size = g.size) (allowed : p.Allows s) :
    Queued p'.block p.blocks.size p.path [s] [p'.tokenAt start' kind] p'.blocks.size
      (g.step s).path := by
  have hfree := newlineFree_of_linear issuing
  cases hi with
  | text hs =>
    rw [Gaps.step, if_neg hs, ← hpath]
    exact .text ⟨hs, hfree⟩ rfl (.nil _ _)
  | begin b whole wholeInside lead =>
    have hnew := (block_push p b (p.blocks.size :: p.path) p.blocks.size).trans (if_pos rfl)
    rw [Gaps.step, ← hpath, ← hsize, Array.size_push]
    refine .begin rfl hfree ?_ ?_ (.nil _ _)
    · exact ⟨congrArg BlockState.opening hnew, congrArg BlockState.perLine hnew,
        congrArg BlockState.closing hnew⟩
    · exact ⟨(congrArg BlockState.broken hnew).trans whole,
        (congrArg BlockState.brokenInside hnew).trans wholeInside⟩
  | finish =>
    rw [Gaps.step, ← hpath]
    obtain ⟨i, π, hpath'⟩ := List.exists_cons_of_length_pos (Nat.lt_of_succ_lt allowed)
    have hinside : π ≠ [] := by
      rintro rfl
      rw [Allows, hpath'] at allowed
      simp at allowed
    simp only [hpath', List.tail_cons]
    exact .finish rfl hinside (.nil _ _)
  | newline hkind =>
    obtain hlinear := issuing.resolve_left id
    cases hlinear
    rw [Gaps.step, ← hpath]
    exact .newline rfl (.nil _ _)
  | indent => simp [Stroke.IsPlain] at issuing

namespace Tracks

theorem restate {kept : Prop} {calm : Nat → Prop} (h : Tracks start kept calm f r p ss ss' ts)
    (path : Path) (position : Nat) (pending : Buffer) (buffering : Bool) (room : Option Nat) :
    Tracks start kept calm f r { p with
      path := path, position := position, pending := pending, buffering := buffering
      room := room } ss ss' ts :=
  ⟨h.laid, ⟨h.agrees.size, h.agrees.blocks, h.agrees.output⟩, h.size, h.queued, h.steady,
    ⟨h.sound.contiguous, h.sound.width, h.sound.known, h.sound.root⟩,
    ⟨h.flat.held, h.flat.opening, h.flat.perLine, h.flat.closing, h.flat.text⟩, h.whole,
    fun i around slack hsuffix hi hf hslack =>
      ⟨(h.calm i around slack hsuffix hi hf hslack).ends,
        (h.calm i around slack hsuffix hi hf hslack).fits⟩⟩

/-- The section behind a newline is output at once. -/
theorem putSection {kind : NewlineKind} {path : Path} {t u : Token} {us : List Token}
    {f₁ : Nat → Option Bool} {r₁ p₁ : Printer} {ss₁ ss₂ : List Stroke} (hstart : start.Unused)
    (h : Tracks start False (fun _ => True) f r p ss ss' (ts ++ rest))
    (hbefore : Tracks start False (fun _ => True) f₁ r₁ p₁ ss₁ ss₂ (t :: (ts ++ rest)))
    (hkind : t.kind = .newline kind path)
    (hsection : Token.sectionOf path ts = u :: us) (hu : u.isNewline = true)
    (hafter : Token.afterSection path ts ≠ [])
    (hs : (p.putTokens (Token.sectionOf path ts)).stopped = none) :
    ∃ f' r' ss₃ ss₄, ss₃ ++ ss₄ = ss ++ ss' ∧
      Tracks start False (fun _ => True) f' r' (p.putTokens (Token.sectionOf path ts)) ss₃ ss₄
        (Token.afterSection path ts ++ rest) := by
  have hr := h.laid.regular hstart
  obtain ⟨kind', path', hkind'⟩ := Token.isNewline_iff.mp hu
  have hsplit : ts ++ rest =
      Token.sectionOf path ts ++ (Token.afterSection path ts ++ rest) := by
    rw [← List.append_assoc, Token.sectionOf_append_afterSection]
  have hpath : path = r.path := by
    obtain ⟨rfl, rfl, ss₃, rfl, hqueued⟩ := hbefore.newline hkind
    rw [hsplit, hsection, List.cons_append] at hqueued h
    exact (hqueued.path_of_newline hkind').symm.trans (h.newline hkind').2.1
  subst hpath
  rw [hsplit] at h
  have hinside : Inside start r.path.tail f r p ss ss'
      (Token.sectionOf r.path ts ++ (Token.afterSection r.path ts ++ rest)) := by
    refine ⟨h.mono fun _ _ => trivial, fun k hk => hr.within k (List.mem_of_mem_tail hk),
      fun i hi => ?_⟩
    have hdescending := hr.descending
    rw [hr.path_eq] at hi hdescending
    rcases List.mem_cons.mp hi with rfl | hi
    · exact Or.inr (List.pairwise_cons.mp hdescending).1
    · exact Or.inl hi
  have houtside : ∀ v ∈ Token.sectionOf r.path ts, ∀ kind i around,
      v.kind = .newline kind (i :: around) → i ∉ r.path.tail := by
    intro v hv kind i around hkind hi
    have := List.all_eq_true.mp List.all_takeWhile v hv
    rw [Token.breaksOutside_eq hkind] at this
    simp [hi] at this
  obtain ⟨f', r', ss₃, ss₄, hall, hinside'⟩ := hinside.putTokens hstart houtside hs
  obtain ⟨m, ms, hm⟩ := List.exists_cons_of_ne_nil hafter
  rw [hm, List.cons_append] at hinside' ⊢
  exact ⟨f', r', ss₃, ss₄, hall, hinside'.exact hstart (Token.head_afterSection hm)⟩

/-- A stroke issues a token. -/
theorem issue {kind : TokenKind} (hstart : start.Unused) (start' : Nat)
    (h : Tracks start False (fun _ => True) f r p ss ss' ts)
    (issuing : s.IsPlain ∨ s = .newline .linear)
    (hpath : p.path = (Gaps.after (ss ++ ss')).path) (allowed : p.Allows s)
    (hsuits : (Gaps.after (ss ++ ss')).Suits (· ≤ ·) s) (hi : Issues p s kind p')
    (hsound : Sound p' (ts ++ [p'.tokenAt start' kind])) :
    Tracks start False (fun _ => True) f r p' ss (ss' ++ [s])
      (ts ++ [p'.tokenAt start' kind]) := by
  have hr := h.laid.regular hstart
  have hblock (i : Nat) (hlt : i < r.blocks.size) : p'.block i = p.block i :=
    hi.block (Nat.lt_of_lt_of_le hlt h.agrees.size)
  have hall : ss ++ (ss' ++ [s]) = ss ++ ss' ++ [s] := (List.append_assoc ss ss' [s]).symm
  refine ⟨h.laid, ?_, ?_, ?_, ?_, hsound, h.flat.issue (newlineFree_of_linear issuing) hi start',
    ?_, ?_⟩
  · refine ⟨Nat.le_trans h.agrees.size hi.size_le,
      fun i hlt => (hblock i hlt).trans (h.agrees.blocks i hlt), ?_⟩
    rw [hi.state]
    exact h.agrees.output
  · rw [hall, Gaps.after_concat]
    exact hi.size_step issuing h.size
  · rw [hall, Gaps.after_concat]
    refine Queued.append (h.queued.congr fun i _ hlt => hi.block hlt) ?_
    rw [← hpath]
    exact hi.queued start' issuing hpath h.size allowed
  · rw [Gaps.steady_concat]
    refine ⟨h.steady, ?_⟩
    rwa [Gaps.after, List.foldl_append] at hsuits
  · intro i hmem hf
    rw [hblock i (hr.within i hmem)]
    exact h.whole i hmem hf
  · intro i around slack hsuffix hi' hf hslack
    have hcalm : Calm slack p (i :: around) (ts ++ [p'.tokenAt start' kind]) :=
      (h.calm i around slack hsuffix hi' hf hslack).append
    refine ⟨hcalm.ends, ?_⟩
    rw [hi.state]
    exact hcalm.fits

end Tracks

/-! ## Strokes -/

theorem follows_settling (hstart : start.Unused) (g : Progress) : Settling (Follows start g) := by
  cases g with
  | finished all =>
    exact {
      put _ _ h := absurd h.1 (List.cons_ne_nil _ _)
      broken _ _ _ h := absurd h.1 (List.cons_ne_nil _ _)
      passed _ _ _ h := absurd h.1 (List.cons_ne_nil _ _)
      putSection _ _ _ hafter _ h := by
        obtain ⟨rfl, -⟩ := List.append_eq_nil_iff.mp h.1
        exact absurd rfl hafter }
  | ongoing all =>
    exact {
      put ht hs h := by
        obtain ⟨f, r, ss, ss', hall, h⟩ := h
        obtain ⟨s, ss'', rfl, h'⟩ := h.putToken hstart ht hs
        exact ⟨f, _, _, ss'', by rw [← hall]; simp, h'⟩
      broken hkind hbreaks _ h := by
        obtain ⟨f, r, ss, ss', hall, h⟩ := h
        obtain ⟨ss'', rfl, h'⟩ := h.breakLine hstart hkind hbreaks
        exact ⟨_, _, _, ss'', by rw [← hall]; simp, h'⟩
      passed hkind hbreaks hfits h := by
        obtain ⟨f, r, ss, ss', hall, h⟩ := h
        obtain ⟨ss'', rfl, h'⟩ := h.pass hstart hkind hbreaks hfits
        exact ⟨_, _, _, ss'', by rw [← hall]; simp, h'⟩
      putSection hknown hsection _ hafter hs h := by
        obtain ⟨p₁, t, kind, hkind, f₁, r₁, ss₁, ss₂, -, hbefore⟩ := hknown
        obtain ⟨u, us, hsection, hu⟩ := hsection
        obtain ⟨f, r, ss, ss', hall, h⟩ := h
        obtain ⟨f', r', ss₃, ss₄, hall', h'⟩ :=
          h.putSection hstart hbefore hkind hsection hu hafter hs
        exact ⟨f', r', ss₃, ss₄, hall'.trans hall, h'⟩ }

/-- **Every stroke of linear layout is followed.** -/
theorem follows_stroking (hstart : start.Unused) :
    Stroking Progress.Goes (Follows start) where
  settling := follows_settling hstart
  restate {g p ts} path position pending buffering room h := by
    cases g with
    | finished all => exact h
    | ongoing all =>
      obtain ⟨f, r, ss, ss', hall, h⟩ := h
      exact ⟨f, r, ss, ss', hall, h.restate path position pending buffering room⟩
  nothing hgoes h := by
    cases hgoes with
    | token issuing => simp [Stroke.IsPlain] at issuing
    | nothing => exact h
  issue start' hgoes hi _ hsound _ h := by
    cases hgoes with
    | token issuing path allowed suits =>
      obtain ⟨f, r, ss, ss', rfl, h⟩ := h
      exact ⟨f, r, ss, ss' ++ [_], (List.append_assoc _ _ _).symm,
        h.issue hstart start' issuing path allowed suits hi hsound⟩
    | nothing => cases hi; contradiction
    | flush => cases hi
  flush {g g' p q ts} hgoes _ hs h := by
    cases hgoes with
    | token issuing => simp [Stroke.IsPlain] at issuing
    | flush =>
      obtain ⟨f, r, ss, ss', rfl, h⟩ := h
      have hinside : Inside start [] f r q ss ss' (ts ++ []) :=
        ⟨by rw [List.append_nil]; exact h.mono fun _ _ => trivial, by simp,
          fun _ _ => Or.inr (by simp)⟩
      obtain ⟨f', r', ss₁, ss₂, hall, h'⟩ := hinside.putTokens hstart (by simp) hs
      rw [h'.tracks.queued.eq_nil, List.append_nil] at hall
      exact ⟨rfl, f', r', hall ▸ h'.tracks.laid, h'.tracks.agrees.putHeld⟩
  literal hgoes := by
    cases hgoes with
    | token issuing => simp [Stroke.IsPlain] at issuing

end Tilde.Printer
