import Tilde.Proofs.Layout.Invariant

/-!
# Newlines that an earlier line break forces

A newline that is settled when the line gets too long breaks if an earlier line break forces it to,
or if what follows does not fit. When everything is output, it is only asked whether it is forced,
and of fill newlines not even that: **`breaksAnyway_eq_breaks_iff`** says when it makes a difference
on which of the two ways a buffered newline is settled, **`exists_breaksAnyway_ne_breaks`** that it
does in a run.

* `forced`: an earlier line break wants the newline to break.
-/

namespace Tilde.Printer

variable {p q : Printer} {kind : NewlineKind} {i : Nat} {tokens subtokens ts : List Token}

/-- An earlier line break wants a newline of the block to break: any in the block for a linear one,
the last one, if it was in a block inside, for a fill one, and any for both a fill and a miser one in
miser style. -/
def forced (p : Printer) (kind : NewlineKind) (i : Nat) : Bool :=
  match kind with
  | .linear => (p.block i).broken
  | .miser => p.isMiserly i && (p.block i).broken
  | .fill => (p.block i).brokenInside || p.isMiserly i && (p.block i).broken
  | .mandatory | .literal => true

/-- Where there is room, a newline breaks only if it is forced. -/
theorem breaks_eq_forced (hfits : p.fits tokens = true) (hsub : p.fits subtokens = true) :
    p.breaks kind i tokens subtokens = p.forced kind i := by
  cases kind <;> simp [breaks, miserBreaks, forced, hfits, hsub]

theorem breaksAnyway_eq_forced (hfill : kind ≠ .fill) (hliteral : kind ≠ .literal) :
    p.breaksAnyway kind i = p.forced kind i := by
  cases kind <;> simp_all [breaksAnyway, forced, Bool.and_comm]

/-- The two ways to settle a newline, where there is room, differ in forced fill newlines. -/
theorem breaksAnyway_eq_breaks (hliteral : kind ≠ .literal) (hfits : p.fits tokens = true)
    (hsub : p.fits subtokens = true) :
    p.breaksAnyway kind i = p.breaks kind i tokens subtokens ↔
      (kind = .fill → p.forced .fill i = false) := by
  rw [breaks_eq_forced hfits hsub]
  by_cases hfill : kind = .fill
  · subst hfill
    simp [breaksAnyway]
  · simp [breaksAnyway_eq_forced hfill hliteral, hfill]

/-! ## Buffered newlines -/

/-- None of the tokens is a literal newline. -/
def Conditional (ts : List Token) : Prop :=
  ∀ t ∈ ts, ∀ kind path, t.kind = .newline kind path → kind ≠ .literal

theorem Conditional.of_suffix {us : List Token} (h : Conditional ts) (hs : us <:+ ts) :
    Conditional us :=
  fun t ht => h t (hs.subset ht)

/-- Literal newlines are never buffered. -/
theorem conditional_stroking :
    Stroking (fun (_ : Unit) _ _ (_ : Unit) => True) fun _ _ ts => Conditional ts where
  settling _ := {
    put _ _ h := h.of_suffix (List.suffix_cons _ _)
    broken _ _ _ h := h.of_suffix (List.suffix_cons _ _)
    passed _ _ _ h := h.of_suffix (List.suffix_cons _ _)
    putSection {p ts rest path} _ _ _ _ _ h := by
      rw [← Token.sectionOf_append_afterSection path ts, List.append_assoc] at h
      exact h.of_suffix (List.suffix_append _ _) }
  restate _ _ _ _ _ h := h
  nothing _ h := h
  issue start _ hi _ _ _ h := by
    intro t ht kind path hkind
    rcases List.mem_append.mp ht with ht | ht
    · exact h t ht kind path hkind
    · obtain rfl := List.mem_singleton.mp ht
      cases hi <;> cases hkind
      assumption
  flush _ _ _ _ := by simp [Conditional]
  literal _ _ _ _ _ := by simp [Conditional]

theorem conditional_strokes {ss : List Stroke} (hp : Buffered p) (h : Conditional p.buffer)
    (hss : Strokes p ss q) : Conditional q.buffer := by
  induction hss with
  | nil p => exact h
  | @cons p q s ss room allowed unharmed rest ih =>
    have hp' := hp.room room
    exact ih (hp'.stroke allowed unharmed)
      (conditional_stroking.stroke (g := ()) () trivial hp' h unharmed)

/-- **When everything is output, a newline is settled as it would be if the line got too long**,
unless it is a fill newline that is forced. -/
theorem breaksAnyway_eq_breaks_iff {options : Options} {width : Option Int} {column : Int}
    {ops : List Operation} {before after : List Token} {t : Token} {path : Path}
    (hcreate : create options width column = .ok p) (hrun : p.runAll ops = .ok q)
    (hbuffer : q.buffer = before ++ t :: after) (hkind : t.kind = .newline kind path)
    (hfits : (q.putTokens before).fits (Token.sectionOf path after) = true)
    (hsub : (q.putTokens before).fits (Token.subsectionOf path after) = true) :
    (q.putTokens before).breaksAnyway kind (path.headD 0) =
        (q.putTokens before).breaks kind (path.headD 0) (Token.sectionOf path after)
          (Token.subsectionOf path after) ↔
      (kind = .fill → (q.putTokens before).forced .fill (path.headD 0) = false) := by
  have hconditional : Conditional q.buffer := by
    refine conditional_strokes (buffered_create hcreate) ?_ (strokes_strokesTaken hrun)
    obtain ⟨o, -, rfl⟩ := exists_of_create hcreate
    simp [Conditional, buffer, Buffer.toList]
  exact breaksAnyway_eq_breaks (hconditional t (by simp [hbuffer]) kind path hkind) hfits hsub

theorem breaksAnyway_eq_breaks_linear :
    ∃ p q before t after, create {} (some 10) 0 = .ok p ∧
      p.runAll [.write ['a'], .newline .mandatory, .write ['b'], .newline .linear, .write ['c']] =
        .ok q ∧
      q.buffer = before ++ t :: after ∧ t.kind = .newline .linear [0] ∧
      (q.putTokens before).breaksAnyway .linear 0 = (q.putTokens before).breaks .linear 0
        (Token.sectionOf [0] after) (Token.subsectionOf [0] after) ∧
      (q.putTokens before).breaksAnyway .linear 0 = true := by
  obtain ⟨p, hcreate⟩ : ∃ p, create {} (some 10) 0 = .ok p := ⟨_, rfl⟩
  obtain ⟨q, hrun⟩ : ∃ q, p.runAll [.write ['a'], .newline .mandatory, .write ['b'],
      .newline .linear, .write ['c']] = .ok q := by
    cases hcreate
    exact ⟨_, rfl⟩
  have hbuffer : q.buffer = [⟨0, 0, .newline .mandatory [0]⟩, ⟨0, 1, .text ['b'] []⟩] ++
      ⟨1, 1, .newline .linear [0]⟩ :: [⟨1, 2, .text ['c'] []⟩] := by
    cases hcreate
    cases hrun
    rfl
  refine ⟨p, q, _, _, _, hcreate, hrun, hbuffer, rfl,
    (breaksAnyway_eq_breaks_iff hcreate hrun hbuffer rfl ?_ ?_).mpr (by simp), ?_⟩ <;>
    cases hcreate <;> cases hrun <;> rfl

/-- A block is broken inside of another one, in which a fill newline follows. -/
def forcedFill : List Operation :=
  [.begin [] [] [] none, .begin [] [] [] none, .write ['x'], .newline .mandatory, .write ['y'],
    .finish, .write [' '], .newline .fill, .write ['z'], .finish]

/-- **A fill newline that is forced stays when the printer is closed**, although there is room behind
it, and it would break if the line got too long. -/
theorem exists_breaksAnyway_ne_breaks :
    ∃ p q r before t after, create {} (some 10) 0 = .ok p ∧ p.runAll forcedFill = .ok q ∧
      q.buffer = before ++ t :: after ∧ t.kind = .newline .fill [1, 0] ∧
      (q.putTokens before).fits (Token.sectionOf [1, 0] after) = true ∧
      (q.putTokens before).fits (Token.subsectionOf [1, 0] after) = true ∧
      (q.putTokens before).breaks .fill 1 (Token.sectionOf [1, 0] after)
        (Token.subsectionOf [1, 0] after) = true ∧
      (q.putTokens before).breaksAnyway .fill 1 = false ∧
      q.close = .ok r ∧ r.base.output = ['x', '\n', 'y', ' ', 'z'] := by
  obtain ⟨p, hcreate⟩ : ∃ p, create {} (some 10) 0 = .ok p := ⟨_, rfl⟩
  obtain ⟨q, r, hrun, hclose, houtput⟩ : ∃ q r, p.runAll forcedFill = .ok q ∧ q.close = .ok r ∧
      r.base.output = ['x', '\n', 'y', ' ', 'z'] := by
    cases hcreate
    exact exists_of_output (by decide +kernel)
  refine ⟨p, q, r, [⟨0, 0, .newline .mandatory [2, 1, 0]⟩, ⟨0, 1, .text ['y'] []⟩,
    ⟨1, 1, .blockEnd [2, 1, 0]⟩, ⟨1, 2, .text [] [' ']⟩], ⟨2, 2, .newline .fill [1, 0]⟩,
    [⟨2, 3, .text ['z'] []⟩, ⟨3, 3, .blockEnd [1, 0]⟩], hcreate, hrun, ?_⟩
  cases hcreate
  cases hrun
  exact ⟨rfl, rfl, rfl, rfl, rfl, rfl, hclose, houtput⟩

end Tilde.Printer
