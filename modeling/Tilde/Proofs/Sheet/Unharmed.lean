import Tilde.Proofs.Layout.Safe
import Tilde.Proofs.Sheet.Follow
import Tilde.Proofs.Sheet.Spells

/-!
# Words are printed without harm

A line is broken only where there is memory for its indentation, which is never longer than what has
been said. So nothing goes wrong when words are printed, if they take up less than the memory there is
for a text, or if no lines are broken (**`withstands_of_drawn`**).

* `safe_drawn`: the tokens that stem from words do no harm.
-/

namespace Tilde

/-- There is memory for so many spaces. -/
theorem Text.repeated_space {n : Nat} (hn : n < memoryLimit) :
    repeated [' '] n = .ok (times [' '] n) := by
  have hindex : n < indexLimit := hn.trans (by decide)
  have hasIndex : asIndex n = .ok n := by
    rw [asIndex, if_pos]
    omega
  have hcheck : checkLength n = .ok () := by
    rw [checkLength, if_neg (by omega), if_neg (by omega)]
  have hlength : [' '].length * (n : Int).toNat = n := by simp
  unfold repeated
  rw [hasIndex]
  simp only [bind, Except.bind, hlength, hcheck]
  rfl

theorem BlockState.indentation_eq {b : BlockState} {n : Nat} (hindent : b.indent = .integer n)
    (hlead : b.lead = []) (hn : n < Text.memoryLimit) :
    b.indentation = .ok (Text.times [' '] n) := by
  unfold BlockState.indentation
  rw [hindent, hlead]
  dsimp only
  rw [List.length_nil, Int.natCast_zero, Int.sub_zero, Text.repeated_space hn]
  rfl

/-- Nothing that has been said is taken back. -/
theorem Account.prefix_foldl (a : Account) (ss : List Stroke) :
    a.text <+: (ss.foldl Account.stroke a).text := by
  induction ss generalizing a with
  | nil => exact List.prefix_rfl
  | cons s ss ih =>
    refine List.IsPrefix.trans ?_ (ih (a.stroke s))
    cases s <;> first | exact List.prefix_append _ _ | exact List.prefix_rfl

/-- On an empty sheet nothing has been said. -/
theorem Sheet.spells_nil (pretty : Bool) : Spells pretty .word {} {} where
  text := by simp
  unbroken _ := by simp
  ending := ⟨rfl, by simp [Firm]⟩
  closings := ⟨[[]], rfl, by simp⟩
  words := by simp
  column := by simp [column, columnAfter]
  levels l hl := by
    obtain rfl := List.mem_singleton.mp hl
    exact ⟨rfl, 0, rfl, Nat.le_refl 0⟩

/-- The strokes say words, which take up less than the memory there is for a text, or no line is
broken. -/
structure Sayable (pretty : Bool) (ss : List Stroke) : Prop where
  steps : ∃ ψ, Ending.Steps pretty .word ss ψ
  short : pretty = true → (ss.foldl Account.stroke {}).text.length < Text.memoryLimit

theorem Sayable.left {pretty : Bool} {ss ss' : List Stroke} (h : Sayable pretty (ss ++ ss')) :
    Sayable pretty ss := by
  obtain ⟨⟨χ, hsteps⟩, hshort⟩ := h
  obtain ⟨ψ, hss, -⟩ := hsteps.of_append
  refine ⟨⟨ψ, hss⟩, fun hpretty => ?_⟩
  have hlong := hshort hpretty
  rw [List.foldl_append] at hlong
  exact Nat.lt_of_le_of_lt (Account.prefix_foldl _ ss').length_le hlong

theorem Ending.Step.newlineFree {pretty : Bool} {φ ψ : Ending} {s : Stroke}
    (h : Step pretty φ s ψ) : s.NewlineFree := by
  cases h with
  | word hw => exact hw.flat
  | spaced hw => simpa [Stroke.NewlineFree] using hw.flat
  | space => simp [Stroke.NewlineFree]
  | begin hopening hclosing => exact ⟨hopening.flat, by simp, hclosing.flat⟩
  | _ => trivial

theorem Ending.Steps.newlineFree {pretty : Bool} {φ ψ : Ending} {ss : List Stroke}
    (h : Steps pretty φ ss ψ) : ∀ s ∈ ss, s.NewlineFree := by
  induction h with
  | nil => simp
  | cons first rest ih => exact List.forall_mem_cons.mpr ⟨first.newlineFree, ih⟩

theorem Sayable.newlineFree {pretty : Bool} {ss : List Stroke} (h : Sayable pretty ss) :
    ∀ s ∈ ss, s.NewlineFree :=
  h.steps.elim fun _ hsteps => hsteps.newlineFree

namespace Printer

variable {pretty : Bool} {p : Printer} {path : Path} {t : Token} {ts rest : List Token}
  {ss done : List Stroke} {σ : Path}

theorem unharmed_breakLine {indentation : Text}
    (h : (p.block (path.headD 0)).indentation = .ok indentation) (hs : p.stopped = none) :
    (p.breakLine path).stopped = none := by
  unfold breakLine
  dsimp only
  rw [h, markBroken_eq]
  exact hs

theorem unharmed_startBlock (h : (p.block (path.headD 0)).perLine = []) (hs : p.stopped = none) :
    (p.startBlock path).stopped = none := by
  unfold startBlock
  dsimp only
  rw [h, leadBelow, List.isEmpty_nil, if_pos rfl]
  exact hs

/-- What has been said when a token is output, and the stroke that it stems from. -/
theorem Drawn.spells (h : Drawn 0 done σ p (t :: ts)) (hdone : Sayable pretty done) :
    ∃ a φ ψ s S n π k τ, Owes p.block n π s t.kind k τ ∧ φ.Step pretty s ψ ∧ Shows 0 p π S ∧
      S.Spells pretty φ a ∧ (pretty = true → a.text.length < Text.memoryLimit) := by
  obtain ⟨first, waiting, S, n, π, rfl, hrun, hshows, -, howed⟩ := h
  obtain ⟨skipped, s, rest, k, τ, rfl, hskipped, howes, -⟩ := howed.of_cons 0
  rw [← List.append_assoc] at hdone
  have hbefore := hdone.left
  obtain ⟨⟨χ, hsteps⟩, -⟩ := hdone
  obtain ⟨φ, hφ, hrest⟩ := hsteps.of_append
  cases hrest with
  | cons hfirst _ =>
    exact ⟨_, φ, _, s, S, n, π, k, τ, howes, hfirst, hshows,
      (Sheet.spells_nil pretty).run hφ (hrun.append (hskipped S)), hbefore.short⟩

/-- There is memory for the indentation of a line that is broken. -/
theorem Drawn.unharmed_breakLine {kind : NewlineKind} (h : Drawn 0 done σ p (t :: ts))
    (hdone : Sayable pretty done) (hkind : t.kind = .newline kind path) (hs : p.stopped = none) :
    (p.breakLine path).stopped = none := by
  obtain ⟨a, φ, ψ, s, S, n, π, k, τ, howes, hstep, hshows, hspells, hshort⟩ := h.spells hdone
  rw [hkind] at howes
  cases howes with
  | newline =>
    cases hstep with
    | fill hpretty =>
      obtain ⟨hmarks, i, hindent, hle⟩ := hspells.level
      have hlead := hshows.level.lead
      rw [hmarks] at hlead
      exact Printer.unharmed_breakLine (BlockState.indentation_eq
        (hshows.level.indent.symm.trans hindent) hlead.eq_nil
        (Nat.lt_of_le_of_lt hle (hshort hpretty))) hs

theorem Drawn.unharmed_putToken (h : Drawn 0 done σ p (t :: ts)) (hdone : Sayable pretty done)
    (hs : p.stopped = none) : (p.putToken t).stopped = none := by
  obtain ⟨a, φ, ψ, s, S, n, π, k, τ, howes, hstep, -⟩ := h.spells hdone
  have hbreak {kind : NewlineKind} (hkind : t.kind = .newline kind π) :=
    h.unharmed_breakLine hdone hkind hs
  unfold Printer.putToken
  generalize t.kind = kind at howes hbreak
  cases howes with
  | text => exact hs
  | begin =>
    generalize hperLine : (p.block n).perLine = perLine at hstep
    cases hstep
    exact unharmed_startBlock (p := p.putHeld) hperLine hs
  | finish => exact hs
  | newline =>
    dsimp only
    split_ifs
    · exact hbreak rfl
    · exact hs
  | indent => cases hstep

/-- **Tokens that stem from words** are output without harm. -/
theorem safe_drawn (c : Course) (hc : Sayable pretty c.strokes) :
    Safe fun p ts => Drawn 0 c.strokes c.path p ts ∧ Flat p ts where
  settling := (drawn_stroking 0).settling c
  puts {p ts rest} h hs := by
    induction ts generalizing p with
    | nil => exact hs
    | cons t ts ih =>
      have hput := h.1.unharmed_putToken hc hs
      exact ih ⟨h.1.putToken h.2 hput, h.2.putToken⟩ hput
  breaks hkind h hs := h.1.unharmed_breakLine hc hkind hs

/-! ## Strokes -/

theorem Owed.length_le {block : Nat → BlockState} {n m : Nat} {π : Path}
    (h : Owed block n π ss ts m σ) : ts.length ≤ ss.length := by
  induction h with
  | nil => exact Nat.le_refl _
  | nothing rest ih => exact ih.trans (Nat.le_succ _)
  | cons first rest ih => exact Nat.succ_le_succ ih

/-- There are no more tokens than strokes. -/
theorem Drawn.length_le {start : Int} (h : Drawn start done σ p ts) : ts.length ≤ done.length := by
  obtain ⟨first, waiting, S, n, π, rfl, -, -, -, howed⟩ := h
  have := howed.length_le
  rw [List.length_append]
  omega

/-- Nothing goes wrong in the next of the strokes, which are less than the room for breaking up
sections. -/
theorem unharmed_stroke {s : Stroke} (hp : Buffered p) (hdrawn : Drawn 0 done p.path p p.buffer)
    (hflat : Flat p p.buffer) (hs : p.stopped = none) (allowed : p.Allows s)
    (hsay : Sayable pretty (done ++ [s])) (hroom : ∀ n ∈ p.room, done.length + 1 < n) :
    (p.stroke s).stopped = none := by
  have hfree := hsay.newlineFree s (by simp)
  have hgoes : Course.Goes ⟨done, p.path⟩ p s ⟨done ++ [s], p.pathAfter s⟩ :=
    ⟨rfl, allowed, hfree, rfl⟩
  refine (drawn_stroking 0).unharmed (safe_drawn _ hsay.left) (safe_drawn _ hsay) hgoes hp
    ⟨hdrawn, hflat⟩ hs fun n hn => ?_
  have := hroom n hn
  have := hdrawn.length_le
  omega

/-- **Strokes that say words** do no harm, whatever room there is, if it is more than there are
strokes. -/
theorem withstands_of_drawn {k : Nat} (hp : Buffered p) (hdrawn : Drawn 0 done p.path p p.buffer)
    (hflat : Flat p p.buffer) (hs : p.stopped = none) (hsay : Sayable pretty (done ++ ss))
    (hk : (done ++ ss).length < k) : p.Withstands k ss := by
  induction ss generalizing p done with
  | nil => trivial
  | cons s ss ih =>
    intro allowed room hroom
    rw [show done ++ s :: ss = done ++ [s] ++ ss by simp] at hsay hk
    have hfree : ∀ s' ∈ [s], s'.NewlineFree := fun s' hs' =>
      hsay.left.newlineFree s' (List.mem_append_right _ hs')
    have hunharmed : ({ p with room := some room }.stroke s).stopped = none := by
      refine unharmed_stroke (hp.room _) (hdrawn.restate _ _ _ _ (some room))
        (flat_stroking.restate (g := ()) _ _ _ _ (some room) hflat) hs allowed hsay.left ?_
      intro n hn
      obtain rfl := Option.some.inj hn
      rw [List.length_append, List.length_append, List.length_singleton] at hk
      omega
    have hstroke : Strokes p [s] ({ p with room := some room }.stroke s) :=
      .cons (some room) allowed hunharmed (.nil _)
    exact ⟨hunharmed, ih ((hp.room _).stroke allowed hunharmed)
      (drawn_strokes hp hdrawn hflat hstroke hfree) (flat_strokes hp hflat hstroke hfree) hunharmed
      hsay hk⟩

end Printer

end Tilde
