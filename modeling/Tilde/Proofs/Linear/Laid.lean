import Mathlib.Logic.Function.Basic
import Tilde.Proofs.Layout.Written
import Tilde.Proofs.Linear.Direct

/-!
# Direct layout, decided step by step

`Laid p ss f r` says that the strokes `ss` lead directly from `p` to `r`, with every newline decided
only when it comes, but never against an earlier decision in its block; `f` has the decisions.
**`Laid.direct`**: then `r` is what comes of breaking the newlines of the blocks in which it has been
decided so.

* `Laid.regular`: the blocks of `r`, and the white space that it holds, are those of the strokes.
-/

namespace Tilde.Printer

/-! ## Marks -/

theorem broken_foldl_modifyBlock (js : List Nat) (p : Printer) (k : Nat) :
    ((js.foldl (fun p j =>
      p.modifyBlock j fun b => { b with broken := true, brokenInside := true }) p).block k).broken =
      true ↔ (p.block k).broken = true ∨ k ∈ js ∧ k < p.blocks.size := by
  induction js generalizing p with
  | nil => simp
  | cons j js ih =>
    rw [List.foldl_cons, ih, block_modifyBlock, size_modifyBlock]
    by_cases hj : j = k ∧ k < p.blocks.size
    · simp [hj]
    · rw [if_neg hj, List.mem_cons]
      constructor
      · rintro (h | ⟨h, hk⟩)
        · exact Or.inl h
        · exact Or.inr ⟨Or.inr h, hk⟩
      · rintro (h | ⟨rfl | h, hk⟩)
        · exact Or.inl h
        · exact absurd ⟨rfl, hk⟩ hj
        · exact Or.inr ⟨h, hk⟩

/-- A newline marks its block and those around it. -/
theorem broken_markBroken (p : Printer) (path : Path) (k : Nat) :
    ((p.markBroken path).block k).broken = true ↔
      (p.block k).broken = true ∨ k ∈ path ∧ k < p.blocks.size := by
  cases path with
  | nil => simp [markBroken]
  | cons i around =>
    rw [markBroken, broken_foldl_modifyBlock, block_modifyBlock, size_modifyBlock]
    by_cases hi : i = k ∧ k < p.blocks.size
    · simp [hi]
    · rw [if_neg hi, List.mem_cons]
      constructor
      · rintro (h | ⟨h, hk⟩)
        · exact Or.inl h
        · exact Or.inr ⟨Or.inr h, hk⟩
      · rintro (h | ⟨rfl | h, hk⟩)
        · exact Or.inl h
        · exact absurd ⟨rfl, hk⟩ hi
        · exact Or.inr ⟨h, hk⟩

theorem broken_breakLine (p : Printer) (path : Path) (k : Nat) :
    ((p.breakLine path).block k).broken = true ↔
      (p.block k).broken = true ∨ k ∈ path ∧ k < p.blocks.size := by
  rw [breakLine, broken_markBroken, block_putOrStop, (Outputs.putOrStop _ fun _ =>
    isFatal_indentation).size]
  rfl

theorem block_foldl_modifyBlock {js : List Nat} {k : Nat} (hk : k ∉ js) (p : Printer) :
    (js.foldl (fun p j =>
      p.modifyBlock j fun b => { b with broken := true, brokenInside := true }) p).block k =
      p.block k := by
  induction js generalizing p with
  | nil => rfl
  | cons j js ih =>
    rw [List.mem_cons, not_or] at hk
    rw [List.foldl_cons, ih hk.2, block_modifyBlock_of_ne (Ne.symm hk.1)]

/-- Other blocks stay as they are. -/
theorem block_breakLine {path : Path} {k : Nat} (hk : k ∉ path) (p : Printer) :
    (p.breakLine path).block k = p.block k := by
  have hline (q : Printer) : (q.markBroken path).block k = q.block k := by
    cases path with
    | nil => rfl
    | cons i around =>
      rw [List.mem_cons, not_or] at hk
      rw [markBroken, block_foldl_modifyBlock hk.2, block_modifyBlock_of_ne (Ne.symm hk.1)]
  rw [breakLine, hline, block_putOrStop]
  rfl

/-! ## Strokes without buffering -/

variable {p r : Printer}

theorem stroke_text {s : Text} (hidle : r.buffering = false) (hs : s ≠ []) :
    r.stroke (.text s) =
      { r.putHeld.put (Text.splitTrailing s).1 with held := (Text.splitTrailing s).2 } := by
  simp [stroke, writeText, hidle, hs]

theorem stroke_begin {opening perLine closing : Text} (hidle : r.buffering = false) :
    r.stroke (.begin opening perLine closing) = { r.putHeld with
      blocks := r.blocks.push {
        opening := opening, perLine := perLine, closing := closing
        lead := (r.block r.current).lead }
      path := r.blocks.size :: r.path }.startBlock (r.blocks.size :: r.path) := by
  simp [stroke, openBlock, hidle]

theorem stroke_finish (hidle : r.buffering = false) :
    r.stroke .finish = { r.putHeld.endBlock r.path with path := r.path.tail } := by
  simp [stroke, closeBlock, hidle]

/-! ## Decisions -/

/-- The strokes lead from one printer to the other without buffering. Newlines are decided in the
same way in each block, as `f` has it for those in which one has come. -/
inductive Laid (p : Printer) : List Stroke → (Nat → Option Bool) → Printer → Prop
  | nil : Laid p [] (fun _ => none) p
  | stroke {ss : List Stroke} {f : Nat → Option Bool} {r : Printer} {s : Stroke}
      (before : Laid p ss f r) (plain : s.IsPlain) (allowed : r.Allows s) :
      Laid p (ss ++ [s]) f (r.stroke s)
  | newline {ss : List Stroke} {f : Nat → Option Bool} {r : Printer} (b : Bool)
      (before : Laid p ss f r) (lawful : f r.current ≠ some (!b)) :
      Laid p (ss ++ [.newline .linear]) (Function.update f r.current (some b))
        (if b then r.breakLine r.path else r)

theorem direct_of_isPlain {s : Stroke} (hs : s.IsPlain) (broken : Nat → Bool) :
    r.direct broken s = r.stroke s := by
  cases s with
  | newline => exact hs.elim
  | _ => rfl

/-- **Decisions made step by step are decisions made beforehand.** -/
theorem Laid.direct {ss : List Stroke} {f : Nat → Option Bool} (h : Laid p ss f r)
    {broken : Nat → Bool} (hf : ∀ i b, f i = some b → broken i = b) :
    ss.foldl (Printer.direct broken) p = r := by
  induction h with
  | nil => rfl
  | stroke before plain allowed ih =>
    rw [List.foldl_append, ih hf]
    exact direct_of_isPlain plain broken
  | @newline ss f r b before lawful ih =>
    have hcurrent : broken r.current = b := hf _ _ (Function.update_self ..)
    rw [List.foldl_append, ih fun i b' hi => ?_]
    · simp [Printer.direct, hcurrent]
    · by_cases hcase : i = r.current
      · subst hcase
        cases b <;> cases b' <;> first | exact hcurrent | exact absurd hi lawful
      · exact hf i b' (by rwa [Function.update_of_ne hcase])

/-! ## Blocks and white space -/

/-- The printer has not done anything yet. -/
structure Unused (p : Printer) : Prop where
  blocks : p.blocks = #[{}]
  path : p.path = [0]
  idle : p.buffering = false
  held : p.held = []

/-- A printer that does not buffer, after strokes with these gaps and decisions. -/
structure Regular (g : Gaps) (f : Nat → Option Bool) (r : Printer) : Prop where
  idle : r.buffering = false
  size : g.size = r.blocks.size
  path : g.path = r.path
  inside : r.path ≠ []
  descending : r.path.Pairwise (· > ·)
  within : ∀ i ∈ r.path, i < r.blocks.size
  first : ∀ i, g.first i = none ↔ f i = none
  known : ∀ i, f i ≠ none → i < r.blocks.size
  held : f r.current = some true ∨ g.trailing = r.held.length
  marked : ∀ i, f i = some true → (r.block i).broken = true
  around : ∀ i b, i :: b <:+ r.path → (r.block i).broken = true →
    ∀ j ∈ b, (r.block j).broken = true

namespace Regular

variable {g : Gaps} {f : Nat → Option Bool}

theorem unused (h : p.Unused) : Regular {} (fun _ => none) p where
  idle := h.idle
  size := by simp [h.blocks]
  path := h.path.symm
  inside := by simp [h.path]
  descending := by simp [h.path]
  within := by simp [h.path, h.blocks]
  first i := by simp
  known i hi := absurd rfl hi
  held := Or.inr (by simp [h.held])
  marked i hi := by cases hi
  around i b hb := by
    rw [h.path, List.suffix_cons_iff, List.suffix_nil] at hb
    rcases hb with hb | hb
    · obtain ⟨-, rfl⟩ := List.cons.inj hb
      simp
    · cases hb

theorem path_eq (h : Regular g f r) : r.path = r.current :: r.path.tail := by
  rw [current, List.headD_eq_head?_getD, List.head?_eq_some_head h.inside]
  exact (List.cons_head_tail h.inside).symm

theorem current_mem (h : Regular g f r) : r.current ∈ r.path := by
  rw [h.path_eq]
  exact List.mem_cons_self

theorem eq_path (h : Regular g f r) {around : Path} (hsuffix : r.current :: around <:+ r.path) :
    r.current :: around = r.path := by
  have hdescending := h.descending
  rw [h.path_eq] at hsuffix hdescending ⊢
  rcases List.suffix_cons_iff.mp hsuffix with heq | htail
  · exact heq
  · exact absurd ((List.pairwise_cons.mp hdescending).1 _ (htail.subset List.mem_cons_self))
      (Nat.lt_irrefl _)

theorem text {s : Text} (h : Regular g f r) (hs : s ≠ []) :
    Regular (g.step (.text s)) f (r.stroke (.text s)) := by
  rw [stroke_text h.idle hs, Gaps.step, if_neg hs]
  exact ⟨h.idle, h.size, h.path, h.inside, h.descending, h.within, h.first, h.known, Or.inr rfl,
    h.marked, h.around⟩

theorem finish (h : Regular g f r) (allowed : r.Allows .finish) :
    Regular (g.step .finish) f (r.stroke .finish) := by
  have hne : r.path.tail ≠ [] := by
    have : 1 < r.path.length := allowed
    intro hnil
    have := congrArg List.length hnil
    simp at this
    omega
  rw [stroke_finish h.idle]
  refine ⟨h.idle, h.size, congrArg List.tail h.path, hne, h.descending.tail,
    fun i hi => h.within i (List.mem_of_mem_tail hi), h.first, h.known, Or.inr rfl, h.marked, ?_⟩
  exact fun i b hb => h.around i b (hb.trans (List.tail_suffix _))

theorem begin (h : Regular g f r) (opening perLine closing : Text) :
    Regular (g.step (.begin opening perLine closing)) f
      (r.stroke (.begin opening perLine closing)) := by
  rw [stroke_begin h.idle]
  generalize hb : ({
    opening := opening, perLine := perLine, closing := closing
    lead := (r.block r.current).lead } : BlockState) = b
  have hwhole : b.broken = false := by rw [← hb]
  have ho := Outputs.startBlock
    { r.putHeld with blocks := r.blocks.push b, path := r.blocks.size :: r.path }
    (r.blocks.size :: r.path)
  have hblock (i : Nat) : ({ r.putHeld with
      blocks := r.blocks.push b
      path := r.blocks.size :: r.path }.block i).broken =
        if i = r.blocks.size then false else (r.block i).broken := by
    have hpush := block_push r.putHeld b (r.blocks.size :: r.path) i
    refine (congrArg BlockState.broken hpush).trans ?_
    rw [apply_ite BlockState.broken, hwhole]
    rfl
  constructor
  · exact ho.buffering.trans h.idle
  · rw [ho.size, Array.size_push]
    exact congrArg (· + 1) h.size
  · rw [ho.path]
    exact congr_arg₂ List.cons h.size h.path
  · rw [ho.path]
    exact List.cons_ne_nil _ _
  · rw [ho.path]
    exact List.pairwise_cons.mpr ⟨h.within, h.descending⟩
  · intro i hi
    rw [ho.size, Array.size_push]
    rw [ho.path] at hi
    rcases List.mem_cons.mp hi with rfl | hi
    · exact Nat.lt_succ_self _
    · exact Nat.lt_succ_of_lt (h.within i hi)
  · exact h.first
  · intro i hi
    rw [ho.size, Array.size_push]
    exact Nat.lt_succ_of_lt (h.known i hi)
  · rw [held_startBlock]
    exact Or.inr rfl
  · intro i hi
    rw [broken_startBlock, hblock, if_neg (Nat.ne_of_lt (h.known i (by simp [hi])))]
    exact h.marked i hi
  · intro i c hc hbroken j hj
    rw [ho.path] at hc
    rw [broken_startBlock, hblock] at hbroken ⊢
    split_ifs at hbroken with hi
    rcases List.suffix_cons_iff.mp hc with hc | hc
    · exact absurd (List.cons.inj hc).1 hi
    · rw [if_neg (Nat.ne_of_lt (h.within j (hc.subset (List.mem_cons_of_mem i hj))))]
      exact h.around i c hc hbroken j hj

theorem newline (h : Regular g f r) (b : Bool) (lawful : f r.current ≠ some (!b)) :
    Regular (g.step (.newline .linear)) (Function.update f r.current (some b))
      (if b then r.breakLine r.path else r) := by
  have hhead : g.path.headD 0 = r.current := by rw [h.path, current]
  have hfirst (i : Nat) : (g.step (.newline .linear)).first i = none ↔
      Function.update f r.current (some b) i = none := by
    simp only [Gaps.step, hhead, Function.update_apply]
    split_ifs with hi
    · simp
    · exact h.first i
  have hknown (i : Nat) (hi : Function.update f r.current (some b) i ≠ none) :
      i < r.blocks.size := by
    rw [Function.update_apply] at hi
    split_ifs at hi with hcase
    · exact hcase ▸ h.within _ h.current_mem
    · exact h.known i hi
  cases b with
  | false =>
    refine ⟨h.idle, h.size, h.path, h.inside, h.descending, h.within, hfirst, hknown, Or.inr ?_, ?_,
      h.around⟩
    · exact h.held.resolve_left lawful
    · intro i hi
      rw [Function.update_apply] at hi
      split_ifs at hi with hcase
      · cases hi
      · exact h.marked i hi
  | true =>
    have ho := Outputs.breakLine r r.path
    rw [if_pos rfl]
    refine ⟨ho.buffering.trans h.idle, h.size.trans ho.size.symm, h.path.trans ho.path.symm, ?_, ?_,
      ?_, hfirst, ?_, Or.inl ?_, ?_, ?_⟩
    · rw [ho.path]
      exact h.inside
    · rw [ho.path]
      exact h.descending
    · exact fun i hi => ho.size ▸ h.within i (ho.path ▸ hi)
    · exact fun i hi => ho.size ▸ hknown i hi
    · have : (r.breakLine r.path).current = r.current := by rw [current, ho.path, current]
      rw [this]
      exact Function.update_self ..
    · intro i hi
      rw [broken_breakLine]
      rw [Function.update_apply] at hi
      split_ifs at hi with hcase
      · exact Or.inr ⟨hcase ▸ h.current_mem, hcase ▸ h.within _ h.current_mem⟩
      · exact Or.inl (h.marked i hi)
    · intro i c hc hbroken j hj
      have hmem : j ∈ r.path := by
        rw [ho.path] at hc
        exact hc.subset (List.mem_cons_of_mem i hj)
      rw [broken_breakLine]
      exact Or.inr ⟨hmem, h.within j hmem⟩

end Regular

/-- **Direct layout is regular.** -/
theorem Laid.regular {ss : List Stroke} {f : Nat → Option Bool} (hp : p.Unused)
    (h : Laid p ss f r) : Regular (Gaps.after ss) f r := by
  induction h with
  | nil => exact .unused hp
  | @stroke ss f r s before plain allowed ih =>
    rw [Gaps.after_concat]
    cases s with
    | begin opening perLine closing => exact ih.begin opening perLine closing
    | finish => exact ih.finish allowed
    | text s => exact ih.text plain.1
    | _ => exact plain.elim
  | newline b before lawful ih =>
    rw [Gaps.after_concat]
    exact ih.newline b lawful

end Tilde.Printer
