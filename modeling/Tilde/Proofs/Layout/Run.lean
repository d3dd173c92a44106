import Tilde.Proofs.Layout.Stroke

/-!
# Runs of operations

An operation that is carried out is a run of strokes in which nothing goes wrong
(**`strokes_of_run`**), and so is a run of operations (**`strokes_strokesTaken`**).
-/

namespace Tilde

/-- A computation that succeeds, and what is to be known of its result. -/
theorem exists_of_toOption {ε α β : Type} {x : Except ε α} {f : α → β} {b : β}
    (h : x.toOption.map f = some b) : ∃ a, x = .ok a ∧ f a = b := by
  cases x with
  | error e => cases h
  | ok a => exact ⟨a, rfl, Option.some.inj h⟩

theorem eq_ok_of_toOption {ε α : Type} {x : Except ε α} {a : α} (h : x.toOption = some a) :
    x = .ok a := by
  obtain ⟨a', hx, rfl⟩ := exists_of_toOption (f := id) (by rw [h]; rfl)
  exact hx

namespace Printer

variable {p q r : Printer} {s : Stroke} {ss : List Stroke}

/-- The printer with the block that a stroke begins. -/
def Grows (p : Printer) (s : Stroke) (p' : Printer) : Prop :=
  match s with
  | .begin opening perLine closing =>
    ∃ b : BlockState, b.opening = opening ∧ b.perLine = perLine ∧ b.closing = closing ∧
      p' = { p with blocks := p.blocks.push b, path := p.blocks.size :: p.path }
  | _ => p' = p

theorem Issues.grows {p' : Printer} {kind : TokenKind} (h : Issues p s kind p') : Grows p s p' := by
  cases h with
  | begin b => exact ⟨b, rfl, rfl, rfl, rfl⟩
  | _ => exact rfl

/-- A stroke leaves alone what output does, but for the block that it begins or ends. -/
theorem Takes.frame (ht : Takes p s q) :
    ∃ p', Grows p s p' ∧ Frame p' q ∧ q.path = (p.leave s p').path := by
  have hleave {p₁ q₁ : Printer} (hframe : Frame p₁ q₁) (hpath : q₁.path = p₁.path) :
      Frame p₁ (p.leave s q₁) ∧ (p.leave s q₁).path = (p.leave s p₁).path := by
    cases s with
    | finish => exact ⟨hframe.trans (.restate _ _ _ _ _ _), rfl⟩
    | _ => exact ⟨hframe, hpath⟩
  have hdrain : Frame p p.writeBuffered.putHeld ∧ p.writeBuffered.putHeld.path = p.path := by
    have ho := (Outputs.putTokens { (p.writeLine p.buffer).1 with
      pending := .ofList (p.writeLine p.buffer).2 } (p.writeLine p.buffer).2).trans (.putHeld _)
    have hline := Outputs.writeLine p p.buffer
    rw [writeBuffered_putHeld]
    exact ⟨hline.toFrame.trans ((Frame.restate _ _ _ _ _ _).trans
      (ho.toFrame.trans (.restate _ _ _ _ _ _))), ho.path.trans hline.path⟩
  cases ht with
  | nothing => exact ⟨p, rfl, .refl p, rfl⟩
  | @direct s kind p' t idle flat issues hkind =>
    exact ⟨p', issues.grows, hleave (Outputs.putToken p' t).toFrame (Outputs.putToken p' t).path⟩
  | @enqueued s kind p' issues =>
    have ho := Outputs.writeLine { p' with
      position := (p'.tokenAt p.position kind).stop
      pending := p.pending.push (p'.tokenAt p.position kind)
      buffering := true } (p.buffer ++ [p'.tokenAt p.position kind])
    exact ⟨p', issues.grows, hleave ((Frame.restate _ _ _ _ _ _).trans
      (ho.toFrame.trans (.restate _ _ _ _ _ _))) ho.path⟩
  | literal =>
    rw [literalNewline_eq]
    have ho := Outputs.breakHere p.writeBuffered.putHeld
    exact ⟨p, rfl, hdrain.1.trans ho.toFrame, ho.path.trans hdrain.2⟩
  | flush => exact ⟨p, rfl, hdrain⟩

/-- The blocks that are open behind a stroke. -/
def pathAfter (p : Printer) : Stroke → Path
  | .begin .. => p.blocks.size :: p.path
  | .finish => p.path.tail
  | _ => p.path

theorem Issues.pathAfter {p' : Printer} {kind : TokenKind} (h : Issues p s kind p') :
    (p.leave s p').path = p.pathAfter s := by
  cases h <;> rfl

/-- The blocks that are open are known without what has been output. -/
theorem path_stroke (p : Printer) (s : Stroke) : (p.stroke s).path = p.pathAfter s := by
  obtain ⟨p', hgrows, -, hpath⟩ := (takes_stroke p s).frame
  rw [hpath]
  cases s with
  | begin =>
    obtain ⟨b, -, -, -, rfl⟩ := hgrows
    rfl
  | _ =>
    obtain rfl := hgrows
    rfl

theorem Takes.unharmed (ht : Takes p s q) (hs : q.stopped = none) : p.stopped = none := by
  obtain ⟨p', hgrows, hframe, -⟩ := ht.frame
  have hp' := hframe.unharmed hs
  cases s with
  | begin opening perLine closing =>
    obtain ⟨b, -, -, -, rfl⟩ := hgrows
    exact hp'
  | _ => exact hgrows ▸ hp'

theorem Takes.closed (ht : Takes p s q) : q.closed = p.closed := by
  obtain ⟨p', hgrows, hframe, -⟩ := ht.frame
  refine hframe.closed.trans ?_
  cases s with
  | begin opening perLine closing =>
    obtain ⟨b, -, -, -, rfl⟩ := hgrows
    rfl
  | _ => exact congrArg (fun p : Printer => p.closed) hgrows

/-- No stroke closes the printer. -/
theorem Strokes.closed (h : Strokes p ss q) : q.closed = p.closed := by
  induction h with
  | nil p => rfl
  | cons room allowed unharmed rest ih => exact ih.trans (takes_stroke _ _).closed

theorem unharmed_foldl (ss : List Stroke) (hs : (ss.foldl stroke p).stopped = none) :
    p.stopped = none := by
  induction ss generalizing p with
  | nil => exact hs
  | cons s ss ih => exact (takes_stroke p s).unharmed (ih hs)

/-- Strokes taken one after the other, of which none ends a block. -/
theorem strokes_foldl (ss : List Stroke) (hflat : ∀ s ∈ ss, s ≠ .finish)
    (hs : (ss.foldl stroke p).stopped = none) : Strokes p ss (ss.foldl stroke p) := by
  induction ss generalizing p with
  | nil => exact .nil p
  | cons s ss ih =>
    refine .cons p.room ?_ (unharmed_foldl ss hs)
      (ih (fun s' hs' => hflat s' (List.mem_cons_of_mem _ hs')) hs)
    have := hflat s List.mem_cons_self
    cases s <;> first | exact trivial | exact absurd rfl this

theorem Strokes.append {ss' : List Stroke} (h : Strokes p ss q) (h' : Strokes q ss' r) :
    Strokes p (ss ++ ss') r := by
  induction h with
  | nil p => exact h'
  | cons room allowed unharmed rest ih => exact .cons room allowed unharmed (ih h')

theorem writeLines_eq (p : Printer) (acc s : Text) :
    p.writeLines acc s = (Stroke.ofText acc s).foldl stroke p := by
  fun_induction writeLines p acc s with
  | case1 p acc => rfl
  | case2 p acc s ih =>
    rw [ih]
    simp [Stroke.ofText, stroke, conditionalNewline]
  | case3 p acc c s hc ih => rw [ih, Stroke.ofText, if_neg hc]

theorem ofText_eq {acc t : Text} (ht : '\n' ∉ t) :
    Stroke.ofText acc t = [.text (acc.reverse ++ t)] := by
  fun_induction Stroke.ofText acc t with
  | case1 acc => simp
  | case2 acc t ih => simp at ht
  | case3 acc c t hc ih =>
    rw [ih fun h => ht (List.mem_cons_of_mem _ h)]
    simp

theorem writeLines_text {t : Text} (ht : '\n' ∉ t) : p.writeLines [] t = p.stroke (.text t) := by
  rw [writeLines_eq, ofText_eq ht]
  rfl

theorem ne_finish_of_ofText {acc t : Text} (h : s ∈ Stroke.ofText acc t) : s ≠ .finish := by
  fun_induction Stroke.ofText acc t with
  | case1 acc =>
    rintro rfl
    simp at h
  | case2 acc t ih =>
    rintro rfl
    simp only [List.mem_cons, reduceCtorEq, false_or] at h
    exact ih h rfl
  | case3 acc c t hc ih => exact ih h

theorem not_begin_of_ofText {acc t opening perLine closing : Text} :
    .begin opening perLine closing ∉ Stroke.ofText acc t := by
  fun_induction Stroke.ofText acc t with
  | case1 acc => simp
  | case2 acc t ih => simpa using ih
  | case3 acc c t hc ih => exact ih

theorem eq_of_conclude (h : p.conclude = .ok q) : q = p ∧ p.stopped = none := by
  unfold conclude at h
  split at h
  · exact ⟨(Except.ok.inj h).symm, ‹_›⟩
  · cases h

theorem conclude_of_unharmed (h : p.stopped = none) : p.conclude = .ok p := by
  rw [conclude, h]

theorem eq_of_close {p q : Printer} (hp : p.closed = false) (h : p.close = .ok q) :
    (p.stroke .flush).stopped = none ∧ q = { p.stroke .flush with closed := true } := by
  unfold close at h
  rw [hp] at h
  cases hflush : p.flush with
  | error e => simp [hflush, bind, Except.bind] at h
  | ok r =>
    obtain ⟨rfl, hs⟩ := eq_of_conclude hflush
    refine ⟨hs, ?_⟩
    simp only [hflush, bind, Except.bind, Bool.false_eq_true, if_false] at h
    split_ifs at h
    exact (Except.ok.inj h).symm

theorem of_whileOpen {x : Except Stop Printer} (h : (do p.whileOpen; x) = .ok q) :
    p.closed = false ∧ x = .ok q := by
  unfold whileOpen at h
  split_ifs at h with hclosed
  · cases h
  · exact ⟨by simpa using hclosed, h⟩

theorem strokes_of_write {t : Text} (h : p.write t = .ok q) :
    Strokes p (Stroke.ofText [] t) q := by
  obtain ⟨-, h⟩ := of_whileOpen h
  obtain ⟨rfl, hs⟩ := eq_of_conclude h
  rw [writeLines_eq] at hs ⊢
  exact strokes_foldl _ (fun s hs => ne_finish_of_ofText hs) hs

theorem strokes_of_stroke (hs : (p.stroke s).stopped = none) (allowed : p.Allows s) :
    Strokes p [s] (p.stroke s) :=
  .cons p.room allowed hs (.nil _)

/-- **An operation is a run of strokes.** -/
theorem strokes_of_run {op : Operation} (h : op.run p = .ok q) : Strokes p (op.strokes p) q := by
  cases op with
  | begin opening perLine closing level =>
    obtain ⟨-, h⟩ := of_whileOpen h
    split_ifs at h
    obtain ⟨rfl, hs⟩ := eq_of_conclude h
    exact strokes_of_stroke hs trivial
  | finish =>
    obtain ⟨-, h⟩ := of_whileOpen h
    split_ifs at h with hdepth
    obtain ⟨rfl, hs⟩ := eq_of_conclude h
    refine strokes_of_stroke hs ?_
    unfold depth at hdepth
    show 1 < p.path.length
    omega
  | write s => exact strokes_of_write h
  | newline kind =>
    obtain ⟨-, h⟩ := of_whileOpen h
    obtain ⟨rfl, hs⟩ := eq_of_conclude h
    exact strokes_of_stroke hs trivial
  | indent offset relative =>
    obtain ⟨-, h⟩ := of_whileOpen h
    have hstroke : p.stroke (.indent offset relative) = q ∧
        (p.stroke (.indent offset relative)).stopped = none := by
      unfold stroke
      split_ifs at h ⊢ <;> obtain ⟨rfl, hs⟩ := eq_of_conclude h <;> exact ⟨rfl, hs⟩
    obtain ⟨rfl, hs⟩ := hstroke
    exact strokes_of_stroke hs trivial
  | endLine => exact strokes_of_write h
  | freshLine =>
    simp only [Operation.run, freshLine, Operation.strokes] at h ⊢
    split_ifs at h ⊢ with hcolumn
    · refine strokes_of_write ?_
      cases hwrite : p.write ['\n'] with
      | error e => simp [hwrite, Except.map] at h
      | ok r => simpa [hwrite, Except.map] using h
    · cases h
      exact .nil p
  | flush =>
    obtain ⟨rfl, hs⟩ := eq_of_conclude h
    exact strokes_of_stroke hs trivial

theorem runAll_cons {op : Operation} {ops : List Operation} :
    p.runAll (op :: ops) = .ok r ↔ ∃ q, op.run p = .ok q ∧ q.runAll ops = .ok r := by
  rw [runAll]
  cases op.run p <;> simp [Except.bind]

theorem runAll_append (p : Printer) (ops ops' : List Operation) :
    p.runAll (ops ++ ops') = (p.runAll ops).bind fun q => q.runAll ops' := by
  induction ops generalizing p with
  | nil => rfl
  | cons op ops ih =>
    rw [List.cons_append, runAll, runAll]
    cases op.run p with
    | error e => rfl
    | ok q => exact ih q

theorem runAll_of_append {ops ops' : List Operation} (h : p.runAll ops = .ok q) :
    p.runAll (ops ++ ops') = q.runAll ops' := by
  rw [runAll_append, h]
  rfl

/-- The strokes of operations that are carried out one after the other. -/
def strokesTaken (p : Printer) : List Operation → List Stroke
  | [] => []
  | op :: ops => op.strokes p ++ match op.run p with
    | .ok q => q.strokesTaken ops
    | .error _ => []

theorem exists_of_mem_strokesTaken {ops : List Operation} (h : s ∈ p.strokesTaken ops) :
    ∃ op ∈ ops, ∃ p', s ∈ op.strokes p' := by
  induction ops generalizing p with
  | nil => simp [strokesTaken] at h
  | cons op ops ih =>
    rcases List.mem_append.mp h with h | h
    · exact ⟨op, List.mem_cons_self, p, h⟩
    · split at h
      · obtain ⟨op', hop', hs⟩ := ih h
        exact ⟨op', List.mem_cons_of_mem _ hop', hs⟩
      · simp at h

/-- **A run of operations is a run of their strokes.** -/
theorem strokes_strokesTaken {ops : List Operation} (h : p.runAll ops = .ok q) :
    Strokes p (p.strokesTaken ops) q := by
  induction ops generalizing p with
  | nil =>
    cases h
    exact .nil _
  | cons op ops ih =>
    obtain ⟨p₁, hrun, hrest⟩ := runAll_cons.mp h
    have hstrokes := (strokes_of_run hrun).append (ih hrest)
    rw [strokesTaken, hrun]
    exact hstrokes

theorem strokes_of_runAll {ops : List Operation} (h : p.runAll ops = .ok q) :
    ∃ ss, Strokes p ss q ∧ ∀ s ∈ ss, ∃ op ∈ ops, ∃ p', s ∈ op.strokes p' :=
  ⟨_, strokes_strokesTaken h, fun _ => exists_of_mem_strokesTaken⟩

/-- A run that can be computed. -/
theorem exists_of_output {ops : List Operation} {t : Text}
    (h : ((p.runAll ops).bind close).toOption.map (·.base.output) = some t) :
    ∃ q r, p.runAll ops = .ok q ∧ q.close = .ok r ∧ r.base.output = t := by
  cases hrun : p.runAll ops with
  | error e => simp [hrun, Except.bind, Except.toOption] at h
  | ok q =>
    cases hclose : q.close with
    | error e => simp [hrun, hclose, Except.bind, Except.toOption] at h
    | ok r =>
      refine ⟨q, r, rfl, hclose, ?_⟩
      simpa [hrun, hclose, Except.bind, Except.toOption] using h

end Printer

end Tilde
