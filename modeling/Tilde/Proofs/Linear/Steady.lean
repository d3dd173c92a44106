import Tilde.Proofs.Linear.Law

/-!
# Operations of linear layout

**`allOrNone_of_steady`**: if the white space before the first newline of a block is never more than
that before a later newline in the block, its newlines all break the line, or none of them does.

* `follows_strokes`: strokes of linear layout, one after the other;
* `strokes_of_isLinear`: the operations take the strokes that they take in direct layout.
-/

namespace Tilde.Printer

variable {start p q : Printer} {ss all : List Stroke} {s : Stroke} {ops : List Operation}

/-! ## Strokes -/

/-- The strokes that issue a token. -/
def issuing (ss : List Stroke) : List Stroke := ss.filter fun s => decide (s ≠ .text [])

theorem issuing_cons (hs : s ≠ .text []) : issuing (s :: ss) = s :: issuing ss := by
  simp [issuing, hs]

theorem path_stroke_eq_after (hs : s.IsPlain ∨ s = .newline .linear)
    (hpath : p.path = (Gaps.after all).path) (hsize : p.blocks.size = (Gaps.after all).size) :
    (p.stroke s).path = (Gaps.after (all ++ [s])).path := by
  rw [path_stroke, Gaps.after_concat]
  cases s with
  | begin opening perLine closing =>
    exact congrArg₂ List.cons hsize hpath
  | finish => exact congrArg List.tail hpath
  | text s =>
    rw [Gaps.step, if_neg (by simpa [Stroke.IsPlain] using fun h => (hs.resolve_right (by simp)).1 h)]
    exact hpath
  | newline kind =>
    exact hpath
  | _ => simp [Stroke.IsPlain] at hs

/-- **Strokes of linear layout are followed.** -/
theorem follows_strokes (hstart : start.Unused) (hp : Buffered p)
    (h : Follows start (.ongoing all) p p.buffer) (hpath : p.path = (Gaps.after all).path)
    (hss : Strokes p ss q)
    (hlinear : ∀ s ∈ ss, s.IsPlain ∨ s = .newline .linear ∨ s = .text [])
    (hsteady : (Gaps.after all).Steady (· ≤ ·) ss) :
    Buffered q ∧ Follows start (.ongoing (all ++ issuing ss)) q q.buffer := by
  induction hss generalizing all with
  | nil p =>
    rw [issuing, List.filter_nil, List.append_nil]
    exact ⟨hp, h⟩
  | @cons p q s ss room allowed unharmed rest ih =>
    obtain ⟨hsuits, hsteady⟩ := hsteady
    have hp' := hp.room room
    have h' := (follows_stroking hstart).restate p.path p.position p.pending p.buffering room h
    have hlinear' : ∀ s ∈ ss, s.IsPlain ∨ s = .newline .linear ∨ s = .text [] := fun s' hs' =>
      hlinear s' (List.mem_cons_of_mem s hs')
    by_cases hs : s = .text []
    · subst hs
      have hnothing := (follows_stroking hstart).stroke _ .nothing hp' h' unharmed
      rw [show issuing (.text [] :: ss) = issuing ss by simp [issuing]]
      exact ih (hp'.stroke allowed unharmed) hnothing hpath hlinear' hsteady
    · have hissuing : s.IsPlain ∨ s = .newline .linear :=
        (hlinear s List.mem_cons_self).imp_right fun hc => hc.resolve_right hs
      have hgoes : Progress.Goes (.ongoing all) { p with room := room } s (.ongoing (all ++ [s])) :=
        .token hissuing hpath allowed hsuits
      have hstroke := (follows_stroking hstart).stroke _ hgoes hp' h' unharmed
      have hsize : p.blocks.size = (Gaps.after all).size := by
        obtain ⟨f, r, ss₁, ss₂, rfl, htracks⟩ := h
        exact htracks.size
      rw [issuing_cons hs, ← List.singleton_append (l := issuing ss), ← List.append_assoc]
      refine ih (hp'.stroke allowed unharmed) hstroke (path_stroke_eq_after hissuing hpath hsize) hlinear' ?_
      rwa [Gaps.after_concat]

/-! ## Operations -/

theorem isLinear_strokes {op : Operation} (hop : op.IsLinear) (hs : s ∈ op.strokes p) :
    s.IsPlain ∨ s = .newline .linear ∨ s = .text [] := by
  cases op with
  | begin opening perLine closing level =>
    obtain rfl := List.mem_singleton.mp hs
    exact Or.inl hop
  | finish =>
    obtain rfl := List.mem_singleton.mp hs
    exact Or.inl trivial
  | write t =>
    rw [Operation.strokes, ofText_eq hop] at hs
    obtain rfl := List.mem_singleton.mp hs
    by_cases ht : t = []
    · exact Or.inr (Or.inr (by simp [ht]))
    · have hflat : '\n' ∉ t := hop
      exact Or.inl ⟨by simpa using ht, by simpa using hflat⟩
  | newline kind =>
    obtain rfl := List.mem_singleton.mp hs
    exact Or.inr (Or.inl (congrArg Stroke.newline hop))
  | _ => exact hop.elim

theorem strokes_eq {op : Operation} (hop : op.IsLinear) : op.strokes p = op.strokes q := by
  cases op with
  | freshLine => exact hop.elim
  | _ => rfl

/-- Operations of linear layout do not depend on what the printer has done so far. -/
theorem strokes_of_isLinear (hlinear : ∀ op ∈ ops, op.IsLinear) (h : p.runAll ops = .ok q) :
    Strokes p (start.strokesOf ops) q := by
  induction ops generalizing p with
  | nil =>
    cases h
    exact .nil _
  | cons op ops ih =>
    obtain ⟨p₁, hrun, hrest⟩ := runAll_cons.mp h
    rw [strokesOf, List.flatMap_cons, strokes_eq (q := p) (hlinear op List.mem_cons_self)]
    exact (strokes_of_run hrun).append
      (ih (fun op' hop' => hlinear op' (List.mem_cons_of_mem op hop')) hrest)

theorem foldl_direct_issuing (broken : Nat → Bool) (ss : List Stroke) (p : Printer) :
    (issuing ss).foldl (direct broken) p = ss.foldl (direct broken) p := by
  induction ss generalizing p with
  | nil => rfl
  | cons s ss ih =>
    by_cases hs : s = .text []
    · subst hs
      rw [show issuing (.text [] :: ss) = issuing ss by simp [issuing], ih]
      rfl
    · rw [issuing_cons hs]
      exact ih _

theorem unused_create {options : Options} {width : Option Int} {column : Int}
    (h : create options width column = .ok p) : p.Unused := by
  obtain ⟨o, -, rfl⟩ := exists_of_create h
  exact ⟨rfl, rfl, rfl, rfl⟩

theorem follows_create {options : Options} {width : Option Int} {column : Int}
    (h : create options width column = .ok p) : Follows p (.ongoing []) p p.buffer := by
  have hbuffered := buffered_create h
  have hflat := flat_create h
  obtain ⟨o, -, rfl⟩ := exists_of_create h
  exact ⟨_, _, [], [], rfl, .nil, ⟨Nat.le_refl _, fun _ _ => rfl, Or.inl ⟨rfl, rfl⟩⟩, rfl, .nil _ _,
    trivial, hbuffered.sound, hflat, fun _ _ hf => (by cases hf), fun _ _ _ _ _ hf => (by cases hf)⟩

/-- **Linear newlines break together**, if the white space before them is steady. -/
theorem allOrNone_of_steady {options : Options} {width : Option Int} {column : Int} {r : Printer}
    (hcreate : create options width column = .ok p) (hlinear : ∀ op ∈ ops, op.IsLinear)
    (hsteady : Gaps.Steady (· ≤ ·) {} (p.strokesOf ops)) (hrun : p.runAll ops = .ok q)
    (hclose : q.close = .ok r) : p.AllOrNone ops r.base.output := by
  have hstart := unused_create hcreate
  have hss : Strokes p (p.strokesOf ops) q := strokes_of_isLinear hlinear hrun
  obtain ⟨hq, h⟩ := follows_strokes hstart (buffered_create hcreate) (follows_create hcreate)
    hstart.path hss (fun s hs => by
      obtain ⟨op, hop, hs⟩ := List.mem_flatMap.mp hs
      exact isLinear_strokes (hlinear op hop) hs) hsteady
  have hclosed : q.closed = false := by
    obtain ⟨o, -, rfl⟩ := exists_of_create hcreate
    exact hss.closed
  obtain ⟨hs, rfl⟩ := eq_of_close hclosed hclose
  obtain ⟨-, f, r', hlaid, hbase⟩ := (follows_stroking hstart).stroke _ .flush hq h hs
  refine ⟨fun i => (f i).getD false, ?_⟩
  have hdecided : ∀ i b, f i = some b → (f i).getD false = b := fun i b hi => by simp [hi]
  have hdirect := hlaid.direct hdecided
  rw [List.nil_append, foldl_direct_issuing] at hdirect
  rw [directOutput, hdirect, ← hbase]

end Tilde.Printer
