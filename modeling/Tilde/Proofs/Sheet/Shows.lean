import Tilde.Proofs.Layout.Invariant
import Tilde.Proofs.Sheet.Rules

/-!
# A printer shows a sheet

What a printer has output, and what it knows of the blocks that are open behind that, is what stands
on a sheet (`Shows`). Each piece of output goes on as a rule of layout allows.

* `Shows.text`, `Shows.startBlock`, `Shows.endBlock`, `Shows.setIndent`: tokens;
* `Shows.breakLine`, `Shows.breakHere`: line breaks.
-/

namespace Tilde

/-- What a level says of a block. -/
def BlockState.place (b : BlockState) : Int × Number × Text × Text :=
  (b.startColumn, b.indent, b.closing, b.lead)

/-- The block is as the level says, and its lines begin with the marks. -/
structure BlockState.Stands (b : BlockState) (l : Level) : Prop where
  start : l.start = b.startColumn
  indent : l.indent = b.indent
  closing : l.closing = b.closing
  lead : Carries l.marks b.lead

theorem BlockState.Stands.congr {b b' : BlockState} {l : Level} (h : b.Stands l)
    (hplace : b'.place = b.place) : b'.Stands l := by
  simp only [BlockState.place, Prod.mk.injEq] at hplace
  obtain ⟨hstart, hindent, hclosing, hlead⟩ := hplace
  exact ⟨h.start.trans hstart.symm, h.indent.trans hindent.symm, h.closing.trans hclosing.symm,
    hlead ▸ h.lead⟩

theorem Text.times_space (n : Int) : Text.times [' '] n = Text.blanks n := by
  simp [Text.times, Text.blanks]

theorem BlockState.eq_of_indentation {b : BlockState} {s : Text} (h : b.indentation = .ok s) :
    ∃ n, b.indent = .integer n ∧ s = Text.blanks (n - b.lead.length) := by
  unfold BlockState.indentation at h
  split at h
  · rename_i n hn
    refine ⟨n, hn, ?_⟩
    cases hrepeated : Text.repeated [' '] (n - b.lead.length) with
    | error e => simp [hrepeated, Fault.bounded] at h
    | ok t =>
      rw [hrepeated] at h
      rw [← Except.ok.inj h, Text.eq_times_of_repeated hrepeated, Text.times_space]
  · cases h

theorem Text.newline_notMem_blanks (n : Int) : '\n' ∉ Text.blanks n := fun h => by
  have := List.eq_of_mem_replicate h
  simp at this

namespace Printer

/-- What an indentation that is set counts from. -/
theorem exists_setIndent {p : Printer} {path : Path} {offset : Option Number} {relative : Bool}
    (hs : (p.setIndent path offset relative).stopped = none) :
    ∃ k n, offset = some k ∧
      (Number.integer (if relative then p.base.column + p.held.length
        else (p.block (path.headD 0)).startColumn)).plus k = .ok n ∧
      p.setIndent path offset relative =
        p.modifyBlock (path.headD 0) fun b => { b with indent := n } := by
  unfold setIndent at hs ⊢
  cases offset with
  | none => exact absurd hs (stopped_stop_ne _ _)
  | some k =>
    dsimp only at hs ⊢
    split at hs
    · rename_i n hn
      exact ⟨k, n, rfl, hn, rfl⟩
    · exact absurd hs (stopped_stop_ne _ _)

theorem leadBelow_eq {parentLead perLine lead : Text} {column : Int}
    (h : leadBelow parentLead perLine column = .ok lead) :
    (perLine = [] ∧ lead = parentLead) ∨ (perLine ≠ [] ∧
      lead = parentLead ++ Text.blanks (column - parentLead.length) ++ perLine) := by
  unfold leadBelow at h
  split_ifs at h with hnil
  · exact Or.inl ⟨List.isEmpty_iff.mp hnil, (Except.ok.inj h).symm⟩
  · refine Or.inr ⟨fun hc => hnil (List.isEmpty_iff.mpr hc), ?_⟩
    cases hgap : Text.repeated [' '] (column - parentLead.length) with
    | error e => simp [hgap, Fault.bounded, bind, Except.bind] at h
    | ok gap =>
      rw [hgap] at h
      rw [← Except.ok.inj h, Text.eq_times_of_repeated hgap, Text.times_space]

/-- The output of the printer stands on the sheet, and the blocks of the path are its levels. No line
is shorter than what it begins with. -/
structure Shows (start : Int) (p : Printer) (π : Path) (S : Sheet) : Prop where
  sinkOpen : p.base.closed = false
  output : p.base.output = S.text
  column : p.base.column = S.column start
  held : p.held = S.held
  levels : List.Forall₂ (fun i l => (p.block i).Stands l) π S.levels
  inside : π ≠ []
  descending : π.Pairwise (· > ·)
  within : ∀ i ∈ π, i < p.blocks.size
  flat : ∀ i ∈ π, '\n' ∉ (p.block i).lead
  reached : ∀ i ∈ π, ((p.block i).lead.length : Int) ≤ p.base.column
  nested : π.Pairwise fun i j => (p.block j).lead.length ≤ (p.block i).lead.length

namespace Shows

variable {start : Int} {p q : Printer} {π : Path} {S : Sheet}

theorem path_eq (h : Shows start p π S) : π = π.headD 0 :: π.tail := by
  obtain ⟨i, around, rfl⟩ := List.exists_cons_of_ne_nil h.inside
  rfl

theorem head_mem (h : Shows start p π S) : π.headD 0 ∈ π := by
  rw [h.path_eq]
  exact List.mem_cons_self

theorem level (h : Shows start p π S) : (p.block (π.headD 0)).Stands S.level := by
  have hlevels := h.levels
  rw [h.path_eq] at hlevels
  rw [Sheet.level]
  generalize S.levels = ls at hlevels ⊢
  cases hlevels with
  | cons hstands _ => exact hstands

/-- No block of the path begins its lines with more than the innermost one. -/
theorem lead_le (h : Shows start p π S) {i : Nat} (hi : i ∈ π) :
    (p.block i).lead.length ≤ (p.block (π.headD 0)).lead.length := by
  have hnested := h.nested
  rw [h.path_eq] at hi hnested
  rcases List.mem_cons.mp hi with rfl | hi
  · exact Nat.le_refl _
  · exact (List.pairwise_cons.mp hnested).1 i hi

theorem levels_mono {R R' : Nat → Level → Prop} {ls : List Level} (h : List.Forall₂ R π ls)
    (hR : ∀ i ∈ π, ∀ l, R i l → R' i l) : List.Forall₂ R' π ls := by
  induction h with
  | nil => exact .nil
  | cons hl _ ih =>
    exact .cons (hR _ List.mem_cons_self _ hl) (ih fun i hi => hR i (List.mem_cons_of_mem _ hi))

/-- A printer with the same output and the same blocks. -/
theorem congr (h : Shows start p π S) (hbase : q.base = p.base) (hheld : q.held = p.held)
    (hblock : ∀ i ∈ π, q.block i = p.block i) (hsize : p.blocks.size ≤ q.blocks.size) :
    Shows start q π S := by
  refine ⟨hbase ▸ h.sinkOpen, hbase ▸ h.output, hbase ▸ h.column, hheld ▸ h.held, ?_, h.inside,
    h.descending, fun i hi => Nat.lt_of_lt_of_le (h.within i hi) hsize,
    fun i hi => hblock i hi ▸ h.flat i hi, fun i hi => ?_, ?_⟩
  · exact levels_mono h.levels fun i hi l hl => hblock i hi ▸ hl
  · rw [hbase, hblock i hi]
    exact h.reached i hi
  · refine h.nested.imp_of_mem fun {i j} hi hj hij => ?_
    rw [hblock i hi, hblock j hj]
    exact hij

/-- Output that leaves the places of the blocks alone. -/
theorem outputs (h : Shows start p π S) (ho : Outputs p q) {t : Text}
    (hbase : q.base = p.base.write t)
    (hplace : ∀ i ∈ π, (q.block i).place = (p.block i).place)
    (hreached : ((p.block (π.headD 0)).lead.length : Int) ≤ q.base.column) :
    Shows start q π { S with text := S.text ++ t, held := q.held } := by
  have hlead : ∀ i ∈ π, (q.block i).lead = (p.block i).lead := fun i hi =>
    congrArg (fun place => place.2.2.2) (hplace i hi)
  refine ⟨ho.sinkClosed.trans h.sinkOpen, ?_, ?_, rfl, ?_, h.inside, h.descending,
    fun i hi => ho.size ▸ h.within i hi, fun i hi => hlead i hi ▸ h.flat i hi, fun i hi => ?_, ?_⟩
  · rw [hbase, Column.output_write _ _ h.sinkOpen, h.output]
  · rw [hbase]
    show columnAfter p.base.column t = columnAfter start (S.text ++ t)
    rw [h.column, Sheet.column, columnAfter_append]
  · exact levels_mono h.levels fun i hi _ hl => hl.congr (hplace i hi)
  · rw [hlead i hi]
    have := h.lead_le hi
    omega
  · refine h.nested.imp_of_mem fun {i j} hi hj hij => ?_
    rw [hlead i hi, hlead j hj]
    exact hij

/-- A text without line breaks is written. -/
theorem write (h : Shows start p π S) (ho : Outputs p q) {t : Text}
    (hbase : q.base = p.base.write t) (ht : '\n' ∉ t)
    (hplace : ∀ i ∈ π, (q.block i).place = (p.block i).place) :
    Shows start q π { S with text := S.text ++ t, held := q.held } := by
  refine h.outputs ho hbase hplace ?_
  have := h.reached _ h.head_mem
  rw [hbase]
  show _ ≤ columnAfter p.base.column t
  rw [columnAfter_eq ht]
  omega

theorem putHeld (h : Shows start p π S) (hheld : '\n' ∉ p.held) :
    Shows start p.putHeld π (S.put []) := by
  have hwrite := h.write (.putHeld p) (base_putHeld p) hheld fun _ _ => rfl
  rw [h.held] at hwrite
  simpa [Sheet.put] using hwrite

/-- The white space held and a text are written. -/
theorem put (h : Shows start p π S) {s : Text} (hheld : '\n' ∉ p.held) (hs : '\n' ∉ s) :
    Shows start (p.putHeld.put s) π (S.put s) := by
  have hwrite := h.write ((Outputs.putHeld p).trans (.put _ s)) (t := p.held ++ s)
    (by rw [base_put, base_putHeld, Column.write_append]) (by simp [hheld, hs]) fun _ _ => rfl
  rw [h.held] at hwrite
  simpa [Sheet.put, List.append_assoc] using hwrite

theorem text (h : Shows start p π S) {body trailing : Text} (hheld : '\n' ∉ p.held)
    (hbody : '\n' ∉ body) :
    Shows start { p.putHeld.put body with held := trailing } π
      { S.put body with held := trailing } := by
  have hwrite := (h.put hheld hbody).write (.hold _ trailing) (t := [])
    (by simp [Column.write, columnAfter]) (by simp) fun _ _ => rfl
  simpa [Sheet.put] using hwrite

theorem tell (h : Shows start p π S) (e : BlockEvent) : Shows start (p.tell e) π S :=
  h.congr rfl rfl (fun _ _ => rfl) (Nat.le_refl _)

/-- The innermost block ends. -/
theorem endBlock (h : Shows start p π S) (hheld : '\n' ∉ p.held)
    (hclosing : '\n' ∉ (p.block (π.headD 0)).closing) (houter : π.tail ≠ []) :
    Shows start (p.putHeld.endBlock π) π.tail
      { S.put S.level.closing with levels := S.levels.tail } := by
  have hput := (h.put hheld hclosing).tell .finish
  rw [h.level.closing]
  refine ⟨hput.sinkOpen, hput.output, hput.column, hput.held, ?_, houter, hput.descending.tail,
    fun i hi => hput.within i (List.mem_of_mem_tail hi),
    fun i hi => hput.flat i (List.mem_of_mem_tail hi),
    fun i hi => hput.reached i (List.mem_of_mem_tail hi), hput.nested.tail⟩
  have hlevels := hput.levels
  rw [h.path_eq] at hlevels
  show List.Forall₂ _ π.tail S.levels.tail
  change List.Forall₂ _ (π.headD 0 :: π.tail) S.levels at hlevels
  generalize S.levels = ls at hlevels ⊢
  cases hlevels with
  | cons _ hrest => exact hrest

/-- A conditional newline breaks the line. -/
theorem breakLine (h : Shows start p π S) (hs : (p.breakLine π).stopped = none) :
    ∃ lead n, Carries S.level.marks lead ∧ S.level.indent = .integer n ∧
      Shows start (p.breakLine π) π (S.turn (lead ++ Text.blanks (n - lead.length))) := by
  obtain ⟨indentation, hindentation, hbase⟩ := exists_write_breakLine hs
  obtain ⟨n, hn, rfl⟩ := BlockState.eq_of_indentation hindentation
  refine ⟨_, n, h.level.lead, h.level.indent.trans hn, ?_⟩
  have hflat : '\n' ∉ (p.block (π.headD 0)).lead ++
      Text.blanks (n - (p.block (π.headD 0)).lead.length) := by
    rw [List.mem_append, not_or]
    exact ⟨h.flat _ h.head_mem, Text.newline_notMem_blanks _⟩
  have houtputs := h.outputs (.breakLine p π) hbase (fun i hi => ?_) ?_
  · simpa [Sheet.turn] using houtputs
  · rw [Printer.breakLine, field_markBroken BlockState.place fun _ _ _ => rfl, block_putOrStop]
    rfl
  · rw [hbase]
    show _ ≤ columnAfter p.base.column ('\n' :: _)
    rw [columnAfter_newline _ hflat, List.length_append]
    omega

/-- A literal newline breaks the line. -/
theorem breakHere (h : Shows start p p.path S) :
    ∃ lead, Carries S.level.marks lead ∧
      Shows start p.breakHere p.path { S.turn lead with held := p.held } := by
  refine ⟨_, h.level.lead, ?_⟩
  have hbase : p.breakHere.base =
      p.base.write ('\n' :: (p.block (p.path.headD 0)).lead) := base_markBroken _ _
  have houtputs := h.outputs (.breakHere p) hbase (fun i hi => ?_) ?_
  · have hheld : p.breakHere.held = p.held := held_markBroken _ _
    simpa [Sheet.turn, hheld] using houtputs
  · rw [Printer.breakHere, field_markBroken BlockState.place fun _ _ _ => rfl]
    rfl
  · rw [hbase]
    exact Int.le_of_eq (columnAfter_newline p.base.column (h.flat _ h.head_mem)).symm

/-- The indentation of the innermost block is set. -/
theorem setIndent (h : Shows start p π S) {offset : Option Number} {relative : Bool}
    (hs : (p.setIndent π offset relative).stopped = none) :
    ∃ k n, offset = some k ∧ (Number.integer (S.origin start relative)).plus k = .ok n ∧
      Shows start (p.setIndent π offset relative) π
        { S with levels := S.levels.modifyHead fun l => { l with indent := n } } := by
  obtain ⟨k, n, rfl, hn, heq⟩ := exists_setIndent hs
  have horigin : (if relative then p.base.column + p.held.length
      else (p.block (π.headD 0)).startColumn) = S.origin start relative := by
    rw [Sheet.origin, h.column, h.held, h.level.start]
  refine ⟨k, n, rfl, horigin ▸ hn, ?_⟩
  rw [heq]
  have hblock (j : Nat) := block_modifyBlock p (π.headD 0) j fun b => { b with indent := n }
  have hlead (j : Nat) : ((p.modifyBlock (π.headD 0) fun b => { b with indent := n }).block
      j).lead = (p.block j).lead :=
    field_modifyBlock BlockState.lead (by exact fun b => rfl) _ _ j
  refine ⟨h.sinkOpen, h.output, h.column, h.held, ?_, h.inside, h.descending,
    fun i hi => by simpa using h.within i hi, fun i hi => by rw [hlead]; exact h.flat i hi,
    fun i hi => by rw [hlead]; exact h.reached i hi, ?_⟩
  · have hlevels := h.levels
    have hdescending := h.descending
    have hhead := h.within _ h.head_mem
    obtain ⟨i, around, rfl⟩ := List.exists_cons_of_ne_nil h.inside
    show List.Forall₂ _ _ (S.levels.modifyHead _)
    generalize S.levels = ls at hlevels ⊢
    cases hlevels with
    | cons hstands hrest =>
      refine .cons ?_ ?_
      · rw [hblock, if_pos ⟨rfl, hhead⟩]
        exact ⟨hstands.start, rfl, hstands.closing, hstands.lead⟩
      · refine levels_mono hrest fun j hj l hl => ?_
        have hlt := (List.pairwise_cons.mp hdescending).1 j hj
        rw [hblock, if_neg fun hc => Nat.ne_of_gt hlt hc.1]
        exact hl
  · refine h.nested.imp fun hij => ?_
    rw [hlead, hlead]
    exact hij

/-- What the lines of a block inside begin with, and where its contents begin. -/
theorem carries_inner (h : Shows start p π S) {opening perLine lead : Text} (closing : Text)
    (hheld : '\n' ∉ p.held) (hopening : '\n' ∉ opening) (hperLine : '\n' ∉ perLine)
    (hlead : leadBelow (p.block (π.headD 0)).lead perLine ((S.put opening).column start) =
      .ok lead) :
    Carries (S.inner start opening perLine closing).marks lead ∧ '\n' ∉ lead ∧
      (p.block (π.headD 0)).lead.length ≤ lead.length ∧
      (lead.length : Int) ≤ (S.put (opening ++ perLine)).column start := by
  have hopened := h.put hheld hopening
  -- the per-line text begins behind what the lines of the block around it begin with
  have hreached : ((p.block (π.headD 0)).lead.length : Int) ≤ (S.put opening).column start :=
    hopened.column ▸ hopened.reached _ h.head_mem
  have hend : (S.put (opening ++ perLine)).column start =
      (S.put opening).column start + perLine.length := by
    rw [Sheet.column, Sheet.put, ← List.append_assoc, columnAfter_append, columnAfter_eq hperLine]
    rfl
  rcases leadBelow_eq hlead with ⟨hnil, rfl⟩ | ⟨hne, rfl⟩
  · rw [Sheet.inner, if_pos hnil, hend, hnil]
    exact ⟨h.level.lead, h.flat _ h.head_mem, Nat.le_refl _, by simpa using hreached⟩
  · rw [Sheet.inner, if_neg hne, hend]
    refine ⟨h.level.lead.concat hreached, ?_, ?_, ?_⟩
    · simp only [List.mem_append, not_or]
      exact ⟨⟨h.flat _ h.head_mem, Text.newline_notMem_blanks _⟩, hperLine⟩
    · simp only [List.length_append]
      omega
    · simp only [List.length_append, Text.length_blanks]
      omega

/-- A block that has not been open is open from now on. -/
theorem enterBlock (h : Shows start p π S) {n : Nat} {f : BlockState → BlockState} {l : Level}
    (hn : n < p.blocks.size) (hbelow : ∀ i ∈ π, i < n) (hstands : (f (p.block n)).Stands l)
    (hflat : '\n' ∉ (f (p.block n)).lead)
    (hreached : ((f (p.block n)).lead.length : Int) ≤ p.base.column)
    (hnested : ∀ i ∈ π, (p.block i).lead.length ≤ (f (p.block n)).lead.length) :
    Shows start (p.modifyBlock n f) (n :: π) { S with levels := l :: S.levels } := by
  have hnew : (p.modifyBlock n f).block n = f (p.block n) := by
    rw [block_modifyBlock, if_pos ⟨rfl, hn⟩]
  have hold {i : Nat} (hi : i ∈ π) : (p.modifyBlock n f).block i = p.block i :=
    block_modifyBlock_of_ne (Nat.ne_of_gt (hbelow i hi)) f
  refine ⟨h.sinkOpen, h.output, h.column, h.held, .cons ?_ ?_, List.cons_ne_nil _ _,
    List.pairwise_cons.mpr ⟨hbelow, h.descending⟩, ?_, ?_, ?_, List.pairwise_cons.mpr ⟨?_, ?_⟩⟩
  · rwa [hnew]
  · refine levels_mono h.levels fun j hj l hl => ?_
    rwa [hold hj]
  · refine List.forall_mem_cons.mpr ⟨by simpa using hn, fun i hi => ?_⟩
    simpa using h.within i hi
  · refine List.forall_mem_cons.mpr ⟨by rwa [hnew], fun i hi => ?_⟩
    rw [hold hi]
    exact h.flat i hi
  · refine List.forall_mem_cons.mpr ⟨by rwa [hnew], fun i hi => ?_⟩
    rw [hold hi]
    exact h.reached i hi
  · intro i hi
    rw [hnew, hold hi]
    exact hnested i hi
  · refine h.nested.imp_of_mem fun {i j} hi hj hij => ?_
    rwa [hold hi, hold hj]

/-- A block starts inside the innermost one. -/
theorem startBlock (h : Shows start p π S) {n : Nat} (hn : n < p.blocks.size)
    (hbelow : ∀ i ∈ π, i < n) (hheld : '\n' ∉ p.held) (hopening : '\n' ∉ (p.block n).opening)
    (hperLine : '\n' ∉ (p.block n).perLine)
    (hs : (p.putHeld.startBlock (n :: π)).stopped = none) :
    Shows start (p.putHeld.startBlock (n :: π)) (n :: π)
      { S.put ((p.block n).opening ++ (p.block n).perLine) with
        levels :=
          S.inner start (p.block n).opening (p.block n).perLine (p.block n).closing ::
            S.levels } := by
  obtain ⟨lead, hlead⟩ := exists_leadBelow hs
  have hput := (h.put hheld (s := (p.block n).opening ++ (p.block n).perLine)
    (by simp [hopening, hperLine])).tell .start
  have haround : p.putHeld.leadAround (n :: π) = (p.block (π.headD 0)).lead := by
    rw [h.path_eq]
    rfl
  obtain ⟨hcarries, hflat, hle, hlength⟩ := h.carries_inner (p.block n).closing hheld hopening
    hperLine (by rw [← haround, ← (h.put hheld hopening).column]; exact hlead)
  rw [startBlock_eq (show leadBelow (p.putHeld.leadAround (n :: π)) _ _ = _ from hlead)]
  have hcolumn : columnAfter p.putHeld.base.column ((p.block n).opening ++ (p.block n).perLine) =
      (S.put ((p.block n).opening ++ (p.block n).perLine)).column start := hput.column
  simp only [List.headD_cons, block_putHeld, hcolumn]
  exact hput.enterBlock (n := n) hn hbelow ⟨rfl, rfl, rfl, hcarries⟩ hflat
    (hput.column ▸ hlength) fun i hi => (h.lead_le hi).trans hle

end Shows

end Printer

end Tilde
