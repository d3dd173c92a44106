import Tilde.Proofs.Layout.Stroke

/-!
# What tokens write

A token that does not break the line writes what it prints, but for the white space that it holds
back (**`exists_write_putToken`**); a broken line ends, and the next one begins with white space of
the block (`exists_write_breakLine`).
-/

namespace Tilde.Printer

variable {p q : Printer}

/-! ## The column stream, the white space held, and what observers are told -/

section Fields

@[simp] theorem base_put (p : Printer) (s : Text) : (p.put s).base = p.base.write s := rfl

@[simp] theorem held_put (p : Printer) (s : Text) : (p.put s).held = p.held := rfl

@[simp] theorem told_put (p : Printer) (s : Text) : (p.put s).told = p.told := rfl

@[simp] theorem base_putHeld (p : Printer) : p.putHeld.base = p.base.write p.held := rfl

@[simp] theorem held_putHeld (p : Printer) : p.putHeld.held = [] := rfl

@[simp] theorem told_putHeld (p : Printer) : p.putHeld.told = p.told := rfl

theorem toPrinterState_stop (p : Printer) (e : Fault) :
    (p.stop e).toPrinterState = p.toPrinterState := by
  unfold stop
  split_ifs <;> rfl

@[simp] theorem base_stop (p : Printer) (e : Fault) : (p.stop e).base = p.base := by
  rw [toPrinterState_stop]

@[simp] theorem held_stop (p : Printer) (e : Fault) : (p.stop e).held = p.held := by
  rw [toPrinterState_stop]

@[simp] theorem told_stop (p : Printer) (e : Fault) : (p.stop e).told = p.told := by
  rw [toPrinterState_stop]

@[simp] theorem base_modifyBlock (p : Printer) (i : Nat) (f : BlockState → BlockState) :
    (p.modifyBlock i f).base = p.base := rfl

@[simp] theorem held_modifyBlock (p : Printer) (i : Nat) (f : BlockState → BlockState) :
    (p.modifyBlock i f).held = p.held := rfl

@[simp] theorem told_modifyBlock (p : Printer) (i : Nat) (f : BlockState → BlockState) :
    (p.modifyBlock i f).told = p.told := rfl

/-- Marking blocks as broken changes nothing but the blocks. -/
theorem markBroken_eq (p : Printer) (path : Path) :
    p.markBroken path = { p with blocks := (p.markBroken path).blocks } := by
  cases path with
  | nil => rfl
  | cons i around =>
    have hfold : ∀ (js : List Nat) (q : Printer), js.foldl (fun p j =>
        p.modifyBlock j fun b => { b with broken := true, brokenInside := true }) q =
        { q with blocks := (js.foldl (fun p j =>
          p.modifyBlock j fun b => { b with broken := true, brokenInside := true }) q).blocks } := by
      intro js
      induction js with
      | nil => exact fun q => rfl
      | cons j js ih =>
        intro q
        rw [List.foldl_cons, ih]
        rfl
    exact hfold around _

@[simp] theorem base_markBroken (p : Printer) (path : Path) :
    (p.markBroken path).base = p.base := by
  rw [markBroken_eq]

@[simp] theorem held_markBroken (p : Printer) (path : Path) :
    (p.markBroken path).held = p.held := by
  rw [markBroken_eq]

@[simp] theorem told_markBroken (p : Printer) (path : Path) :
    (p.markBroken path).told = p.told := by
  rw [markBroken_eq]

@[simp] theorem held_putOrStop (p : Printer) (s : Except Fault Text) :
    (p.putOrStop s).held = p.held := by
  cases s <;> simp [putOrStop]

@[simp] theorem told_putOrStop (p : Printer) (s : Except Fault Text) :
    (p.putOrStop s).told = p.told := by
  cases s <;> simp [putOrStop]

@[simp] theorem held_breakLine (p : Printer) (path : Path) : (p.breakLine path).held = [] := by
  simp [breakLine]

@[simp] theorem told_breakLine (p : Printer) (path : Path) :
    (p.breakLine path).told = p.told := by
  simp [breakLine]

@[simp] theorem base_setIndent (p : Printer) (path : Path) (offset : Option Number)
    (relative : Bool) : (p.setIndent path offset relative).base = p.base := by
  unfold setIndent
  dsimp only
  split <;> simp

@[simp] theorem held_setIndent (p : Printer) (path : Path) (offset : Option Number)
    (relative : Bool) : (p.setIndent path offset relative).held = p.held := by
  unfold setIndent
  dsimp only
  split <;> simp

@[simp] theorem told_setIndent (p : Printer) (path : Path) (offset : Option Number)
    (relative : Bool) : (p.setIndent path offset relative).told = p.told := by
  unfold setIndent
  dsimp only
  split <;> simp

@[simp] theorem held_startBlock (p : Printer) (path : Path) :
    (p.startBlock path).held = p.held := by
  unfold startBlock
  dsimp only
  split <;> simp [tell]

@[simp] theorem told_startBlock (p : Printer) (path : Path) :
    (p.startBlock path).told = .start :: p.told := by
  unfold startBlock
  dsimp only
  split <;> simp [tell]

@[simp] theorem block_put (p : Printer) (s : Text) (i : Nat) : (p.put s).block i = p.block i := rfl

@[simp] theorem block_putHeld (p : Printer) (i : Nat) : p.putHeld.block i = p.block i := rfl

@[simp] theorem block_stop (p : Printer) (e : Fault) (i : Nat) :
    (p.stop e).block i = p.block i := by
  rw [block, toPrinterState_stop, block]

@[simp] theorem block_putOrStop (p : Printer) (s : Except Fault Text) (i : Nat) :
    (p.putOrStop s).block i = p.block i := by
  cases s <;> simp [putOrStop]

@[simp] theorem block_endBlock (p : Printer) (path : Path) (i : Nat) :
    (p.endBlock path).block i = p.block i := rfl

@[simp] theorem lead_breakLine (p : Printer) (path : Path) (i : Nat) :
    ((p.breakLine path).block i).lead = (p.block i).lead := by
  rw [breakLine, field_markBroken BlockState.lead fun _ _ _ => rfl, block_putOrStop]
  rfl

@[simp] theorem lead_setIndent (p : Printer) (path : Path) (offset : Option Number)
    (relative : Bool) (i : Nat) :
    ((p.setIndent path offset relative).block i).lead = (p.block i).lead := by
  unfold setIndent
  dsimp only
  split
  · exact field_modifyBlock BlockState.lead (by exact fun b => rfl) _ _ i
  · rw [block_stop]

@[simp] theorem broken_startBlock (p : Printer) (path : Path) (i : Nat) :
    ((p.startBlock path).block i).broken = (p.block i).broken := by
  unfold startBlock
  dsimp only
  split
  · rw [block_stop]
    rfl
  · exact field_modifyBlock BlockState.broken (by exact fun b => rfl) _ _ i

end Fields

/-! ## Tokens -/

theorem eq_space_of_repeated {n : Int} {s : Text}
    (h : Fault.bounded (Text.repeated [' '] n) = .ok s) : ∀ c ∈ s, c = ' ' := by
  cases hrepeated : Text.repeated [' '] n with
  | error e => simp [hrepeated, Fault.bounded] at h
  | ok t =>
    rw [hrepeated] at h
    cases h
    intro c hc
    simp only [Text.eq_times_of_repeated hrepeated, Text.times, List.isEmpty_cons,
      Bool.false_eq_true, if_false, List.mem_flatten, List.mem_replicate] at hc
    obtain ⟨l, ⟨-, rfl⟩, hc⟩ := hc
    exact List.mem_singleton.mp hc

theorem eq_space_of_indentation {b : BlockState} {s : Text} (h : b.indentation = .ok s) :
    ∀ c ∈ s, c = ' ' := by
  unfold BlockState.indentation at h
  split at h
  · exact eq_space_of_repeated h
  · cases h

/-- A new line begins with the lead and the indentation of the block. -/
theorem exists_write_breakLine {path : Path} (hs : (p.breakLine path).stopped = none) :
    ∃ indentation, (p.block (path.headD 0)).indentation = .ok indentation ∧
      (p.breakLine path).base =
        p.base.write ('\n' :: ((p.block (path.headD 0)).lead ++ indentation)) := by
  unfold breakLine at hs ⊢
  dsimp only at hs ⊢
  have hput := (Outputs.markBroken _ path).unharmed hs
  cases hindent : (p.block (path.headD 0)).indentation with
  | error e =>
    rw [hindent] at hput
    exact absurd hput (stopped_stop_ne _ e)
  | ok indentation =>
    refine ⟨indentation, rfl, ?_⟩
    rw [base_markBroken, putOrStop, base_put, base_put, base_put, ← Column.write_append,
      ← Column.write_append]
    rfl

theorem put_append (p : Printer) (s t : Text) : (p.put s).put t = p.put (s ++ t) := by
  simp [put, Column.write_append]

/-- What comes before the per-line text of the block that begins. -/
def leadAround (p : Printer) (path : Path) : Text :=
  match path.tail with
  | j :: _ => (p.block j).lead
  | [] => []

/-- The start of a block writes its texts, and its lines begin where the latter begins. -/
theorem startBlock_eq {path : Path} {lead : Text}
    (hlead : leadBelow (p.leadAround path) (p.block (path.headD 0)).perLine
      (columnAfter p.base.column (p.block (path.headD 0)).opening) = .ok lead) :
    p.startBlock path = ((p.tell .start).put ((p.block (path.headD 0)).opening ++
      (p.block (path.headD 0)).perLine)).modifyBlock (path.headD 0) fun b => { b with
        lead := lead
        startColumn := columnAfter p.base.column ((p.block (path.headD 0)).opening ++
          (p.block (path.headD 0)).perLine)
        indent := .integer (columnAfter p.base.column ((p.block (path.headD 0)).opening ++
          (p.block (path.headD 0)).perLine)) } := by
  unfold startBlock
  dsimp only
  split
  · rename_i e herror
    exact absurd (herror.symm.trans hlead) (by simp)
  · rename_i lead' hlead'
    obtain rfl := Except.ok.inj (hlead'.symm.trans hlead)
    rw [← put_append]
    simp only [columnAfter_append]
    rfl

theorem exists_leadBelow {path : Path} (hs : (p.startBlock path).stopped = none) :
    ∃ lead, leadBelow (p.leadAround path) (p.block (path.headD 0)).perLine
      (columnAfter p.base.column (p.block (path.headD 0)).opening) = .ok lead := by
  unfold startBlock at hs
  dsimp only at hs
  split at hs
  · exact absurd hs (stopped_stop_ne _ _)
  · exact ⟨_, ‹_›⟩

/-- Of the text that begins the lines of a block nothing changes until the block starts, and then it
comes from that of the block around. -/
theorem lead_putToken {Q : Text → Prop} {t : Token} (hs : (p.putToken t).stopped = none)
    (hnil : Q []) (hlead : ∀ i, Q (p.block i).lead)
    (hbelow : ∀ i parentLead column lead, Q parentLead →
      leadBelow parentLead (p.block i).perLine column = .ok lead → Q lead) (i : Nat) :
    Q ((p.putToken t).block i).lead := by
  unfold putToken at hs ⊢
  split at hs
  · rw [lead_setIndent]
    exact hlead i
  · split_ifs
    · rw [lead_breakLine]
      exact hlead i
    · exact hlead i
  · exact hlead i
  · obtain ⟨lead, hlead'⟩ := exists_leadBelow hs
    rw [startBlock_eq hlead', block_modifyBlock]
    split_ifs
    · refine hbelow _ _ _ lead ?_ hlead'
      unfold leadAround
      split
      · exact hlead _
      · exact hnil
    · exact hlead i
  · exact hlead i

/-- Only a newline breaks a block. -/
theorem broken_putToken {t : Token} (ht : t.isNewline = false) (i : Nat) :
    ((p.putToken t).block i).broken = (p.block i).broken := by
  unfold putToken
  split
  · unfold setIndent
    dsimp only
    split
    · exact field_modifyBlock BlockState.broken (by exact fun b => rfl) _ _ i
    · rw [block_stop]
  · rename_i hkind
    rw [Token.isNewline_of_kind hkind] at ht
    cases ht
  · rfl
  · exact broken_startBlock _ _ i
  · rfl

/-- **A token that does not break the line writes what it prints**, but for what it holds back. -/
theorem exists_write_putToken {t : Token} (hs : (p.putToken t).stopped = none)
    (hkept : ∀ kind path, t.kind = .newline kind path →
      p.breaksAnyway kind (path.headD 0) = false) :
    ∃ s, (p.putToken t).base = p.base.write s ∧
      s ++ (p.putToken t).held = p.held ++ p.printed t := by
  unfold putToken at hs ⊢
  unfold printed
  cases hkind : t.kind with
  | text body trailing =>
    exact ⟨p.held ++ body, by simp [Column.write_append], by simp⟩
  | blockStart path =>
    simp only [hkind] at hs
    obtain ⟨lead, hlead⟩ := exists_leadBelow hs
    have heq := startBlock_eq hlead
    exact ⟨p.held ++ ((p.block (path.headD 0)).opening ++ (p.block (path.headD 0)).perLine),
      by simp only [heq]; rw [Column.write_append]; rfl, by simp⟩
  | blockEnd path =>
    exact ⟨p.held ++ (p.block (path.headD 0)).closing, by rw [Column.write_append]; rfl,
      by simp [endBlock, tell, putHeld]⟩
  | newline kind path =>
    simp only [hkept kind path hkind, Bool.false_eq_true, if_false]
    exact ⟨p.held, rfl, by simp⟩
  | indent path offset relative =>
    exact ⟨[], by simp [Column.write, columnAfter], by simp⟩

theorem exists_write_putTokens {ts : List Token} (hs : (p.putTokens ts).stopped = none)
    (hkept : ∀ t ∈ ts, ∀ kind path, t.kind = .newline kind path → kind = .fill) :
    ∃ s, (p.putTokens ts).base = p.base.write s ∧
      s ++ (p.putTokens ts).held = p.held ++ ts.flatMap p.printed := by
  induction ts generalizing p with
  | nil => exact ⟨[], by simp [putTokens, Column.write, columnAfter], by simp [putTokens]⟩
  | cons t ts ih =>
    have ho := Outputs.putToken p t
    obtain ⟨s, hbase, hs'⟩ := exists_write_putToken
      ((Outputs.putTokens (p.putToken t) ts).unharmed hs) fun kind path hkind => by
        rw [hkept t List.mem_cons_self kind path hkind]
        rfl
    obtain ⟨s', hbase', hs''⟩ := ih (p := p.putToken t) hs fun t' ht' =>
      hkept t' (List.mem_cons_of_mem _ ht')
    refine ⟨s ++ s', ?_, ?_⟩
    · rw [Column.write_append, ← hbase, ← hbase']
      rfl
    · rw [List.append_assoc, List.flatMap_cons, ← List.append_assoc p.held, ← hs', List.append_assoc,
        ← funext ho.printed, ← hs'']
      rfl

end Tilde.Printer
