import Tilde.Proofs.Sheet.Shows

/-!
# A printer follows the rules of layout

**`exists_sheet_of_runAll`**: after any operations, what a printer has output is what a first part of
their strokes puts on a sheet, and of the others the tokens are still in the buffer.

* `Owes`, `Owed`: strokes, and the tokens that they have issued;
* `Drawn`: the tokens that have been output are on the sheet; `Drawn.putToken`: the next one is.
-/

namespace Tilde.Printer

open Sheet (Step Run)

/-! ## Tokens and strokes -/

/-- The kind of token that a stroke has issued, when there were so many blocks and these were open,
and the blocks there were afterwards. -/
inductive Owes (block : Nat → BlockState) (n : Nat) (π : Path) :
    Stroke → TokenKind → Nat → Path → Prop
  | text {s : Text} (hs : s ≠ []) :
    Owes block n π (.text s) (.text (Text.splitTrailing s).1 (Text.splitTrailing s).2) n π
  | begin : Owes block n π (.begin (block n).opening (block n).perLine (block n).closing)
      (.blockStart (n :: π)) (n + 1) (n :: π)
  | finish (inside : π.tail ≠ []) : Owes block n π .finish (.blockEnd π) n π.tail
  | newline {kind : NewlineKind} (hkind : kind ≠ .literal) :
    Owes block n π (.newline kind) (.newline kind π) n π
  | indent (offset : Option Number) (relative : Bool) :
    Owes block n π (.indent offset relative) (.indent π offset relative) n π

/-- The tokens that strokes have issued. An empty text has issued none. -/
inductive Owed (block : Nat → BlockState) :
    Nat → Path → List Stroke → List Token → Nat → Path → Prop
  | nil (n : Nat) (π : Path) : Owed block n π [] [] n π
  | nothing {n m : Nat} {π σ : Path} {ss : List Stroke} {ts : List Token}
      (rest : Owed block n π ss ts m σ) : Owed block n π (.text [] :: ss) ts m σ
  | cons {n k m : Nat} {π τ σ : Path} {s : Stroke} {t : Token} {ss : List Stroke}
      {ts : List Token} (first : Owes block n π s t.kind k τ) (rest : Owed block k τ ss ts m σ) :
      Owed block n π (s :: ss) (t :: ts) m σ

variable {block block' : Nat → BlockState} {n k m : Nat} {π τ σ : Path} {s : Stroke}
  {kind : TokenKind} {ss : List Stroke} {t : Token} {ts : List Token} {start : Int}

namespace Owes

theorem le (h : Owes block n π s kind k τ) : n ≤ k := by
  cases h <;> omega

theorem below (h : Owes block n π s kind k τ) (hπ : ∀ i ∈ π, i < n) : ∀ i ∈ τ, i < k := by
  cases h with
  | begin =>
    refine List.forall_mem_cons.mpr ⟨Nat.lt_succ_self n, fun i hi => ?_⟩
    exact Nat.lt_succ_of_lt (hπ i hi)
  | finish => exact fun i hi => hπ i (List.mem_of_mem_tail hi)
  | _ => exact hπ

/-- What matters of the blocks are the texts of those to come. -/
theorem congr (h : Owes block n π s kind k τ)
    (htexts : ∀ i, i < k → (block' i).opening = (block i).opening ∧
      (block' i).perLine = (block i).perLine ∧ (block' i).closing = (block i).closing) :
    Owes block' n π s kind k τ := by
  cases h with
  | text hs => exact .text hs
  | begin =>
    obtain ⟨hopening, hperLine, hclosing⟩ := htexts n (Nat.lt_succ_self n)
    rw [← hopening, ← hperLine, ← hclosing]
    exact .begin
  | finish inside => exact .finish inside
  | newline hkind => exact .newline hkind
  | indent offset relative => exact .indent offset relative

end Owes

/-- What a stroke issues is owed for it. -/
theorem Issues.owes {p p' : Printer} (h : Issues p s kind p') (allowed : p.Allows s) :
    Owes p'.block p.blocks.size p.path s kind p'.blocks.size (p.leave s p').path := by
  cases h with
  | text hs => exact .text hs
  | begin b =>
    generalize hp' : ({ p with
      blocks := p.blocks.push b, path := p.blocks.size :: p.path } : Printer) = p'
    have hb : p'.block p.blocks.size = b := hp' ▸ (block_push ..).trans (if_pos rfl)
    have hsize : p'.blocks.size = p.blocks.size + 1 := by
      rw [← hp', Array.size_push]
    rw [hsize, ← hb]
    exact hp' ▸ .begin
  | finish =>
    refine .finish fun hnil => ?_
    have hlength := congrArg List.length hnil
    have : 1 < p.path.length := allowed
    rw [List.length_tail, List.length_nil] at hlength
    omega
  | newline hkind => exact .newline hkind
  | indent offset relative => exact .indent offset relative

namespace Owed

theorem le (h : Owed block n π ss ts m σ) : n ≤ m := by
  induction h with
  | nil => exact Nat.le_refl _
  | nothing rest ih => exact ih
  | cons first rest ih => exact first.le.trans ih

theorem congr (h : Owed block n π ss ts m σ)
    (htexts : ∀ i, i < m → (block' i).opening = (block i).opening ∧
      (block' i).perLine = (block i).perLine ∧ (block' i).closing = (block i).closing) :
    Owed block' n π ss ts m σ := by
  induction h with
  | nil => exact .nil _ _
  | nothing rest ih => exact .nothing (ih htexts)
  | cons first rest ih =>
    exact .cons (first.congr fun i hi => htexts i (Nat.lt_of_lt_of_le hi rest.le)) (ih htexts)

theorem outputs {p q : Printer} (h : Owed p.block n π ss ts p.blocks.size σ) (ho : Outputs p q) :
    Owed q.block n π ss ts q.blocks.size σ := by
  rw [ho.size]
  exact h.congr fun i _ => ⟨ho.opening i, ho.perLine i, ho.closing i⟩

theorem concat (h : Owed block n π ss ts m σ) (h' : Owes block m σ s t.kind k τ) :
    Owed block n π (ss ++ [s]) (ts ++ [t]) k τ := by
  induction h with
  | nil => exact .cons h' (.nil _ _)
  | nothing rest ih => exact .nothing (ih h')
  | cons first rest ih => exact .cons first (ih h')

theorem concat_nothing (h : Owed block n π ss ts m σ) :
    Owed block n π (ss ++ [.text []]) ts m σ := by
  induction h with
  | nil => exact .nothing (.nil _ _)
  | nothing rest ih => exact .nothing ih
  | cons first rest ih => exact .cons first ih

/-- Strokes that have issued no token put nothing on a sheet. -/
theorem of_nil (start : Int) (h : Owed block n π ss [] m σ) : π = σ ∧ ∀ S, Run start S ss S := by
  generalize hts : ([] : List Token) = ts at h
  induction h with
  | nil => exact ⟨rfl, .nil⟩
  | nothing rest ih =>
    obtain ⟨hπ, hrun⟩ := ih hts
    exact ⟨hπ, fun S => .cons .nothing (hrun S)⟩
  | cons => cases hts

/-- The next token is that of the next stroke that puts anything on a sheet. -/
theorem of_cons (start : Int) (h : Owed block n π ss (t :: ts) m σ) :
    ∃ skipped s rest k τ, ss = skipped ++ s :: rest ∧ (∀ S, Run start S skipped S) ∧
      Owes block n π s t.kind k τ ∧ Owed block k τ rest ts m σ := by
  generalize hts : t :: ts = us at h
  induction h with
  | nil => cases hts
  | nothing rest ih =>
    obtain ⟨skipped, s, ss, k, τ, rfl, hrun, hfirst, hrest⟩ := ih hts
    exact ⟨.text [] :: skipped, s, ss, k, τ, rfl, fun S => .cons .nothing (hrun S), hfirst, hrest⟩
  | cons first rest ih =>
    cases hts
    exact ⟨[], _, _, _, _, rfl, .nil, first, rest⟩

end Owed

/-! ## What is on the sheet -/

/-- What the printer has output is what the first of the strokes put on a sheet, and the others have
issued the tokens that it has still to output, and left these blocks open. -/
def Drawn (start : Int) (strokes : List Stroke) (σ : Path) (p : Printer) (ts : List Token) : Prop :=
  ∃ done waiting S n π, strokes = done ++ waiting ∧ Run start {} done S ∧ Shows start p π S ∧
    (∀ i ∈ π, i < n) ∧ Owed p.block n π waiting ts p.blocks.size σ

namespace Drawn

variable {p q : Printer} {strokes : List Stroke} {us : List Token}

/-- The next token, the stroke that has issued it, and what is on the sheet before it. -/
theorem next (h : Drawn start strokes σ p (t :: ts)) :
    ∃ s S n π k τ, Shows start p π S ∧ (∀ i ∈ π, i < n) ∧ Owes p.block n π s t.kind k τ ∧
      k ≤ p.blocks.size ∧ ∀ {q : Printer} {T : Sheet}, Step start S s T → Shows start q τ T →
        Outputs p q → Drawn start strokes σ q ts := by
  obtain ⟨done, waiting, S, n, π, rfl, hrun, hshows, hbelow, howed⟩ := h
  obtain ⟨skipped, s, rest, k, τ, rfl, hskipped, hfirst, hrest⟩ := howed.of_cons start
  refine ⟨s, S, n, π, k, τ, hshows, hbelow, hfirst, hrest.le, fun hstep hq ho => ?_⟩
  refine ⟨done ++ skipped ++ [s], rest, _, k, τ, by simp, ?_, hq, hfirst.below hbelow,
    hrest.outputs ho⟩
  exact (hrun.append (hskipped S)).concat hstep

/-- A newline breaks the line. -/
theorem breakLine {kind : NewlineKind} {path : Path} (h : Drawn start strokes σ p (t :: ts))
    (hkind : t.kind = .newline kind path) (hs : (p.breakLine path).stopped = none) :
    Drawn start strokes σ (p.breakLine path) ts := by
  obtain ⟨s, S, n, π, k, τ, hshows, -, howes, -, hdrawn⟩ := h.next
  rw [hkind] at howes
  cases howes with
  | newline hkind =>
    obtain ⟨lead, i, hlead, hindent, hbroken⟩ := hshows.breakLine hs
    exact hdrawn (.breaks hkind hlead hindent) hbroken (.breakLine p path)

/-- A newline is passed over. -/
theorem skip {kind : NewlineKind} {path : Path} (h : Drawn start strokes σ p (t :: ts))
    (hkind : t.kind = .newline kind path) : Drawn start strokes σ p ts := by
  obtain ⟨s, S, n, π, k, τ, hshows, -, howes, -, hdrawn⟩ := h.next
  rw [hkind] at howes
  cases howes with
  | newline hkind => exact hdrawn (.stays hkind) hshows (.refl p)

/-- **A token that is output is put on the sheet.** -/
theorem putToken (h : Drawn start strokes σ p (t :: ts)) (hflat : Flat p (t :: ts))
    (hs : (p.putToken t).stopped = none) : Drawn start strokes σ (p.putToken t) ts := by
  obtain ⟨s, S, n, π, k, τ, hshows, hbelow, howes, hk, hdrawn⟩ := h.next
  have ho := Outputs.putToken p t
  generalize hkind : t.kind = kind at howes
  cases howes with
  | text hne =>
    refine hdrawn (.text hne) ?_ ho
    simp only [Printer.putToken, hkind]
    exact hshows.text hflat.held (hflat.text t List.mem_cons_self _ _ hkind).1
  | begin =>
    refine hdrawn (.begin _ _ _) ?_ ho
    simp only [Printer.putToken, hkind] at hs ⊢
    exact hshows.startBlock hk hbelow hflat.held (hflat.opening n) (hflat.perLine n) hs
  | finish inside =>
    refine hdrawn .finish ?_ ho
    simp only [Printer.putToken, hkind]
    exact hshows.endBlock hflat.held (hflat.closing _) inside
  | @newline kind hne =>
    have hput : p.putToken t =
        if p.breaksAnyway kind (π.headD 0) then p.breakLine π else p.putHeld := by
      simp only [Printer.putToken, hkind]
    rw [hput] at hs ho ⊢
    split_ifs at hs ho ⊢
    · exact h.breakLine hkind hs
    · exact hdrawn (.written hne) (hshows.putHeld hflat.held) ho
  | indent offset relative =>
    have hput : p.putToken t = p.setIndent π offset relative := by
      simp only [Printer.putToken, hkind]
    rw [hput] at hs ho ⊢
    obtain ⟨_, i, rfl, hi, hset⟩ := hshows.setIndent hs
    exact hdrawn (.indent hi) hset ho

theorem putTokens (h : Drawn start strokes σ p (ts ++ us)) (hflat : Flat p (ts ++ us))
    (hs : (p.putTokens ts).stopped = none) : Drawn start strokes σ (p.putTokens ts) us := by
  induction ts generalizing p with
  | nil => exact h
  | cons t ts ih =>
    have hput := (Outputs.putTokens (p.putToken t) ts).unharmed hs
    exact ih (h.putToken hflat hput) hflat.putToken hs

theorem putAll (h : Drawn start strokes σ p ts) (hflat : Flat p ts)
    (hs : (p.putTokens ts).stopped = none) :
    ∃ S, Run start {} strokes S ∧ Shows start (p.putTokens ts) σ S := by
  rw [← List.append_nil ts] at h hflat
  obtain ⟨done, waiting, S, n, π, rfl, hrun, hshows, -, howed⟩ := h.putTokens hflat hs
  obtain ⟨rfl, hnothing⟩ := howed.of_nil start
  exact ⟨S, hrun.append (hnothing S), hshows⟩

/-- A sheet that is shown with no token left. -/
theorem of_shows {S : Sheet} (hrun : Run start {} strokes S) (hshows : Shows start p σ S) :
    Drawn start strokes σ p [] :=
  ⟨strokes, [], S, p.blocks.size, σ, (List.append_nil _).symm, hrun, hshows, hshows.within,
    .nil _ _⟩

theorem restate (h : Drawn start strokes σ p ts) (path : Path) (position : Nat) (pending : Buffer)
    (buffering : Bool) (room : Option Nat) :
    Drawn start strokes σ { p with
      path := path, position := position, pending := pending, buffering := buffering
      room := room } ts := by
  obtain ⟨done, waiting, S, n, π, heq, hrun, hshows, hbelow, howed⟩ := h
  exact ⟨done, waiting, S, n, π, heq, hrun, hshows.congr rfl rfl (fun _ _ => rfl) (Nat.le_refl _),
    hbelow, howed⟩

/-- **One token more.** -/
theorem issue {p' : Printer} (h : Drawn start strokes p.path p ts) (hi : Issues p s kind p')
    (allowed : p.Allows s) (at' : Nat) :
    Drawn start (strokes ++ [s]) (p.leave s p').path p' (ts ++ [p'.tokenAt at' kind]) := by
  obtain ⟨done, waiting, S, n, π, rfl, hrun, hshows, hbelow, howed⟩ := h
  have hblock (i : Nat) (hlt : i < p.blocks.size) : p'.block i = p.block i := hi.block hlt
  refine ⟨done, waiting ++ [s], S, n, π, List.append_assoc _ _ _, hrun, ?_, hbelow, ?_⟩
  · exact hshows.congr (by rw [hi.state]) (by rw [hi.state])
      (fun i hmem => hblock i (hshows.within i hmem)) hi.size_le
  · refine Owed.concat (howed.congr fun i hlt => ?_) (hi.owes allowed)
    simp only [hblock i hlt, and_self]

end Drawn

/-! ## Strokes -/

/-- The strokes that have been taken, and the blocks that are open behind them. -/
structure Course where
  strokes : List Stroke := []
  path : Path := [0]

/-- One stroke more. -/
structure Course.Goes (c : Course) (p : Printer) (s : Stroke) (c' : Course) : Prop where
  path : c.path = p.path
  allowed : p.Allows s
  newlineFree : s.NewlineFree
  eq : c' = ⟨c.strokes ++ [s], p.pathAfter s⟩

/-- **Every stroke is taken as the rules of layout allow.** -/
theorem drawn_stroking (start : Int) : Stroking Course.Goes fun c p ts =>
    Drawn start c.strokes c.path p ts ∧ Flat p ts where
  settling c := {
    put _ hs h := ⟨h.1.putToken h.2 hs, h.2.putToken⟩
    broken hkind _ hs h := ⟨h.1.breakLine hkind hs,
      h.2.outputs (.breakLine _ _) (by simp) (List.subset_cons_self _ _)⟩
    passed hkind _ _ h := ⟨h.1.skip hkind,
      h.2.outputs (.refl _) h.2.held (List.subset_cons_self _ _)⟩
    putSection {p ts rest path} _ _ _ _ hs h := by
      rw [← Token.sectionOf_append_afterSection path ts, List.append_assoc] at h
      exact ⟨h.1.putTokens h.2 hs, h.2.putTokens⟩ }
  restate path position pending buffering room h :=
    ⟨h.1.restate path position pending buffering room,
      flat_stroking.restate (g := ()) path position pending buffering room h.2⟩
  nothing hgoes h := by
    obtain ⟨⟨done, waiting, S, n, π, heq, hrun, hshows, hbelow, howed⟩, hflat⟩ := h
    obtain ⟨hpath, -, -, rfl⟩ := hgoes
    refine ⟨⟨done, waiting ++ [.text []], S, n, π, ?_, hrun, hshows, hbelow, ?_⟩, hflat⟩
    · rw [heq, List.append_assoc]
    · rw [hpath] at howed
      exact howed.concat_nothing
  issue at' hgoes hi _ _ _ h := by
    obtain ⟨hpath, allowed, hfree, rfl⟩ := hgoes
    refine ⟨?_, h.2.issue hfree hi at'⟩
    rw [← hi.pathAfter]
    exact (hpath ▸ h.1).issue hi allowed at'
  flush hgoes _ hs h := by
    obtain ⟨hpath, -, -, rfl⟩ := hgoes
    obtain ⟨S, hrun, hshows⟩ := h.1.putAll h.2 hs
    refine ⟨.of_shows (hrun.concat .flush) ?_, h.2.putAll.putHeld⟩
    rw [hpath] at hshows
    exact hshows.putHeld h.2.putAll.held
  literal {c c' p q ts} hgoes hfits hs hq h := by
    obtain ⟨hpath, -, -, rfl⟩ := hgoes
    obtain ⟨S, hrun, hshows⟩ := h.1.putAll h.2 hs
    have hflat := @Stroking.literal _ _ _ flat_stroking () () p q ts trivial hfits hs hq h.2
    refine ⟨?_, hflat⟩
    have hput : Shows start { (q.putTokens ts).putHeld with pending := .empty, buffering := false }
        c.path (S.put []) :=
      (hshows.putHeld h.2.putAll.held).congr rfl rfl (fun _ _ => rfl) (Nat.le_refl _)
    -- the line is broken in the block that is current
    rw [hpath, ← hq, ← (Outputs.putTokens q ts).path] at hput
    obtain ⟨lead, hlead, hbroken⟩ := hput.breakHere
    refine .of_shows (hrun.concat (.literal hlead)) ?_
    rw [show p.pathAfter (.newline .literal) = (q.putTokens ts).path from
      hq.symm.trans (Outputs.putTokens q ts).path.symm]
    exact hbroken

/-- **After any strokes**, what has been output is on the sheet. -/
theorem drawn_strokes {p q : Printer} {done : List Stroke} (hp : Buffered p)
    (h : Drawn start done p.path p p.buffer) (hflat : Flat p p.buffer) (hss : Strokes p ss q)
    (hfree : ∀ s ∈ ss, s.NewlineFree) : Drawn start (done ++ ss) q.path q q.buffer := by
  induction hss generalizing done with
  | nil p => rwa [List.append_nil]
  | @cons p q s ss room allowed unharmed rest ih =>
    have hp' := hp.room room
    obtain ⟨hdrawn, hflat'⟩ := (drawn_stroking start).stroke (g := ⟨done, p.path⟩)
      (p := { p with room := room }) ⟨done ++ [s], { p with room := room }.pathAfter s⟩
      ⟨rfl, allowed, hfree s List.mem_cons_self, rfl⟩ hp'
      ((drawn_stroking start).restate (g := ⟨done, p.path⟩) _ _ _ _ room ⟨h, hflat⟩) unharmed
    rw [← path_stroke] at hdrawn
    have hall := ih (hp'.stroke allowed unharmed) hdrawn hflat' fun s' hs' =>
      hfree s' (List.mem_cons_of_mem _ hs')
    rwa [List.append_assoc] at hall

/-! ## Operations -/

/-- A printer that begins is a sheet with nothing on it. -/
theorem drawn_create {options : Options} {width : Option Int} {column : Int} {p : Printer}
    (hcolumn : 0 ≤ column) (h : create options width column = .ok p) :
    Drawn column [] p.path p p.buffer := by
  obtain ⟨o, -, rfl⟩ := exists_of_create h
  refine .of_shows (.nil _) ⟨rfl, rfl, ?_, rfl, ?_, by simp, by simp, by simp, ?_, ?_, by simp⟩
  · simp [Sheet.column, columnAfter]
  · refine .cons ?_ .nil
    rw [block_of_blocks rfl]
    exact ⟨rfl, rfl, rfl, .nil⟩
  · intro i hi
    rw [block_of_blocks rfl]
    simp
  · intro i hi
    rw [block_of_blocks rfl]
    exact hcolumn

/-- After any operations, their strokes are drawn. -/
theorem drawn_runAll {options : Options} {width : Option Int} {column : Int} {p q : Printer}
    {ops : List Operation} (hcolumn : 0 ≤ column) (hcreate : create options width column = .ok p)
    (hflat : ∀ op ∈ ops, op.NewlineFree) (hrun : p.runAll ops = .ok q) :
    Drawn column (p.strokesTaken ops) q.path q q.buffer := by
  have hfree : ∀ s ∈ p.strokesTaken ops, s.NewlineFree := by
    intro s hs
    obtain ⟨op, hop, p', hs'⟩ := exists_of_mem_strokesTaken hs
    exact Operation.newlineFree_of_mem_strokes (hflat op hop) hs'
  exact drawn_strokes (buffered_create hcreate) (drawn_create hcolumn hcreate)
    (flat_create hcreate) (strokes_strokesTaken hrun) hfree

/-- What has been output is on a sheet, and so is everything if nothing is buffered. -/
theorem Drawn.exists_run {q : Printer} {column : Int} {strokes : List Stroke} {σ : Path}
    (h : Drawn column strokes σ q q.buffer) :
    ∃ done waiting S, strokes = done ++ waiting ∧ Run column {} done S ∧
      q.base.output = S.text ∧ (q.buffer = [] → waiting = []) := by
  obtain ⟨done, waiting, S, n, π, rfl, hrun, hshows, -, howed⟩ := h
  by_cases hbuffer : q.buffer = []
  · rw [hbuffer] at howed
    exact ⟨done ++ waiting, [], S, (List.append_nil _).symm,
      hrun.append ((howed.of_nil column).2 S), hshows.output, fun _ => rfl⟩
  · exact ⟨done, waiting, S, rfl, hrun, hshows.output, fun hc => absurd hc hbuffer⟩

/-- **What a printer outputs is laid out by the rules.** After any operations, what it has output is
what a first part of their strokes put on a sheet, and nothing of the others has been output; if
nothing is buffered, there are no others. -/
theorem exists_sheet_of_runAll {options : Options} {width : Option Int} {column : Int}
    {p q : Printer} {ops : List Operation} (hcolumn : 0 ≤ column)
    (hcreate : create options width column = .ok p) (hflat : ∀ op ∈ ops, op.NewlineFree)
    (hrun : p.runAll ops = .ok q) :
    ∃ done waiting S, p.strokesTaken ops = done ++ waiting ∧ Run column {} done S ∧
      q.base.output = S.text ∧ (q.buffer = [] → waiting = []) := by
  exact (drawn_runAll hcolumn hcreate hflat hrun).exists_run

theorem exists_sheet_of_perLine :
    ∃ p q done S, create {} (some 12) 3 = .ok p ∧
      p.runAll [.begin ['('] [';', ' '] [')'] none, .write ['a', 'b', ' '], .newline .linear,
        .write ['c', 'd', 'e', 'f'], .finish, .flush] = .ok q ∧
      Run 3 {} done S ∧ q.base.output = S.text ∧ S.text = "(; ab\n    ; cdef)".toList := by
  obtain ⟨p, hcreate⟩ : ∃ p, create {} (some 12) 3 = .ok p := ⟨_, rfl⟩
  obtain ⟨q, hrun, houtput⟩ : ∃ q, p.runAll [.begin ['('] [';', ' '] [')'] none,
      .write ['a', 'b', ' '], .newline .linear, .write ['c', 'd', 'e', 'f'], .finish, .flush] =
        .ok q ∧ q.base.output = "(; ab\n    ; cdef)".toList := by
    cases hcreate
    exact exists_of_toOption (by decide +kernel)
  obtain ⟨done, waiting, S, -, hsheet, htext, -⟩ :=
    exists_sheet_of_runAll (by decide) hcreate (by simp [Operation.NewlineFree]) hrun
  exact ⟨p, q, done, S, hcreate, hrun, hsheet, htext, htext ▸ houtput⟩

end Tilde.Printer
