import Tilde.Proofs.Layout.Stroking
import Tilde.Proofs.Layout.Written
import Tilde.Proofs.Column
import Tilde.Proofs.Print.Line

/-!
# Separators within the margin

Elements are printed as texts without white space, with a fill-style newline behind every separator.
The white space of a separator is held back until the newline is decided, and the newline is kept
only if what stands between it and the next one fits. So a line with a separator is within the margin
up to its next newline (`Tidy`), and no line with a separator is longer (**`printing_stroking`**).

* `Phase`, `Phase.Step`: which strokes print elements;
* `Tidy.putToken`, `Tidy.breakLine`, `Tidy.pass`, `Tidy.putSection`: the steps of settling.
-/

namespace Tilde

/-! ## Strokes that print elements -/

/-- Where the printing of elements stands: at an element, behind a separator, or at its end. -/
inductive Phase
  | element
  | separator
  | ended

/-- A stroke in the printing of elements. -/
inductive Phase.Step : Phase → Stroke → Phase → Prop
  | begin {opening closing : Text} (hopening : Solid opening) (hclosing : Solid closing) :
    Step element (.begin opening [] closing) element
  | finish : Step element .finish element
  | solid {s : Text} (hs : Solid s) : Step element (.text s) element
  | colon : Step element (.text [':', ' ']) element
  | comma : Step element (.text [',', ' ']) separator
  | gap : Step element (.text [' ']) separator
  | fill : Step separator (.newline .fill) element
  | break_ : Step element (.newline .literal) ended
  | nothing : Step ended (.text []) ended
  | flush : Step ended .flush ended

/-- A newline has to come behind the token: it may complete a separator. -/
def Token.Separates (t : Token) : Prop := ∃ body, t.kind = .text body [' '] ∧ body ≠ [':']

/-- A token that stems from the printing of elements. -/
def Token.Tidy (t : Token) : Prop :=
  match t.kind with
  | .text body trailing => Solid body ∧ (trailing = [] ∨ trailing = [' '] ∧
      (body = [':'] ∨ body = [','] ∨ body = []))
  | .newline kind _ => kind = .fill
  | .blockStart _ | .blockEnd _ => True
  | .indent .. => False

namespace Printer

/-- What is written up to the next newline fits, with the white space held. -/
def Bounded (w : Int) (p : Printer) (ts : List Token) : Prop :=
  ∃ near nl far, ts = near ++ nl :: far ∧ nl.isNewline = true ∧
    (∀ t ∈ near, t.isNewline = false) ∧
    p.base.column + p.held.length + Token.extent near ≤ w

/-- The line has a separator, or it has one with the next token. -/
def Separated (line : Text) (p : Printer) (ts : List Token) : Prop :=
  separator <:+: line ∨
    (p.held = [' '] ∧ line.getLast? = some ',' ∧ ∃ t ∈ ts.head?, t.isNewline = false)

/-- The printer in the midst of printing elements. The line may have a separator only if the next
newline is within the margin. -/
structure Tidy (w : Int) (φ : Phase) (line : Text) (p : Printer) (ts : List Token) : Prop where
  sinkOpen : p.base.closed = false
  limit : p.base.maxColumn = some w
  finished : Finished w p.base.output line
  column : (line.length : Int) ≤ p.base.column
  held : p.held = [] ∨ p.held = [' ']
  opening : ∀ i, Solid (p.block i).opening
  perLine : ∀ i, (p.block i).perLine = []
  closing : ∀ i, Solid (p.block i).closing
  lead : ∀ i, (p.block i).lead = []
  sound : Sound p ts
  tokens : ∀ t ∈ ts, t.Tidy
  chain : ts.IsChain fun t t' => t.Separates → t'.isNewline = true
  last : φ = .element → ∀ t ∈ ts.getLast?, ¬t.Separates
  idle : φ = .element → ts = [] → ¬(p.held = [' '] ∧ line.getLast? = some ',')
  bounded : Separated line p ts → Bounded w p ts

theorem exists_first_newline (us vs : List Token) {n : Token} (hn : n.isNewline = true) :
    ∃ near nl far, us ++ n :: vs = near ++ nl :: far ∧ nl.isNewline = true ∧
      (∀ t ∈ near, t.isNewline = false) ∧ near <+: us := by
  induction us with
  | nil => exact ⟨[], n, vs, rfl, hn, by simp, List.nil_prefix⟩
  | cons u us ih =>
    cases hu : u.isNewline with
    | true => exact ⟨[], u, us ++ n :: vs, rfl, hu, by simp, List.nil_prefix⟩
    | false =>
      obtain ⟨near, nl, far, heq, hnl, hnear, hprefix⟩ := ih
      refine ⟨u :: near, nl, far, by rw [List.cons_append, heq]; rfl, hnl, ?_, ?_⟩
      · intro t ht
        rcases List.mem_cons.mp ht with rfl | ht
        · exact hu
        · exact hnear t ht
      · exact (List.prefix_cons_inj u).mpr hprefix

/-- Tokens that fit before a newline are within the margin even with a space before them: the test
is strict. -/
theorem bounded_of_fits {w : Int} {p : Printer} {ts us vs : List Token} {n : Token}
    (hlimit : p.base.maxColumn = some w) (hheld : p.held.length ≤ 1) (hc : Token.Contiguous ts)
    (hts : ts = us ++ n :: vs) (hn : n.isNewline = true) (hfits : p.fits us = true) :
    Bounded w p ts := by
  obtain ⟨near, nl, far, heq, hnl, hnear, later, rfl⟩ :=
    exists_first_newline us vs hn
  refine ⟨near, nl, far, hts.trans heq, hnl, hnear, ?_⟩
  rw [hts] at hc
  have hle := Token.extent_le_of_prefix hc.left
  have := (fits_iff hlimit).mp hfits
  omega

/-- A token has been output that is no newline. -/
theorem Bounded.tail {w : Int} {p q : Printer} {t : Token} {ts : List Token}
    (h : Bounded w p (t :: ts)) (ht : t.isNewline = false) (hc : Token.Contiguous (t :: ts))
    (hcolumn : q.base.column + q.held.length =
      p.base.column + p.held.length + ((t.stop : Int) - t.start)) : Bounded w q ts := by
  obtain ⟨near, nl, far, hts, hnl, hnear, hle⟩ := h
  cases near with
  | nil =>
    obtain rfl : t = nl := (List.cons.inj hts).1
    rw [ht] at hnl
    exact Bool.noConfusion hnl
  | cons t' near =>
    obtain ⟨rfl, rfl⟩ : t = t' ∧ ts = near ++ nl :: far := List.cons.inj hts
    refine ⟨near, nl, far, rfl, hnl, fun u hu => hnear u (List.mem_cons_of_mem _ hu), ?_⟩
    rw [← List.cons_append] at hc
    rw [Token.extent_cons hc.left] at hle
    omega

namespace Tidy

variable {w : Int} {φ : Phase} {line : Text} {p q : Printer} {t : Token} {ts us rest : List Token}

theorem held_le (h : Tidy w φ line p ts) : p.held.length ≤ 1 := by
  rcases h.held with hheld | hheld <;> simp [hheld]

theorem kind_eq (h : Tidy w φ line p ts) (ht : t ∈ ts) {kind : NewlineKind} {path : Path}
    (hkind : t.kind = .newline kind path) : kind = .fill := by
  have := h.tokens t ht
  rwa [Token.Tidy, hkind] at this

theorem printed_flat (h : Tidy w φ line p ts) (ht : t ∈ ts) : '\n' ∉ p.printed t := by
  have htidy := h.tokens t ht
  unfold Token.Tidy at htidy
  unfold printed
  split at htidy <;> rename_i hkind <;> simp only [hkind]
  · obtain ⟨hbody, rfl | ⟨rfl, -⟩⟩ := htidy <;> simp [hbody.newline_notMem]
  · simp
  · simp [(h.opening _).newline_notMem, h.perLine]
  · exact (h.closing _).newline_notMem
  · exact htidy.elim

/-- Output leaves a tidy printer tidy if it deals with the line, its margin, and what is held. -/
theorem outputs (h : Tidy w φ line p ts) (ho : Outputs p q) (hus : us <:+ ts) {line' : Text}
    (finished : Finished w q.base.output line') (column : (line'.length : Int) ≤ q.base.column)
    (held : q.held = [] ∨ q.held = [' ']) (lead : ∀ i, (q.block i).lead = [])
    (idle : φ = .element → us = [] → ¬(q.held = [' '] ∧ line'.getLast? = some ','))
    (bounded : Separated line' q us → Bounded w q us) : Tidy w φ line' q us where
  sinkOpen := ho.sinkClosed.trans h.sinkOpen
  limit := ho.maxColumn.trans h.limit
  finished := finished
  column := column
  held := held
  opening i := ho.opening i ▸ h.opening i
  perLine i := (ho.perLine i).trans (h.perLine i)
  closing i := ho.closing i ▸ h.closing i
  lead := lead
  sound := (h.sound.of_suffix hus).outputs ho
  tokens t ht := h.tokens t (hus.subset ht)
  chain := by
    obtain ⟨vs, rfl⟩ := hus
    exact h.chain.right_of_append
  last hφ t ht := h.last hφ t (getLast?_of_suffix hus t ht)
  idle := idle
  bounded := bounded

/-! ### A token is output -/

/-- A text without white space is written behind the white space held, and at most one space is
held then. -/
theorem exists_solid (h : Tidy w φ line p (t :: ts)) (ht : t.isNewline = false)
    (hs : (p.putToken t).stopped = none) :
    ∃ body, Solid body ∧ (p.putToken t).base = p.base.write (p.held ++ body) ∧
      body ++ (p.putToken t).held = p.printed t ∧
      ((p.putToken t).held = [] ∨
        (p.putToken t).held = [' '] ∧ t.kind = .text body [' ']) := by
  have htidy := h.tokens t List.mem_cons_self
  unfold Token.Tidy at htidy
  unfold putToken at hs ⊢
  unfold printed
  cases hkind : t.kind with
  | text body trailing =>
    rw [hkind] at htidy
    obtain ⟨hbody, htrailing⟩ := htidy
    refine ⟨body, hbody, by simp [Column.write_append], rfl, ?_⟩
    rcases htrailing with rfl | ⟨rfl, -⟩
    · exact Or.inl rfl
    · exact Or.inr ⟨rfl, rfl⟩
  | blockStart path =>
    simp only [hkind] at hs
    obtain ⟨lead, hlead⟩ := exists_leadBelow hs
    have heq := startBlock_eq hlead
    refine ⟨(p.block (path.headD 0)).opening, h.opening _, ?_, by simp [h.perLine], by simp⟩
    simp only [heq]
    rw [Column.write_append]
    simp [tell, h.perLine]
  | blockEnd path =>
    exact ⟨(p.block (path.headD 0)).closing, h.closing _, by rw [Column.write_append]; rfl,
      by simp [endBlock, tell], Or.inl rfl⟩
  | newline kind path =>
    rw [Token.isNewline_of_kind hkind] at ht
    exact Bool.noConfusion ht
  | indent =>
    rw [hkind] at htidy
    exact htidy.elim

theorem putToken (h : Tidy w φ line p (t :: ts)) (ht : t.isNewline = false)
    (hs : (p.putToken t).stopped = none) : ∃ line', Tidy w φ line' (p.putToken t) ts := by
  obtain ⟨body, hbody, hbase, hprinted, hheld⟩ := h.exists_solid ht hs
  have hflat : '\n' ∉ p.held ++ body := by
    rcases h.held with hp | hp <;> simp [hp, hbody.newline_notMem]
  have hlength := congrArg List.length hprinted
  rw [List.length_append] at hlength
  have hcolumn : (p.putToken t).base.column = p.base.column + (p.held ++ body).length := by
    rw [hbase]
    exact columnAfter_eq hflat
  rw [List.length_append] at hcolumn
  -- a space is held behind a comma only by a token that needs a newline behind it
  have hseparates : (p.putToken t).held = [' '] →
      (line ++ (p.held ++ body)).getLast? = some ',' → t.Separates := by
    intro hspace hlast
    rcases hheld with hnil | ⟨-, hkind⟩
    · simp [hnil] at hspace
    · refine ⟨body, hkind, ?_⟩
      rintro rfl
      simp at hlast
  refine ⟨line ++ (p.held ++ body), h.outputs (.putToken p t) (List.suffix_cons t ts) ?_ ?_ ?_ ?_
    ?_ ?_⟩
  · rw [hbase, Column.output_write _ _ h.sinkOpen]
    exact h.finished.append hflat
  · rw [hcolumn]
    have := h.column
    simp only [List.length_append]
    omega
  · exact hheld.imp_right And.left
  · exact lead_putToken (Q := fun s => s = []) hs rfl h.lead
      fun i parentLead column lead hparent hbelow => by
        simpa [leadBelow, h.perLine, hparent, eq_comm] using hbelow
  · rintro hφ rfl ⟨hspace, hlast⟩
    exact h.last hφ t (by simp) (hseparates hspace hlast)
  · intro hsep
    have hbefore : Separated line p (t :: ts) := by
      rcases hsep with hsep | ⟨hspace, hlast, u, hu, hnewline⟩
      · exact (separator_infix_append h.held hbody.space_notMem hsep).imp_right
          fun hc => ⟨hc.1, hc.2, t, by simp, ht⟩
      · cases ts with
        | nil => simp at hu
        | cons u' ts =>
          obtain rfl : u' = u := by simpa using hu
          have := (List.isChain_cons_cons.mp h.chain).1 (hseparates hspace hlast)
          rw [hnewline] at this
          exact Bool.noConfusion this
    refine (h.bounded hbefore).tail ht h.sound.contiguous ?_
    have := h.sound.width t List.mem_cons_self
    rw [hcolumn]
    push_cast
    omega

/-! ### The line is broken -/

/-- A line that has come to a newline is lawful. -/
theorem lawful (h : Tidy w φ line p (t :: ts)) (ht : t.isNewline = true) : Lawful w line := by
  intro hsep
  obtain ⟨near, nl, far, hts, -, hnear, hle⟩ := h.bounded (Or.inl hsep)
  cases near with
  | nil =>
    rw [Token.extent_nil] at hle
    have := h.column
    omega
  | cons t' near =>
    obtain rfl : t = t' := (List.cons.inj hts).1
    rw [hnear t List.mem_cons_self] at ht
    exact Bool.noConfusion ht

theorem breakLine {path : Path} (h : Tidy w φ line p (t :: ts)) (ht : t.isNewline = true)
    (hs : (p.breakLine path).stopped = none) : ∃ line', Tidy w φ line' (p.breakLine path) ts := by
  obtain ⟨indentation, hindent, hbase⟩ := exists_write_breakLine hs
  rw [h.lead, List.nil_append] at hbase
  have hspace := eq_space_of_indentation hindent
  have hflat : '\n' ∉ indentation := fun hc => by simpa using hspace _ hc
  refine ⟨indentation, h.outputs (.breakLine p path) (List.suffix_cons t ts) ?_ ?_
    (Or.inl (held_breakLine p path)) (fun i => by rw [lead_breakLine, h.lead]) ?_ ?_⟩
  · rw [hbase, Column.output_write _ _ h.sinkOpen]
    exact h.finished.newline (h.lawful ht) hflat
  · rw [hbase]
    have hcolumn := columnAfter_newline p.base.column hflat
    exact Int.le_of_eq hcolumn.symm
  · rintro - - ⟨hheld, -⟩
    simp at hheld
  · rintro (hsep | ⟨hheld, -⟩)
    · have := hspace ',' (hsep.subset (by simp [separator]))
      simp at this
    · simp at hheld

/-! ### The line is not broken -/

/-- A newline is passed over only if another one follows within the margin. -/
theorem pass {kind : NewlineKind} {path : Path} (h : Tidy w φ line p (t :: (ts ++ rest)))
    (hkind : t.kind = .newline kind path)
    (hbreaks : p.breaks kind (path.headD 0) (Token.sectionOf path ts)
      (Token.subsectionOf path ts) = false)
    (hfits : p.fits (t :: ts) = false) : Tidy w φ line p (ts ++ rest) := by
  obtain rfl := h.kind_eq List.mem_cons_self hkind
  have hnewline := Token.isNewline_of_kind hkind
  have hc := h.sound.contiguous
  have hsub : p.fits (Token.subsectionOf path ts) = true := by
    unfold breaks at hbreaks
    simp only [Bool.or_eq_false_iff, Bool.not_eq_false'] at hbreaks
    exact hbreaks.1.2
  have hrest : p.fits ts = false := by
    rw [← List.cons_append] at hc
    rwa [fits, Token.extent_cons_newline hc.left hnewline] at hfits
  have hbounded : Bounded w p (ts ++ rest) := by
    have hsplit : Token.subsectionOf path ts ++ ts.dropWhile (fun t => !t.breaksAround path) = ts :=
      List.takeWhile_append_dropWhile
    cases hdrop : ts.dropWhile fun t => !t.breaksAround path with
    | nil =>
      rw [hdrop, List.append_nil] at hsplit
      rw [hsplit, hrest] at hsub
      exact Bool.noConfusion hsub
    | cons n more =>
      have hn : n.isNewline = true := by
        have := List.head_dropWhile_not (fun t : Token => !t.breaksAround path)
          (by rw [hdrop]; simp : _ ≠ [])
        exact Token.isNewline_of_breaksAround (by simpa [hdrop] using this)
      rw [hdrop] at hsplit
      have hts : ts ++ rest = Token.subsectionOf path ts ++ n :: (more ++ rest) := by
        conv_lhs => rw [← hsplit, List.append_assoc]
        rfl
      exact bounded_of_fits h.limit h.held_le hc.tail hts hn hsub
  have hne : ts ++ rest ≠ [] := by
    rintro hnil
    obtain ⟨near, nl, far, heq, -⟩ := hbounded
    rw [hnil] at heq
    simp at heq
  exact h.outputs (.refl p) (List.suffix_cons t _) h.finished h.column h.held h.lead
    (fun _ hnil => absurd hnil hne) fun _ => hbounded

theorem held_putToken (ht : t.Tidy) :
    (p.putToken t).held = [] ∨ (p.putToken t).held = [' '] := by
  unfold Token.Tidy at ht
  unfold Printer.putToken
  split at ht <;> rename_i hkind <;> simp only [hkind]
  · exact ht.2.imp_right And.left
  · split_ifs <;> simp
  · simp
  · exact Or.inl rfl
  · exact ht.elim

theorem held_putTokens (hts : ∀ t ∈ ts, t.Tidy) (hheld : p.held = [] ∨ p.held = [' ']) :
    (p.putTokens ts).held = [] ∨ (p.putTokens ts).held = [' '] := by
  induction ts generalizing p with
  | nil => exact hheld
  | cons t ts ih =>
    exact ih (fun t' ht' => hts t' (List.mem_cons_of_mem _ ht'))
      (held_putToken (hts t List.mem_cons_self))

theorem lead_putTokens (hs : (p.putTokens ts).stopped = none)
    (hperLine : ∀ i, (p.block i).perLine = []) (hlead : ∀ i, (p.block i).lead = []) (i : Nat) :
    ((p.putTokens ts).block i).lead = [] := by
  induction ts generalizing p with
  | nil => exact hlead i
  | cons t ts ih =>
    have hfirst := (Outputs.putTokens (p.putToken t) ts).unharmed hs
    refine ih hs (fun j => ((Outputs.putToken p t).perLine j).trans (hperLine j)) ?_
    exact lead_putToken (Q := fun s => s = []) hfirst rfl hlead
      fun j parentLead column lead hparent hbelow => by
        simpa [leadBelow, hperLine, hparent, eq_comm] using hbelow

/-- Tokens whose newlines are kept go on with the line. -/
theorem exists_write (h : Tidy w φ line p (ts ++ rest)) (hs : (p.putTokens ts).stopped = none) :
    ∃ s, (p.putTokens ts).base = p.base.write s ∧ '\n' ∉ s ∧
      (p.putTokens ts).base.column = p.base.column + s.length ∧
      (s.length : Int) + (p.putTokens ts).held.length = p.held.length + Token.extent ts := by
  have hmem {t : Token} (ht : t ∈ ts) : t ∈ ts ++ rest := List.mem_append_left _ ht
  obtain ⟨s, hbase, hprinted⟩ := exists_write_putTokens hs fun t ht kind path hkind =>
    h.kind_eq (hmem ht) hkind
  have hflat : '\n' ∉ s ++ (p.putTokens ts).held := by
    rw [hprinted]
    simp only [List.mem_append, List.mem_flatMap, not_or, not_exists, not_and]
    exact ⟨by rcases h.held with hp | hp <;> simp [hp], fun t ht => h.printed_flat (hmem ht)⟩
  have hs' : '\n' ∉ s := fun hc => hflat (List.mem_append_left _ hc)
  refine ⟨s, hbase, hs', by rw [hbase]; exact columnAfter_eq hs', ?_⟩
  have hlength := congrArg List.length hprinted
  rw [List.length_append, List.length_append] at hlength
  have := h.sound.left.extent_eq
  omega

theorem putSection {path : Path} (h : Tidy w φ line p (ts ++ rest))
    (hfits : p.fits (Token.sectionOf path ts) = true) (hafter : Token.afterSection path ts ≠ [])
    (hs : (p.putTokens (Token.sectionOf path ts)).stopped = none) :
    ∃ line', Tidy w φ line' (p.putTokens (Token.sectionOf path ts))
      (Token.afterSection path ts ++ rest) := by
  have hsplit : ts ++ rest = Token.sectionOf path ts ++ (Token.afterSection path ts ++ rest) := by
    rw [← List.append_assoc, Token.sectionOf_append_afterSection]
  rw [hsplit] at h
  obtain ⟨s, hbase, hflat, hcolumn, hlength⟩ := h.exists_write hs
  have hle := h.held_le
  have hroom := (fits_iff h.limit).mp hfits
  refine ⟨line ++ s, h.outputs (.putTokens p _) (List.suffix_append _ _) ?_ ?_
    (held_putTokens (fun t ht => h.tokens t (List.mem_append_left _ ht)) h.held)
    (lead_putTokens hs h.perLine h.lead) (fun _ hnil => ?_) fun _ => ?_⟩
  · rw [hbase, Column.output_write _ _ h.sinkOpen]
    exact h.finished.append hflat
  · have := h.column
    rw [hcolumn, List.length_append]
    push_cast
    omega
  · exact absurd (List.append_eq_nil_iff.mp hnil).1 hafter
  · obtain ⟨nl, far, hnl⟩ := List.exists_cons_of_ne_nil hafter
    refine ⟨[], nl, far ++ rest, by rw [hnl]; rfl,
      Token.isNewline_of_breaksOutside (Token.head_afterSection hnl), by simp, ?_⟩
    rw [hcolumn, Token.extent_nil]
    omega

/-! ### A token is issued -/

/-- What a stroke issues is tidy, and completes a separator only where a newline has to come. -/
theorem tidy_of_issues {φ' : Phase} {s : Stroke} {kind : TokenKind} (hstep : φ.Step s φ')
    (hi : Issues p s kind q) (ht : t.kind = kind) :
    t.Tidy ∧ (φ' = .element → ¬t.Separates) ∧
      (φ = .element ∨ φ = .separator ∧ t.isNewline = true) := by
  unfold Token.Tidy Token.Separates
  cases hstep with
  | begin =>
    obtain ⟨-, -, -, -, -, -, -, hkind, -⟩ := hi.exists_of_begin
    simp [ht, hkind]
  | finish => cases hi; simp [ht]
  | solid hs => cases hi; simp [ht, hs.splitTrailing, hs]
  | colon | comma | gap =>
    cases hi
    simp [ht, Text.splitTrailing, Solid, Text.isBlank]
  | fill =>
    cases hi
    simp [ht, Token.isNewline_of_kind ht]
  | break_ =>
    cases hi with
    | newline hkind => exact absurd rfl hkind
  | nothing =>
    cases hi with
    | text hs => exact absurd rfl hs
  | flush => cases hi

theorem issue {φ' : Phase} {s : Stroke} {kind : TokenKind} {start : Nat} (h : Tidy w φ line p ts)
    (hstep : φ.Step s φ') (hi : Issues p s kind q)
    (hsound : Sound q (ts ++ [q.tokenAt start kind])) :
    Tidy w φ' line q (ts ++ [q.tokenAt start kind]) := by
  obtain ⟨htidy, hlast, hnewline⟩ := tidy_of_issues (t := q.tokenAt start kind) hstep hi rfl
  have hblock (Q : BlockState → Prop) (hold : ∀ i, Q (p.block i))
      (hnew : ∀ b : BlockState, Solid b.opening → b.perLine = [] → Solid b.closing →
        b.lead = [] → Q b) (i : Nat) : Q (q.block i) := by
    cases hstep with
    | begin hopening hclosing =>
      obtain ⟨b, rfl, hperLine, rfl, -, -, hlead, -, rfl⟩ := hi.exists_of_begin
      rw [block_push]
      split_ifs
      · exact hnew b hopening hperLine hclosing (hlead.trans (h.lead _))
      · exact hold i
    | _ => cases hi <;> exact hold i
  have hstate := hi.state
  refine ⟨?_, ?_, ?_, ?_, ?_, hblock _ h.opening fun b hb _ _ _ => hb,
    hblock _ h.perLine fun b _ hb _ _ => hb, hblock _ h.closing fun b _ _ hb _ => hb,
    hblock _ h.lead fun b _ _ _ hb => hb, hsound, fun t ht => ?_, ?_, fun hφ t ht => ?_,
    fun _ hnil => by simp at hnil, fun hsep => ?_⟩
  · rw [hstate]; exact h.sinkOpen
  · rw [hstate]; exact h.limit
  · rw [hstate]; exact h.finished
  · rw [hstate]; exact h.column
  · rw [hstate]; exact h.held
  · rcases List.mem_append.mp ht with ht | ht
    · exact h.tokens t ht
    · obtain rfl := List.mem_singleton.mp ht
      exact htidy
  · refine h.chain.append (.singleton _) fun t ht u hu hseparates => ?_
    obtain rfl : q.tokenAt start kind = u := by simpa using hu
    rcases hnewline with hφ | ⟨-, hnewline⟩
    · exact absurd hseparates (h.last hφ t ht)
    · exact hnewline
  · obtain rfl : q.tokenAt start kind = t := by simpa using ht
    exact hlast hφ
  · have hbase : q.base = p.base := by rw [hstate]
    have hheld : q.held = p.held := by rw [hstate]
    have hbefore : Separated line p ts := by
      refine hsep.imp_right fun ⟨hspace, hcomma, u, hu, hu'⟩ => ?_
      rw [hheld] at hspace
      refine ⟨hspace, hcomma, u, ?_, hu'⟩
      cases ts with
      | cons t ts => exact hu
      | nil =>
        obtain rfl : q.tokenAt start kind = u := by simpa using hu
        rcases hnewline with hφ | ⟨-, hnewline⟩
        · exact absurd ⟨hspace, hcomma⟩ (h.idle hφ rfl)
        · rw [hnewline] at hu'
          exact Bool.noConfusion hu'
    obtain ⟨near, nl, far, hts, hnl, hnear, hle⟩ := h.bounded hbefore
    refine ⟨near, nl, far ++ [q.tokenAt start kind], by rw [hts]; simp, hnl, hnear, ?_⟩
    rwa [hbase, hheld]

/-! ### The end -/

/-- If all that is left fits, the line is lawful when it ends. -/
theorem lawful_putTokens (h : Tidy w .element line p ts) (hfits : ts = [] ∨ p.fits ts = true)
    (hs : (p.putTokens ts).stopped = none) :
    ∃ s, (p.putTokens ts).base = p.base.write s ∧ '\n' ∉ s ∧
      Lawful w (line ++ (s ++ (p.putTokens ts).held)) := by
  rcases hfits with rfl | hfits
  · refine ⟨[], by simp [putTokens, Column.write, columnAfter], by simp, fun hsep => ?_⟩
    have hsep' : separator <:+: line ++ (p.held ++ []) := by simpa [putTokens] using hsep
    rcases separator_infix_append h.held (by simp) hsep' with hline | hcomma
    · obtain ⟨near, nl, far, hnil, -⟩ := h.bounded (Or.inl hline)
      simp at hnil
    · exact absurd hcomma (h.idle rfl rfl)
  · have hall : Tidy w .element line p (ts ++ []) := by rwa [List.append_nil]
    obtain ⟨s, hbase, hflat, -, hlength⟩ := hall.exists_write hs
    refine ⟨s, hbase, hflat, fun _ => ?_⟩
    have hcolumn := h.column
    have hle := h.held_le
    have := (fits_iff h.limit).mp hfits
    simp only [List.length_append]
    push_cast
    omega

end Tidy

/-- The line has been ended and all output. -/
structure Ended (w : Int) (p : Printer) (ts : List Token) : Prop where
  tokens : ts = []
  sinkOpen : p.base.closed = false
  held : p.held = []
  lawful : ∀ l ∈ p.base.output.splitOn '\n', Lawful w l

/-- What is kept while elements are printed. -/
def Printing (w : Int) (φ : Phase) (p : Printer) (ts : List Token) : Prop :=
  match φ with
  | .ended => Ended w p ts
  | φ => ∃ line, Tidy w φ line p ts

theorem tidy_settling (w : Int) (φ : Phase) : Settling fun p ts => ∃ line, Tidy w φ line p ts where
  put ht hs := fun ⟨_, h⟩ => h.putToken ht hs
  broken hkind _ hs := fun ⟨_, h⟩ => h.breakLine (Token.isNewline_of_kind hkind) hs
  passed hkind hbreaks hfits := fun ⟨line, h⟩ => ⟨line, h.pass hkind hbreaks hfits⟩
  putSection _ _ hfits hafter hs := fun ⟨_, h⟩ => h.putSection hfits hafter hs

theorem ended_settling (w : Int) : Settling (Ended w) where
  put _ _ h := absurd h.tokens (List.cons_ne_nil _ _)
  broken _ _ _ h := absurd h.tokens (List.cons_ne_nil _ _)
  passed _ _ _ h := absurd h.tokens (List.cons_ne_nil _ _)
  putSection {p ts rest path} _ _ _ hafter _ h := by
    obtain ⟨rfl, -⟩ := List.append_eq_nil_iff.mp h.tokens
    exact absurd rfl hafter

theorem Tidy.restate {w : Int} {φ : Phase} {line : Text} {p : Printer} {ts : List Token}
    (h : Tidy w φ line p ts) (path : Path) (position : Nat) (pending : Buffer) (buffering : Bool)
    (room : Option Nat) : Tidy w φ line { p with
      path := path, position := position, pending := pending, buffering := buffering
      room := room } ts :=
  ⟨h.sinkOpen, h.limit, h.finished, h.column, h.held, h.opening, h.perLine, h.closing, h.lead,
    ⟨h.sound.contiguous, h.sound.width, h.sound.known, h.sound.root⟩, h.tokens, h.chain, h.last,
    h.idle, h.bounded⟩

/-- The end of the line. -/
theorem Tidy.ended {w : Int} {line : Text} {p : Printer} {ts : List Token}
    (h : Tidy w .element line p ts) (hfits : ts = [] ∨ p.fits ts = true)
    (hs : (p.putTokens ts).stopped = none) :
    Ended w { (p.putTokens ts).putHeld with pending := .empty, buffering := false }.breakHere
      [] := by
  obtain ⟨s, hbase, hflat, hlawful⟩ := h.lawful_putTokens hfits hs
  have ho := Outputs.putTokens p ts
  have hlead := Tidy.lead_putTokens hs h.perLine h.lead
  have hheld : '\n' ∉ (p.putTokens ts).held := by
    rcases Tidy.held_putTokens h.tokens h.held with hheld | hheld <;> simp [hheld]
  have hsink : (p.putTokens ts).base.closed = false := ho.sinkClosed.trans h.sinkOpen
  have hbase' : { (p.putTokens ts).putHeld with
      pending := .empty, buffering := false }.breakHere.base =
        ((p.putTokens ts).base.write (p.putTokens ts).held).write ['\n'] := by
    rw [breakHere, base_markBroken]
    exact congrArg (fun l => ((p.putTokens ts).base.write (p.putTokens ts).held).write ('\n' :: l))
      (hlead _)
  refine ⟨rfl, ?_, by simp [breakHere], ?_⟩
  · rw [hbase']
    exact hsink
  · rw [hbase', Column.output_write _ _ (by simpa using hsink), Column.output_write _ _ hsink,
      hbase, Column.output_write _ _ h.sinkOpen, List.append_assoc p.base.output]
    have hfinished := h.finished.append (t := s ++ (p.putTokens ts).held) (by simp [hflat, hheld])
    refine (hfinished.newline hlawful (by simp)).all fun hsep => ?_
    have := hsep.length_le
    simp [separator] at this

/-- **No line with a separator is longer than the margin allows.** -/
theorem printing_stroking (w : Int) :
    Stroking (fun φ _ s φ' => Phase.Step φ s φ') (Printing w) where
  settling φ := by
    cases φ with
    | ended => exact ended_settling w
    | element => exact tidy_settling w _
    | separator => exact tidy_settling w _
  restate {φ p ts} path position pending buffering room h := by
    cases φ with
    | ended => exact ⟨h.tokens, h.sinkOpen, h.held, h.lawful⟩
    | element => exact h.imp fun _ h => h.restate path position pending buffering room
    | separator => exact h.imp fun _ h => h.restate path position pending buffering room
  nothing hstep h := by
    cases hstep <;> exact h
  issue {φ φ' p p' s kind ts} start hstep hi _ hsound _ h := by
    cases φ <;> cases φ'
    case element.element | element.separator | separator.element | separator.separator =>
      exact h.imp fun _ h => h.issue hstep hi hsound
    all_goals cases hstep <;> cases hi <;> contradiction
  flush {φ φ' p q ts} hstep _ _ h := by
    cases hstep
    obtain rfl := h.tokens
    have hnothing : (q.putTokens []).putHeld.base = q.base := by
      show q.base.write q.held = q.base
      simp [h.held, Column.write, columnAfter]
    exact ⟨rfl, by rw [hnothing]; exact h.sinkOpen, rfl, by rw [hnothing]; exact h.lawful⟩
  literal hstep hfits hs _ h := by
    cases hstep
    obtain ⟨line, h⟩ := h
    exact h.ended hfits hs

end Printer

end Tilde
