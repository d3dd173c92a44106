import Tilde.Proofs.Layout.Invariant

/-!
# What reaches the sink

Layout changes white space only. **`ink_output`**: when a printer has been closed, what it has
written is, without white space, what was said to it, in the order of the calls: the texts written,
and the texts around each block where it begins and where it ends. Observers have been told of just
these blocks.

* `Account`: what has been said; `Accounted`: all of it has been output or is still in the buffer;
* `Accounted.putToken`, `Accounted.breakLine`: output moves it from the one to the other.
-/

namespace Tilde

/-! ## Ink -/

/-- A text without its white space. -/
def ink (s : Text) : Text := s.filter fun c => !Text.isBlank c

@[simp] theorem ink_nil : ink [] = [] := rfl

@[simp] theorem ink_append (s t : Text) : ink (s ++ t) = ink s ++ ink t := List.filter_append ..

@[simp] theorem ink_newline (s : Text) : ink ('\n' :: s) = ink s := by
  simp [ink, Text.isBlank_newline]

theorem ink_eq_nil {s : Text} (h : ∀ c ∈ s, Text.isBlank c = true) : ink s = [] := by
  simpa [ink] using h

theorem ink_spaces {s : Text} (h : ∀ c ∈ s, c = ' ') : ink s = [] :=
  ink_eq_nil fun c hc => h c hc ▸ Text.isBlank_space

/-- The lines of the block begin with white space, if with anything. -/
def Operation.BlankPerLine : Operation → Prop
  | begin _ perLine _ _ => ∀ c ∈ perLine, Text.isBlank c = true
  | _ => True

theorem Operation.ink_perLine {op : Operation} (hop : op.BlankPerLine) {p : Printer}
    {opening perLine closing : Text} (h : .begin opening perLine closing ∈ op.strokes p) :
    ink perLine = [] := by
  cases op with
  | begin =>
    cases List.mem_singleton.mp h
    exact ink_eq_nil hop
  | write t => exact absurd h Printer.not_begin_of_ofText
  | endLine => exact absurd h Printer.not_begin_of_ofText
  | freshLine =>
    unfold strokes at h
    split_ifs at h
    · exact absurd h Printer.not_begin_of_ofText
    · simp at h
  | _ => simp [strokes] at h

/-! ## Accounts -/

/-- What has been said to a printer: the texts in order, the closing texts of the blocks that are
open, innermost first, and where blocks begin and end. -/
structure Account where
  text : Text := []
  closings : List Text := []
  events : List BlockEvent := []

/-- The account after an operation. -/
def Account.operation (a : Account) : Operation → Account
  | .begin opening _ closing _ =>
    { text := a.text ++ opening, closings := closing :: a.closings, events := a.events ++ [.start] }
  | .finish =>
    { text := a.text ++ a.closings.headD []
      closings := a.closings.tail, events := a.events ++ [.finish] }
  | .write s => { a with text := a.text ++ s }
  | _ => a

/-- What operations say. -/
def Account.ofOperations (ops : List Operation) : Account := ops.foldl Account.operation {}

/-- The account after a stroke. -/
def Account.stroke (a : Account) : Stroke → Account
  | .begin opening _ closing =>
    { text := a.text ++ opening, closings := closing :: a.closings, events := a.events ++ [.start] }
  | .finish =>
    { text := a.text ++ a.closings.headD []
      closings := a.closings.tail, events := a.events ++ [.finish] }
  | .text s => { a with text := a.text ++ s }
  | _ => a

namespace Printer

/-- What observers are told of a token. -/
def event? (t : Token) : Option BlockEvent :=
  match t.kind with
  | .blockStart _ => some .start
  | .blockEnd _ => some .finish
  | _ => none

/-- All that has been said has been output or is in the tokens, and there is no ink in what the
printer puts at the start of a line, or holds back. -/
structure Accounted (a : Account) (p : Printer) (ts : List Token) : Prop where
  sinkOpen : p.base.closed = false
  isOpen : p.closed = false
  held : ink p.held = []
  lead : ∀ i, ink (p.block i).lead = []
  perLine : ∀ i, ink (p.block i).perLine = []
  trailing : ∀ t ∈ ts, ∀ body trailing, t.kind = .text body trailing → ink trailing = []
  text : ink p.base.output ++ ink (ts.flatMap p.printed) = ink a.text
  events : p.events ++ ts.filterMap event? = a.events

namespace Accounted

variable {a : Account} {p q : Printer} {t : Token} {ts us : List Token}

/-- Output of white space. -/
theorem outputs (h : Accounted a p ts) (ho : Outputs p q) {s : Text}
    (hbase : q.base = p.base.write s) (hs : ink s = []) (hheld : ink q.held = [])
    (hlead : ∀ i, ink (q.block i).lead = []) (htold : q.told = p.told) : Accounted a q ts where
  sinkOpen := ho.sinkClosed.trans h.sinkOpen
  isOpen := ho.closed.trans h.isOpen
  held := hheld
  lead := hlead
  perLine i := by rw [ho.perLine]; exact h.perLine i
  trailing := h.trailing
  text := by
    rw [hbase, Column.output_write _ _ h.sinkOpen, ink_append, hs, List.append_nil,
      funext ho.printed]
    exact h.text
  events := by
    rw [Printer.events, htold]
    exact h.events

theorem putHeld (h : Accounted a p ts) : Accounted a p.putHeld ts :=
  h.outputs (.putHeld p) rfl h.held rfl h.lead rfl

theorem breakLine {path : Path} (hs : (p.breakLine path).stopped = none) (h : Accounted a p ts) :
    Accounted a (p.breakLine path) ts := by
  obtain ⟨indentation, hindent, hbase⟩ := exists_write_breakLine hs
  have hblank : ink indentation = [] := ink_spaces (eq_space_of_indentation hindent)
  refine h.outputs (.breakLine p path) hbase ?_ (by simp) (fun i => ?_) (by simp)
  · simp [h.lead, hblank]
  · rw [lead_breakLine]
    exact h.lead i

/-- A newline of the tokens says nothing. -/
theorem skip (ht : t.isNewline = true) (h : Accounted a p (t :: ts)) : Accounted a p ts := by
  obtain ⟨kind, path, hkind⟩ := Token.isNewline_iff.mp ht
  have htext := h.text
  have hevents := h.events
  rw [List.flatMap_cons, printed_newline ht, List.nil_append] at htext
  rw [List.filterMap_cons, event?, hkind] at hevents
  exact { h with
    trailing := fun t ht => h.trailing t (List.mem_cons_of_mem _ ht)
    text := htext
    events := hevents }

theorem ink_leadBelow {parentLead perLine lead : Text} {column : Int}
    (h : leadBelow parentLead perLine column = .ok lead) (hparent : ink parentLead = [])
    (hperLine : ink perLine = []) : ink lead = [] := by
  unfold leadBelow at h
  split_ifs at h
  · cases h
    exact hparent
  · cases hgap : Fault.bounded (Text.repeated [' '] (column - parentLead.length)) with
    | error e =>
      rw [hgap] at h
      cases h
    | ok gap =>
      rw [hgap] at h
      cases h
      simp [hparent, ink_spaces (eq_space_of_repeated hgap), hperLine]

theorem held_putToken (h : Accounted a p (t :: ts)) : ink (p.putToken t).held = [] := by
  unfold Printer.putToken
  split
  · simpa using h.held
  · split_ifs <;> simp
  · rename_i body trailing hkind
    exact h.trailing t List.mem_cons_self body trailing hkind
  · simp
  · simp [endBlock, tell]

theorem events_putToken (p : Printer) (t : Token) (ts : List Token) :
    (p.putToken t).events ++ ts.filterMap event? = p.events ++ (t :: ts).filterMap event? := by
  unfold Printer.putToken event? Printer.events
  split <;> rename_i hkind
  · simp [hkind]
  · split_ifs <;> simp [hkind]
  · simp [hkind]
  · simp [hkind]
  · simp [hkind, endBlock, tell]

/-- Other tokens say what they print. -/
theorem putToken_of_text (ht : t.isNewline = false) (hs : (p.putToken t).stopped = none)
    (h : Accounted a p (t :: ts)) : Accounted a (p.putToken t) ts := by
  obtain ⟨s, hbase, hprinted⟩ := exists_write_putToken hs fun kind path hkind => by
    rw [Token.isNewline_of_kind hkind] at ht
    exact Bool.noConfusion ht
  have ho := Outputs.putToken p t
  have hink : ink s = ink (p.printed t) := by
    have := congrArg ink hprinted
    rwa [ink_append, ink_append, h.held_putToken, h.held, List.append_nil, List.nil_append] at this
  have hlead := lead_putToken (Q := fun s => ink s = []) hs ink_nil h.lead
    fun i parentLead column lead hparent hbelow => ink_leadBelow hbelow hparent (h.perLine i)
  refine ⟨ho.sinkClosed.trans h.sinkOpen, ho.closed.trans h.isOpen, h.held_putToken, hlead,
    fun i => ?_, fun t ht => h.trailing t (List.mem_cons_of_mem _ ht), ?_, ?_⟩
  · rw [ho.perLine]
    exact h.perLine i
  · have htext := h.text
    rw [List.flatMap_cons, ink_append, ← List.append_assoc] at htext
    rw [hbase, Column.output_write _ _ h.sinkOpen, ink_append, hink, funext ho.printed]
    exact htext
  · rw [← h.events]
    exact events_putToken p t ts

theorem putToken (hs : (p.putToken t).stopped = none) (h : Accounted a p (t :: ts)) :
    Accounted a (p.putToken t) ts := by
  cases ht : t.isNewline with
  | false => exact putToken_of_text ht hs h
  | true =>
    obtain ⟨kind, path, hkind⟩ := Token.isNewline_iff.mp ht
    simp only [Printer.putToken, hkind] at hs ⊢
    split_ifs at hs ⊢
    · exact (h.skip ht).breakLine hs
    · exact (h.skip ht).putHeld

theorem putTokens (hs : (p.putTokens ts).stopped = none) (h : Accounted a p (ts ++ us)) :
    Accounted a (p.putTokens ts) us := by
  induction ts generalizing p with
  | nil => exact h
  | cons t ts ih => exact ih hs (h.putToken ((Outputs.putTokens _ ts).unharmed hs))

theorem putAll (hs : (p.putTokens ts).stopped = none) (h : Accounted a p ts) :
    Accounted a (p.putTokens ts) [] :=
  putTokens hs (by rwa [List.append_nil])

end Accounted

/-! ## Strokes -/

/-- How an account goes on with a stroke. Only white space begins lines, and the block that ends is
the one that the account has open. -/
structure Goes (a : Account) (p : Printer) (s : Stroke) (a' : Account) : Prop where
  eq : a' = a.stroke s
  blank : ∀ opening perLine closing, s = .begin opening perLine closing → ink perLine = []
  closing : s = .finish → a.closings.headD [] = (p.block p.current).closing

/-- A stroke says what its token prints. -/
theorem Goes.says {a a' : Account} {p p' : Printer} {s : Stroke} {kind : TokenKind}
    (hgoes : Goes a p s a') (hi : Issues p s kind p') (start : Nat) :
    ink a'.text = ink a.text ++ ink (p'.printed (p'.tokenAt start kind)) ∧
      a'.events = a.events ++ (event? (p'.tokenAt start kind)).toList := by
  rw [hgoes.eq]
  cases hi with
  | text => simp [Account.stroke, printed, tokenAt, event?, ← ink_append, Text.splitTrailing_append]
  | begin b =>
    have hblank := hgoes.blank _ _ _ rfl
    simp [Account.stroke, printed, tokenAt, event?, block_push, hblank]
  | finish =>
    have hclosing := hgoes.closing rfl
    simp only [Account.stroke, hclosing]
    simp [printed, tokenAt, event?, current]
  | newline => simp [Account.stroke, printed, tokenAt, event?]
  | indent => simp [Account.stroke, printed, tokenAt, event?]

theorem Accounted.issue {a a' : Account} {p p' : Printer} {s : Stroke} {kind : TokenKind}
    {ts : List Token} (start : Nat) (h : Accounted a p ts) (hgoes : Goes a p s a')
    (hi : Issues p s kind p') (hsound : Sound p ts) :
    Accounted a' p' (ts ++ [p'.tokenAt start kind]) := by
  obtain ⟨htext, hevents⟩ := hgoes.says hi start
  have hprinted : ts.flatMap p'.printed = ts.flatMap p.printed :=
    List.flatMap_congr fun t ht => hsound.printed hi ht
  have hblock (f : BlockState → Text) (hf : ∀ i, ink (f (p.block i)) = [])
      (hb : ∀ b : BlockState, s = .begin b.opening b.perLine b.closing →
        b.lead = (p.block p.current).lead → ink (f b) = []) (i : Nat) : ink (f (p'.block i)) = [] := by
    cases hi with
    | begin b _ _ lead =>
      rw [block_push]
      split_ifs
      · exact hb b rfl lead
      · exact hf i
    | _ => exact hf i
  have hstate := hi.state
  refine ⟨?_, ?_, ?_, hblock _ h.lead fun b _ hlead => hlead ▸ h.lead _,
    hblock _ h.perLine fun b hs _ => hgoes.blank _ _ _ hs, fun t ht body trailing hkind => ?_, ?_, ?_⟩
  · rw [hstate]
    exact h.sinkOpen
  · rw [hstate]
    exact h.isOpen
  · rw [hstate]
    exact h.held
  · rcases List.mem_append.mp ht with ht | ht
    · exact h.trailing t ht body trailing hkind
    · obtain rfl := List.mem_singleton.mp ht
      cases hi with
      | text =>
        cases hkind
        exact ink_eq_nil fun c hc => Text.isBlank_of_mem_trailing hc
      | _ => cases hkind
  · rw [List.flatMap_append, ink_append, hprinted, htext, ← h.text, hstate]
    simp
  · have hp' : p'.events = p.events := by
      rw [hstate]
      rfl
    rw [List.filterMap_append, hevents, ← h.events, hp', List.append_assoc]
    cases hevent : event? (p'.tokenAt start kind) <;> simp [hevent]

theorem accounted_stroking : Stroking Goes Accounted where
  settling a := {
    put ht hs h := h.putToken_of_text ht hs
    broken ht _ hs h := (h.skip (Token.isNewline_of_kind ht)).breakLine hs
    passed ht _ _ h := h.skip (Token.isNewline_of_kind ht)
    putSection {p ts rest path} _ _ _ _ hs h := by
      rw [← Token.sectionOf_append_afterSection path ts, List.append_assoc] at h
      exact h.putTokens hs }
  restate _ _ _ _ _ h :=
    ⟨h.sinkOpen, h.isOpen, h.held, h.lead, h.perLine, h.trailing, h.text, h.events⟩
  nothing {a a' p ts} hgoes h := by
    have heq : a' = a := by
      rw [hgoes.eq]
      simp [Account.stroke]
    exact heq ▸ h
  issue start hgoes hi hsound _ _ h := h.issue start hgoes hi hsound
  flush hgoes _ hs h := hgoes.eq ▸ (h.putAll hs).putHeld
  literal {a a' p q ts} hgoes _ hs _ h := by
    have hall := (h.putAll hs).putHeld
    have hidle : Accounted a { (q.putTokens ts).putHeld with
        pending := .empty, buffering := false } [] :=
      ⟨hall.sinkOpen, hall.isOpen, hall.held, hall.lead, hall.perLine, hall.trailing, hall.text,
        hall.events⟩
    rw [hgoes.eq]
    refine hidle.outputs (.breakHere _) (base_markBroken _ _) ?_ ?_ (fun i => ?_) ?_
    · rw [ink_newline]
      exact hall.lead _
    · simp [breakHere]
    · rw [breakHere, field_markBroken BlockState.lead fun _ _ _ => rfl]
      exact hall.lead i
    · simp [breakHere]

/-- The blocks that are open are those of the account. -/
def Nested (a : Account) (p : Printer) : Prop :=
  ∃ root, p.path.map (fun i => (p.block i).closing) = a.closings ++ [root]

theorem Nested.ne_nil {a : Account} {p : Printer} (h : Nested a p) (allowed : p.Allows .finish) :
    a.closings ≠ [] := by
  obtain ⟨root, hroot⟩ := h
  rintro hnil
  have : 1 < p.path.length := allowed
  have := congrArg List.length hroot
  simp only [List.length_map, hnil, List.nil_append, List.length_singleton] at this
  omega

theorem Nested.closing {a : Account} {p : Printer} (h : Nested a p) (allowed : p.Allows .finish) :
    a.closings.headD [] = (p.block p.current).closing := by
  obtain ⟨c, closings, hclosings⟩ := List.exists_cons_of_ne_nil (h.ne_nil allowed)
  obtain ⟨root, hroot⟩ := h
  cases hpath : p.path with
  | nil => simp [hpath, hclosings] at hroot
  | cons i path =>
    rw [hpath, hclosings, List.map_cons, List.cons_append] at hroot
    rw [hclosings, current, hpath]
    exact (List.cons.inj hroot).1.symm

theorem Nested.stroke {a : Account} {p q : Printer} {s : Stroke} (h : Nested a p) (hp : p.Within)
    (allowed : p.Allows s) (ht : Takes p s q) : Nested (a.stroke s) q := by
  obtain ⟨root, hroot⟩ := h
  obtain ⟨p', hgrows, hframe, hpath⟩ := ht.frame
  refine ⟨root, ?_⟩
  simp only [hpath, hframe.closing]
  cases s with
  | begin opening perLine closing =>
    obtain ⟨b, rfl, rfl, rfl, rfl⟩ := hgrows
    have hold : p.path.map (fun i => ({ p with
        blocks := p.blocks.push b, path := p.blocks.size :: p.path }.block i).closing) =
        p.path.map fun i => (p.block i).closing :=
      List.map_congr_left fun i hi => by rw [block_push, if_neg (Nat.ne_of_lt (hp.2 i hi))]
    simp only [leave, List.map_cons, hold, hroot, Account.stroke]
    simp [block_push]
  | finish =>
    obtain rfl : p' = p := hgrows
    have hopen : a.closings ≠ [] := Nested.ne_nil ⟨root, hroot⟩ allowed
    simp only [leave, Account.stroke, List.map_tail, hroot]
    rw [List.tail_append_of_ne_nil hopen]
  | _ =>
    obtain rfl : p' = p := hgrows
    exact hroot

/-- **Strokes keep the account.** -/
theorem accounted_strokes {a : Account} {p q : Printer} {ss : List Stroke} (hp : Buffered p)
    (h : Accounted a p p.buffer) (hnested : Nested a p) (hss : Strokes p ss q)
    (hblank : ∀ opening perLine closing, .begin opening perLine closing ∈ ss → ink perLine = []) :
    Accounted (ss.foldl Account.stroke a) q q.buffer ∧ Nested (ss.foldl Account.stroke a) q := by
  induction hss generalizing a with
  | nil p => exact ⟨h, hnested⟩
  | @cons p q s ss room allowed unharmed rest ih =>
    have hp' := hp.room room
    have hgoes : Goes a { p with room := room } s (a.stroke s) := by
      refine ⟨rfl, fun opening perLine closing hs => ?_, ?_⟩
      · exact hblank opening perLine closing (hs ▸ List.mem_cons_self)
      · rintro rfl
        exact Nested.closing hnested allowed
    have hstroke := accounted_stroking.stroke _ hgoes hp'
      (accounted_stroking.restate _ _ _ _ room h) unharmed
    exact ih (hp'.stroke allowed unharmed) hstroke
      (Nested.stroke (p := { p with room := room }) hnested hp'.within allowed (takes_stroke _ s))
      fun opening perLine closing hs => hblank opening perLine closing (List.mem_cons_of_mem _ hs)

/-! ## Operations -/

/-- The accounts differ in white space only. -/
def Alike (a b : Account) : Prop :=
  ink a.text = ink b.text ∧ a.closings = b.closings ∧ a.events = b.events

theorem Accounted.alike {a b : Account} {p : Printer} {ts : List Token} (hab : Alike a b)
    (h : Accounted a p ts) : Accounted b p ts :=
  ⟨h.sinkOpen, h.isOpen, h.held, h.lead, h.perLine, h.trailing, h.text.trans hab.1,
    h.events.trans hab.2.2⟩

theorem alike_ofText (a : Account) (acc t : Text) :
    Alike ((Stroke.ofText acc t).foldl Account.stroke a)
      { a with text := a.text ++ acc.reverse ++ t } := by
  fun_induction Stroke.ofText acc t generalizing a with
  | case1 acc => simp [Alike, Account.stroke]
  | case2 acc t ih =>
    obtain ⟨htext, hclosings, hevents⟩ := ih { a with text := a.text ++ acc.reverse }
    refine ⟨?_, hclosings, hevents⟩
    simp only [List.foldl_cons, Account.stroke, htext]
    simp
  | case3 acc c t hc ih =>
    obtain ⟨htext, hclosings, hevents⟩ := ih a
    refine ⟨?_, hclosings, hevents⟩
    rw [htext]
    simp

theorem alike_strokes (a : Account) (p : Printer) (op : Operation) :
    Alike ((op.strokes p).foldl Account.stroke a) (a.operation op) := by
  cases op with
  | write t => simpa [Account.operation, Operation.strokes] using alike_ofText a [] t
  | endLine =>
    obtain ⟨htext, hrest⟩ := alike_ofText a [] ['\n']
    exact ⟨htext.trans (by simp [Account.operation]), hrest⟩
  | freshLine =>
    unfold Operation.strokes
    split_ifs
    · obtain ⟨htext, hrest⟩ := alike_ofText a [] ['\n']
      exact ⟨htext.trans (by simp [Account.operation]), hrest⟩
    · exact ⟨rfl, rfl, rfl⟩
  | _ => exact ⟨rfl, rfl, rfl⟩

theorem accounted_runAll {a : Account} {p q : Printer} {ops : List Operation} (hp : Buffered p)
    (h : Accounted a p p.buffer) (hnested : Nested a p) (hblank : ∀ op ∈ ops, op.BlankPerLine)
    (hrun : p.runAll ops = .ok q) :
    Buffered q ∧ Accounted (ops.foldl Account.operation a) q q.buffer := by
  induction ops generalizing a p with
  | nil =>
    cases hrun
    exact ⟨hp, h⟩
  | cons op ops ih =>
    obtain ⟨p₁, hfirst, hrest⟩ := runAll_cons.mp hrun
    have hss := strokes_of_run hfirst
    obtain ⟨h₁, hnested₁⟩ := accounted_strokes hp h hnested hss fun opening perLine closing hs =>
      op.ink_perLine (hblank op List.mem_cons_self) hs
    have halike := alike_strokes a p op
    refine ih (hp.strokes hss) (h₁.alike halike) ?_
      (fun op' hop' => hblank op' (List.mem_cons_of_mem _ hop')) hrest
    rwa [Nested, ← halike.2.1]

theorem accounted_create {options : Options} {width : Option Int} {column : Int} {p : Printer}
    (h : create options width column = .ok p) : Accounted {} p p.buffer := by
  obtain ⟨o, -, rfl⟩ := exists_of_create h
  refine ⟨rfl, rfl, rfl, ?_, ?_, by simp [buffer, Buffer.toList], rfl, rfl⟩
  all_goals simp [block_of_blocks]

theorem nested_create {options : Options} {width : Option Int} {column : Int} {p : Printer}
    (h : create options width column = .ok p) : Nested {} p := by
  obtain ⟨o, -, rfl⟩ := exists_of_create h
  exact ⟨[], rfl⟩

/-- **Nothing is lost, duplicated or reordered.** What a printer has written when it is closed is,
without white space, what was said to it, and observers have been told of each block once. -/
theorem ink_output {options : Options} {width : Option Int} {column : Int} {p q r : Printer}
    {ops : List Operation} (hcreate : create options width column = .ok p)
    (hblank : ∀ op ∈ ops, op.BlankPerLine) (hrun : p.runAll ops = .ok q)
    (hclose : q.close = .ok r) :
    ink r.base.output = ink (Account.ofOperations ops).text ∧
      r.events = (Account.ofOperations ops).events := by
  obtain ⟨hq, h⟩ := accounted_runAll (buffered_create hcreate) (accounted_create hcreate)
    (nested_create hcreate) hblank hrun
  obtain ⟨hs, rfl⟩ := eq_of_close h.isOpen hclose
  have hflush := accounted_stroking.stroke _ ⟨rfl, by simp, by simp⟩ hq h hs
  have hbuffer : (q.stroke .flush).buffer = [] := rfl
  rw [hbuffer] at hflush
  have htext := hflush.text
  have hevents := hflush.events
  simp only [List.flatMap_nil, ink_nil, List.append_nil, List.filterMap_nil] at htext hevents
  exact ⟨htext, hevents⟩

theorem ink_output_of_block :
    ∃ p q r, create {} (some 4) 0 = .ok p ∧
      p.runAll [.begin ['('] [] [')'] none, .write ['a', ' '], .newline .linear, .write ['b', 'c'],
        .finish] = .ok q ∧
      q.close = .ok r ∧ r.base.output = ['(', 'a', '\n', ' ', 'b', 'c', ')'] ∧
      ink r.base.output = ['(', 'a', 'b', 'c', ')'] ∧ r.events = [.start, .finish] := by
  obtain ⟨p, hcreate⟩ : ∃ p, create {} (some 4) 0 = .ok p := ⟨_, rfl⟩
  obtain ⟨q, r, hrun, hclose, houtput⟩ : ∃ q r, p.runAll [.begin ['('] [] [')'] none,
      .write ['a', ' '], .newline .linear, .write ['b', 'c'], .finish] = .ok q ∧ q.close = .ok r ∧
      r.base.output = ['(', 'a', '\n', ' ', 'b', 'c', ')'] := by
    cases hcreate
    exact exists_of_output (by decide +kernel)
  obtain ⟨hink, hevents⟩ := ink_output hcreate (by simp [Operation.BlankPerLine]) hrun hclose
  exact ⟨p, q, r, hcreate, hrun, hclose, houtput, hink, hevents⟩

end Printer

end Tilde
