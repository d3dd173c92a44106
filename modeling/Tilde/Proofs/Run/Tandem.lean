import Tilde.Proofs.Run.Alongside
import Tilde.Proofs.Run.Mirroring
import Tilde.Proofs.Run.Rule

/-!
# One run beside another

Nodes that are alike come to the same on streams that stand beside each other, from cursors that go
alongside.

* `Rule.tandem`: what may be begun for that;
* `Tandem`: streams as for `Mirroring`, and what printing values as a text comes to on them;
* `Tandem.runConditional`, `Tandem.runIteration` and so on: each directive;
* **`Tandem.mirrors_runUnder`**: a run that obeys the rule is mirrored by any other one that may be as
  deep and make as many passes.
-/

namespace Tilde

/-! ## The rule -/

/-- The node takes no newline that breaks the line if it has to, and asks for none. -/
def Node.IsQuiet : Node → Prop
  | .atom .conditionalNewline _ => False
  | .atom .write head => head.colon = false
  | _ => True

/-- If the node goes to another argument, it counts from where it stands, and by a whole number. -/
def Node.GoesWhole (n : Node) (c : Cursor) : Prop :=
  match n with
  | .atom .goTo head => ∀ s c', head.settle Atom.goTo.defaults c = .ok (s, c') → head.GoesWhole s
  | _ => True

/-- The nodes inside go over the same arguments as the node. -/
def Node.goesOn : Node → Bool
  | .atom .recursive head => head.atSign
  | .group .iteration head _ _ _ => head.atSign && !head.colon
  | .group .logicalBlock head _ _ _ => head.atSign
  | _ => true

/-- There are no conditional newlines, unless they do not matter; and over the arguments at hand,
cursors move by whole numbers from where they stand. -/
def Rule.tandem (newlines : Prop) : Rule Bool where
  allows top n c := (newlines ∨ n.IsQuiet) ∧ (top = true → n.GoesWhole c)
  inside top n _ := top && n.goesOn

open Tilde.Action (Mirrored Leads)
open Cursor (Alongside)
open Node (AllAlike ClausesAlike)

/-- The cursors go alongside, and the lists end in the same way. -/
def Outcomes (shift : Bool) (x y : Outcome) : Prop := Alongside shift x.1 y.1 ∧ y.2 = x.2

theorem Action.Leads.and_ok {α β : Type} {Q : α → β → Prop} {x : Except Fault α} {y : Except Fault β}
    (h : Leads Q x y) : Leads (fun a b => x = .ok a ∧ Q a b) x y := by
  cases x with
  | ok x =>
    cases y with
    | ok y => exact ⟨rfl, h⟩
    | error e => exact h
  | error e => exact h

/-- Streams for a mirroring, where, if zeros may be added, a value that is printed comes to the same
as its text. -/
structure Tandem (S : Bool → Nat → Stream → Stream → Prop) (V W : Nat → Route → Route → Prop)
    (newlines zeros : Prop) : Prop extends Mirroring S V W newlines where
  printed : zeros → ∀ {k r r'}, W k r r' → ∀ {o}, newlines ∨ o.Plain → ∀ v,
    Mirrored (S true k) Eq (Action.print r o v)
      (Action.lift (v.toText r'.room o) >>= Action.write r')
  written : zeros → ∀ {k r r'}, W k r r' → ∀ {o}, newlines ∨ o.Plain → ∀ v,
    Mirrored (S true k) Eq (Action.lift (v.toText r.room o) >>= Action.write r)
      (Action.print r' o v)

/-- The second runner mirrors the first one for nodes that are alike, from cursors that go alongside.
On pretty printers, zeros may have been added. -/
def Mirrors (S : Bool → Nat → Stream → Stream → Prop) (V : Nat → Route → Route → Prop) (zeros : Prop)
    (shift : Bool) (run run' : Runner) : Prop :=
  ∀ ⦃lays k r r'⦄, V k r r' → ∀ ⦃ns ns'⦄, AllAlike (lays = true ∧ zeros) ns ns' →
    ∀ ⦃c c'⦄, Alongside shift c c' →
    Mirrored (S lays k) (Outcomes shift) (run r ns c) (run' r' ns' c')

namespace Tandem

variable {S : Bool → Nat → Stream → Stream → Prop} {V W : Nat → Route → Route → Prop} {newlines zeros : Prop}
  (T : Tandem S V W newlines zeros)

include T

variable {lays : Bool} {k : Nat} {r r' : Route} {α β : Type} {Q : α → β → Prop} {o : Options} {shift : Bool}
  {c c' : Cursor} {head head' closing closing' : Head} {clauses clauses' : List (List Node)}
  {separators separators' : List Head} {nodes nodes' : List Node} {run run' : Runner}
  {f : Value × Cursor → Action α} {g : Value × Cursor → Action β}

/-! ## Arguments -/

theorem read (hc : Alongside shift c c')
    (h : ∀ v c c', Alongside shift c c' → Mirrored (S lays k) Q (f (v, c)) (g (v, c'))) :
    Mirrored (S lays k) Q (Action.lift c.next >>= f) (Action.lift c'.next >>= g) := by
  refine (T.lift hc.next).bind ?_
  rintro ⟨v, c₁⟩ ⟨_, c₁'⟩ ⟨rfl, hc₁⟩
  exact h v c₁ c₁' hc₁

theorem settle (hc : Alongside shift c c') (hhead : head.Like head') (defaults : List Value)
    {f : List Value × Cursor → Action α} {g : List Value × Cursor → Action β}
    (h : ∀ s c₁ c₁', head.settle defaults c = .ok (s, c₁) → Alongside shift c₁ c₁' →
      Mirrored (S lays k) Q (f (s, c₁)) (g (s, c₁'))) :
    Mirrored (S lays k) Q (Action.lift (head.settle defaults c) >>= f)
      (Action.lift (head'.settle defaults c') >>= g) := by
  refine (T.lift (Head.leads_settle hc hhead defaults).and_ok).bind ?_
  rintro ⟨s, c₁⟩ ⟨_, c₁'⟩ ⟨hs, rfl, hc₁⟩
  exact h s c₁ c₁' hs hc₁

/-! ## Simple directives -/

theorem repeatCharacter (hr : W k r r') (x : Char) (s : List Value) :
    Mirrored (S lays k) Eq (Action.repeatCharacter r x s) (Action.repeatCharacter r' x s) :=
  (T.lift (.refl _)).bind_eq fun _ => T.write hr _

theorem tabulate (hr : W k r r') (hhead : head.Like head') (s : List Value) :
    Mirrored (S lays k) Eq (Action.tabulate r head s) (Action.tabulate r' head' s) := by
  unfold Action.tabulate
  rw [hhead.colon, hhead.atSign]
  dsimp only
  split_ifs
  on_goal 1 => refine T.blockStart.bind_eq fun origin => ?_
  on_goal 2 => refine (Mirrored.pure rfl).bind_eq fun origin => ?_
  all_goals
    refine T.look (fun d => (T.lift (.refl _)).bind_eq fun spaces? => ?_) fun _ => rfl
    cases spaces? with
    | none => exact .pure rfl
    | some spaces => exact T.write hr spaces

omit T in
theorem settle_of_parameters (h : head.parameters = [] ∨ head.parameters = [.number 0]) (c : Cursor) :
    head.settle paddedDefaults c = .ok (paddedDefaults, c) := by
  unfold Head.settle
  obtain h | h := h <;> rw [h] <;> rfl

omit T in
/-- Without padding, a field holds a text as it is. -/
theorem paddedField_of_defaults (left : Bool) (text : Text) :
    paddedField ⟨.int 0, .int 1, .int 0, .text [' '], left⟩ text = .ok text := by
  have hlength : ¬(text.length : Int) + 0 < 0 := by omega
  have hpadded : padded text 0 1 0 [' '] left = text := by
    unfold padded paddedWidth
    rw [if_neg hlength, Int.add_zero, Int.sub_self]
    cases left
    · exact List.append_nil text
    · rfl
  exact congrArg Except.ok hpadded

theorem printPadded (hr : W k r r') (hhead : head.Like head') (s : List Value) (escape : Bool)
    (v : Value) : Mirrored (S lays k) Eq (Action.printPadded r head s escape v)
      (Action.printPadded r' head' s escape v) := by
  unfold Action.printPadded
  rw [hhead.colon, hhead.atSign, hhead.parameters]
  refine T.options fun o ho => ?_
  have ho : newlines ∨ Options.Plain { o with escape := escape } := ho
  dsimp only
  by_cases hempty : head.parameters.isEmpty = true
  · rw [if_pos hempty, if_pos hempty]
    exact T.print (T.relax hr) ho _
  · rw [if_neg hempty, if_neg hempty]
    refine (T.lift (T.toText hr ho _)).bind_eq fun printed => ?_
    exact (T.lift (.refl _)).bind_eq fun _ => T.write hr _

/-- **Zeros** make no difference. -/
theorem printPadded_of_zeroed (hzeros : zeros) (hr : W k r r') (hhead : head.Zeroed head') (escape : Bool)
    (v : Value) : Mirrored (S true k) Eq (Action.printPadded r head paddedDefaults escape v)
      (Action.printPadded r' head' paddedDefaults escape v) := by
  have hfield (left : Bool) (room : Nat) (o : Options) (r : Route) (v : Value) :
      (Action.lift (v.toText room o) >>= fun printed =>
        Action.lift (paddedField ⟨.int 0, .int 1, .int 0, .text [' '], left⟩ printed) >>= Action.write r) =
      Action.lift (v.toText room o) >>= Action.write r := by
    refine bind_congr fun printed => ?_
    rw [paddedField_of_defaults]
    rfl
  unfold Action.printPadded
  rw [hhead.colon, hhead.atSign]
  refine T.options fun o ho => ?_
  have ho : newlines ∨ Options.Plain { o with escape := escape } := ho
  dsimp only
  have hnone : ([] : List Parameter).isEmpty = true := rfl
  have hzero : ¬[Parameter.number 0].isEmpty = true := Bool.false_ne_true
  obtain ⟨h, h'⟩ | ⟨h, h'⟩ := hhead.parameters
  · rw [h, h', if_pos hnone, if_neg hzero]
    have hprinted := T.printed hzeros hr ho
    simp only [← hfield head.atSign] at hprinted
    exact hprinted _
  · rw [h, h', if_pos hnone, if_neg hzero]
    have hwritten := T.written hzeros hr ho
    simp only [← hfield head.atSign] at hwritten
    exact hwritten _

omit T in
theorem numberValue_eq (hhead : head.Like head') (kind : Atom) (s : List Value) (room : Nat)
    (o : Options) (v : Value) :
    Tilde.numberValue kind head' s room o v = Tilde.numberValue kind head s room o v := by
  have hsettings (i : Nat) : integerSettings head' s i = integerSettings head s i := by
    unfold integerSettings
    rw [hhead.colon, hhead.atSign]
  have hexponential : exponentialSettings head' s = exponentialSettings head s := by
    unfold exponentialSettings
    rw [hhead.atSign]
  unfold Tilde.numberValue radixText moneyText realValue
  simp only [hsettings, hexponential, hhead.colon, hhead.atSign]

/-- What comes of a simple directive is the same. -/
theorem runSettled (hr : W k r r') {kind : Atom} {s : List Value} (hhead : head.Like head')
    (hquiet : newlines ∨ (Node.atom kind head).IsQuiet) (hc : Alongside shift c c')
    (hgoes : kind = .goTo → shift = true → head.GoesWhole s) :
    Mirrored (S lays k) (Alongside shift) (Action.runSettled r kind head s c)
      (Action.runSettled r' kind head' s c') := by
  unfold Action.runSettled
  cases kind with
  | recursive | escape => exact .pure hc
  | goTo => exact T.lift (leads_moveCursor hc hhead (hgoes rfl))
  | newline | page | tilde => exact (T.repeatCharacter hr _ s).bind_eq fun _ => .pure hc
  | tabulate => exact (T.tabulate hr hhead s).bind_eq fun _ => .pure hc
  | indentation =>
    dsimp only
    rw [hhead.colon]
    exact (T.indent hr _ _).bind_eq fun _ => .pure hc
  | conditionalNewline =>
    have hnewlines : newlines := hquiet.resolve_right id
    unfold Action.newlineKind
    rw [hhead.colon, hhead.atSign]
    exact (T.newline hnewlines hr _).bind_eq fun _ => .pure hc
  | character =>
    unfold characterText
    rw [hhead.colon, hhead.atSign]
    refine T.read hc fun v c c' hc => (T.lift (.refl _)).bind_eq fun code => ?_
    exact (T.write hr _).bind_eq fun _ => .pure hc
  | freshLine =>
    refine (T.lift (.refl _)).bind_eq fun count => (T.lift (.refl _)).bind_eq fun below => ?_
    split_ifs
    · refine (T.freshLine hr).discard.bind_eq fun _ => (T.lift (.refl _)).bind_eq fun n => ?_
      exact (T.endLines hr n).bind_eq fun _ => .pure hc
    · exact .pure hc
  | plural =>
    have hrest {c c' : Cursor} (hc : Alongside shift c c') : Mirrored (S lays k) (Alongside shift)
        (Action.lift c.next >>= fun x => Action.lift (x.1.equal (.int 1)) >>= fun one =>
          Action.write r (pluralText head.atSign one) >>= fun _ => pure x.2)
        (Action.lift c'.next >>= fun x => Action.lift (x.1.equal (.int 1)) >>= fun one =>
          Action.write r' (pluralText head.atSign one) >>= fun _ => pure x.2) := by
      refine T.read hc fun v c c' hc => (T.lift (.refl _)).bind_eq fun one => ?_
      exact (T.write hr _).bind_eq fun _ => .pure hc
    dsimp only
    rw [hhead.colon, hhead.atSign]
    split_ifs
    · exact (T.lift (hc.relative rfl)).bind fun _ _ hc => hrest hc
    · exact hrest hc
  | aesthetic | standard =>
    refine T.read hc fun v c c' hc => ?_
    exact (T.printPadded hr hhead s _ v).bind_eq fun _ => .pure hc
  | write =>
    refine T.read hc fun v c c' hc => T.options fun o ho => ?_
    rw [hhead.colon, hhead.atSign]
    refine (T.print (T.relax hr) ?_ v).bind_eq fun _ => .pure hc
    refine ho.elim .inl fun ho => hquiet.imp_right fun hcolon => ?_
    rw [show head.colon = false from hcolon]
    by_cases hatSign : head.atSign = true
    · rw [if_pos hatSign]
      exact ⟨ho.1, rfl⟩
    · rw [if_neg hatSign]
      exact ho
  | radix | decimal | binary | octal | hexadecimal | fixed | exponential | general | monetary =>
    refine T.read hc fun v c c' hc => T.options fun o ho => ?_
    rw [numberValue_eq hhead]
    refine (T.lift (T.numberValue hr ho _ head s v)).bind_eq fun x => ?_
    exact (T.writeValue hr x).bind_eq fun _ => .pure hc

/-- **What comes of a directive that prints a value** is the same with a zero. -/
theorem runAtom_of_zeroed (hzeros : zeros) (hr : W k r r') {kind : Atom} (hkind : kind.IsPadded)
    (hhead : head.Zeroed head') (hc : Alongside shift c c') :
    Mirrored (S true k) (Outcomes shift) (Action.runAtom r kind head c) (Action.runAtom r' kind head' c') := by
  have hsettle (c : Cursor) := settle_of_parameters
    (hhead.parameters.elim (fun h => .inl h.1) fun h => .inr h.1) c
  have hsettle' (c : Cursor) := settle_of_parameters
    (hhead.parameters.elim (fun h => .inr h.2) fun h => .inl h.2) c
  have hprint (escape : Bool) : Mirrored (S true k) (Alongside shift)
      (Action.lift c.next >>= fun x => Action.printPadded r head paddedDefaults escape x.1 >>= fun _ =>
        pure x.2)
      (Action.lift c'.next >>= fun x => Action.printPadded r' head' paddedDefaults escape x.1 >>= fun _ =>
        pure x.2) := by
    refine T.read hc fun v c c' hc => ?_
    exact (T.printPadded_of_zeroed hzeros hr hhead escape v).bind_eq fun _ => .pure hc
  unfold Action.runAtom
  obtain rfl | rfl := hkind
  · rw [show Atom.aesthetic.defaults = paddedDefaults from rfl, hsettle, hsettle']
    exact (hprint false).bind fun _ _ hc => .pure ⟨hc, rfl⟩
  · rw [show Atom.standard.defaults = paddedDefaults from rfl, hsettle, hsettle']
    exact (hprint true).bind fun _ _ hc => .pure ⟨hc, rfl⟩

theorem runAtom (hr : W k r r') {kind : Atom} (hhead : head.Like head')
    (hquiet : newlines ∨ (Node.atom kind head).IsQuiet) (hc : Alongside shift c c')
    (hgoes : shift = true → (Node.atom kind head).GoesWhole c) :
    Mirrored (S lays k) (Outcomes shift) (Action.runAtom r kind head c) (Action.runAtom r' kind head' c') := by
  unfold Action.runAtom
  refine T.settle hc hhead _ fun s c₁ c₁' hs hc₁ => ?_
  dsimp only
  split
  · rw [escapes_eq hc₁ hhead, hhead.colon]
    refine (T.lift (.refl _)).bind_eq fun leaves => ?_
    split_ifs
    · exact .pure ⟨hc₁, rfl⟩
    · exact .pure ⟨hc₁, rfl⟩
    · exact .pure ⟨hc₁, rfl⟩
  · refine (T.runSettled hr hhead hquiet hc₁ ?_).bind fun _ _ hc₂ => .pure ⟨hc₂, rfl⟩
    rintro rfl htop
    exact hgoes htop s c₁ hs

/-! ## Groups -/

theorem runChosen (hrun : Mirrors S V zeros shift run run') (hr : W k r r')
    (hclauses : ClausesAlike (lays = true ∧ zeros) clauses clauses')
    (hseparators : List.Forall₂ Head.Like separators separators') (v : Value)
    (hc : Alongside shift c c') :
    Mirrored (S lays k) (Outcomes shift) (Action.runChosen run r clauses separators v c)
      (Action.runChosen run' r' clauses' separators' v c') := by
  have hchoices := Node.choices_alike hclauses hseparators
  unfold Action.runChosen
  split
  · dsimp only
    rw [← hchoices.length_eq]
    split_ifs
    · exact hrun (T.relax hr) (AllAlike.getD hchoices _) hc
    · have hfallback := Node.fallback?_alike hclauses hseparators
      generalize fallback? clauses separators = clause? at hfallback ⊢
      generalize fallback? clauses' separators' = clause?' at hfallback ⊢
      cases hfallback with
      | some h => exact hrun (T.relax hr) h hc
      | none => exact .pure ⟨hc, rfl⟩
  · exact .throw _

theorem runConditional (hrun : Mirrors S V zeros shift run run') (hr : W k r r')
    (hhead : head.Like head') (hclauses : ClausesAlike (lays = true ∧ zeros) clauses clauses')
    (hseparators : List.Forall₂ Head.Like separators separators') (hc : Alongside shift c c') :
    Mirrored (S lays k) (Outcomes shift) (Action.runConditional run r head clauses separators c)
      (Action.runConditional run' r' head' clauses' separators' c') := by
  unfold Action.runConditional
  rw [hhead.colon, hhead.atSign]
  split_ifs
  · exact T.read hc fun v c c' hc => hrun (T.relax hr) (AllAlike.getD hclauses _) hc
  · rw [hc.peek]
    refine (T.lift (.refl _)).bind_eq fun v => ?_
    split_ifs
    · exact hrun (T.relax hr) (AllAlike.headD hclauses) hc
    · exact T.read hc fun v c c' hc => .pure ⟨hc, rfl⟩
  · refine T.settle hc hhead _ fun s c₁ c₁' _ hc₁ => ?_
    have hchosen {v : Value} {c c' : Cursor} (hc : Alongside shift c c') :=
      T.runChosen hrun hr hclauses hseparators v hc
    dsimp only
    split
    · exact T.read hc₁ fun v c c' hc => hchosen hc
    · exact hchosen hc₁

/-- A pass goes on alike. -/
theorem pass {l l' : Action.Loop} (hrun : Mirrors S V zeros (shift && !l.sublists) run run') (hr : W k r r')
    (hbody : AllAlike (lays = true ∧ zeros) l.body l'.body) (hsublists : l'.sublists = l.sublists)
    (hforce : l'.force = l.force) (hlimit : l'.limit = l.limit) (i : Nat) (hc : Alongside shift c c') :
    Mirrored (S lays k) (fun x y => Alongside shift x.1 y.1 ∧ y.2 = x.2) (Action.pass run r l i c)
      (Action.pass run' r' l' i c') := by
  unfold Action.pass Action.Loop.allows
  rw [hsublists, hforce, hlimit, hc.isEmpty]
  refine (T.lift (.refl _)).bind_eq fun allowed => ?_
  split_ifs with _ _ hover
  · exact .pure ⟨hc, rfl⟩
  · exact .pure ⟨hc, rfl⟩
  · rw [hover, Bool.not_true, Bool.and_false] at hrun
    refine (T.lift hc.nextOrNothing).bind ?_
    rintro ⟨v, c₁⟩ ⟨_, c₁'⟩ ⟨rfl, hc₁⟩
    refine (T.lift (hc₁.sublistCursor v)).bind fun items items' hitems => ?_
    refine (hrun (T.relax hr) hbody hitems).bind ?_
    rintro ⟨after, exit⟩ ⟨after', _⟩ ⟨-, rfl⟩
    exact .pure ⟨hc₁, rfl⟩
  · rw [Bool.eq_false_iff.mpr hover, Bool.not_false, Bool.and_true] at hrun
    refine (hrun (T.relax hr) hbody hc).bind ?_
    rintro ⟨after, exit⟩ ⟨after', _⟩ ⟨hafter, rfl⟩
    dsimp only at hafter ⊢
    rw [hafter.isEmpty, hafter.samePosition hc]
    split_ifs
    · exact .pure ⟨hafter, rfl⟩
    · exact .throw _
    · exact .pure ⟨hafter, rfl⟩

/-- **Iterations** come to the same, if they may make as many passes. -/
theorem iterate {l l' : Action.Loop} (hrun : Mirrors S V zeros (shift && !l.sublists) run run')
    (hr : W k r r') (hbody : AllAlike (lays = true ∧ zeros) l.body l'.body) (hsublists : l'.sublists = l.sublists)
    (hforce : l'.force = l.force) (hlimit : l'.limit = l.limit) {passes passes' : Nat}
    (hpasses : passes ≤ passes') (i : Nat) (hc : Alongside shift c c') :
    Mirrored (S lays k) (Alongside shift) (Action.iterate run r l passes i c)
      (Action.iterate run' r' l' passes' i c') := by
  induction passes generalizing passes' i c c' with
  | zero => exact T.fatal rfl
  | succ passes ih =>
    obtain ⟨passes', rfl⟩ := Nat.exists_eq_add_of_lt hpasses
    rw [Action.iterate_succ, Action.iterate_succ]
    refine (T.pass hrun hr hbody hsublists hforce hlimit i hc).bind ?_
    rintro ⟨c₁, again⟩ ⟨c₁', _⟩ ⟨hc₁, rfl⟩
    dsimp only
    split_ifs
    · exact ih (Nat.le_add_right _ _) (i + 1) hc₁
    · exact .pure hc₁

theorem runLoop {l l' : Action.Loop} {passes passes' : Nat}
    (hrun : Mirrors S V zeros (shift && (head.atSign && !l.sublists)) run run') (hr : W k r r')
    (hhead : head.Like head') (hbody : AllAlike (lays = true ∧ zeros) l.body l'.body)
    (hsublists : l'.sublists = l.sublists) (hforce : l'.force = l.force) (hlimit : l'.limit = l.limit)
    (hpasses : passes ≤ passes') (hc : Alongside shift c c') :
    Mirrored (S lays k) (Outcomes shift) (Action.runLoop passes run r head l c)
      (Action.runLoop passes' run' r' head' l' c') := by
  unfold Action.runLoop
  rw [hhead.atSign]
  split_ifs with hatSign
  · rw [hatSign, Bool.true_and] at hrun
    refine (T.iterate hrun hr hbody hsublists hforce hlimit hpasses 0 hc).bind fun _ _ hc => ?_
    exact .pure ⟨hc, rfl⟩
  · have hinside : Mirrors S V zeros (false && !l.sublists) run run' := by
      rwa [Bool.eq_false_iff.mpr hatSign, Bool.false_and, Bool.and_false] at hrun
    refine T.read hc fun v c c' hc => (T.lift (.refl _)).bind_eq fun items => ?_
    refine (T.iterate hinside hr hbody hsublists hforce hlimit hpasses 0 (.refl items)).discard.bind_eq ?_
    exact fun _ => .pure ⟨hc, rfl⟩

theorem runIteration {passes passes' : Nat}
    (hrun : Mirrors S V zeros (shift && (head.atSign && !head.colon)) run run') (hr : W k r r')
    (hhead : head.Like head') (hclauses : ClausesAlike (lays = true ∧ zeros) clauses clauses')
    (hclosing : closing.Like closing') (hpasses : passes ≤ passes') (hc : Alongside shift c c') :
    Mirrored (S lays k) (Outcomes shift) (Action.runIteration passes run r head clauses closing c)
      (Action.runIteration passes' run' r' head' clauses' closing' c') := by
  unfold Action.runIteration
  refine T.settle hc hhead _ fun s c₁ c₁' _ hc₁ => ?_
  have hloop {body body' : List Node} (hbody : AllAlike (lays = true ∧ zeros) body body') {c c' : Cursor}
      (hc : Alongside shift c c') :=
    have hbodies : AllAlike (lays = true ∧ zeros) (Action.Loop.mk body head.colon closing.colon (setting s 0)).body
        (Action.Loop.mk body' head'.colon closing'.colon (setting s 0)).body := hbody
    T.runLoop hrun hr hhead hbodies hhead.colon hclosing.colon rfl hpasses hc
  have hbody := AllAlike.headD hclauses
  generalize clauses.headD [] = body at hbody ⊢
  generalize clauses'.headD [] = body' at hbody ⊢
  cases hbody with
  | nil =>
    refine T.read hc₁ fun v c c' hc => (T.lift (.refl _)).bind_eq fun nodes => ?_
    exact hloop (Node.allAlike_refl nodes) hc
  | cons hfirst hrest => exact hloop (.cons hfirst hrest) hc₁

theorem runCaseConversion (hrun : Mirrors S V zeros shift run run') (hr : W k r r')
    (hhead : head.Like head') (hclauses : ClausesAlike (lays = true ∧ zeros) clauses clauses')
    (hc : Alongside shift c c') :
    Mirrored (S lays k) (Outcomes shift) (Action.runCaseConversion run r head clauses c)
      (Action.runCaseConversion run' r' head' clauses' c') := by
  have hmode : Action.foldMode head' = Action.foldMode head := by
    unfold Action.foldMode
    rw [hhead.colon, hhead.atSign]
  unfold Action.runCaseConversion
  rw [hmode]
  intro s t hs
  obtain ⟨i, k', s₁, t₁, hi, hi', hroutes, hs₁, hweaken⟩ := T.newFold hs hr (Action.foldMode head)
  rw [Action.bind_of_ok hi, Action.bind_of_ok hi']
  have hinside := hrun hroutes (AllAlike.headD hclauses) hc s₁ t₁ hs₁
  exact hinside.mono (fun _ _ => id) hweaken

/-- A clause comes to the same text. -/
theorem render (hrun : Mirrors S V zeros shift run run') (hr : W k r r') (ho : newlines ∨ o.Plain)
    (hnodes : AllAlike (lays = true ∧ zeros) nodes nodes') (hc : Alongside shift c c') :
    Leads (fun x y => x.1 = y.1 ∧ Outcomes shift x.2 y.2) (Action.render run r.room o nodes c)
      (Action.render run' r'.room o nodes' c') := by
  have hperform {lays : Bool} (hnodes : AllAlike (lays = true ∧ zeros) nodes nodes') {s : Stream}
      (hfresh : freshStream o nodes = .ok s) (hfresh' : freshStream o nodes' = .ok s)
      (hs : S lays 0 s s) : Leads (fun x y => x.1 = y.1 ∧ Outcomes shift x.2 y.2)
      (Action.render run r.room o nodes c) (Action.render run' r'.room o nodes' c') := by
    have h := T.flushed_of_mirrored (hrun (T.fresh hr) hnodes hc) hs
    unfold Action.render Action.perform
    rw [hfresh, hfresh']
    dsimp only [bind, Except.bind]
    split at h <;> rename_i hrun hrun' <;> rw [hrun, hrun']
    · exact h.2.bind_eq fun text => ⟨rfl, h.1⟩
    · exact h.elim
    · exact .inl h
    · exact h.imp_right fun he => congrArg Except.error he
  have hfresh' : freshStream o nodes' = freshStream o nodes := by
    unfold freshStream
    rw [Node.anyNeedsPrinter_eq hnodes]
  by_cases hneeds : Node.anyNeedsPrinter nodes = true
  · obtain ⟨p, hp⟩ : ∃ p, Printer.create o none 0 = .ok p := ⟨_, rfl⟩
    have hfresh : freshStream o nodes = .ok { device := .printer p } := by
      unfold freshStream
      rw [if_pos hneeds, hp]
      rfl
    exact hperform (Node.allAlike_mono (fun hzeros _ => ⟨rfl, hzeros.2⟩) hnodes) hfresh
      (hfresh'.trans hfresh) (T.printer ho hp)
  · have hfresh : freshStream o nodes =
        .ok { device := .column { maxColumn := o.rightMargin, options := o } } := if_neg hneeds
    exact hperform (Node.allAlike_mono (fun _ h => absurd h hneeds) hnodes) hfresh
      (hfresh'.trans hfresh) (T.column ho)

theorem renderSegments (hrun : Mirrors S V zeros shift run run') (hr : W k r r')
    (ho : newlines ∨ o.Plain) (hclauses : ClausesAlike (lays = true ∧ zeros) clauses clauses')
    (hc : Alongside shift c c') :
    Leads (fun x y => x.1 = y.1 ∧ Alongside shift x.2 y.2)
      (Action.renderSegments run r.room o clauses c)
      (Action.renderSegments run' r'.room o clauses' c') := by
  induction hclauses generalizing c c' with
  | nil => exact ⟨rfl, hc⟩
  | cons hfirst _ ih =>
    unfold Action.renderSegments
    refine (T.render hrun hr ho hfirst hc).bind ?_
    rintro ⟨text, c₁, exit⟩ ⟨text', c₁', exit'⟩ ⟨htext, hc₁, hexit⟩
    obtain rfl : text = text' := htext
    obtain rfl : exit' = exit := hexit
    dsimp only
    split_ifs
    · exact ⟨rfl, hc₁⟩
    · refine (ih hc₁).bind ?_
      rintro ⟨texts, c₂⟩ ⟨_, c₂'⟩ ⟨rfl, hc₂⟩
      exact ⟨rfl, hc₂⟩

theorem renderOverflow (hrun : Mirrors S V zeros shift run run') (hr : W k r r')
    (ho : newlines ∨ o.Plain) (hclauses : ClausesAlike (lays = true ∧ zeros) clauses clauses')
    (hseparators : List.Forall₂ Head.Like separators separators') (hc : Alongside shift c c') :
    Leads (fun x y => x.1 = y.1 ∧ Alongside shift x.2 y.2)
      (Action.renderOverflow run r.room o clauses separators c)
      (Action.renderOverflow run' r'.room o clauses' separators' c') := by
  have hclause := Node.overflow?_alike hclauses hseparators
  have hseparator := Node.overflowSeparator?_alike hseparators
  unfold Action.renderOverflow
  generalize overflow? clauses separators = clause? at hclause ⊢
  generalize overflow? clauses' separators' = clause?' at hclause ⊢
  generalize overflowSeparator? separators = separator? at hseparator ⊢
  generalize overflowSeparator? separators' = separator?' at hseparator ⊢
  cases hclause with
  | none => exact ⟨rfl, hc⟩
  | some hclause =>
    cases hseparator with
    | none => exact ⟨rfl, hc⟩
    | some hseparator =>
      refine (T.render hrun hr ho hclause hc).bind ?_
      rintro ⟨text, c₁, exit⟩ ⟨text', c₁', exit'⟩ ⟨htext, hc₁, -⟩
      obtain rfl : text = text' := htext
      refine (Head.leads_settle hc₁ hseparator separatorDefaults).bind ?_
      rintro ⟨s, c₂⟩ ⟨_, c₂'⟩ ⟨rfl, hc₂⟩
      exact ⟨rfl, hc₂⟩

theorem runJustification (hrun : Mirrors S V zeros shift run run') (hr : W k r r')
    (hhead : head.Like head') (hclauses : ClausesAlike (lays = true ∧ zeros) clauses clauses')
    (hseparators : List.Forall₂ Head.Like separators separators') (hc : Alongside shift c c') :
    Mirrored (S lays k) (Outcomes shift) (Action.runJustification run r head clauses separators c)
      (Action.runJustification run' r' head' clauses' separators' c') := by
  have hsegments := Node.segments_alike hclauses hseparators
  unfold Action.runJustification
  rw [hhead.colon, hhead.atSign]
  refine T.settle hc hhead _ fun s c₁ c₁' _ hc₁ => (T.lift (.refl _)).bind_eq fun refused => ?_
  split_ifs
  · exact .throw _
  refine T.options fun o ho => ?_
  refine (T.lift (T.renderOverflow hrun hr ho hclauses hseparators hc₁)).bind ?_
  rintro ⟨overflow, c₂⟩ ⟨_, c₂'⟩ ⟨rfl, hc₂⟩
  refine (T.lift (T.renderSegments hrun hr ho hsegments hc₂)).bind ?_
  rintro ⟨texts, c₃⟩ ⟨_, c₃'⟩ ⟨rfl, hc₃⟩
  refine (T.lift (.refl _)).bind_eq fun laid => ?_
  have hlast : Mirrored (S lays k) (Outcomes shift)
      (Action.lift laid.2 >>= fun text => Action.write r text >>= fun _ => pure (c₃, none))
      (Action.lift laid.2 >>= fun text => Action.write r' text >>= fun _ => pure (c₃', none)) :=
    (T.lift (.refl _)).bind_eq fun text => (T.write hr text).bind_eq fun _ => .pure ⟨hc₃, rfl⟩
  dsimp only
  cases overflow with
  | none => exact hlast
  | some overflow =>
    refine T.look (fun d => (T.lift (.refl _)).bind_eq fun overflowing => ?_) fun _ => rfl
    split_ifs
    · exact (T.write hr _).bind_eq fun _ => hlast
    · exact hlast

theorem runAround (hrun : Mirrors S V zeros shift run run') (hr : W k r r') (ho : newlines ∨ o.Plain)
    (hclauses : ClausesAlike (lays = true ∧ zeros) clauses clauses')
    (hseparators : List.Forall₂ Head.Like separators separators') (hhead : head.Like head')
    (hclosing : closing.Like closing') {items items' : Cursor} (hitems : Alongside shift items items')
    {shift' : Bool} (hc : Alongside shift' c c') :
    Mirrored (S lays k) (Outcomes shift')
      (Action.runAround run r o (Block.ofClauses head clauses separators closing) items c)
      (Action.runAround run' r' o (Block.ofClauses head' clauses' separators' closing') items' c') := by
  have hblock := Node.ofClauses_alike hclauses hseparators hhead hclosing
  unfold Action.runAround
  generalize Block.ofClauses head clauses separators closing = block? at hblock ⊢
  generalize Block.ofClauses head' clauses' separators' closing' = block?' at hblock ⊢
  cases block? <;> cases block?'
  · exact .throw _
  · exact hblock.elim
  · exact hblock.elim
  · obtain ⟨hopening, hperLine, hending, hbody⟩ := hblock
    dsimp only
    rw [hopening, hperLine, hending]
    refine (T.within hr (ho.imp_right And.right) ?_).bind_eq fun _ => .pure ⟨hc, rfl⟩
    exact (hrun (T.relax hr) hbody hitems).discard

theorem runBlock (hrun : Mirrors S V zeros (shift && head.atSign) run run') (hr : W k r r')
    (hhead : head.Like head') (hclauses : ClausesAlike (lays = true ∧ zeros) clauses clauses')
    (hseparators : List.Forall₂ Head.Like separators separators') (hclosing : closing.Like closing')
    (hc : Alongside shift c c') :
    Mirrored (S lays k) (Outcomes shift) (Action.runBlock run r head clauses separators closing c)
      (Action.runBlock run' r' head' clauses' separators' closing' c') := by
  refine T.options fun o ho => ?_
  rw [hhead.atSign]
  split_ifs with hatSign
  · rw [hatSign, Bool.and_true] at hrun
    refine (T.lift hc.last).bind fun c₁ c₁' hc₁ => ?_
    exact T.runAround hrun hr ho hclauses hseparators hhead hclosing hc hc₁
  · rw [Bool.eq_false_iff.mpr hatSign, Bool.and_false] at hrun
    refine T.read hc fun v c c' hc => ?_
    have haround (items : Cursor) :=
      T.runAround hrun hr ho hclauses hseparators hhead hclosing (.refl items) hc
    dsimp only
    split
    · exact haround _
    · exact haround _
    · exact (T.print (T.relax hr) ho v).bind_eq fun _ => .pure ⟨hc, rfl⟩

theorem runRecursive (hrun : Mirrors S V zeros (shift && head.atSign) run run') (hr : W k r r')
    (hhead : head.Like head') (hc : Alongside shift c c') :
    Mirrored (S lays k) (Outcomes shift) (Action.runRecursive run r head c)
      (Action.runRecursive run' r' head' c') := by
  unfold Action.runRecursive
  rw [hhead.atSign]
  refine T.read hc fun v c c' hc => (T.lift (.refl _)).bind_eq fun nodes => ?_
  split_ifs with hatSign
  · rw [hatSign, Bool.and_true] at hrun
    exact hrun (T.relax hr) (Node.allAlike_refl nodes) hc
  · rw [Bool.eq_false_iff.mpr hatSign, Bool.and_false] at hrun
    refine T.read hc fun v c c' hc => (T.lift (.refl _)).bind_eq fun items => ?_
    refine (hrun (T.relax hr) (Node.allAlike_refl nodes) (.refl items)).discard.bind_eq ?_
    exact fun _ => .pure ⟨hc, rfl⟩

/-! ## Nodes -/

variable {n n' : Node} {passes passes' : Nat}

/-- **What comes of a node** is the same. -/
theorem runNode (hrun : Mirrors S V zeros (shift && n.goesOn) run run') (hr : W k r r')
    (hnode : n.Alike (lays = true ∧ zeros) n') (hquiet : newlines ∨ n.IsQuiet) (hgoes : shift = true → n.GoesWhole c)
    (hpasses : passes ≤ passes') (hc : Alongside shift c c') :
    Mirrored (S lays k) (Outcomes shift) (Action.runNode passes run r n c)
      (Action.runNode passes' run' r' n' c') := by
  match n with
  | .text s =>
    cases hnode
    exact (T.write hr s).bind_eq fun _ => .pure ⟨hc, rfl⟩
  | .copies x count =>
    cases hnode
    exact (T.write hr _).bind_eq fun _ => .pure ⟨hc, rfl⟩
  | .foreign =>
    cases hnode
    exact .throw _
  | .atom kind head =>
    have hatom {head' : Head} (hhead : head.Like head') : Mirrored (S lays k) (Outcomes shift)
        (Action.runNode passes run r (.atom kind head) c)
        (Action.runNode passes' run' r' (.atom kind head') c') := by
      cases kind with
      | recursive => exact T.runRecursive hrun hr hhead hc
      | _ => exact T.runAtom hr hhead hquiet hc hgoes
    cases hnode with
    | refl => exact hatom (.refl head)
    | atom _ hhead => exact hatom hhead
    | padded hzeros hkind hhead =>
      obtain ⟨rfl, hzeros⟩ := hzeros
      have hpadded := T.runAtom_of_zeroed hzeros hr hkind hhead hc
      obtain rfl | rfl := hkind <;> exact hpadded
  | .group kind head clauses separators closing =>
    obtain ⟨head', clauses', separators', closing', rfl, hhead, hclauses, hseparators, hclosing⟩ :=
      hnode.exists_group
    have hwhole (h : Mirrors S V zeros (shift && true) run run') : Mirrors S V zeros shift run run' := by
      rwa [Bool.and_true] at h
    cases kind with
    | logicalBlock => exact T.runBlock hrun hr hhead hclauses hseparators hclosing hc
    | iteration => exact T.runIteration hrun hr hhead hclauses hclosing hpasses hc
    | conditional => exact T.runConditional (hwhole hrun) hr hhead hclauses hseparators hc
    | caseConversion => exact T.runCaseConversion (hwhole hrun) hr hhead hclauses hc
    | justification => exact T.runJustification (hwhole hrun) hr hhead hclauses hseparators hc

variable {rules : Bool → Runner} {top : Bool} {e : Fault}

/-- From left to right, as long as the rule is obeyed. -/
theorem runNodesUnder (he : e.isFatal = true)
    (hrun : ∀ {top shift : Bool}, (shift = true → top = true) →
      Mirrors S V zeros shift (rules top) run')
    (htop : shift = true → top = true) (hr : W k r r') (hpasses : passes ≤ passes')
    (hnodes : AllAlike (lays = true ∧ zeros) nodes nodes') (hc : Alongside shift c c') :
    Mirrored (S lays k) (Outcomes shift)
      (Action.runNodesUnder (.tandem newlines) e passes rules top r nodes c)
      (Action.runNodes passes' run' r' nodes' c') := by
  induction hnodes generalizing c c' with
  | nil => exact .pure ⟨hc, rfl⟩
  | @cons n n' _ _ hfirst _ ih =>
    unfold Action.runNodesUnder Action.runNodes
    by_cases hallowed : (Rule.tandem newlines).allows top n c
    · rw [if_pos hallowed]
      have hinside : Mirrors S V zeros (shift && n.goesOn) (rules (top && n.goesOn)) run' := by
        refine hrun fun h => ?_
        rw [Bool.and_eq_true] at h ⊢
        exact ⟨htop h.1, h.2⟩
      refine (T.runNode hinside hr hfirst hallowed.1 (fun h => hallowed.2 (htop h)) hpasses hc).bind ?_
      rintro ⟨c₁, exit⟩ ⟨c₁', exit'⟩ ⟨hc₁, hexit⟩
      obtain rfl : exit' = exit := hexit
      cases exit' with
      | none => exact ih hc₁
      | some exit => exact .pure ⟨hc₁, rfl⟩
    · rw [if_neg hallowed]
      exact T.fatal he

/-- **A run that obeys the rule** comes to the same as any run of nodes that are alike, from cursors
that go alongside, that may be as deep and make as many passes. -/
theorem mirrors_runUnder (he : e.isFatal = true) {depth depth' : Nat} (hdepth : depth ≤ depth')
    (hpasses : passes ≤ passes') (htop : shift = true → top = true) :
    Mirrors S V zeros shift (Action.runUnder (.tandem newlines) e passes depth top)
      (Action.runWithin passes' depth') := by
  induction depth generalizing depth' top shift with
  | zero =>
    intro lays k r r' hr ns ns' hnodes c c' hc
    exact T.fatal rfl
  | succ depth ih =>
    obtain ⟨depth', rfl⟩ := Nat.exists_eq_add_of_lt hdepth
    intro lays k r r' hr ns ns' hnodes c c' hc
    refine T.descend_bind hr (Nat.le_refl 2) fun r r' hr => ?_
    exact T.runNodesUnder he (ih (Nat.le_add_right _ _)) htop hr hpasses hnodes hc

end Tandem

/-! ## The same stream -/

/-- Every operation mirrors itself. -/
theorem tandem_same : Tandem (fun _ _ s t => t = s ∧ s.Unharmed) (fun _ r r' => r' = r)
    (fun _ r r' => r' = r) True False where
  unharmed h := h.2
  front h := h.1 ▸ rfl
  plain _ := .inl trivial
  newFold := by
    rintro - k s _ r _ ⟨rfl, hs⟩ rfl mode
    exact ⟨_, 0, _, _, rfl, rfl, rfl, ⟨rfl, hs⟩, fun _ _ => id⟩
  relax := id
  descend := by
    rintro k r _ calls rfl _ hcalls
    exact ⟨hcalls, rfl⟩
  fresh := by
    rintro k r _ rfl
    rfl
  spare := by
    rintro k r _ rfl hroom
    exact hroom
  writeValue := by
    rintro - k r _ rfl v
    exact .self (.writeValue _ v)
  endLine := by
    rintro - k r _ rfl
    exact .self (.endLine _)
  newline := by
    rintro - k r _ _ rfl kind
    exact .self (.newline _ kind)
  indent := by
    rintro - k r _ rfl offset relative
    exact .self (.indent _ offset relative)
  enter := by
    rintro - k r _ level rfl _ opening perLine closing
    exact .self (.enter level opening perLine closing)
  finish := by
    rintro - k r _ rfl
    exact .self .finish
  blockStart := .self .blockStart
  printer := by
    intro o p _ hp
    refine ⟨rfl, Stream.unharmed_printer ?_ #[]⟩
    cases hp
    rfl
  column _ := ⟨rfl, Stream.unharmed_column _ _⟩
  flushed := by
    rintro - k s _ ⟨rfl, -⟩
    exact .refl _
  printed := False.elim
  written := False.elim

end Tilde
