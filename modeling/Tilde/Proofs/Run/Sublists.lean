import Tilde.Format.Formatter
import Tilde.Proofs.Directive.Governed
import Tilde.Proofs.Fold.Route
import Tilde.Proofs.Run.Inner

/-!
# The list of sublists

An escape with a colon asks whether any sublists are left. In a control string it stands only inside
of an iteration over sublists, and the cursor of a pass knows the one over the sublists. But a
logical block over a list of its own starts with a cursor that does not.

* `Place`: where a node is run, seen from the innermost iteration around it;
* `Value.HoldsCompiled`: the formatters among the arguments have been compiled;
* **`Action.obeys_sublists`**: an escape with a colon sees the sublists, unless a logical block has
  cut it off from them;
* **`Action.exists_unsupported`**: there it fails.
-/

namespace Tilde

/-! ## Formatters among the arguments -/

/-- The value is the other one, or an element of it, however deep. -/
inductive Value.PartOf : Value → Value → Prop
  | refl {v : Value} : PartOf v v
  | item {u v w : Value} {items : List Value} (hitems : w.items? = some items) (hu : u ∈ items)
      (h : PartOf v u) : PartOf v w

/-- Every formatter that the value is or holds comes from a control string, or from a sequence of
literal texts. -/
def Value.HoldsCompiled (v : Value) : Prop :=
  ∀ nodes, (Value.control nodes).PartOf v → ∃ source, Formatter.ofSource source = .ok ⟨nodes⟩

/-- This is so for all arguments. -/
def Cursor.HoldsCompiled (c : Cursor) : Prop := ∀ v ∈ c.arguments, v.HoldsCompiled

variable {c c' : Cursor} {v source : Value} {nodes : List Node} {n : Node} {head : Head}
  {outer : Option Cursor}

theorem governed_of_compile {w : Text} (h : compile w = .ok nodes) :
    ∀ n ∈ nodes, n.Governed false := by
  unfold compile at h
  split at h
  · rename_i hparse
    cases h
    exact governed_of_parse hparse
  all_goals cases h

theorem governed_of_ofSource {f : Formatter} (h : Formatter.ofSource source = .ok f) :
    ∀ n ∈ f.nodes, n.Governed false := by
  have literal (vs : List Value) : ∀ n ∈ vs.map Formatter.elementNode, n.Governed false := by
    intro n hn
    obtain ⟨v, -, rfl⟩ := List.mem_map.mp hn
    unfold Formatter.elementNode
    split
    · exact .text
    · exact .foreign
  cases source with
  | text w =>
    obtain ⟨nodes, hnodes, h⟩ := exists_of_bind_ok h
    cases h
    exact governed_of_compile hnodes
  | list vs | tuple vs =>
    cases h
    exact literal vs
  | _ => cases h

theorem governed_of_nodesOf (hv : v.HoldsCompiled) (h : nodesOf v = .ok nodes) :
    ∀ n ∈ nodes, n.Governed false := by
  unfold nodesOf at h
  split at h
  · cases h
    obtain ⟨source, hsource⟩ := hv _ .refl
    exact governed_of_ofSource hsource
  · exact governed_of_compile h
  · split at h <;> cases h

theorem Value.HoldsCompiled.of_item {u : Value} {items : List Value} (h : v.HoldsCompiled)
    (hitems : v.items? = some items) (hu : u ∈ items) : u.HoldsCompiled :=
  fun nodes hnodes => h nodes (.item hitems hu hnodes)

theorem Value.HoldsCompiled.of_items (hcontrol : ∀ nodes, v ≠ .control nodes)
    (hitems : ∀ items, v.items? = some items → ∀ u ∈ items, u.HoldsCompiled) :
    v.HoldsCompiled := by
  rintro nodes (_ | ⟨hv, hu, h⟩)
  · exact absurd rfl (hcontrol nodes)
  · exact hitems _ hv _ hu nodes h

namespace Cursor

theorem HoldsCompiled.of_sameList (h : c.HoldsCompiled) (hc : c.SameList c') :
    c'.HoldsCompiled := by
  unfold HoldsCompiled
  rwa [hc.1]

theorem HoldsCompiled.ofValue (hv : v.HoldsCompiled) (h : Cursor.ofValue v outer = .ok c) :
    c.HoldsCompiled ∧ c.outer = outer := by
  unfold Cursor.ofValue at h
  split at h
  · rename_i items hitems
    cases h
    exact ⟨fun u hu => hv.of_item hitems (by simpa [ofList] using hu), rfl⟩
  · cases h

theorem HoldsCompiled.over (h : c.HoldsCompiled) (hover : head.Over c c') :
    c'.HoldsCompiled ∧ c'.outer = if head.atSign then c.outer else none := by
  unfold Head.Over at hover
  split_ifs at hover ⊢
  · exact ⟨h.of_sameList hover, hover.2⟩
  · obtain ⟨v, hv, start, hstart, hsame⟩ := hover
    obtain ⟨hholds, houter⟩ := HoldsCompiled.ofValue (h v hv) hstart
    exact ⟨hholds.of_sameList hsame, hsame.2.trans houter⟩

theorem HoldsCompiled.sublist {items : Cursor} (h : c.HoldsCompiled)
    (hnext : c.nextOrNothing = .ok (v, items)) (hc' : Action.sublistCursor v items = .ok c') :
    c'.HoldsCompiled ∧ c'.outer = some items := by
  unfold Action.sublistCursor at hc'
  split at hc'
  · cases hc'
    exact ⟨by simp [HoldsCompiled, ofList], rfl⟩
  · rename_i hv
    refine HoldsCompiled.ofValue (h v ?_) hc'
    unfold nextOrNothing at hnext
    split at hnext
    · cases hnext
      exact absurd rfl hv
    · exact mem_of_next hnext

end Cursor

/-! ## Places -/

theorem Node.Governed.mono {b b' : Bool} (h : n.Governed b) (hb : b = true → b' = true) :
    n.Governed b' := by
  induction h generalizing b' with
  | text => exact .text
  | copies => exact .copies
  | foreign => exact .foreign
  | atom h => exact .atom fun hkind hcolon => hb (h hkind hcolon)
  | group h ih =>
    refine .group fun clause hclause n hn => ih clause hclause n hn ?_
    split_ifs
    · exact id
    · exact hb

section Groups

variable {kind : Group} {closing : Head} {clauses : List (List Node)} {separators : List Head} {b : Bool}

/-- In an iteration, what its clauses hold is governed by its own colon. -/
theorem Node.Governed.fromClauses (h : (Node.group kind head clauses separators closing).Governed b)
    (hnodes : FromClauses clauses nodes) :
    ∀ m ∈ nodes, m.Governed (if kind = .iteration then head.colon else b) := by
  intro m hm
  obtain ⟨clause, hclause, hm⟩ := hnodes m hm
  cases h with
  | group h => exact h clause hclause m hm

/-- So are the nodes that it goes over, be they its own ones or those of a control string. -/
theorem governed_of_iteratesOver
    (h : (Node.group .iteration head clauses separators closing).Governed b)
    (hc : c.HoldsCompiled) (hnodes : IteratesOver clauses c nodes) :
    ∀ m ∈ nodes, m.Governed head.colon := by
  obtain hnodes | ⟨-, v, hv, hnodes⟩ := hnodes
  · exact h.fromClauses hnodes
  · exact fun m hm => (governed_of_nodesOf (hc v hv) hnodes m hm).mono (by simp)

end Groups

/-- Where a node is run: not in an iteration over sublists as far as its own control string goes, in
a pass of one that has this cursor over the sublists, or there in a logical block over a list of its
own. -/
inductive Place
  | outside
  | pass (sublists : Cursor)
  | cutOff

namespace Place

def inSublists : Place → Bool
  | .outside => false
  | .pass _ | .cutOff => true

/-- What the cursor knows of the sublists at the place. -/
def Shows : Place → Cursor → Prop
  | .outside, _ => True
  | .pass sublists, c => c.outer = some sublists
  | .cutOff, c => c.outer = none

/-- In a logical block over a list of its own. -/
def cut : Place → Place
  | .outside => .outside
  | .pass _ | .cutOff => .cutOff

/-- In a pass of an iteration that has the cursor. -/
def inPass (c : Cursor) : Place :=
  match c.outer with
  | some sublists => .pass sublists
  | none => .outside

theorem inSublists_cut (x : Place) : x.cut.inSublists = x.inSublists := by cases x <;> rfl

theorem shows_cut (x : Place) (h : c.outer = none) : x.cut.Shows c := by
  cases x
  · trivial
  · exact h
  · exact h

theorem Shows.of_outer {x : Place} (h : x.Shows c) (hc : c'.outer = c.outer) : x.Shows c' := by
  cases x
  · trivial
  · exact hc.trans h
  · exact hc.trans h

end Place

/-- Escapes with a colon are begun only in a pass over sublists, and with a cursor that knows them,
or in a logical block there that has cut it off. -/
def Rule.sublists : Rule Place where
  allows x n c := ∀ head, n = .atom .escape head → head.colon = true →
    x.inSublists = true ∧ x.Shows c
  inside x n c :=
    match n with
    | .atom .recursive _ => .outside
    | .group .iteration head _ _ _ => if head.colon then .inPass c else .outside
    | .group .logicalBlock head _ _ _ => if head.atSign then x else x.cut
    | _ => x

theorem kept_sublists : Rule.sublists.Kept fun x n c =>
    n.Governed x.inSublists ∧ x.Shows c ∧ c.HoldsCompiled where
  allows := by
    rintro x n c ⟨hgoverned, hshows, -⟩ head rfl hcolon
    cases hgoverned with
    | atom h => exact ⟨h rfl hcolon, hshows⟩
  along := by
    rintro x n c c' ⟨hgoverned, hshows, hholds⟩ hc
    exact ⟨hgoverned, hshows.of_outer hc.2, hholds.of_sameList hc⟩
  inside := by
    rintro x n c nodes c' ⟨hgoverned, hshows, hholds⟩ henters
    cases henters with
    | @clause kind head closing clauses separators _ _ _ hkind hnodes hc =>
      have hx : Rule.sublists.inside x (.group kind head clauses separators closing) c' = x := by
        cases kind <;> simp_all [Rule.sublists]
      have hgoverned := hgoverned.fromClauses hnodes
      rw [if_neg hkind.1] at hgoverned
      intro m hm
      rw [hx]
      exact ⟨hgoverned m hm, hshows.of_outer hc.2, hholds.of_sameList hc⟩
    | @pass head closing clauses separators _ _ _ hcolon hnodes hover =>
      have hx : Rule.sublists.inside x (.group .iteration head clauses separators closing) c' =
          .outside := by simp [Rule.sublists, hcolon]
      have hgoverned := governed_of_iteratesOver hgoverned hholds hnodes
      rw [hcolon] at hgoverned
      exact fun m hm => hx ▸ ⟨hgoverned m hm, trivial, (hholds.over hover).1⟩
    | @sublist head closing clauses separators _ items items' _ _ v hcolon hnodes hover hnext hc' =>
      obtain ⟨hholds', houter⟩ := (hholds.over hover).1.sublist hnext hc'
      have hx : Rule.sublists.inside x (.group .iteration head clauses separators closing) c' =
          .pass items' := by simp [Rule.sublists, hcolon, Place.inPass, houter]
      have hgoverned := governed_of_iteratesOver hgoverned hholds hnodes
      rw [hcolon] at hgoverned
      exact fun m hm => hx ▸ ⟨hgoverned m hm, houter, hholds'⟩
    | @block head closing clauses separators _ _ block hblock hover =>
      cases hgoverned with
      | group h =>
        rw [if_neg (by simp)] at h
        obtain ⟨hholds', houter⟩ := hholds.over hover
        intro m hm
        have hm := governed_of_ofClauses hblock h m hm
        show m.Governed (if head.atSign then x else x.cut).inSublists ∧
          (if head.atSign then x else x.cut).Shows c' ∧ c'.HoldsCompiled
        split_ifs at houter ⊢
        · exact ⟨hm, hshows.of_outer houter, hholds'⟩
        · exact ⟨x.inSublists_cut ▸ hm, x.shows_cut houter, hholds'⟩
    | control hv hnodes hover =>
      have hgoverned := governed_of_nodesOf (hholds _ hv) hnodes
      exact fun m hm => ⟨hgoverned m hm, trivial, (hholds.over hover).1⟩

/-! ## Escapes -/

namespace Action

variable {passes depth : Nat} {run : Runner} {route : Route} {s : Stream}

/-- Without parameters, an escape with a colon looks at nothing but the sublists. -/
theorem runNode_escape (hcolon : head.colon = true) (hparameters : head.parameters = []) :
    runNode passes run route (.atom .escape head) c s =
      match c.outer with
      | some sublists => .ok (c, if sublists.isEmpty then some .upUpAndOut else none) s
      | none => .error .unsupported s := by
  have hsettle : head.settle Atom.escape.defaults c = .ok ([.nothing, .nothing, .nothing], c) := by
    rw [Head.settle, hparameters]
    rfl
  have hescapes : escapes head [.nothing, .nothing, .nothing] c =
      match c.outer with
      | some sublists => .ok sublists.isEmpty
      | none => .error .unsupported := by
    unfold escapes
    exact if_pos hcolon
  have hlift : lift (head.settle Atom.escape.defaults c) s =
      .ok ([.nothing, .nothing, .nothing], c) s := by
    rw [hsettle]
    rfl
  refine (bind_of_ok hlift).trans ?_
  show (lift (escapes head [.nothing, .nothing, .nothing] c) >>= fun done =>
    if done then pure (c, some (if head.colon then .upUpAndOut else .upAndOut))
    else pure (c, none) : Action Tilde.Outcome) s = _
  rw [hescapes, hcolon]
  cases c.outer with
  | none => rfl
  | some sublists =>
    dsimp only
    cases sublists.isEmpty <;> rfl

/-- **Escapes see the sublists of their iteration, unless a logical block is in between.** Then, and
only then, an escape without parameters fails. -/
theorem obeys_sublists {f : Formatter} (hf : Formatter.ofSource source = .ok f)
    (hc : c.HoldsCompiled) (passes depth : Nat) (route : Route) (s : Stream) :
    Obeys .sublists .outside passes depth route f.nodes c s ∧
      ∀ run route head c s, head.colon = true → head.parameters = [] →
        runNode passes run route (.atom .escape head) c s =
          match c.outer with
          | some sublists => .ok (c, if sublists.isEmpty then some .upUpAndOut else none) s
          | none => .error .unsupported s := by
  refine ⟨kept_sublists.obeys fun n hn => ?_, fun _ _ _ _ _ => runNode_escape⟩
  exact ⟨governed_of_ofSource hf n hn, trivial, hc⟩

/-- Two sublists of one number, with a comma in between. -/
theorem obeys_sublists_twice :
    let source : Value := .text "~:{~D~:^, ~}".toList
    let arguments : List Value := [.list [.list [.int 1], .list [.int 2]]]
    ∃ f, Formatter.ofSource source = .ok f ∧ (Cursor.ofList arguments).HoldsCompiled ∧
      Obeys .sublists .outside 3 3 {} f.nodes (.ofList arguments) (Formatter.sinkStream {}) ∧
      (Formatter.format .standard source arguments {}).toOption = some "1, 2".toList := by
  intro source arguments
  have number (n : Int) : (Value.int n).HoldsCompiled :=
    .of_items (by simp) (by simp [Value.items?])
  have list (vs : List Value) (h : ∀ v ∈ vs, v.HoldsCompiled) : (Value.list vs).HoldsCompiled :=
    .of_items (by simp) fun items hitems => Option.some.inj hitems ▸ h
  have hc : (Cursor.ofList arguments).HoldsCompiled := by
    intro v hv
    obtain rfl := List.mem_singleton.mp (Array.mem_def.mp hv)
    refine list _ fun v hv => ?_
    rcases List.mem_pair.mp hv with rfl | rfl <;>
      exact list _ (List.forall_mem_singleton.mpr (number _))
  obtain ⟨f, hf⟩ : ∃ f, Formatter.ofSource source = .ok f := ⟨_, by with_unfolding_all rfl⟩
  exact ⟨f, hf, hc, (obeys_sublists hf hc 3 3 {} _).1, by decide +kernel⟩

/-- The receiver has no such operation. -/
private def failsUnsupported : Except Fault Text → Bool
  | .error .unsupported => true
  | _ => false

private theorem eq_error_of_fails {x : Except Fault Text} (h : failsUnsupported x = true) :
    x = .error .unsupported := by
  unfold failsUnsupported at h
  split at h
  · rfl
  · cases h

/-- A logical block that takes its list from the arguments cuts an escape off from the sublists; one
that goes on with the arguments does not. -/
theorem exists_unsupported :
    let arguments : List Value := [.list [.list [.list [.int 1]]]]
    Formatter.format .standard (.text "~:{~<a~:^b~:>~}".toList) arguments {} =
        .error .unsupported ∧
      (Formatter.format .standard (.text "~:{~@<a~:^b~:>~}".toList) arguments {}).toOption =
        some "a".toList := by
  intro arguments
  exact ⟨eq_error_of_fails (by decide +kernel), by decide +kernel⟩

end Action

end Tilde
