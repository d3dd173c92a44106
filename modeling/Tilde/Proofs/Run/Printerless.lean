import Tilde.Proofs.Directive.Undivided
import Tilde.Proofs.Run.Portable

/-!
# Nodes that ask for no printer

**`Action.portable_of_needsPrinter`**: if the nodes of a formatter do not ask for a pretty printer, a
run of them takes nothing but what every stream can do, and so does each node that is run anywhere
inside, be it in a clause, or in a segment that is rendered on a stream of its own.

* `Node.Printerless`: the nodes for which this holds, with all that they enclose;
* `Rule.portable`: what each node does on its own account is portable.
-/

namespace Tilde

namespace Node

variable {nodes : List Node} {clauses : List (List Node)} {n : Node}

theorem anyNeedsPrinter_eq_false :
    anyNeedsPrinter nodes = false ↔ ∀ n ∈ nodes, n.needsPrinter = false := by
  induction nodes with
  | nil => simp [anyNeedsPrinter]
  | cons n nodes ih => simp [anyNeedsPrinter, ih]

theorem anyClauseNeedsPrinter_eq_false :
    anyClauseNeedsPrinter clauses = false ↔ ∀ clause ∈ clauses, anyNeedsPrinter clause = false := by
  induction clauses with
  | nil => simp [anyClauseNeedsPrinter]
  | cons clause clauses ih => simp [anyClauseNeedsPrinter, ih]

/-- The node does not ask for a printer, and is none that is read otherwise than it has been
written. -/
structure Printerless (n : Node) : Prop where
  needsPrinter : n.needsPrinter = false
  undivided : n.Undivided

namespace Printerless

variable {kind : Group} {head closing : Head} {separators : List Head}

theorem clauses_of_group (h : (group kind head clauses separators closing).needsPrinter = false) :
    ∀ clause ∈ clauses, ∀ n ∈ clause, n.needsPrinter = false := by
  have hany : anyClauseNeedsPrinter clauses = false := by
    unfold Node.needsPrinter at h
    split at h
    · cases h
    · cases h
    · exact h
  intro clause hclause
  exact anyNeedsPrinter_eq_false.mp (anyClauseNeedsPrinter_eq_false.mp hany clause hclause)

theorem inner (h : (group kind head clauses separators closing).Printerless) :
    ∀ clause ∈ clauses, ∀ n ∈ clause, n.Printerless := by
  obtain ⟨hneeds, hundivided⟩ := h
  cases hundivided with
  | group hone h =>
    intro clause hclause n hn
    exact ⟨clauses_of_group hneeds clause hclause n hn, h clause hclause n hn⟩

/-- An iteration that takes its nodes from the arguments asks for a printer. -/
theorem headD_ne_nil (h : (group .iteration head clauses separators closing).Printerless) :
    clauses.headD [] ≠ [] := by
  obtain ⟨hneeds, hundivided⟩ := h
  cases hundivided with
  | group hone h =>
    obtain ⟨body, rfl⟩ := hone rfl
    rintro rfl
    cases hneeds

end Printerless

end Node

/-! ## The rule -/

/-- What a node does besides running others is portable. -/
def Rule.portable : Rule Unit where
  allows _ n c := ∀ passes run route,
    (∀ route nodes c, Action.Portable (fun _ => True) (run route nodes c)) →
      Action.Portable (fun _ => True) (Action.runNode passes run route n c)
  inside _ _ _ := ()

theorem kept_portable : Rule.portable.Kept fun _ n _ => n.Printerless where
  allows := by
    intro x n c h passes run route hrun
    have hall : n.Encloses fun _ => True := by
      cases n with
      | group => exact ⟨fun _ _ _ _ => trivial, fun _ _ _ => trivial⟩
      | _ => trivial
    have hports : Action.Ports (fun _ => True) (fun _ => True) (fun _ => True) run := fun route nodes c _ _ =>
      hrun route nodes c
    exact Action.portable_runNode hports trivial trivial (fun _ => trivial) h.needsPrinter hall
  along h _ := h
  inside := by
    intro x n c nodes c' h henters m hm
    cases henters with
    | clause hkind hnodes hc =>
      obtain ⟨clause, hclause, hm⟩ := hnodes m hm
      exact h.inner clause hclause m hm
    | pass hcolon hnodes hover | sublist hcolon hnodes hover hnext hc' =>
      obtain hnodes | ⟨hempty, -⟩ := hnodes
      · obtain ⟨clause, hclause, hm⟩ := hnodes m hm
        exact h.inner clause hclause m hm
      · exact absurd hempty h.headD_ne_nil
    | block | control => cases h.needsPrinter

/-! ## Runs -/

theorem Formatter.printerless {source : Value} {f : Formatter}
    (hf : Formatter.ofSource source = .ok f) (h : f.needsPrinter = false) :
    ∀ n ∈ f.nodes, n.Printerless := fun n hn =>
  ⟨Node.anyNeedsPrinter_eq_false.mp h n hn, undivided_of_ofSource hf n hn⟩

namespace Action

theorem portable_descend {ok : Route → Prop} (route : Route) (calls : Nat) :
    Portable ok (descend route calls) := by
  unfold descend
  split
  · exact .throw _
  · exact .pure _

/-- A run that keeps to the rule is portable as a whole. -/
theorem portable_runUnder (e : Fault) (passes depth : Nat) (route : Route) (nodes : List Node)
    (c : Cursor) : Portable (fun _ => True) (runUnder .portable e passes depth () route nodes c) := by
  induction depth generalizing route nodes c with
  | zero => exact .throw _
  | succ depth ih =>
    refine (portable_descend route 2).bind fun route => ?_
    induction nodes generalizing c with
    | nil => exact .pure (c, none)
    | cons n nodes ih' =>
      unfold runNodesUnder
      split
      · rename_i hallowed
        refine (hallowed passes _ route fun route nodes c => ih route nodes c).bind ?_
        rintro ⟨c, exit⟩
        cases exit with
        | none => exact ih' c
        | some exit => exact .pure (c, some exit)
      · exact .throw e

/-- **What asks for no printer uses none**, at any depth: each node on its own account, and so the
whole run. -/
theorem portable_of_needsPrinter {source : Value} {f : Formatter}
    (hf : Formatter.ofSource source = .ok f) (h : f.needsPrinter = false) (passes depth : Nat)
    (route : Route) (c : Cursor) :
    Portable (fun _ => True) (runWithin passes depth route f.nodes c) ∧
      ∀ s, Obeys .portable () passes depth route f.nodes c s := by
  have hobeys (s : Stream) : Obeys .portable () passes depth route f.nodes c s :=
    kept_portable.obeys (Formatter.printerless hf h)
  refine ⟨?_, hobeys⟩
  have heq : runUnder .portable .unsupported passes depth () route f.nodes c =
      runWithin passes depth route f.nodes c := funext fun s => hobeys s .unsupported
  exact heq ▸ portable_runUnder .unsupported passes depth route f.nodes c

/-- Sublists in lower case, each in a field that may overflow. -/
theorem portable_of_needsPrinter_overflow :
    let source : Value := .text "~:{~(~<~%~1,9:;~R~;~C~>~)~}".toList
    ∃ f, Formatter.ofSource source = .ok f ∧ f.needsPrinter = false ∧
      Portable (fun _ => True) (runWithin 9 9 {} f.nodes (.ofList [])) ∧
      ∀ s, Obeys .portable () 9 9 {} f.nodes (.ofList []) s := by
  intro source
  have hcompiles : (match Formatter.ofSource source with
      | .ok f => !f.needsPrinter
      | .error _ => false) = true := by decide +kernel
  split at hcompiles
  · rename_i f hf
    have hneeds : f.needsPrinter = false := by simpa using hcompiles
    exact ⟨f, hf, hneeds, portable_of_needsPrinter hf hneeds 9 9 {} (.ofList [])⟩
  · cases hcompiles

end Action

end Tilde
