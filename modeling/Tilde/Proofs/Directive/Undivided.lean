import Tilde.Format.Formatter
import Tilde.Proofs.Directive.Governed

/-!
# Iterations are undivided

Only conditionals and justifications have several clauses, so an iteration has one: what it repeats.

* `Node.Undivided`: the iterations in the node have one clause;
* **`undivided_of_ofSource`**: this holds for all that can be compiled.
-/

namespace Tilde

variable {w : Text} {i : Nat} {b b' : Builder} {f : Frame} {n : Node} {nodes : List Node}
  {lexeme : Lexeme} {closing : Head} {source : Value}

/-- Every iteration has one clause. -/
inductive Node.Undivided : Node → Prop
  | text {s : Text} : Undivided (.text s)
  | copies {x : Char} {count : Nat} : Undivided (.copies x count)
  | foreign : Undivided .foreign
  | atom {kind : Atom} {head : Head} : Undivided (.atom kind head)
  | group {kind : Group} {head closing : Head} {clauses : List (List Node)}
      {separators : List Head} (hone : kind = .iteration → ∃ body, clauses = [body])
      (h : ∀ clause ∈ clauses, ∀ n ∈ clause, Undivided n) :
      Undivided (.group kind head clauses separators closing)

/-- A group that is still open has been divided only if it may be, and holds no divided iteration. -/
structure Frame.Undivided (f : Frame) : Prop where
  single : f.bracket.hasClauses = false → f.clauses = []
  nodes : ∀ n, f.Holds n → n.Undivided

/-- Nothing that has been read is a divided iteration. -/
structure Builder.Undivided (b : Builder) : Prop where
  frames : ∀ f ∈ b.frames, f.Undivided
  nodes : ∀ n ∈ b.nodes, n.Undivided

namespace Builder.Undivided

theorem push (h : b.Undivided) (hn : n.Undivided) : (b.push n).Undivided := by
  obtain ⟨frames, nodes⟩ := b
  cases frames with
  | nil => exact ⟨h.frames, List.forall_mem_cons.mpr ⟨hn, h.nodes⟩⟩
  | cons f fs =>
    obtain ⟨hf, hfs⟩ := List.forall_mem_cons.mp h.frames
    refine ⟨List.forall_mem_cons.mpr ⟨⟨hf.single, fun m hm => ?_⟩, hfs⟩, h.nodes⟩
    rcases hm with hm | hm
    · rcases List.mem_cons.mp hm with rfl | hm
      · exact hn
      · exact hf.nodes m (.inl hm)
    · exact hf.nodes m (.inr hm)

theorem close (hf : f.Undivided) (hclose : f.close closing = .ok n) : n.Undivided := by
  obtain ⟨kind, hkind, rfl⟩ := of_close hclose
  refine .group ?_ fun clause hclause m hm => ?_
  · rintro rfl
    have hsingle := hf.single (by rw [← hkind]; rfl)
    exact ⟨f.current.reverse, by rw [hsingle]; rfl⟩
  · rcases List.mem_append.mp hclause with hclause | hclause
    · exact hf.nodes m (.inr ⟨clause, List.mem_reverse.mp hclause, hm⟩)
    · obtain rfl := List.mem_singleton.mp hclause
      exact hf.nodes m (.inl (List.mem_reverse.mp hm))

theorem add (h : b.Undivided) (hadds : b.Adds lexeme b') : b'.Undivided := by
  cases hadds with
  | nothing => exact h
  | text => exact h.push .text
  | copies => exact h.push .copies
  | atom => exact h.push .atom
  | opening => exact ⟨List.forall_mem_cons.mpr ⟨⟨fun _ => rfl, by simp [Frame.Holds]⟩, h.frames⟩, h.nodes⟩
  | @separator head f fs hframes hclauses =>
    have hall := h.frames
    rw [hframes] at hall
    obtain ⟨hf, hfs⟩ := List.forall_mem_cons.mp hall
    refine ⟨List.forall_mem_cons.mpr ⟨⟨fun hsingle => ?_, fun m hm => ?_⟩, hfs⟩, h.nodes⟩
    · exact absurd (hclauses.symm.trans hsingle) Bool.true_eq_false_eq_False
    · obtain hm | ⟨clause, hclause, hm⟩ := hm
      · simp at hm
      · rcases List.mem_cons.mp hclause with rfl | hclause
        · exact hf.nodes m (.inl (List.mem_reverse.mp hm))
        · exact hf.nodes m (.inr ⟨clause, hclause, hm⟩)
  | closing hframes hclose =>
    have hall := h.frames
    rw [hframes] at hall
    obtain ⟨hf, hfs⟩ := List.forall_mem_cons.mp hall
    exact push ⟨hfs, h.nodes⟩ (close hf hclose)

theorem of_reached (h : b.Reached w i) : b.Undivided := by
  induction h with
  | start => exact ⟨by simp, by simp⟩
  | add h hlexeme hadds ih => exact ih.add hadds

end Builder.Undivided

theorem undivided_of_parse (h : parse w = .ok nodes) : ∀ n ∈ nodes, n.Undivided := by
  obtain ⟨b, hreached, -, rfl⟩ := reached_of_parse h
  intro n hn
  exact (Builder.Undivided.of_reached hreached).nodes n (List.mem_reverse.mp hn)

/-- What holds of all nodes of control strings, of texts and of what is neither text nor a directive
holds of all nodes of a formatter. -/
theorem forall_of_ofSource {P : Node → Prop} {f : Formatter} (htext : ∀ s, P (.text s))
    (hforeign : P .foreign) (hparse : ∀ w nodes, parse w = .ok nodes → ∀ n ∈ nodes, P n)
    (h : Formatter.ofSource source = .ok f) : ∀ n ∈ f.nodes, P n := by
  have literal (vs : List Value) : ∀ n ∈ vs.map Formatter.elementNode, P n := by
    intro n hn
    obtain ⟨v, -, rfl⟩ := List.mem_map.mp hn
    unfold Formatter.elementNode
    split
    · exact htext _
    · exact hforeign
  cases source with
  | text w =>
    obtain ⟨nodes, hnodes, h⟩ := exists_of_bind_ok h
    cases h
    unfold compile at hnodes
    split at hnodes
    · rename_i hnodes'
      cases hnodes
      exact hparse w _ hnodes'
    all_goals cases hnodes
  | list vs | tuple vs =>
    cases h
    exact literal vs
  | _ => cases h

/-- **What can be compiled has no divided iteration.** -/
theorem undivided_of_ofSource {f : Formatter} (h : Formatter.ofSource source = .ok f) :
    ∀ n ∈ f.nodes, n.Undivided :=
  forall_of_ofSource (fun _ => .text) .foreign (fun _ _ => undivided_of_parse) h

end Tilde
