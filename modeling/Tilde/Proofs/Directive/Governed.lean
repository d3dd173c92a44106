import Tilde.Proofs.Directive.Bracketed
import Tilde.Proofs.Run.Position

/-!
# Escapes from sublists

An escape with a colon ends an iteration over sublists, so it is permitted only where the innermost
iteration around it is one.

* `Node.Governed`: no such escape stands anywhere else, given whether the node itself stands in an
  iteration over sublists;
* **`governed_of_parse`**: this holds for every control string;
* `governed_of_ofClauses`: and for the nodes of a logical block, if for its clauses.
-/

namespace Tilde

variable {w : Text} {i : Nat} {b b' : Builder} {f : Frame} {fs : List Frame} {n m : Node}
  {nodes : List Node} {lexeme : Lexeme} {closing : Head} {sublists : Bool}

/-- Escapes with a colon stand only where the innermost iteration goes over sublists. -/
inductive Node.Governed : Bool → Node → Prop
  | text {sublists : Bool} {s : Text} : Governed sublists (.text s)
  | copies {sublists : Bool} {x : Char} {count : Nat} : Governed sublists (.copies x count)
  | foreign {sublists : Bool} : Governed sublists .foreign
  | atom {sublists : Bool} {kind : Atom} {head : Head}
      (h : kind = .escape → head.colon = true → sublists = true) :
      Governed sublists (.atom kind head)
  | group {sublists : Bool} {kind : Group} {head closing : Head} {clauses : List (List Node)}
      {separators : List Head}
      (h : ∀ clause ∈ clauses, ∀ n ∈ clause,
        Governed (if kind = .iteration then head.colon else sublists) n) :
      Governed sublists (.group kind head clauses separators closing)

/-! ## The groups still open -/

theorem Group.bracket_eq_iteration (kind : Group) :
    kind.bracket = .iteration ↔ kind = .iteration := by
  cases kind <;> simp [Group.bracket]

theorem Builder.inSublists_cons (f : Frame) (fs : List Frame) (nodes : List Node) :
    inSublists ⟨f :: fs, nodes⟩ =
      if f.bracket = .iteration then f.head.colon else inSublists ⟨fs, nodes⟩ := by
  by_cases h : f.bracket = .iteration <;> simp [inSublists, h]

/-- The node is one of those read so far inside of the group. -/
def Frame.Holds (f : Frame) (n : Node) : Prop :=
  n ∈ f.current ∨ ∃ clause ∈ f.clauses, n ∈ clause

/-- What the open groups have read so far is governed by the iterations among them. -/
inductive Governing : List Frame → List Node → Prop
  | base {nodes : List Node} (h : ∀ n ∈ nodes, n.Governed false) : Governing [] nodes
  | frame {f : Frame} {fs : List Frame} {nodes : List Node} (outer : Governing fs nodes)
      (h : ∀ n, f.Holds n → n.Governed
        (if f.bracket = .iteration then f.head.colon else Builder.inSublists ⟨fs, nodes⟩)) :
      Governing (f :: fs) nodes

namespace Governing

theorem push (h : Governing b.frames b.nodes) (hn : n.Governed b.inSublists) :
    Governing (b.push n).frames (b.push n).nodes := by
  obtain ⟨frames, nodes⟩ := b
  cases h with
  | base h => exact .base (List.forall_mem_cons.mpr ⟨hn, h⟩)
  | @frame f fs _ outer h =>
    rw [Builder.inSublists_cons] at hn
    refine .frame outer fun m hm => ?_
    rcases hm with hm | hm
    · rcases List.mem_cons.mp hm with rfl | hm
      · exact hn
      · exact h m (.inl hm)
    · exact h m (.inr hm)

theorem close (h : Governing (f :: fs) nodes) (hclose : f.close closing = .ok n) :
    Governing fs nodes ∧ n.Governed (Builder.inSublists ⟨fs, nodes⟩) := by
  cases h with
  | frame outer h =>
    obtain ⟨kind, hkind, rfl⟩ := of_close hclose
    refine ⟨outer, .group fun clause hclause n hn => ?_⟩
    have hholds : f.Holds n := by
      rcases List.mem_append.mp hclause with hclause | hclause
      · exact .inr ⟨clause, List.mem_reverse.mp hclause, hn⟩
      · obtain rfl := List.mem_singleton.mp hclause
        exact .inl (List.mem_reverse.mp hn)
    have hn := h n hholds
    simpa only [← hkind, Group.bracket_eq_iteration] using hn

/-- **What a lexeme adds is governed, too.** -/
theorem add (h : Governing b.frames b.nodes) (hadds : b.Adds lexeme b') :
    Governing b'.frames b'.nodes := by
  cases hadds with
  | nothing => exact h
  | text => exact h.push .text
  | copies => exact h.push .copies
  | atom hescape => exact h.push (.atom hescape)
  | opening => exact .frame h (by simp [Frame.Holds])
  | @separator head f fs hframes _ =>
    rw [hframes] at h
    cases h with
    | frame outer h =>
      refine .frame outer fun m hm => ?_
      have hholds : f.Holds m := by
        obtain hm | ⟨clause, hclause, hm⟩ := hm
        · simp at hm
        · rcases List.mem_cons.mp hclause with rfl | hclause
          · exact .inl (List.mem_reverse.mp hm)
          · exact .inr ⟨clause, hclause, hm⟩
      exact h m hholds
  | closing hframes hclose =>
    rw [hframes] at h
    obtain ⟨houter, hn⟩ := h.close hclose
    exact houter.push (b := ⟨_, _⟩) hn

theorem of_reached (h : b.Reached w i) : Governing b.frames b.nodes := by
  induction h with
  | start => exact .base (by simp)
  | add h hlexeme hadds ih => exact ih.add hadds

end Governing

theorem governed_of_parse (h : parse w = .ok nodes) : ∀ n ∈ nodes, n.Governed false := by
  obtain ⟨b, hreached, hframes, rfl⟩ := reached_of_parse h
  have hgoverning := Governing.of_reached hreached
  rw [hframes] at hgoverning
  cases hgoverning with
  | base h => exact fun n hn => h n (List.mem_reverse.mp hn)

/-! ## Logical blocks -/

/-- What holds of all nodes, of texts and of fill-style newlines holds when these have been put in. -/
theorem forall_insertFills {P : Node → Prop} (htext : ∀ s, P (.text s))
    (hfill : ∀ start stop, P (.atom .conditionalNewline ⟨[], [], true, false, start, stop⟩))
    (start stop : Nat) (h : ∀ n ∈ nodes, P n) : ∀ n ∈ insertFills start stop nodes, P n := by
  fun_induction insertFills start stop nodes with
  | case1 => exact h
  | case2 s nodes ih =>
    intro n hn
    rcases List.mem_append.mp hn with hn | hn
    · obtain ⟨run, -, hn⟩ := List.mem_flatMap.mp hn
      split at hn
      · rcases List.mem_pair.mp hn with rfl | rfl
        · exact htext _
        · exact hfill _ _
      · obtain rfl := List.mem_singleton.mp hn
        exact htext _
    · exact ih (fun n hn => h n (List.mem_cons_of_mem _ hn)) n hn
  | case3 m nodes hm ih =>
    intro n hn
    rcases List.mem_cons.mp hn with rfl | hn
    · exact h n List.mem_cons_self
    · exact ih (fun n hn => h n (List.mem_cons_of_mem _ hn)) n hn

/-- The nodes of a logical block are those of a clause, with newlines put in if it is told to. -/
theorem body_of_ofClauses {head closing : Head} {clauses : List (List Node)}
    {separators : List Head} {block : Block}
    (h : Block.ofClauses head clauses separators closing = .ok block) :
    ∃ body ∈ clauses, block.body =
      if closing.atSign then insertFills head.start closing.stop body else body := by
  unfold Block.ofClauses at h
  dsimp only at h
  split at h
  · cases h
    exact ⟨_, by simp, rfl⟩
  · obtain ⟨s, -, h⟩ := exists_of_bind_ok h
    cases h
    exact ⟨_, by simp, rfl⟩
  · obtain ⟨s, -, h⟩ := exists_of_bind_ok h
    obtain ⟨t, -, h⟩ := exists_of_bind_ok h
    cases h
    exact ⟨_, by simp, rfl⟩
  · cases h

/-- So what holds of texts, fill-style newlines and all nodes of the clauses holds of its nodes. -/
theorem forall_of_ofClauses {P : Node → Prop} (htext : ∀ s, P (.text s))
    (hfill : ∀ start stop, P (.atom .conditionalNewline ⟨[], [], true, false, start, stop⟩))
    {head closing : Head} {clauses : List (List Node)} {separators : List Head} {block : Block}
    (h : Block.ofClauses head clauses separators closing = .ok block)
    (hclauses : ∀ clause ∈ clauses, ∀ n ∈ clause, P n) : ∀ n ∈ block.body, P n := by
  obtain ⟨body, hbody, hblock⟩ := body_of_ofClauses h
  rw [hblock]
  split
  · exact forall_insertFills htext hfill _ _ (hclauses body hbody)
  · exact hclauses body hbody

theorem governed_of_ofClauses {head closing : Head} {clauses : List (List Node)}
    {separators : List Head} {block : Block}
    (h : Block.ofClauses head clauses separators closing = .ok block)
    (hclauses : ∀ clause ∈ clauses, ∀ n ∈ clause, n.Governed sublists) :
    ∀ n ∈ block.body, n.Governed sublists :=
  forall_of_ofClauses (fun _ => .text) (fun _ _ => .atom (by simp)) h hclauses

end Tilde
