import Tilde.Proofs.Directive.Respelled

/-!
# Control strings further on

A control string that stands further on in another one has the nodes that it has by itself, with all
spans and offsets shifted, and nodes that have been read before it stay in front of them.

* `Node.shift`: a node further on;
* `Frame.close_shift`, `Builder.add_shift`: lexemes are put together alike further on;
* **`parseFrom_shift`**: reading further on;
* **`parseFrom_onto`**: reading behind other nodes.
-/

namespace Tilde

/-! ## Nodes -/

/-- A directive that stands `n` characters further on. -/
def Head.shift (n : Nat) (head : Head) : Head :=
  { head with
    offsets := head.offsets.map (· + n)
    start := head.start + n
    stop := head.stop + n }

namespace Node

mutual

/-- A node that stands `n` characters further on. -/
def shift (n : Nat) : Node → Node
  | .text s => .text s
  | .copies x count => .copies x count
  | .foreign => .foreign
  | .atom kind head => .atom kind (head.shift n)
  | .group kind head clauses separators closing =>
    .group kind (head.shift n) (shiftClauses n clauses) (separators.map (·.shift n)) (closing.shift n)

/-- Clauses that stand `n` characters further on. -/
def shiftClauses (n : Nat) : List (List Node) → List (List Node)
  | [] => []
  | clause :: clauses => shiftAll n clause :: shiftClauses n clauses

/-- Nodes that stand `n` characters further on. -/
def shiftAll (n : Nat) : List Node → List Node
  | [] => []
  | m :: ms => shift n m :: shiftAll n ms

end

variable {n : Nat} {zeros : Prop}

theorem shiftAll_eq (ms : List Node) : shiftAll n ms = ms.map (shift n) := by
  induction ms with
  | nil => rfl
  | cons m ms ih => rw [shiftAll, ih, List.map_cons]

theorem shiftClauses_eq (clauses : List (List Node)) :
    shiftClauses n clauses = clauses.map (shiftAll n) := by
  induction clauses with
  | nil => rfl
  | cons clause clauses ih => rw [shiftClauses, ih, List.map_cons]

theorem shiftAll_reverse (ms : List Node) : shiftAll n ms.reverse = (shiftAll n ms).reverse := by
  simp only [shiftAll_eq, List.map_reverse]

end Node

section Alike

variable {n i : Nat} {zeros : Prop} {head head' closing : Head} {clauses : List (List Node)}
  {separators : List Head} {bracket : Bracket} {kind : Group} {lexeme lexeme' : Lexeme}

theorem Head.like_shift (n : Nat) (head : Head) : head.Like (head.shift n) := ⟨rfl, rfl, rfl⟩

theorem Head.forall₂_like_shift (n : Nat) (heads : List Head) :
    List.Forall₂ Head.Like heads (heads.map (·.shift n)) :=
  List.forall₂_map_right_iff.mpr (List.forall₂_same.mpr fun head _ => head.like_shift n)

mutual

/-- What is written of a node is the same further on. -/
theorem Node.alike_shift (n : Nat) : (m : Node) → m.Alike zeros (m.shift n)
  | .text _ | .copies .. | .foreign => .refl _
  | .atom kind head => .atom kind (head.like_shift n)
  | .group kind head clauses separators closing =>
    .group kind (head.like_shift n) (clausesAlike_shift n clauses) (Head.forall₂_like_shift n separators)
      (closing.like_shift n)

theorem Node.clausesAlike_shift (n : Nat) : (clauses : List (List Node)) →
    Node.ClausesAlike zeros clauses (Node.shiftClauses n clauses)
  | [] => .nil
  | clause :: clauses => .cons (allAlike_shift n clause) (clausesAlike_shift n clauses)

theorem Node.allAlike_shift (n : Nat) : (ms : List Node) → Node.AllAlike zeros ms (Node.shiftAll n ms)
  | [] => .nil
  | m :: ms => .cons (alike_shift n m) (allAlike_shift n ms)

end

/-! ## Lexemes -/

/-- A lexeme that stands `n` characters further on. -/
def Lexeme.shift (n : Nat) : Lexeme → Lexeme
  | .text s => .text s
  | .copies x count => .copies x count
  | .directive command head => .directive command (head.shift n)

theorem Head.Moved.eq_shift (h : head.Moved i (i + n) head') : head' = head.shift n := by
  obtain ⟨parameters, offsets, colon, atSign, start, stop⟩ := head
  obtain ⟨_, offsets', _, _, start', stop'⟩ := head'
  obtain ⟨⟨rfl, rfl, rfl⟩, hoffsets, hstart, hstop⟩ := h
  have hoffsets : offsets.map (· + n) = offsets' := by
    rw [← List.forall₂_eq_eq_eq, List.forall₂_map_left_iff]
    exact hoffsets.imp fun o o' h => by omega
  dsimp only at hstart hstop
  rw [← hoffsets, show start' = start + n by omega, show stop' = stop + n by omega]
  rfl

/-- What is read `n` characters further on is what stands there then. -/
theorem Lexeme.Moved.eq_shift (h : lexeme.Moved i (i + n) lexeme') : lexeme' = lexeme.shift n := by
  cases h with
  | text | copies => rfl
  | directive command h => rw [h.eq_shift, Lexeme.shift]

theorem Head.shift_zero (head : Head) : head.shift 0 = head := by
  simp [shift]

/-- What is read at the same place is the same. -/
theorem Lexeme.Moved.eq (h : lexeme.Moved i i lexeme') : lexeme' = lexeme := by
  rw [eq_shift (n := 0) h]
  cases lexeme with
  | text | copies => rfl
  | directive command head => rw [shift, head.shift_zero]

/-! ## Groups -/

theorem closedGroup_shift (h : closedGroup bracket head clauses separators closing = .ok kind) :
    closedGroup bracket (head.shift n) (Node.shiftClauses n clauses) (separators.map (·.shift n))
      (closing.shift n) = .ok kind := by
  have hclauses : Node.ClausesAlike False clauses (Node.shiftClauses n clauses) :=
    Node.clausesAlike_shift n clauses
  exact closedGroup_alike (head.like_shift n) hclauses (Head.forall₂_like_shift n separators)
    (closing.like_shift n) h

/-- An open group that stands `n` characters further on. -/
def Frame.shift (n : Nat) (f : Frame) : Frame :=
  ⟨f.bracket, f.head.shift n, Node.shiftClauses n f.clauses, Node.shiftAll n f.current,
    f.separators.map (·.shift n)⟩

/-- **A group is closed** alike further on. -/
theorem Frame.close_shift {f : Frame} {m : Node} (h : f.close closing = .ok m) :
    (f.shift n).close (closing.shift n) = .ok (m.shift n) := by
  have hclauses : ((Node.shiftAll n f.current).reverse :: Node.shiftClauses n f.clauses).reverse =
      Node.shiftClauses n (f.current.reverse :: f.clauses).reverse := by
    rw [← Node.shiftAll_reverse, Node.shiftClauses_eq, Node.shiftClauses_eq, ← List.map_cons,
      List.map_reverse]
  unfold close at h ⊢
  dsimp only [shift] at h ⊢
  rw [hclauses, ← List.map_reverse]
  split at h
  · cases h
  · rename_i kind hkind
    cases h
    rw [closedGroup_shift hkind]
    rfl

end Alike

/-! ## Builders -/

namespace Builder

variable {n : Nat} {b b' : Builder} {m : Node} {lexeme : Lexeme} {nodes : List Node}

/-- All that has been read, `n` characters further on. -/
def shift (n : Nat) (b : Builder) : Builder := ⟨b.frames.map (·.shift n), Node.shiftAll n b.nodes⟩

/-- All that has been read, behind other nodes. -/
def onto (before : List Node) (b : Builder) : Builder := { b with nodes := b.nodes ++ before.reverse }

theorem push_shift (b : Builder) (m : Node) : (b.shift n).push (m.shift n) = (b.push m).shift n := by
  obtain ⟨_ | ⟨f, fs⟩, nodes⟩ := b <;> rfl

theorem inSublists_shift : (b.shift n).inSublists = b.inSublists := by
  unfold inSublists shift
  rw [List.find?_map, Option.any_map]
  rfl

/-- **A lexeme is taken into the tree** alike further on. -/
theorem add_shift (h : b.add lexeme = .ok b') :
    (b.shift n).add (lexeme.shift n) = .ok (b'.shift n) := by
  cases lexeme with
  | text s =>
    cases h
    show Except.ok _ = _
    split_ifs
    · rfl
    · exact congrArg _ (push_shift b (.text s))
  | copies x count =>
    cases h
    show Except.ok _ = _
    split_ifs
    · rfl
    · exact congrArg _ (push_shift b (.copies x count))
  | directive command head =>
    unfold add at h
    cases command with
    | continuation =>
      cases h
      rfl
    | atom kind =>
      dsimp only at h
      split_ifs at h with hescape
      cases h
      rw [← inSublists_shift (n := n)] at hescape
      exact (if_neg hescape).trans (congrArg _ (push_shift b (.atom kind head)))
    | opening bracket =>
      dsimp only at h
      split_ifs at h with hdepth
      cases h
      exact if_neg (by rwa [shift, List.length_map])
    | separator =>
      obtain ⟨_ | ⟨f, fs⟩, nodes⟩ := b
      · cases h
      · dsimp only at h
        split_ifs at h with hclauses
        cases h
        refine (if_pos hclauses).trans ?_
        simp only [shift, List.map_cons, Frame.shift, Node.shiftClauses, Node.shiftAll_reverse, Node.shiftAll]
    | closing bracket =>
      obtain ⟨_ | ⟨f, fs⟩, nodes⟩ := b
      · cases h
      · dsimp only at h
        split_ifs at h with hbracket
        obtain ⟨m, hclose, rfl⟩ := exists_of_map_ok h
        refine (if_pos hbracket).trans ?_
        rw [Frame.close_shift hclose]
        exact congrArg _ (push_shift ⟨fs, nodes⟩ m)

theorem finish_shift (h : b.finish = .ok nodes) : (b.shift n).finish = .ok (Node.shiftAll n nodes) := by
  obtain ⟨_ | ⟨f, fs⟩, ns⟩ := b
  · cases h
    exact congrArg _ (Node.shiftAll_reverse ns).symm
  · cases h

variable {before : List Node}

theorem push_onto (b : Builder) (m : Node) : (b.onto before).push m = (b.push m).onto before := by
  obtain ⟨_ | ⟨f, fs⟩, nodes⟩ := b <;> rfl

/-- **A lexeme is taken into the tree** alike behind other nodes. -/
theorem add_onto : (b.onto before).add lexeme = (b.add lexeme).map (onto before) := by
  obtain ⟨frames, nodes⟩ := b
  cases lexeme with
  | text s | copies x count =>
    unfold add
    dsimp only
    rw [push_onto, ← apply_ite (onto before)]
    rfl
  | directive command head =>
    unfold add
    cases command with
    | continuation => rfl
    | atom kind =>
      dsimp only
      rw [push_onto, show (onto before ⟨frames, nodes⟩).inSublists = inSublists ⟨frames, nodes⟩ from rfl]
      split_ifs <;> rfl
    | opening bracket =>
      show (if greatestDepth ≤ frames.length then Except.error Malformed.tooDeep
        else Except.ok (onto before ⟨⟨bracket, head, [], [], []⟩ :: frames, nodes⟩)) = _
      split_ifs <;> rfl
    | separator =>
      cases frames with
      | nil => rfl
      | cons f fs =>
        dsimp only [onto]
        split_ifs <;> rfl
    | closing bracket =>
      cases frames with
      | nil => rfl
      | cons f fs =>
        dsimp only [onto]
        split_ifs
        · cases f.close head with
          | error e => rfl
          | ok m => exact congrArg Except.ok (push_onto ⟨fs, nodes⟩ m)
        · rfl

theorem finish_onto : (b.onto before).finish = b.finish.map (before ++ ·) := by
  obtain ⟨_ | ⟨f, fs⟩, nodes⟩ := b
  · show Except.ok (nodes ++ before.reverse).reverse = Except.ok (before ++ nodes.reverse)
    rw [List.reverse_append, List.reverse_reverse]
  · rfl

end Builder

/-! ## Control strings -/

variable {n i : Nat} {w : Text} {b : Builder} {r : Remainder} {nodes before : List Node}

/-- **Reading further on** makes the same nodes, further on. -/
theorem parseFrom_shift (h : parseFrom b ⟨w, i⟩ = .ok nodes) :
    parseFrom (b.shift n) ⟨w, i + n⟩ = .ok (Node.shiftAll n nodes) := by
  induction h using parseFrom_induction with
  | finish b i _ h =>
    rw [parseFrom_none (readLexeme_none.mpr rfl)]
    exact Builder.finish_shift h
  | lexeme b b' s t i lexeme _ _ hread hadd ih =>
    obtain ⟨_, hread', hmoved⟩ := readLexeme_append hread rfl (.inl rfl) (i + n)
    rw [hmoved.eq_shift] at hread'
    rw [parseFrom_eq hread' (Builder.add_shift hadd), Nat.add_right_comm]
    exact ih

/-- **Reading behind other nodes** leaves them where they are. -/
theorem parseFrom_onto : parseFrom (b.onto before) r = (parseFrom b r).map (before ++ ·) := by
  fun_induction parseFrom b r with
  | case1 b r e hread =>
    rw [parseFrom]
    split <;> simp_all [Except.map]
  | case2 b r hnone => rw [parseFrom_none hnone, Builder.finish_onto]
  | case3 b r lexeme r' hread e hadd =>
    have hadd' : (b.onto before).add lexeme = .error e := by rw [Builder.add_onto, hadd, Except.map]
    rw [parseFrom]
    split <;> simp_all [Except.map]
  | case4 b r lexeme r' hread b' hadd ih =>
    have hadd' : (b.onto before).add lexeme = .ok (b'.onto before) := by
      rw [Builder.add_onto, hadd, Except.map]
    rw [parseFrom_eq hread hadd', ih]

end Tilde
