import Mathlib.Data.List.Forall2
import Tilde.Format.Formatter

/-!
# Nodes that are alike

Nodes that are alike are written in the same way but for where they stand, and, if one likes, for zeros
as the only parameters of directives that print values: such a zero is what the parameter is anyway.

* `Node.Alike`: two nodes, and `Node.AllAlike` for lists;
* `Alike.needsPrinter_eq`: they ask for the same stream;
* `choices_alike`, `fallback?_alike`, `segments_alike`, `overflow?_alike`: what groups make of their
  clauses;
* **`ofClauses_alike`**: and logical blocks.
-/

namespace Tilde

/-- What is written of a directive is the same but for where it stands. -/
structure Head.Like (head head' : Head) : Prop where
  parameters : head'.parameters = head.parameters
  colon : head'.colon = head.colon
  atSign : head'.atSign = head.atSign

theorem Head.Like.refl (head : Head) : head.Like head := ⟨rfl, rfl, rfl⟩

/-- The directives have the same modifiers, and one of them has a zero as its only parameter, the other
one none. -/
structure Head.Zeroed (head head' : Head) : Prop where
  parameters : head.parameters = [] ∧ head'.parameters = [.number 0] ∨
    head.parameters = [.number 0] ∧ head'.parameters = []
  colon : head'.colon = head.colon
  atSign : head'.atSign = head.atSign

/-- The directive prints a value, in a field. -/
def Atom.IsPadded (kind : Atom) : Prop := kind = .aesthetic ∨ kind = .standard

/-- The nodes are written in the same way but for where they stand, and, if `zeros` do not matter, for
those that directives have that print a value in a field. -/
inductive Node.Alike (zeros : Prop) : Node → Node → Prop
  | refl (n : Node) : Alike zeros n n
  | atom (kind : Atom) {head head' : Head} (h : head.Like head') :
      Alike zeros (.atom kind head) (.atom kind head')
  | padded {kind : Atom} (hzeros : zeros) (hkind : kind.IsPadded) {head head' : Head}
      (h : head.Zeroed head') : Alike zeros (.atom kind head) (.atom kind head')
  | group (kind : Group) {head head' closing closing' : Head} {clauses clauses' : List (List Node)}
      {separators separators' : List Head} (hhead : head.Like head')
      (hclauses : List.Forall₂ (List.Forall₂ (Alike zeros)) clauses clauses')
      (hseparators : List.Forall₂ Head.Like separators separators')
      (hclosing : closing.Like closing') :
      Alike zeros (.group kind head clauses separators closing)
        (.group kind head' clauses' separators' closing')

namespace Node

variable {zeros : Prop} {n n' : Node} {ns ns' : List Node} {clauses clauses' : List (List Node)}
  {separators separators' : List Head} {head head' closing closing' : Head} {kind : Group}

/-- The nodes are alike one by one. -/
abbrev AllAlike (zeros : Prop) : List Node → List Node → Prop := List.Forall₂ (Alike zeros)

/-- The clauses are alike one by one. -/
abbrev ClausesAlike (zeros : Prop) : List (List Node) → List (List Node) → Prop :=
  List.Forall₂ (AllAlike zeros)

theorem allAlike_refl (ns : List Node) : AllAlike zeros ns ns :=
  List.forall₂_same.mpr fun n _ => .refl n

theorem clausesAlike_refl (clauses : List (List Node)) : ClausesAlike zeros clauses clauses :=
  List.forall₂_same.mpr fun ns _ => allAlike_refl ns

/-- What is alike to a group. -/
theorem Alike.exists_group (h : (Node.group kind head clauses separators closing).Alike zeros n') :
    ∃ head' clauses' separators' closing', n' = .group kind head' clauses' separators' closing' ∧
      head.Like head' ∧ ClausesAlike zeros clauses clauses' ∧
      List.Forall₂ Head.Like separators separators' ∧ closing.Like closing' := by
  cases h with
  | refl =>
    exact ⟨_, _, _, _, rfl, .refl _, clausesAlike_refl _,
      List.forall₂_same.mpr fun s _ => .refl s, .refl _⟩
  | group _ hhead hclauses hseparators hclosing =>
    exact ⟨_, _, _, _, rfl, hhead, hclauses, hseparators, hclosing⟩

/-! ## Streams -/

theorem needsPrinter_iteration (h : clauses ≠ [[]]) :
    (group .iteration head clauses separators closing).needsPrinter =
      anyClauseNeedsPrinter clauses := by
  match clauses with
  | [] | [_ :: _] | [] :: _ :: _ | (_ :: _) :: _ :: _ => rfl
  | [[]] => exact absurd rfl h

mutual

/-- **Nodes that are alike ask for the same stream.** -/
theorem Alike.needsPrinter_eq {n n' : Node} (h : n.Alike zeros n') :
    n'.needsPrinter = n.needsPrinter := by
  match n with
  | .text _ | .copies .. | .foreign =>
    cases h
    rfl
  | .atom kind head =>
    cases h with
    | refl => rfl
    | atom _ h =>
      unfold needsPrinter atomNeedsPrinter
      rw [h.colon]
    | padded _ hkind =>
      obtain rfl | rfl := hkind <;> rfl
  | .group kind head clauses separators closing =>
    obtain ⟨head', clauses', separators', closing', rfl, -, hclauses, -, -⟩ := h.exists_group
    have hany := anyClauseNeedsPrinter_eq hclauses
    have hempty : clauses' = [[]] ↔ clauses = [[]] := by
      constructor <;> rintro rfl
      · obtain _ | ⟨⟨⟩, ⟨⟩⟩ := hclauses
        rfl
      · obtain _ | ⟨⟨⟩, ⟨⟩⟩ := hclauses
        rfl
    cases kind with
    | logicalBlock => rfl
    | iteration =>
      by_cases hgiven : clauses = [[]]
      · rw [hgiven, hempty.mpr hgiven]
        rfl
      · rw [needsPrinter_iteration hgiven, needsPrinter_iteration (mt hempty.mp hgiven), hany]
    | conditional | caseConversion | justification => exact hany

theorem anyClauseNeedsPrinter_eq {clauses clauses' : List (List Node)}
    (h : ClausesAlike zeros clauses clauses') :
    anyClauseNeedsPrinter clauses' = anyClauseNeedsPrinter clauses := by
  match clauses, clauses', h with
  | [], [], .nil => rfl
  | _ :: _, _ :: _, .cons hfirst hrest =>
    unfold anyClauseNeedsPrinter
    rw [anyNeedsPrinter_eq hfirst, anyClauseNeedsPrinter_eq hrest]

theorem anyNeedsPrinter_eq {ns ns' : List Node} (h : AllAlike zeros ns ns') :
    anyNeedsPrinter ns' = anyNeedsPrinter ns := by
  match ns, ns', h with
  | [], [], .nil => rfl
  | _ :: _, _ :: _, .cons hfirst hrest =>
    unfold anyNeedsPrinter
    rw [hfirst.needsPrinter_eq, anyNeedsPrinter_eq hrest]

end

/-! ## Zeros -/

variable {zeros' : Prop}

mutual

/-- Zeros matter only on a stream that the node asks for. -/
theorem Alike.mono {n n' : Node} (hz : zeros → n.needsPrinter = true → zeros') (h : n.Alike zeros n') :
    n.Alike zeros' n' := by
  match n with
  | .text _ | .copies .. | .foreign =>
    cases h
    exact .refl _
  | .atom kind head =>
    cases h with
    | refl => exact .refl _
    | atom _ h => exact .atom kind h
    | padded hzeros hkind h =>
      refine .padded (hz hzeros ?_) hkind h
      obtain rfl | rfl := hkind <;> rfl
  | .group kind head clauses separators closing =>
    obtain ⟨head', clauses', separators', closing', rfl, hhead, hclauses, hseparators, hclosing⟩ :=
      h.exists_group
    refine .group kind hhead (clauses_mono (fun hzeros hany => hz hzeros ?_) hclauses) hseparators hclosing
    unfold Node.needsPrinter
    split
    · rfl
    · rfl
    · exact hany

theorem clauses_mono {clauses clauses' : List (List Node)}
    (hz : zeros → anyClauseNeedsPrinter clauses = true → zeros') (h : ClausesAlike zeros clauses clauses') :
    ClausesAlike zeros' clauses clauses' := by
  match clauses, clauses', h with
  | [], [], .nil => exact .nil
  | ns :: nss, _ :: _, .cons hfirst hrest =>
    unfold anyClauseNeedsPrinter at hz
    refine .cons (allAlike_mono (fun hzeros hany => hz hzeros ?_) hfirst)
      (clauses_mono (fun hzeros hany => hz hzeros ?_) hrest)
    · rw [hany, Bool.true_or]
    · rw [hany, Bool.or_true]

theorem allAlike_mono {ns ns' : List Node} (hz : zeros → anyNeedsPrinter ns = true → zeros')
    (h : AllAlike zeros ns ns') : AllAlike zeros' ns ns' := by
  match ns, ns', h with
  | [], [], .nil => exact .nil
  | n :: ns, _ :: _, .cons hfirst hrest =>
    unfold anyNeedsPrinter at hz
    refine .cons (hfirst.mono fun hzeros hany => hz hzeros ?_)
      (allAlike_mono (fun hzeros hany => hz hzeros ?_) hrest)
    · rw [hany, Bool.true_or]
    · rw [hany, Bool.or_true]

end

/-! ## Clauses -/

variable {α β : Type} {R : α → β → Prop} {xs : List α} {ys : List β}

theorem forall₂_getLast? (h : List.Forall₂ R xs ys) : Option.Rel R xs.getLast? ys.getLast? := by
  induction h with
  | nil => exact .none
  | @cons x y xs ys hxy h ih =>
    cases h with
    | nil => exact .some hxy
    | cons => simpa using ih

theorem forall₂_head? (h : List.Forall₂ R xs ys) : Option.Rel R xs.head? ys.head? := by
  cases h with
  | nil => exact .none
  | cons hxy => exact .some hxy

theorem AllAlike.getD (h : ClausesAlike zeros clauses clauses') (i : Nat) :
    AllAlike zeros (clauses.getD i []) (clauses'.getD i []) := by
  induction h generalizing i with
  | nil => exact .nil
  | cons hfirst _ ih =>
    cases i with
    | zero => exact hfirst
    | succ i => exact ih i

theorem AllAlike.headD (h : ClausesAlike zeros clauses clauses') :
    AllAlike zeros (clauses.headD []) (clauses'.headD []) := by
  cases h with
  | nil => exact .nil
  | cons hfirst => exact hfirst

theorem any_eq {x? : Option α} {y? : Option β} (h : Option.Rel R x? y?) {p : α → Bool}
    {q : β → Bool} (hpq : ∀ x y, R x y → q y = p x) : y?.any q = x?.any p := by
  cases h with
  | none => rfl
  | some h => exact hpq _ _ h

theorem hasFallback_eq (h : List.Forall₂ Head.Like separators separators') :
    hasFallback separators' = hasFallback separators :=
  any_eq (forall₂_getLast? h) fun _ _ h => h.colon

/-- The numbered clauses. -/
theorem choices_alike (h : ClausesAlike zeros clauses clauses')
    (hseparators : List.Forall₂ Head.Like separators separators') :
    ClausesAlike zeros (choices clauses separators) (choices clauses' separators') := by
  unfold choices
  rw [hasFallback_eq hseparators, List.dropLast_eq_take, List.dropLast_eq_take, h.length_eq]
  split_ifs
  · exact List.forall₂_take _ h
  · exact h

/-- The clause for all other cases. -/
theorem fallback?_alike (h : ClausesAlike zeros clauses clauses')
    (hseparators : List.Forall₂ Head.Like separators separators') :
    Option.Rel (AllAlike zeros) (fallback? clauses separators) (fallback? clauses' separators') := by
  unfold fallback?
  rw [hasFallback_eq hseparators]
  split_ifs
  · exact forall₂_getLast? h
  · exact .none

theorem overflowSeparator?_alike (hseparators : List.Forall₂ Head.Like separators separators') :
    Option.Rel Head.Like (overflowSeparator? separators) (overflowSeparator? separators') := by
  unfold overflowSeparator?
  cases hseparators with
  | nil => exact .none
  | @cons s s' _ _ hs =>
    simp only [List.head?_cons, Option.filter_some, hs.colon]
    split_ifs
    · exact .some hs
    · exact .none

theorem isSome_eq {x? : Option α} {y? : Option β} (h : Option.Rel R x? y?) :
    y?.isSome = x?.isSome := by cases h <;> rfl

/-- The clauses that are justified. -/
theorem segments_alike (h : ClausesAlike zeros clauses clauses')
    (hseparators : List.Forall₂ Head.Like separators separators') :
    ClausesAlike zeros (segments clauses separators) (segments clauses' separators') := by
  unfold segments
  rw [isSome_eq (overflowSeparator?_alike hseparators)]
  split_ifs
  · exact List.forall₂_drop 1 h
  · exact h

/-- The clause for lines that overflow. -/
theorem overflow?_alike (h : ClausesAlike zeros clauses clauses')
    (hseparators : List.Forall₂ Head.Like separators separators') :
    Option.Rel (AllAlike zeros) (overflow? clauses separators) (overflow? clauses' separators') := by
  unfold overflow?
  rw [isSome_eq (overflowSeparator?_alike hseparators)]
  split_ifs
  · exact forall₂_head? h
  · exact .none

/-! ## Logical blocks -/

theorem plainText?_eq (h : AllAlike zeros ns ns') : plainText? ns' = plainText? ns := by
  induction h with
  | nil => rfl
  | @cons n n' ns ns' hfirst _ ih =>
    cases hfirst with
    | refl => cases n <;> simp only [plainText?, ih]
    | _ => rfl

theorem insertFills_alike (h : AllAlike zeros ns ns') (start stop start' stop' : Nat) :
    AllAlike zeros (insertFills start stop ns) (insertFills start' stop' ns') := by
  have hfill (run : Text) : AllAlike zeros
      (if run.head? = some ' ' then
        [.text run, .atom .conditionalNewline ⟨[], [], true, false, start, stop⟩] else [.text run])
      (if run.head? = some ' ' then
        [.text run, .atom .conditionalNewline ⟨[], [], true, false, start', stop'⟩] else [.text run]) := by
    split_ifs
    · exact .cons (.refl _) (.cons (.atom _ ⟨rfl, rfl, rfl⟩) .nil)
    · exact .cons (.refl _) .nil
  induction h with
  | nil => exact .nil
  | @cons n n' ns ns' hfirst _ ih =>
    cases hfirst with
    | refl =>
      cases n with
      | text s =>
        have hruns : List.Forall₂ Eq (spaceRuns s) (spaceRuns s) := List.forall₂_same.mpr fun _ _ => rfl
        exact List.rel_append (List.rel_flatMap hruns fun run _ h => h ▸ hfill run) ih
      | _ => exact .cons (.refl _) ih
    | atom kind h => exact .cons (.atom kind h) ih
    | padded hzeros hkind h => exact .cons (.padded hzeros hkind h) ih
    | group kind hhead hclauses hseparators hclosing =>
      exact .cons (.group kind hhead hclauses hseparators hclosing) ih

/-- **The parts of logical blocks** are the same, but for the nodes, which are alike. -/
theorem ofClauses_alike (h : ClausesAlike zeros clauses clauses')
    (hseparators : List.Forall₂ Head.Like separators separators') (hhead : head.Like head')
    (hclosing : closing.Like closing') :
    match Block.ofClauses head clauses separators closing,
        Block.ofClauses head' clauses' separators' closing' with
      | .ok block, .ok block' => block'.opening = block.opening ∧ block'.perLine = block.perLine ∧
        block'.closing = block.closing ∧ AllAlike zeros block.body block'.body
      | .error _, .error _ => True
      | _, _ => False := by
  have hline : separators'.head?.any (·.atSign) = separators.head?.any (·.atSign) :=
    any_eq (forall₂_head? hseparators) fun _ _ h => h.atSign
  have hbody {body body' : List Node} (hb : AllAlike zeros body body') :
      AllAlike zeros (if closing.atSign then insertFills head.start closing.stop body else body)
        (if closing.atSign then insertFills head'.start closing'.stop body' else body') := by
    split_ifs
    · exact insertFills_alike hb _ _ _ _
    · exact hb
  unfold Block.ofClauses
  dsimp only
  rw [hline, hhead.colon, hclosing.atSign]
  rcases h with _ | ⟨ho, _ | ⟨hb, _ | ⟨he, _ | _⟩⟩⟩
  · trivial
  · exact ⟨rfl, rfl, rfl, hbody ho⟩
  · rename_i o _ _ _
    dsimp only
    rw [plainText?_eq ho]
    cases plainText? o with
    | none => trivial
    | some s => exact ⟨rfl, rfl, rfl, hbody hb⟩
  · rename_i o _ _ _ e _
    dsimp only
    rw [plainText?_eq ho, plainText?_eq he]
    cases plainText? o with
    | none => trivial
    | some s =>
      cases plainText? e with
      | none => trivial
      | some t => exact ⟨rfl, rfl, rfl, hbody hb⟩
  · trivial

end Node

end Tilde
