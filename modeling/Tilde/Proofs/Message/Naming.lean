import Tilde.Proofs.Directive.Refusal

/-!
# What complaints name

A complaint about the kind of a parameter says its name. **`names_parse`**: this is the name of a
parameter that some command takes, whatever the control string.

* `FailsOnly`: a computation fails for certain reasons only;
* `Complaint.NamesParameter`: the complaints that name such a parameter, or none.
-/

namespace Tilde

/-- The computation fails for such reasons only. -/
def FailsOnly {ε α : Type} (P : ε → Prop) : Except ε α → Prop
  | .ok _ => True
  | .error e => P e

namespace FailsOnly

variable {ε α β : Type} {P : ε → Prop} {a : Except ε α}

theorem map (ha : FailsOnly P a) (f : α → β) : FailsOnly P (a.map f) := by
  cases a with
  | ok x => trivial
  | error e => exact ha

theorem bind {k : α → Except ε β} (ha : FailsOnly P a) (hk : ∀ x, FailsOnly P (k x)) :
    FailsOnly P (a >>= k) := by
  cases a with
  | ok x => exact hk x
  | error e => exact ha

end FailsOnly

/-- What the complaint names is a parameter of some command. -/
def Complaint.NamesParameter : Complaint → Prop
  | .wrongParameter name _ => ∃ command : Command, name ∈ command.parameters.map Prod.fst
  | _ => True

/-- The same for what it names if the refusal is a complaint. -/
def Malformed.NamesParameter : Malformed → Prop
  | .located _ complaint => complaint.NamesParameter
  | _ => True

open Malformed (NamesParameter)

variable {command : Command} {head : Head} {s : Text} {offset start : Nat} {colon atSign : Bool}

/-! ## Directives -/

theorem names_readNumber (offset : Nat) (c : Char) (s : Text) :
    FailsOnly NamesParameter (readNumber offset c s) := by
  unfold readNumber
  split_ifs <;> first | trivial | split <;> trivial

theorem names_readParameter (r : Remainder) : FailsOnly NamesParameter (readParameter? r) := by
  unfold readParameter?
  split
  · trivial
  split_ifs
  · trivial
  · exact (names_readNumber _ _ _).map _
  · split <;> trivial
  all_goals trivial

theorem names_scanParameters (r : Remainder) : FailsOnly NamesParameter (scanParameters r) := by
  fun_induction scanParameters r with
  | case1 r e h => exact (h ▸ names_readParameter r :)
  | case2 => trivial
  | case3 r p r' hread e hrest ih => exact (hrest ▸ ih :)
  | case4 => trivial

theorem names_scanModifiers (colon atSign : Bool) (s : Text) (offset : Nat) :
    FailsOnly NamesParameter (scanModifiers colon atSign s offset) := by
  fun_induction scanModifiers colon atSign s offset with
  | case2 _ _ _ _ _ ih => exact ih
  | case4 _ _ _ _ _ ih => exact ih
  | _ => trivial

theorem names_checkKinds {wanted : List (String × ParameterKind)} (given : List (Parameter × Nat))
    (hwanted : ∀ p ∈ wanted, p ∈ command.parameters) :
    FailsOnly NamesParameter (checkKinds wanted given) := by
  fun_induction checkKinds wanted given with
  | case1 _ _ _ _ _ _ _ ih => exact ih fun p hp => hwanted p (List.mem_cons_of_mem _ hp)
  | case2 name kind _ _ _ _ _ =>
    exact ⟨command, List.mem_map_of_mem (hwanted (name, kind) List.mem_cons_self)⟩
  | case3 => trivial

theorem names_checkHead (command : Command) (head : Head) :
    FailsOnly NamesParameter (checkHead command head) := by
  unfold checkHead
  split
  · rename_i complaint h
    unfold Permission.check at h
    split at h <;> cases h <;> trivial
  · unfold checkParameters
    split_ifs
    · trivial
    · exact names_checkKinds _ fun p hp => hp

theorem names_ofDirective (command : Command) (head : Head) :
    FailsOnly NamesParameter (Lexeme.ofDirective command head) := by
  unfold Lexeme.ofDirective
  split
  · split_ifs <;> trivial
  · split_ifs
    · trivial
    · split
      · trivial
      · split <;> trivial
      · exact (names_checkHead _ head).map _
  · exact (names_checkHead _ head).map _

theorem names_readDirective (start : Nat) (r : Remainder) :
    FailsOnly NamesParameter (readDirective start r) := by
  refine (names_scanParameters r).bind fun _ => (names_scanModifiers _ _ _ _).bind fun _ => ?_
  dsimp only
  split
  · trivial
  · split
    · trivial
    · exact (names_ofDirective _ _).bind fun _ => trivial

theorem names_readLexeme (r : Remainder) : FailsOnly NamesParameter (readLexeme? r) := by
  unfold readLexeme?
  split
  · trivial
  · exact (names_readDirective _ _).map _
  · trivial

/-! ## Groups -/

theorem names_closedGroup (bracket : Bracket) (head : Head) (clauses : List (List Node))
    (separators : List Head) (closing : Head) :
    FailsOnly Complaint.NamesParameter (closedGroup bracket head clauses separators closing) := by
  have hblock : FailsOnly Complaint.NamesParameter
      (Block.ofClauses head clauses separators closing) := by
    unfold Block.ofClauses
    dsimp only
    split
    · trivial
    · refine FailsOnly.bind ?_ fun _ => trivial
      split <;> trivial
    · refine FailsOnly.bind ?_ fun _ => FailsOnly.bind ?_ fun _ => trivial
      all_goals split <;> trivial
    · trivial
  cases bracket with
  | conditional =>
    show FailsOnly _ (checkConditional head clauses separators)
    unfold checkConditional
    split_ifs <;> trivial
  | iteration => trivial
  | caseConversion => trivial
  | justification =>
    show FailsOnly _ (if closing.colon then checkBlock head clauses separators closing
      else checkJustification separators closing)
    unfold checkBlock checkJustification
    split_ifs
    all_goals first | trivial | exact hblock.map _

theorem names_close (f : Frame) (closing : Head) : FailsOnly NamesParameter (f.close closing) := by
  unfold Frame.close
  dsimp only
  split
  · rename_i complaint h
    have hgroup := names_closedGroup f.bracket f.head (f.current.reverse :: f.clauses).reverse
      f.separators.reverse closing
    rw [h] at hgroup
    exact hgroup
  · trivial

theorem names_add (b : Builder) (lexeme : Lexeme) : FailsOnly NamesParameter (b.add lexeme) := by
  unfold Builder.add
  split
  · trivial
  · trivial
  · trivial
  · split_ifs <;> trivial
  · split_ifs <;> trivial
  · split
    · trivial
    · split_ifs <;> trivial
  · split
    · trivial
    · split_ifs
      · exact (names_close _ _).map _
      · trivial

theorem names_parseFrom (b : Builder) (r : Remainder) :
    FailsOnly NamesParameter (parseFrom b r) := by
  fun_induction parseFrom b r with
  | case1 b r e h => exact (h ▸ names_readLexeme r :)
  | case2 b r h =>
    unfold Builder.finish
    split <;> trivial
  | case3 b r x r' _ e h => exact (h ▸ names_add b x :)
  | case4 b r x r' _ b' _ ih => exact ih

/-- **A complaint about a control string names a parameter of some command, or none.** -/
theorem names_parse (w : Text) : FailsOnly NamesParameter (parse w) := names_parseFrom _ _

end Tilde
