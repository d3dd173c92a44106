import Tilde.Proofs.Directive.Alike
import Tilde.Proofs.Run.Mirrored
import Tilde.Proofs.Run.Moves

/-!
# One cursor alongside another

A cursor may go over the same arguments as another one, or over the same with one more in front, and
be one place further. No directive finds out, as long as it moves the cursor by a whole number and
counts from where it stands.

* `Cursor.Alongside`: the cursors give the same arguments;
* **`Alongside.next`**, `Alongside.settle`, `Alongside.moveCursor`: so they do after each step.
-/

namespace Tilde

open Tilde.Action (Leads)

namespace Cursor

theorem at_int (arguments : Array Value) (n : Int) (outer : Option Cursor) :
    At ⟨arguments, .int n, outer⟩ n := rfl

/-- What stands at a whole position. -/
theorem next_of_nat (arguments : List Value) (n : Nat) (outer : Option Cursor) :
    Cursor.next ⟨arguments.toArray, .int n, outer⟩ = match arguments[n]? with
      | some v => .ok (v, ⟨arguments.toArray, .int (n + 1), outer⟩)
      | none => .error .noMoreArguments := by
  unfold Cursor.next
  rw [isEmpty_of_at (at_int _ _ _)]
  by_cases hn : n < arguments.length
  · have hplace : ¬(n : Int) < 0 := by omega
    rw [List.getElem?_eq_getElem hn, decide_eq_false (by simpa [length] using hn)]
    simp only [Value.asInteger, Value.integer?, place, hplace, bind, Except.bind, if_false,
      Bool.false_eq_true, Int.toNat_natCast, List.getElem?_toArray, List.getElem?_eq_getElem hn]
    rfl
  · rw [List.getElem?_eq_none (Nat.not_lt.mp hn), decide_eq_true (by simpa [length] using hn)]
    rfl

theorem peek_of_nat (arguments : List Value) (n : Nat) (outer : Option Cursor) :
    Cursor.peek ⟨arguments.toArray, .int n, outer⟩ (.int 0) = match arguments[n]? with
      | some v => .ok v
      | none => .error .noMoreArguments := by
  have hplus : (Value.int n).plus (.int 0) = .ok (.int n) :=
    (Value.plus_of_integer rfl 0).trans (by rw [Int.add_zero])
  have hbelow : (Value.int n).isBelowZero = .ok false :=
    (Value.less_of_integer rfl rfl).trans (by simp)
  have hend : (Value.int arguments.length).numberAtMost (.int n) =
      .ok (decide ((arguments.length : Int) ≤ n)) := Value.atMost_of_integer rfl rfl
  simp only [Cursor.peek, length, hplus, hbelow, List.size_toArray, hend, bind, Except.bind,
    Bool.false_or, Value.asInteger, Value.integer?, Int.toNat_natCast, List.getElem?_toArray]
  by_cases hn : n < arguments.length
  · rw [List.getElem?_eq_getElem hn, if_neg (by simpa using hn)]
    rfl
  · rw [List.getElem?_eq_none (Nat.not_lt.mp hn), if_pos (by simpa using hn)]
    rfl

theorem goto_of_outside {c : Cursor} {n : Int} (h : n < 0 ∨ c.length < n) :
    c.goto (.int n) = .error (.argumentOutOfBounds (.int n)) := by
  have hlow : (Value.int n).isBelowZero = .ok (decide (n < 0)) := Value.less_of_integer rfl rfl
  have hhigh : (Value.int c.length).less (.int n) = .ok (decide ((c.length : Int) < n)) :=
    Value.less_of_integer rfl rfl
  simp only [Cursor.goto, hlow, hhigh, bind, Except.bind]
  rw [if_pos (by simpa using h)]
  rfl

/-- The cursors give the same arguments, and of what encloses the lists, both or neither have anything
left. Those of the second one may have another argument in front. -/
inductive Alongside : Bool → Cursor → Cursor → Prop
  | same (arguments : Array Value) (position : Value) {outer outer' : Option Cursor}
      (houter : outer'.map isEmpty = outer.map isEmpty) :
      Alongside false ⟨arguments, position, outer⟩ ⟨arguments, position, outer'⟩
  | shifted (v : Value) (arguments : List Value) {n : Nat} (hn : n ≤ arguments.length)
      {outer outer' : Option Cursor} (houter : outer'.map isEmpty = outer.map isEmpty) :
      Alongside true ⟨arguments.toArray, .int n, outer⟩
        ⟨(v :: arguments).toArray, .int (n + 1), outer'⟩

namespace Alongside

variable {shift : Bool} {a a' c c' : Cursor} {v : Value}

theorem refl (c : Cursor) : Alongside false c c := by
  obtain ⟨arguments, position, outer⟩ := c
  exact .same arguments position rfl

theorem outer (h : Alongside shift c c') : c'.outer.map Cursor.isEmpty = c.outer.map Cursor.isEmpty := by
  cases h <;> assumption

theorem isEmpty (h : Alongside shift c c') : c'.isEmpty = c.isEmpty := by
  cases h with
  | same => rfl
  | @shifted v arguments n hn outer outer' =>
    rw [isEmpty_of_at (at_int _ _ _), isEmpty_of_at (at_int _ _ _), decide_eq_decide]
    simp [length]

theorem remaining (h : Alongside shift c c') : c'.remaining = c.remaining := by
  cases h with
  | same => rfl
  | @shifted v arguments n hn outer outer' =>
    rw [remaining_of_at (at_int _ _ _), remaining_of_at (at_int _ _ _)]
    simp [length]

theorem samePosition (h : Alongside shift c c') (ha : Alongside shift a a') :
    Action.samePosition c' a' = Action.samePosition c a := by
  cases h with
  | same =>
    cases ha
    rfl
  | @shifted v arguments n hn =>
    cases ha with
    | @shifted w others m hm =>
      have hequal (i j : Int) : (Value.int i).equal (.int j) = .ok (decide (i = j)) :=
        Value.equal_of_integer rfl rfl
      unfold Action.samePosition
      dsimp only
      rw [hequal, hequal]
      simp

/-- **Reading** gives the same argument. -/
theorem next (h : Alongside shift c c') :
    Leads (fun x y => x.1 = y.1 ∧ Alongside shift x.2 y.2) c.next c'.next := by
  cases h with
  | @same arguments position outer outer' houter =>
    unfold Cursor.next
    by_cases hempty : Cursor.isEmpty ⟨arguments, position, outer⟩ = true
    · have hempty' : Cursor.isEmpty ⟨arguments, position, outer'⟩ = true := hempty
      rw [if_pos hempty, if_pos hempty']
      exact .inr rfl
    · have hempty' : ¬Cursor.isEmpty ⟨arguments, position, outer'⟩ = true := hempty
      rw [if_neg hempty, if_neg hempty']
      refine (Leads.refl position.asInteger).bind_eq fun i => ?_
      show Leads _ (match if place ⟨arguments, position, outer⟩ i < 0 then none
          else arguments[(place ⟨arguments, position, outer⟩ i).toNat]? with
        | some v => do return (v, moved ⟨arguments, position, outer⟩ (← position.plus (.int 1)))
        | none => throw .indexOutOfRange)
        (match if place ⟨arguments, position, outer⟩ i < 0 then none
          else arguments[(place ⟨arguments, position, outer⟩ i).toNat]? with
        | some v => do return (v, moved ⟨arguments, position, outer'⟩ (← position.plus (.int 1)))
        | none => throw .indexOutOfRange)
      split
      · exact (Leads.refl _).bind_eq fun position => ⟨rfl, .same arguments position houter⟩
      · exact .inr rfl
  | @shifted v arguments n hn outer outer' houter =>
    have hshifted := next_of_nat (v :: arguments) (n + 1) outer'
    rw [List.getElem?_cons_succ, Int.natCast_succ] at hshifted
    rw [next_of_nat, hshifted]
    split
    · rename_i w hw
      have hlt : n < arguments.length := (List.getElem?_eq_some_iff.mp hw).1
      exact ⟨rfl, .shifted v arguments (n := n + 1) hlt houter⟩
    · exact .inl rfl

theorem nextOrNothing (h : Alongside shift c c') :
    Leads (fun x y => x.1 = y.1 ∧ Alongside shift x.2 y.2) c.nextOrNothing c'.nextOrNothing := by
  unfold Cursor.nextOrNothing
  rw [h.isEmpty]
  split_ifs
  · exact ⟨rfl, h⟩
  · exact h.next

/-- Looking at the next argument shows the same. -/
theorem peek (h : Alongside shift c c') : c'.peek (.int 0) = c.peek (.int 0) := by
  cases h with
  | same => rfl
  | @shifted v arguments n hn outer outer' =>
    have hshifted := peek_of_nat (v :: arguments) (n + 1) outer'
    rw [List.getElem?_cons_succ, Int.natCast_succ] at hshifted
    rw [peek_of_nat, hshifted]

/-! ## Moving -/

/-- Outside of a shifted list, a cursor goes anywhere. -/
theorem goto (h : Alongside false c c') (v : Value) :
    Leads (Alongside false) (c.goto v) (c'.goto v) := by
  cases h with
  | @same arguments position outer outer' houter =>
    refine (Leads.refl v.isBelowZero).bind_eq fun below => ?_
    refine (Leads.refl ((Value.int arguments.size).less v)).bind_eq fun beyond => ?_
    split_ifs
    · exact .inr rfl
    · exact .same arguments v houter

/-- In a shifted list, a cursor goes one place further. -/
theorem goto_succ (h : Alongside true c c') (n : Int) :
    Leads (Alongside true) (c.goto (.int n)) (c'.goto (.int (n + 1))) := by
  cases h with
  | @shifted v arguments m hm outer outer' houter =>
    by_cases hn : 0 ≤ n ∧ n ≤ arguments.length
    · obtain ⟨i, rfl⟩ := Int.eq_ofNat_of_zero_le hn.1
      rw [goto_int (c := ⟨arguments.toArray, _, _⟩) hn.1 (by simpa [length] using hn.2),
        goto_int (c := ⟨(v :: arguments).toArray, _, _⟩) (by omega) (by simpa [length] using hn.2)]
      exact .shifted v arguments (by omega) houter
    · rw [goto_of_outside (by simp only [length, List.size_toArray]; omega)]
      exact .inl rfl

/-- **The end of the list** is the same. -/
theorem last (h : Alongside shift c c') :
    Leads (Alongside shift) (c.goto (.int c.length)) (c'.goto (.int c'.length)) := by
  cases shift with
  | false =>
    have hlength : c'.length = c.length := by
      cases h
      rfl
    rw [hlength]
    exact h.goto _
  | true =>
    have hlength : c'.length = c.length + 1 := by
      cases h
      simp [length]
    rw [hlength, Int.natCast_succ]
    exact h.goto_succ _

/-- Outside of a shifted list, a cursor moves by anything. -/
theorem relative_same (h : Alongside false c c') (w : Value) :
    Leads (Alongside false) (c.relative w) (c'.relative w) := by
  cases h with
  | @same arguments position outer outer' houter =>
    exact (Leads.refl (position.plus w)).bind_eq fun v => goto (.same arguments position houter) v

/-- **Moving by a whole number** leads to the same argument. -/
theorem relative (h : Alongside shift c c') {w : Value} {m : Int} (hw : w.integer? = some m) :
    Leads (Alongside shift) (c.relative w) (c'.relative w) := by
  cases shift with
  | false => exact h.relative_same w
  | true =>
    have hplus (n : Int) : (Value.int n).plus w = .ok (.int (n + m)) := by
      obtain rfl | ⟨b, rfl⟩ := Value.int_or_bool hw
      · exact Value.plus_of_integer rfl m
      · cases hw
        rfl
    have hgoto (n : Int) : Leads (Alongside true) (c.goto (.int (n + m)))
        (c'.goto (.int (n + 1 + m))) := by
      rw [Int.add_right_comm]
      exact h.goto_succ (n + m)
    cases h with
    | @shifted v arguments n hn outer outer' houter =>
      unfold Cursor.relative
      dsimp only
      rw [hplus, hplus]
      exact hgoto n

/-! ## Lists inside -/

theorem ofList (vs : List Value) {outer outer' : Option Cursor}
    (h : outer'.map Cursor.isEmpty = outer.map Cursor.isEmpty) :
    Alongside false (Cursor.ofList vs outer) (Cursor.ofList vs outer') := .same _ _ h

/-- The cursor of a pass over sublists. -/
theorem sublistCursor (h : Alongside shift c c') (v : Value) :
    Leads (Alongside false) (Action.sublistCursor v c) (Action.sublistCursor v c') := by
  have houter : (some c').map Cursor.isEmpty = (some c).map Cursor.isEmpty := congrArg some h.isEmpty
  unfold Action.sublistCursor
  split
  · exact ofList [] houter
  · unfold Cursor.ofValue
    split
    · exact ofList _ houter
    · exact .inr rfl

end Alongside

end Cursor

/-! ## Directives -/

variable {shift : Bool} {c c' : Cursor} {head head' : Head} {s : List Value}

open Cursor (Alongside)

theorem Parameter.leads_settle (h : Alongside shift c c') (p : Parameter) (default : Value) :
    Leads (fun x y => x.1 = y.1 ∧ Alongside shift x.2 y.2) (p.settle default c)
      (p.settle default c') := by
  cases p with
  | absent | number | character => exact ⟨rfl, h⟩
  | remaining =>
    show Leads _ (c.remaining.map (·, c)) (c'.remaining.map (·, c'))
    rw [h.remaining]
    cases c.remaining with
    | error e => exact .inr rfl
    | ok n => exact ⟨rfl, h⟩
  | next =>
    have hnext := h.next
    unfold Parameter.settle
    dsimp only
    cases hc : c.next with
    | error e =>
      rw [hc] at hnext
      obtain he | hc' := hnext
      · exact .inl he
      · rw [hc']
        exact .inr rfl
    | ok x =>
      cases hc' : c'.next with
      | error e =>
        rw [hc, hc'] at hnext
        exact hnext.elim
      | ok y =>
        rw [hc, hc'] at hnext
        obtain ⟨v, c₁⟩ := x
        obtain ⟨_, c₁'⟩ := y
        obtain ⟨rfl, h₁⟩ := hnext
        cases v <;> exact ⟨rfl, h₁⟩

theorem leads_settleAll (h : Alongside shift c c') (ps : List Parameter) (defaults : List Value) :
    Leads (fun x y => x.1 = y.1 ∧ Alongside shift x.2 y.2) (settleAll ps defaults c)
      (settleAll ps defaults c') := by
  induction defaults generalizing ps c c' with
  | nil => exact ⟨rfl, h⟩
  | cons default defaults ih =>
    refine (Parameter.leads_settle h (ps.headD .absent) default).bind ?_
    rintro ⟨v, c₁⟩ ⟨_, c₁'⟩ ⟨rfl, h₁⟩
    refine (ih h₁ ps.tail).bind ?_
    rintro ⟨vs, c₂⟩ ⟨_, c₂'⟩ ⟨rfl, h₂⟩
    exact ⟨rfl, h₂⟩

/-- **Settings** are the same. -/
theorem Head.leads_settle (h : Alongside shift c c') (hhead : head.Like head')
    (defaults : List Value) :
    Leads (fun x y => x.1 = y.1 ∧ Alongside shift x.2 y.2) (head.settle defaults c)
      (head'.settle defaults c') := by
  unfold Head.settle
  rw [hhead.parameters]
  exact leads_settleAll h head.parameters defaults

/-- **Escapes** leave alike. -/
theorem escapes_eq (h : Alongside shift c c') (hhead : head.Like head') (s : List Value) :
    escapes head' s c' = escapes head s c := by
  have houter := h.outer
  unfold escapes
  rw [hhead.colon, h.isEmpty]
  cases hc : c.outer with
  | none =>
    rw [hc, Option.map_none, Option.map_eq_none_iff] at houter
    rw [houter]
  | some outer =>
    rw [hc, Option.map_some, Option.map_eq_some_iff] at houter
    obtain ⟨outer', hc', hempty⟩ := houter
    rw [hc']
    dsimp only
    rw [hempty]

/-- A directive that goes to an argument counts from where it stands, and by a whole number. -/
def Head.GoesWhole (head : Head) (s : List Value) : Prop :=
  head.atSign = false ∧ (setting s 0 = .nothing ∨ (setting s 0).integer?.isSome)

/-- **Moves** lead to the same argument: in a shifted list, if they count from where they stand. -/
theorem leads_moveCursor (h : Alongside shift c c') (hhead : head.Like head')
    (hgoes : shift = true → head.GoesWhole s) :
    Leads (Alongside shift) (moveCursor head s c) (moveCursor head' s c') := by
  unfold moveCursor
  rw [hhead.atSign, hhead.colon]
  cases shift with
  | false =>
    split
    · exact h.goto _
    · exact h.goto _
    · cases head.colon with
      | true => exact (Leads.refl _).bind_eq fun w => h.relative_same w
      | false => exact h.relative_same _
  | true =>
    obtain ⟨hatSign, hwhole⟩ := hgoes rfl
    rw [hatSign]
    set w := if (setting s 0).isNothing then .int 1 else setting s 0 with hw
    obtain ⟨n, hn⟩ : ∃ n, w.integer? = some n := by
      rw [hw]
      obtain hnothing | hinteger := hwhole
      · rw [hnothing]
        exact ⟨1, rfl⟩
      · split_ifs
        · exact ⟨1, rfl⟩
        · exact Option.isSome_iff_exists.mp hinteger
    have hnegated : w.negated = .ok (.int (-n)) := by
      obtain hint | ⟨b, hbool⟩ := Value.int_or_bool hn
      · rw [hint]
        rfl
      · rw [hbool] at hn ⊢
        cases hn
        rfl
    cases head.colon with
    | true =>
      show Leads _ (w.negated >>= c.relative) (w.negated >>= c'.relative)
      rw [hnegated]
      exact h.relative rfl
    | false => exact h.relative hn

end Tilde
