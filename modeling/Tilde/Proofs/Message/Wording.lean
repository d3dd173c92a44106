import Tilde.Proofs.Message.Puts

/-!
# The words of complaints

The message of a complaint is a control string. **`Complaint.says_words`**: run on the arguments of
the complaint, it puts the words of the complaint on a printer, and no step of it fails.

* `Report.Says`: running a message on its arguments puts words on a printer;
* `Complaint.words`: the words of a complaint.
-/

namespace Tilde

open Tilde.Action (Puts runWithin)

/-- The words that the message of a report puts on any printer when it is run on the arguments. -/
def Report.Says (report : Report) (words : Text) : Prop :=
  ∃ nodes, nodesOf report.message = .ok nodes ∧
    ∀ ⦃o : Options⦄ ⦃passes depth : Nat⦄ ⦃route : Route⦄, o.enclosure = none → route.Straight 13 →
      ∃ outcome, Puts o (runWithin passes (depth + 2) route nodes (.ofList report.arguments))
        outcome words

/-- A message without directives says itself. -/
theorem Report.says_plain {control words : Text}
    (h : (compile control).toOption.bind plainText? = some words) (args : List Value) :
    Report.Says ⟨.text control, args⟩ words := by
  cases hcompile : compile control with
  | error e =>
    rw [hcompile] at h
    cases h
  | ok nodes =>
    rw [hcompile] at h
    refine ⟨nodes, hcompile, fun o passes depth route _ hroute => ?_⟩
    have hflat : Route.Straight 9 { route with room := route.room - 2 } :=
      Route.Straight.descend (hroute.mono (by decide))
    exact ⟨_, .level (hroute.mono (by decide)).room (.plain hflat h _)⟩

namespace Complaint

/-- A text in which two tildes stand for one. -/
def untilded : Text → Text
  | '~' :: '~' :: s => '~' :: untilded s
  | c :: s => c :: untilded s
  | [] => []

/-- What a complaint says: its message, with the parameters that it is about. -/
def words : Complaint → Text
  | .tooManyParameters limit =>
    "no".toList ++ ((if limit = 0 then [] else " more than ".toList ++ Radix.decimal limit) ++
      (" parameter".toList ++ ((if limit = 1 then [] else ['s']) ++
        " allowed for this directive".toList)))
  | .wrongParameter name wantsInteger =>
    name.toList ++ (" parameter must be ".toList ++
      if wantsInteger then "an integer".toList else "a character".toList)
  | c => untilded c.message.toList

/-! ## Messages with directives -/

theorem compile_tooManyParameters :
    compile "no~@[ more than ~D~] parameter~:P allowed for this directive".toList = .ok
      [.text "no".toList,
        .group .conditional ⟨[], [], false, true, 2, 20⟩
          [[.text " more than ".toList, .atom .decimal ⟨[], [], false, false, 16, 18⟩]] []
          ⟨[], [], false, false, 18, 20⟩,
        .text " parameter".toList, .atom .plural ⟨[], [], true, false, 30, 33⟩,
        .text " allowed for this directive".toList] := by
  with_unfolding_all rfl

theorem says_tooManyParameters (limit : Nat) :
    Report.Says ⟨.text (tooManyParameters limit).message.toList, [.int limit]⟩
      (tooManyParameters limit).words := by
  refine ⟨_, compile_tooManyParameters, fun o passes depth route _ hroute => ?_⟩
  let start : Cursor := .ofList [.int limit]
  let behind : Cursor := start.moved (.int 1)
  have hnext : start.next = .ok (.int limit, behind) := rfl
  have hback : behind.relative (.int (-1)) = .ok start := rfl
  have hpeek : start.peek (.int 0) = .ok (.int limit) := rfl
  have htrue : (Value.int limit).isTrue = decide (limit ≠ 0) := by
    simp [Value.isTrue, bne, beq_eq_decide]
  have hinside : Route.Straight (9 + 2) { route with room := route.room - 2 } :=
    Route.Straight.descend (k := 11) hroute
  have hflat := hinside.mono (show 9 ≤ 9 + 2 by decide)
  refine ⟨(behind, none), .level (hroute.mono (by decide)).room ?_⟩
  -- Whether the limit is shown or skipped, the cursor is behind it, and the plural goes back to it.
  refine (Puts.text hflat _ start).cons (.cons ?limit ((Puts.text hflat _ behind).cons ?rest))
  case limit =>
    by_cases h : limit = 0
    · rw [if_pos h]
      exact .unlessPresent rfl rfl hpeek (htrue.trans (decide_eq_false (not_not.mpr h))) hnext
    · rw [if_neg h]
      refine .ifPresent rfl rfl hpeek (htrue.trans (decide_eq_true h)) ?_
      refine .level (hinside.mono (by decide)).room ?_
      exact (Puts.text hinside.descend _ start).cons
        (.last (.decimal hinside.descend rfl rfl rfl hnext))
  case rest =>
    have hplural : pluralText false (decide ((limit : Int) = 1)) =
        if limit = 1 then [] else ['s'] := by
      by_cases h : limit = 1
      · rw [if_pos h, decide_eq_true (by omega)]
        rfl
      · rw [if_neg h, decide_eq_false (by omega)]
        rfl
    rw [← hplural]
    exact (Puts.plural hflat rfl rfl hback hnext).cons (.last (.text hflat _ behind))

theorem compile_wrongParameter :
    compile "~A parameter must be ~:[a character~;an integer~]".toList = .ok
      [.atom .aesthetic ⟨[], [], false, false, 0, 2⟩, .text " parameter must be ".toList,
        .group .conditional ⟨[], [], true, false, 21, 49⟩
          [[.text "a character".toList], [.text "an integer".toList]]
          [⟨[], [], false, false, 35, 37⟩] ⟨[], [], false, false, 47, 49⟩] := by
  with_unfolding_all rfl

theorem says_wrongParameter (name : String) (wantsInteger : Bool) :
    Report.Says ⟨.text (wrongParameter name wantsInteger).message.toList,
      [.text name.toList, .bool wantsInteger]⟩ (wrongParameter name wantsInteger).words := by
  refine ⟨_, compile_wrongParameter, fun o passes depth route ho hroute => ?_⟩
  let start : Cursor := .ofList [.text name.toList, .bool wantsInteger]
  have hname : start.next = .ok (.text name.toList, start.moved (.int 1)) := rfl
  have hkind : (start.moved (.int 1)).next = .ok (.bool wantsInteger, start.moved (.int 2)) := rfl
  have hinside : Route.Straight (9 + 2) { route with room := route.room - 2 } :=
    Route.Straight.descend (k := 11) hroute
  have hflat := hinside.mono (show 9 ≤ 9 + 2 by decide)
  refine ⟨(start.moved (.int 2), none), .level (hroute.mono (by decide)).room ?_⟩
  refine (Puts.aesthetic hinside ho rfl hname).cons ((Puts.text hflat _ _).cons (.last ?_))
  refine .either rfl hkind (.level (hinside.mono (by decide)).room ?_)
  cases wantsInteger with
  | false => exact .last (.text hinside.descend _ _)
  | true => exact .last (.text hinside.descend _ _)

/-- **The message of a complaint, run on its arguments, puts its words on a printer.** -/
theorem says_words (c : Complaint) :
    Report.Says ⟨.text c.message.toList, c.arguments⟩ c.words := by
  cases c with
  | tooManyParameters limit => exact says_tooManyParameters limit
  | wrongParameter name wantsInteger => exact says_wrongParameter name wantsInteger
  | _ => exact Report.says_plain (by decide +kernel) _

end Complaint

end Tilde
