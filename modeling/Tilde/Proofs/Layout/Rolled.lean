import Tilde.Proofs.Layout.Scroll
import Tilde.Stream

/-!
# Operations on scrolls

What operations do to an idle printer can be told from its scroll, if there are no conditional
newlines and blocks may be nested at any depth. Only with too little room they may fail where the scroll
would not.

* `Operation.Scrolls`: operations, and what they do to a scroll;
* **`idle_run`**, **`Scrolls.of_run`**: on idle printers that is what they do;
* `Action.onPrinter_eq_ok`, `Action.ok_of_onPrinter`: the same with so much room.
-/

namespace Tilde

/-- What an operation does to a scroll. -/
inductive Operation.Scrolls : Operation → (Scroll → Except Fault Scroll) → Prop
  | write (t : Text) : Scrolls (.write t) fun x => .ok (x.write t)
  | begin (opening perLine closing : Text) :
    Scrolls (.begin opening perLine closing none) fun x => x.begin opening perLine closing
  | finish : Scrolls .finish fun x => if x.depth = 0 then .error .noOpenBlock else .ok x.finish
  | indent (offset : Option Number) (relative : Bool) :
    Scrolls (.indent offset relative) fun x => x.indent offset relative

namespace Printer

variable {p q : Printer} {op : Operation} {f : Scroll → Except Fault Scroll}

theorem room_foldl (ss : List Stroke) : (ss.foldl stroke p).room = p.room := by
  induction ss generalizing p with
  | nil => rfl
  | cons s ss ih => exact ih.trans (takes_stroke p s).room

theorem room_of_run (hop : op.Scrolls f) (hrun : op.run p = .ok q) : q.room = p.room := by
  have hstroke {s : Stroke} (h : p.stroke s = q) : q.room = p.room := h ▸ (takes_stroke p s).room
  cases hop with
  | write t =>
    obtain ⟨rfl, -⟩ := eq_of_conclude (of_whileOpen hrun).2
    rw [writeLines_eq]
    exact room_foldl _
  | begin opening perLine closing =>
    exact hstroke (s := .begin opening perLine closing) (eq_of_conclude (of_whileOpen hrun).2).1.symm
  | finish =>
    obtain ⟨-, h⟩ := of_whileOpen hrun
    split_ifs at h
    exact hstroke (s := .finish) (eq_of_conclude h).1.symm
  | indent offset relative =>
    obtain ⟨-, h⟩ := of_whileOpen hrun
    refine hstroke (s := .indent offset relative) ?_
    unfold stroke
    split_ifs at h ⊢ <;> exact (eq_of_conclude h).1.symm

/-- What an operation does is done to the scroll. -/
theorem idle_run (hop : op.Scrolls f) (h : p.Idle) (hspace : p.Spacious) :
    Rolls (f p.scroll) (op.run p) := by
  cases hop with
  | write t => exact idle_write h hspace t
  | begin opening perLine closing => exact idle_begin h opening perLine closing none
  | finish =>
    have hfinish := idle_finish h
    dsimp only
    split_ifs at hfinish ⊢
    · show Rolls _ p.finish
      rw [hfinish]
      rfl
    · exact hfinish
  | indent offset relative => exact idle_indent h offset relative

end Printer

namespace Operation.Scrolls

variable {p q : Printer} {op : Operation} {f : Scroll → Except Fault Scroll}

/-- **What has been done, has been done to the scroll**, whatever the room. -/
theorem of_run (hop : op.Scrolls f) (h : p.Idle) (hrun : op.run p = .ok q) :
    q.Idle ∧ f p.scroll = .ok q.scroll := by
  cases hop with
  | write t =>
    obtain ⟨hidle, hscroll⟩ := Printer.idle_of_write h hrun
    exact ⟨hidle, congrArg _ hscroll.symm⟩
  | begin opening perLine closing =>
    have hrolls : Printer.Rolls _ _ := Printer.idle_begin h opening perLine closing none
    rwa [show p.begin opening perLine closing none = .ok q from hrun] at hrolls
  | finish =>
    have hrolls := Printer.idle_finish h
    rw [show p.finish = .ok q from hrun] at hrolls
    dsimp only
    split_ifs at hrolls ⊢
    exact hrolls
  | indent offset relative =>
    have hrolls := Printer.idle_indent h offset relative
    rwa [show p.indent offset relative = .ok q from hrun] at hrolls

end Operation.Scrolls

/-! ## Streams -/

namespace Action

variable {p q : Printer} {op : Operation} {f : Scroll → Except Fault Scroll} {s : Stream} {room : Nat}
  {folds : Array Fold}

theorem ok_of_onPrinter (hop : op.Scrolls f) (h : p.Idle)
    (hrun : onPrinter room (fun p => op.run p) ⟨.printer p, folds⟩ = .ok () s) :
    ∃ q, s = ⟨.printer q, folds⟩ ∧ q.Idle ∧ f p.scroll = .ok q.scroll := by
  unfold onPrinter at hrun
  dsimp only at hrun
  cases hq : op.run { p with room := some (room - layoutCalls) } with
  | error stop => simp [hq] at hrun
  | ok q =>
    rw [hq] at hrun
    obtain ⟨hidle, hscroll⟩ := hop.of_run (h.room _) hq
    exact ⟨q, by cases hrun; rfl, hidle, hscroll⟩

/-- What succeeds on the printer, succeeds. -/
theorem exists_onPrinter {x : Scroll} (hop : op.Scrolls f)
    (h : Printer.Rolls (.ok x) (op.run { p with room := some (room - layoutCalls) })) (folds : Array Fold) :
    ∃ q, onPrinter room (fun p => op.run p) ⟨.printer p, folds⟩ = .ok () ⟨.printer q, folds⟩ ∧ q.Idle ∧
      q.room = some (room - layoutCalls) ∧ q.scroll = x := by
  unfold onPrinter
  dsimp only
  cases hq : op.run { p with room := some (room - layoutCalls) } with
  | error stop =>
    rw [hq] at h
    cases h
  | ok q =>
    rw [hq] at h
    exact ⟨q, rfl, h.1, Printer.room_of_run hop hq, (Except.ok.inj h.2).symm⟩

theorem spacious_of_room (hq : q.room = some (room - layoutCalls)) (hroom : layoutCalls < room) :
    q.Spacious := by
  refine .inr fun hzero => Nat.sub_ne_zero_of_lt hroom ?_
  rw [hq] at hzero
  exact Option.some.inj hzero

theorem onPrinter_eq_ok {x : Scroll} (hop : op.Scrolls f) (h : p.Idle) (hroom : layoutCalls < room)
    (hx : f p.scroll = .ok x) (folds : Array Fold) : ∃ q,
    onPrinter room (fun p => op.run p) ⟨.printer p, folds⟩ = .ok () ⟨.printer q, folds⟩ ∧ q.Idle ∧
      q.Spacious ∧ q.scroll = x := by
  have hspace := spacious_of_room (q := { p with room := some (room - layoutCalls) }) rfl hroom
  have hrolls := Printer.idle_run hop (h.room (some (room - layoutCalls))) hspace
  rw [Printer.scroll_room, hx] at hrolls
  obtain ⟨q, hq, hidle, hroom', hscroll⟩ := exists_onPrinter hop hrolls folds
  exact ⟨q, hq, hidle, spacious_of_room hroom' hroom, hscroll⟩

end Action

end Tilde
