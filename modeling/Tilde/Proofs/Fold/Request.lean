import Tilde.Proofs.Fold.Route
import Tilde.Proofs.Layout.Rooted

/-!
# Requests

What can be asked of a stream, along any route. Whatever comes of it, the printer below stands
(**`Stream.Reached.stands`**), and streams that are alike remain so (**`Stream.Like.after`**).

* `Request`, `Stream.after`: requests and the stream behind them;
* `Stream.Reached`: the streams over a printer that there can be;
* `Action.Stepwise`: what requests do because their steps do it; `Stepwise.action`: there are no
  other steps;
* `Action.Preserves`, `Action.Blind`: what actions keep, and what they cannot see.
-/

namespace Tilde

/-- What can be asked of a stream. -/
inductive Request
  | write (text : Text)
  | endLine
  | freshLine
  | newline (kind : NewlineKind)
  | indent (offset : Value) (relative : Bool)
  | begin (opening perLine closing : Text) (level : Option Int)
  | finish
  | flush
  | close

/-- Carries a request out along a route. -/
def Request.action (route : Route) : Request → Action Unit
  | write text => Action.write route text
  | endLine => Action.endLine route
  | freshLine => do
    let _ ← Action.freshLine route
    return ()
  | newline kind => Action.newline route kind
  | indent offset relative => Action.indent route offset relative
  | begin opening perLine closing level => Action.begin route opening perLine closing level
  | finish => Action.finish route
  | flush => Action.flush route
  | close => Action.close route

namespace Stream

/-- The stream behind requests, each along a route of its own, whatever comes of them. -/
def after (s : Stream) : List (Route × Request) → Stream
  | [] => s
  | (route, x) :: xs => ((x.action route).perform s).2.after xs

/-- What can become of a stream over a printer. The folds may be exchanged at any time. -/
inductive Reached : Stream → Prop
  | create {options : Options} {width : Option Int} {column : Int} {p : Printer}
      (h : Printer.create options width column = .ok p) (folds : Array Fold) :
      Reached ⟨.printer p, folds⟩
  | refold {s : Stream} (h : Reached s) (folds : Array Fold) : Reached { s with folds := folds }
  | request {s : Stream} (h : Reached s) (route : Route) (x : Request) :
      Reached ((x.action route).perform s).2

/-- The stream is over a printer that stands. -/
inductive Stands : Stream → Prop
  | printer {p : Printer} (h : p.Standing) (folds : Array Fold) : Stands ⟨.printer p, folds⟩

end Stream

namespace Action

variable {α β γ : Type}

/-! ## Steps -/

theorem foldClosing_eq (i : Nat) (p : Printer) (folds : Array Fold) :
    foldClosing i ⟨.printer p, folds⟩ =
      .ok () ⟨.printer (p.modifyBlock p.current fun b =>
        { b with closing := (pass folds i (p.block p.current).closing).2 }),
        (pass folds i (p.block p.current).closing).1⟩ := by
  unfold foldClosing
  refine (bind_of_ok rfl).trans ((bind_of_ok (foldOnce_eq i _ _)).trans rfl)

/-- A property that actions have if their steps have it. Of the printer below, only the bound that
every operation sets may not be looked at. -/
structure Stepwise (P : (α : Type) → Action α → Prop) : Prop where
  pure {α : Type} (x : α) : P α (pure x)
  throw {α : Type} (e : Fault) : P α (throw e)
  bind {α β : Type} {a : Action α} {f : α → Action β} (ha : P α a) (hf : ∀ x, P β (f x)) :
    P β (a >>= f)
  device {α : Type} {f : Device → Action α} (hf : ∀ p, P α (f (.printer p)))
    (hroom : ∀ p room, f (.printer { p with room := room }) = f (.printer p)) :
    P α (Action.device >>= f)
  foldOnce (i : Nat) (text : Text) : P Text (Action.foldOnce i text)
  foldClosing (i : Nat) : P Unit (Action.foldClosing i)
  run (room : Nat) (op : Operation) : P Unit (onPrinter room fun p => op.run p)
  close (room : Nat) : P Unit (onPrinter room fun p => p.close)

namespace Stepwise

variable {P : (α : Type) → Action α → Prop} (hP : Stepwise P)

include hP

theorem checkRoom (route : Route) (calls : Nat) : P Unit (checkRoom route calls) := by
  unfold Action.checkRoom
  split_ifs
  · exact hP.throw _
  · exact hP.pure _

theorem foldlM {f : β → γ → Action β} (hf : ∀ x i, P β (f x i)) (is : List γ) (x : β) :
    P β (is.foldlM f x) := by
  induction is generalizing x with
  | nil => exact hP.pure x
  | cons i is ih => exact hP.bind (hf x i) ih

theorem forM {f : γ → Action Unit} (hf : ∀ i, P Unit (f i)) (is : List γ) :
    P Unit (is.forM f) := by
  induction is with
  | nil => exact hP.pure ()
  | cons i is ih => exact hP.bind (hf i) fun _ => ih

theorem put (room : Nat) (text : Text) : P Unit (put room text) :=
  hP.device (fun _ => hP.run room (.write text)) fun _ _ => rfl

theorem endLine (route : Route) : P Unit (endLine route) :=
  hP.bind (hP.checkRoom route 2) fun _ => hP.put _ _

theorem freshLine (route : Route) : P Bool (freshLine route) := by
  refine hP.bind (hP.checkRoom route 2) fun _ => hP.device (fun p => ?_) fun _ _ => rfl
  split_ifs
  · exact hP.bind (hP.endLine route) fun _ => hP.pure _
  · exact hP.pure _

/-- **Requests have the property.** -/
theorem action (route : Route) (x : Request) : P Unit (x.action route) := by
  cases x with
  | write text =>
    refine hP.bind (hP.checkRoom route 4) fun _ => ?_
    exact hP.bind (hP.foldlM (fun _ _ => hP.foldOnce _ _) _ _) fun _ => hP.put _ _
  | endLine => exact hP.endLine route
  | freshLine => exact hP.bind (hP.freshLine route) fun _ => hP.pure _
  | newline kind => exact hP.bind (hP.checkRoom route 2) fun _ => hP.run _ (.newline kind)
  | indent offset relative =>
    exact hP.bind (hP.checkRoom route 2) fun _ => hP.run _ (.indent offset.number? relative)
  | begin opening perLine closing level =>
    refine hP.bind (hP.checkRoom route 5) fun _ => ?_
    refine hP.bind (hP.foldlM (fun _ _ => ?_) _ _) fun _ => hP.run _ (.begin _ _ closing level)
    exact hP.bind (hP.foldOnce _ _) fun _ => hP.bind (hP.foldOnce _ _) fun _ => hP.pure _
  | finish =>
    refine hP.bind (hP.checkRoom route 4) fun _ => ?_
    exact hP.bind (hP.forM hP.foldClosing _) fun _ => hP.run _ .finish
  | flush => exact hP.device (fun _ => hP.run _ .flush) fun _ _ => rfl
  | close => exact hP.device (fun _ => hP.close _) fun _ _ => rfl

end Stepwise

/-! ## What actions keep -/

/-- The printer below stands when the action has ended, in one way or the other. -/
def Preserves (a : Action α) : Prop := ∀ s, s.Stands → (a.perform s).2.Stands

theorem preserves_onPrinter (room : Nat) {f : Printer → Except Printer.Stop Printer}
    (hf : ∀ p : Printer, p.Standing → Printer.Stands (f p)) : (onPrinter room f).Preserves := by
  rintro _ @⟨p, h, folds⟩
  have hstands := hf _ (h.room (some (room - layoutCalls)))
  cases hresult : f { p with room := some (room - layoutCalls) } <;> rw [hresult] at hstands <;>
    simpa only [perform, onPrinter, hresult] using ⟨hstands, folds⟩

theorem stepwise_preserves : Stepwise fun _ a => a.Preserves where
  pure _ _ hs := hs
  throw _ _ hs := hs
  bind {α β a f} ha hf s hs := by
    have h := ha s hs
    unfold perform at h ⊢
    simp only [Bind.bind, EStateM.bind]
    cases hrun : a s <;> rw [hrun] at h
    · exact hf _ _ h
    · exact h
  device hf _ := by
    rintro _ @⟨p, h, folds⟩
    exact hf p _ ⟨h, folds⟩
  foldOnce i text := by
    rintro _ ⟨h, folds⟩
    unfold perform
    rw [foldOnce_eq]
    exact ⟨h, _⟩
  foldClosing i := by
    rintro _ @⟨p, h, folds⟩
    unfold perform
    rw [foldClosing_eq]
    refine ⟨h.modifyBlock fun hcurrent => ?_, _⟩
    -- there is nothing to be folded at the end of the outermost level
    show (pass folds i (p.block p.current).closing).2 = []
    rw [hcurrent, h.closing, pass_nil]
  run room op := preserves_onPrinter room fun _ hp => hp.run op
  close room := preserves_onPrinter room fun _ hp => hp.close

/-! ## What actions cannot see -/

/-- Streams that are alike give the same result, and are alike behind the action. -/
def Blind (a : Action α) : Prop :=
  ∀ s s', s.Like s' →
    (a.perform s).1 = (a.perform s').1 ∧ (a.perform s).2.Like (a.perform s').2

theorem blind_of_room {a : Action α} (h : ∀ p folds room,
    (a.perform ⟨.printer p, folds⟩).1 = (a.perform ⟨.printer { p with room := room }, folds⟩).1 ∧
      (a.perform ⟨.printer p, folds⟩).2.Like
        (a.perform ⟨.printer { p with room := room }, folds⟩).2) : a.Blind := by
  rintro s s' (_ | ⟨p, folds, room⟩)
  · exact ⟨rfl, .same _⟩
  · exact h p folds room

theorem stepwise_blind : Stepwise fun _ a => a.Blind where
  pure _ _ _ hs := ⟨rfl, hs⟩
  throw _ _ _ hs := ⟨rfl, hs⟩
  bind {α β a f} ha hf s s' hs := by
    obtain ⟨hresult, hlike⟩ := ha s s' hs
    unfold perform at hresult hlike ⊢
    simp only [Bind.bind, EStateM.bind]
    cases hrun : a s <;> cases hrun' : a s' <;> rw [hrun, hrun'] at hresult hlike
    · obtain rfl := Except.ok.inj hresult
      exact hf _ _ _ hlike
    · cases hresult
    · cases hresult
    · exact ⟨by simpa using hresult, hlike⟩
  device {α f} hf hroom := by
    refine blind_of_room fun p folds room => ?_
    have h := hf p _ _ (.room p folds room)
    show ((f (.printer p)).perform _).1 = ((f (.printer { p with room := room })).perform _).1 ∧
      ((f (.printer p)).perform _).2.Like ((f (.printer { p with room := room })).perform _).2
    rwa [hroom p room]
  foldOnce i text := by
    refine blind_of_room fun p folds room => ?_
    unfold perform
    rw [foldOnce_eq, foldOnce_eq]
    exact ⟨rfl, .room _ _ _⟩
  foldClosing i := by
    refine blind_of_room fun p folds room => ?_
    unfold perform
    rw [foldClosing_eq, foldClosing_eq]
    exact ⟨rfl, .room _ _ _⟩
  run room op := blind_of_room fun _ _ _ => ⟨rfl, .same _⟩
  close room := blind_of_room fun _ _ _ => ⟨rfl, .same _⟩

end Action

namespace Stream

variable {s s' : Stream}

/-- **The printer below stands, whatever has been asked of it.** -/
theorem Reached.stands (h : s.Reached) : s.Stands := by
  induction h with
  | create h folds => exact ⟨Printer.standing_create h, folds⟩
  | refold h folds ih =>
    cases ih with
    | printer hp _ => exact ⟨hp, folds⟩
  | request h route x ih => exact Action.stepwise_preserves.action route x _ ih

/-- **No requests tell streams apart that are alike.** -/
theorem Like.after (h : s.Like s') (xs : List (Route × Request)) :
    (s.after xs).Like (s'.after xs) := by
  induction xs generalizing s s' with
  | nil => exact h
  | cons x xs ih => exact ih (Action.stepwise_blind.action x.1 x.2 _ _ h).2

end Stream

end Tilde
