import Tilde.Proofs.Fold.Aloof
import Tilde.Proofs.Fold.Refused

/-!
# Streams without harm

What has gone wrong in a printer is kept back until an operation ends. Between operations there is
nothing of that kind, and what goes wrong in one of them is nothing that anybody handles, but for
blocks that are nested too deeply.

* `Stream.Unharmed`: nothing has gone wrong before;
* `Action.Spares`: what keeps it so, and fails for certain reasons only;
* `Spares.write`, `Spares.enter`, **`Spares.within`**: text and blocks fail for good or not at all.
-/

namespace Tilde

/-- Nothing has gone wrong in the printer below, if there is one. -/
def Stream.Unharmed (s : Stream) : Prop := ∀ p, s.device = .printer p → p.stopped = none

theorem Stream.unharmed_column (c : Column) (folds : Array Fold) :
    Stream.Unharmed ⟨.column c, folds⟩ := by
  intro p hp
  cases hp

theorem Stream.unharmed_printer {p : Printer} (h : p.stopped = none) (folds : Array Fold) :
    Stream.Unharmed ⟨.printer p, folds⟩ := by
  rintro _ ⟨rfl⟩
  exact h

/-! ## Printers -/

namespace Printer

/-- What has gone wrong in the printer, if anything, is for good. -/
def Fails (p : Printer) : Prop := ∀ e s, p.stopped = some (e, s) → e.isFatal = true

/-- An operation that leaves a printer unharmed, and fails for such reasons only. -/
def Spares (P : Fault → Prop) : Except Stop Printer → Prop
  | .ok q => q.stopped = none
  | .error stop => P stop.fault ∧ stop.printer.stopped = none

variable {P : Fault → Prop} {p q : Printer}

theorem Fails.of_unharmed (hp : p.stopped = none) : p.Fails := by
  intro e s h
  rw [hp] at h
  cases h

theorem Fails.stroke (hp : p.Fails) (s : Stroke) : (p.stroke s).Fails := by
  obtain ⟨p', hgrows, hframe, -⟩ := (takes_stroke p s).frame
  have hp' : p'.stopped = p.stopped := by
    cases s with
    | begin =>
      obtain ⟨b, -, -, -, rfl⟩ := hgrows
      rfl
    | _ => exact congrArg Printer.stopped hgrows
  intro e t he
  exact (hframe.fault e t he).elim (fun h => hp e t (hp' ▸ h)) id

theorem Fails.strokes (hp : p.Fails) (ss : List Stroke) : (ss.foldl Printer.stroke p).Fails := by
  induction ss generalizing p with
  | nil => exact hp
  | cons s ss ih => exact ih (hp.stroke s)

theorem spares_conclude (hP : ∀ e, e.isFatal = true → P e) (hp : p.Fails) : Spares P p.conclude := by
  unfold conclude
  split
  · assumption
  · exact ⟨hP _ (hp _ _ ‹_›), rfl⟩

theorem spares_whileOpen {x : Except Stop Printer} (hp : p.stopped = none) (hP : P .closedStream)
    (hx : Spares P x) : Spares P (do p.whileOpen; x) := by
  unfold whileOpen
  split_ifs
  · exact ⟨hP, hp⟩
  · exact hx

variable (hp : p.stopped = none)

include hp

theorem spares_stroke (s : Stroke) :
    Spares (fun e => e.isFatal = true) (do p.whileOpen; (p.stroke s).conclude) :=
  spares_whileOpen hp rfl (spares_conclude (fun _ => id) ((Fails.of_unharmed hp).stroke s))

theorem spares_write (t : Text) : Spares (fun e => e.isFatal = true) (p.write t) := by
  refine spares_whileOpen hp rfl (spares_conclude (fun _ => id) ?_)
  rw [writeLines_eq]
  exact (Fails.of_unharmed hp).strokes _

theorem spares_newline (kind : NewlineKind) : Spares (fun e => e.isFatal = true) (p.newline kind) :=
  spares_stroke hp (.newline kind)

theorem spares_indent (offset : Option Number) (relative : Bool) :
    Spares (fun e => e.isFatal = true) (p.indent offset relative) := by
  have h := spares_stroke hp (.indent offset relative)
  have hrun : (do p.whileOpen; (p.stroke (.indent offset relative)).conclude) = p.indent offset relative := by
    unfold stroke indent
    dsimp only
    split_ifs <;> rfl
  rwa [hrun] at h

theorem spares_finish : Spares (fun e => e.isFatal = true) p.finish := by
  have hstrikes := strikes_finish hp
  cases hrun : p.finish <;> rw [hrun] at hstrikes
  · exact ⟨hstrikes.1, hstrikes.2.1⟩
  · exact hstrikes.2.2

theorem spares_flush : Spares (fun e => e.isFatal = true) p.flush :=
  spares_conclude (fun _ => id) ((Fails.of_unharmed hp).stroke .flush)

/-- Only to begin a block can be refused for a reason that is handled. -/
theorem spares_begin (opening perLine closing : Text) (level : Option Int) :
    Spares (fun e => e.isFatal = true ∨ ∃ d, e = .levelExceeded d) (p.begin opening perLine closing level) := by
  refine spares_whileOpen hp (.inl rfl) ?_
  split_ifs
  · exact ⟨.inr ⟨_, rfl⟩, hp⟩
  · refine spares_conclude (fun _ => .inl) ?_
    exact (Fails.of_unharmed hp).stroke (.begin opening perLine closing)

end Printer

/-! ## Actions -/

namespace Action

/-- The action leaves unharmed streams unharmed, and fails for such reasons only. -/
def Spares {α : Type} (P : Fault → Prop) (a : Action α) : Prop :=
  ∀ s, s.Unharmed → match a s with
    | .ok _ t => t.Unharmed
    | .error e t => P e ∧ t.Unharmed

namespace Spares

variable {α β : Type} {P P' : Fault → Prop} {a : Action α} {k : α → Action β} {route : Route}

theorem mono (ha : a.Spares P) (hP : ∀ e, P e → P' e) : a.Spares P' := by
  intro s hs
  have h := ha s hs
  cases hrun : a s <;> rw [hrun] at h
  · exact h
  · exact ⟨hP _ h.1, h.2⟩

theorem pure (x : α) : (Pure.pure x : Action α).Spares P := fun _ hs => hs

theorem throw {e : Fault} (he : P e) : (MonadExcept.throw e : Action α).Spares P :=
  fun _ hs => And.intro he hs

theorem bind (ha : a.Spares P) (hk : ∀ x, (k x).Spares P) : (a >>= k).Spares P := by
  intro s hs
  have h := ha s hs
  simp only [Bind.bind, EStateM.bind]
  cases hrun : a s <;> rw [hrun] at h
  · exact hk _ _ h
  · exact h

/-- Looking at the device changes nothing. -/
theorem look {k : Device → Action α} (hk : ∀ d, (k d).Spares P) : (device >>= k).Spares P :=
  fun s hs => hk s.device s hs

theorem of_aloof (ha : a.Aloof) (hP : ∀ e, P e) : a.Spares P := by
  rintro ⟨d, folds⟩ hs
  obtain ⟨folds', -, ⟨x, hx⟩ | ⟨e, he⟩⟩ := ha folds
  · rw [hx]
    exact hs
  · rw [he]
    exact ⟨hP e, hs⟩

theorem forM {γ : Type} {f : γ → Action PUnit} (hf : ∀ x, (f x).Spares P) (xs : List γ) :
    (xs.forM f).Spares P := by
  induction xs with
  | nil => exact pure PUnit.unit
  | cons x xs ih => exact (hf x).bind fun _ => ih

theorem foldlM {γ : Type} {f : β → γ → Action β} (hf : ∀ x i, (f x i).Spares P) (is : List γ) (x : β) :
    (is.foldlM f x).Spares P := by
  induction is generalizing x with
  | nil => exact pure x
  | cons i is ih => exact (hf x i).bind ih

theorem checkRoom (calls : Nat) (hP : P .tooDeep) : (checkRoom route calls).Spares P := by
  unfold Action.checkRoom
  split_ifs
  · exact throw hP
  · exact pure ()

theorem descend {k : Route → Action α} (hP : P .tooDeep) (calls : Nat) (hk : ∀ r, (k r).Spares P) :
    (descend route calls >>= k).Spares P := by
  unfold Action.descend
  split_ifs
  · exact fun s hs => And.intro hP hs
  · exact hk _

theorem onPrinter {room : Nat} {f : Printer → Except Printer.Stop Printer} (hP : P .unsupported)
    (hf : ∀ p : Printer, p.stopped = none → Printer.Spares P (f p)) :
    (onPrinter room f).Spares P := by
  rintro ⟨d, folds⟩ hs
  cases d with
  | column c => exact ⟨hP, hs⟩
  | printer p =>
    have h := hf { p with room := some (room - layoutCalls) } (hs p rfl)
    unfold Action.onPrinter
    dsimp only
    cases hrun : f { p with room := some (room - layoutCalls) } <;> rw [hrun] at h
    · exact And.intro h.1 (Stream.unharmed_printer h.2 folds)
    · exact Stream.unharmed_printer (p := _) h folds

/-! ### Folds -/

theorem foldOnce (i : Nat) (text : Text) : (foldOnce i text).Spares P := by
  intro s hs
  rw [foldOnce_eq]
  exact hs

theorem fold (text : Text) : (fold route text).Spares P := foldlM (fun text i => foldOnce i text) _ _

theorem foldClosing (hP : P .unsupported) (i : Nat) : (foldClosing i).Spares P := by
  rintro ⟨d, folds⟩ hs
  cases d with
  | column c => exact ⟨hP, hs⟩
  | printer p =>
    rw [foldClosing_eq]
    exact Stream.unharmed_printer (p := p.modifyBlock _ _) (hs p rfl) _

/-! ### Operations -/

theorem checkOpen : checkOpen.Spares fun e => e.isFatal = true := by
  refine look fun d => ?_
  cases d with
  | column c => exact throw rfl
  | printer p =>
    dsimp only
    split_ifs
    · exact throw rfl
    · exact pure _

theorem put (room : Nat) (text : Text) : (put room text).Spares fun e => e.isFatal = true := by
  refine look fun d => ?_
  cases d with
  | printer p => exact onPrinter rfl fun p hp => Printer.spares_write hp text
  | column c =>
    have hset : (setDevice (.column (c.write text))).Spares fun e => e.isFatal = true :=
      fun s _ => Stream.unharmed_column _ s.folds
    refine hset.bind fun _ => ?_
    split_ifs
    · exact throw rfl
    · exact pure _

/-- **Writing** fails for good or not at all. -/
theorem write (route : Route) (text : Text) : (write route text).Spares fun e => e.isFatal = true :=
  (checkRoom 4 (by rfl)).bind fun _ => (fold text).bind fun t => put _ t

theorem endLine (route : Route) : (endLine route).Spares fun e => e.isFatal = true :=
  (checkRoom 2 (by rfl)).bind fun _ => put _ _

theorem newline (route : Route) (kind : NewlineKind) :
    (newline route kind).Spares fun e => e.isFatal = true :=
  (checkRoom 2 (by rfl)).bind fun _ => onPrinter rfl fun _ hp => Printer.spares_newline hp kind

theorem indent (route : Route) (offset : Value) (relative : Bool) :
    (indent route offset relative).Spares fun e => e.isFatal = true :=
  (checkRoom 2 (by rfl)).bind fun _ => onPrinter rfl fun _ hp => Printer.spares_indent hp _ relative

theorem writeValue (route : Route) (v : Value) : (writeValue route v).Spares fun _ => True := by
  have hput (room : Nat) (v : Value) : (putValue room v).Spares fun _ => True := by
    cases v with
    | text text => exact (put room text).mono fun _ _ => trivial
    | _ =>
      unfold putValue
      refine look fun d => ?_
      split_ifs
      · exact (checkOpen.mono fun _ _ => trivial).bind fun _ => throw trivial
      · exact throw trivial
  cases v with
  | text text => exact (write route text).mono fun _ _ => trivial
  | _ =>
    refine (checkRoom 4 trivial).bind fun _ => ?_
    exact (of_aloof (.foldValues route _) fun _ => trivial).bind fun v => hput _ v

theorem blockStart : blockStart.Spares fun e => e.isFatal = true := by
  refine look fun d => ?_
  cases d with
  | column c => exact throw rfl
  | printer p => exact pure _

/-! ### Blocks -/

/-- A block begins for the reasons for which the printer begins it. -/
theorem begin {level : Option Int} {opening perLine closing : Text} (hP : ∀ e, e.isFatal = true → P e)
    (hbegin : ∀ (p : Printer) (opening perLine : Text), p.stopped = none →
      Printer.Spares P (p.begin opening perLine closing level)) :
    (begin route opening perLine closing level).Spares P := by
  refine (checkRoom 5 (hP _ rfl)).bind fun _ => bind (foldlM (fun x i => ?_) _ _) fun x => ?_
  · exact (foldOnce i x.1).bind fun _ => (foldOnce i x.2).bind fun _ => pure _
  · exact onPrinter (hP _ rfl) fun p hp => hbegin p x.2 x.1 hp

/-- A block that is nested too deeply is left out, and all else is for good. -/
theorem enter (level : Option Int) (opening perLine closing : Text) :
    (enter route level opening perLine closing).Spares fun e => e.isFatal = true := by
  have hbegin : (Action.begin route opening perLine closing level).Spares
      fun e => e.isFatal = true ∨ ∃ d, e = .levelExceeded d :=
    begin (fun _ => .inl) fun p _ _ hp => Printer.spares_begin hp _ _ _ _
  rintro ⟨d, folds⟩ hs
  cases d with
  | column c => exact ⟨rfl, hs⟩
  | printer p =>
    have hbegun := hbegin _ hs
    rw [enter_eq]
    split_ifs
    · exact ⟨rfl, hs⟩
    cases hrun : Action.begin route opening perLine closing level ⟨.printer p, folds⟩ with
    | ok _ s =>
      rw [hrun] at hbegun
      exact hbegun
    | error e s =>
      rw [hrun] at hbegun
      cases e with
      | levelExceeded depth =>
        have hwritten := write route ['#'] s hbegun.2
        dsimp only
        cases hwrite : Action.write route ['#'] s <;> rw [hwrite] at hwritten <;> exact hwritten
      | _ =>
        obtain ⟨he | ⟨d, hd⟩, hs⟩ := hbegun
        · exact ⟨he, hs⟩
        · cases hd

/-- **What goes wrong at the end of a block is for good.** -/
theorem finish : (finish route).Spares fun e => e.isFatal = true := by
  have hclosings := forM (foldClosing (P := fun e => e.isFatal = true) rfl) route.folds
  refine bind (checkRoom 4 (by rfl)) fun _ => bind hclosings fun _ => ?_
  exact onPrinter rfl fun _ hp => Printer.spares_finish hp

theorem leave {e : Fault} (he : e.isFatal = true) :
    (leave route true (some e)).Spares fun e => e.isFatal = true := by
  refine bind finish fun _ => ?_
  cases e with
  | exhausted => cases he
  | _ => exact throw he

/-- **A block around what fails for good** fails for good. -/
theorem within {level : Option Int} {opening perLine closing : Text} {body : Action Unit}
    (hbody : body.Spares fun e => e.isFatal = true) :
    (within route level opening perLine closing body).Spares fun e => e.isFatal = true := by
  have hrest : (fault? body >>= fun fault => Action.leave route true fault).Spares
      fun e => e.isFatal = true := by
    intro s hs
    have hinside := hbody s hs
    cases hrun : body s with
    | ok x t =>
      rw [hrun] at hinside
      have hfault : fault? body s = .ok none t := by rw [fault?_eq, hrun]
      rw [bind_of_ok hfault]
      exact bind finish (fun _ => pure _) t hinside
    | error e t =>
      rw [hrun] at hinside
      have hfault : fault? body s = .ok (some e) t := by rw [fault?_eq, hrun]
      rw [bind_of_ok hfault]
      exact leave hinside.1 t hinside.2
  refine (enter level opening perLine closing).bind fun begun => ?_
  cases begun with
  | false => exact pure ()
  | true => exact hrest

end Spares

end Action

end Tilde
