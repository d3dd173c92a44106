import Tilde.Print
import Tilde.Proofs.Fold.Joined
import Tilde.Proofs.Fold.Spared
import Tilde.Proofs.Layout.Rolled

/-!
# What printing a value comes to

Without conditional newlines and without a limit on depth, to print a value is to write a text, which
is the same on all idle printers and along all routes. It may be impossible to print the value; then
that fails everywhere.

* `Stream.Wrote`: a text has been written to an idle printer;
* `Utters`: an action comes to writing a text;
* **`Speaks.within`**: so does a block around such an action;
* **`speaks_print`**: to print a value comes to writing a text, or fails for good.
-/

namespace Tilde

/-- No newlines are put between elements, and blocks may be nested at any depth. -/
def Options.Plain (o : Options) : Prop := o.pretty = false ∧ o.level = none

/-- The text has passed the folds and has been written to the printer, which is idle. -/
inductive Stream.Wrote (is : List Nat) (text : Text) : Stream → Stream → Prop
  | intro {p q : Printer} {folds : Array Fold} (idle : q.Idle)
    (scroll : q.scroll = p.scroll.write (passAll folds is text).2) :
    Wrote is text ⟨.printer p, folds⟩ ⟨.printer q, (passAll folds is text).1⟩

namespace Stream.Wrote

variable {is : List Nat} {t u : Text} {s s₁ s₂ : Stream}

theorem append (hnodup : is.Nodup) (hcut : Text.Cut t u) (h : Wrote is t s s₁) (h' : Wrote is u s₁ s₂) :
    Wrote is (t ++ u) s s₂ := by
  obtain ⟨idle, scroll⟩ := h
  rename_i p q folds
  cases h' with
  | intro idle' scroll' =>
    have happend := passAll_append hnodup hcut folds
    have hfolds := congrArg Prod.fst happend
    have htext := congrArg Prod.snd happend
    dsimp only at hfolds htext
    rw [← hfolds]
    refine .intro idle' ?_
    rw [scroll', scroll, htext, Scroll.write_append]

end Stream.Wrote

theorem Scroll.write_nil (x : Scroll) : x.write [] = x := by
  rw [Scroll.write, Text.led, List.flatMap_nil, Column.write_nil]

theorem Stream.wrote_nil (is : List Nat) {p : Printer} (hp : p.Idle) (folds : Array Fold) :
    Stream.Wrote is [] ⟨.printer p, folds⟩ ⟨.printer p, folds⟩ := by
  have hscroll : p.scroll = p.scroll.write (passAll folds is []).2 := by rw [passAll_nil, Scroll.write_nil]
  have hwrote : Stream.Wrote is [] ⟨.printer p, folds⟩ ⟨.printer p, (passAll folds is []).1⟩ := .intro hp hscroll
  rwa [passAll_nil] at hwrote

namespace Scroll

/-- What ends the current block. -/
def closing (x : Scroll) : Text := (x.margins.headD {}).closing

/-- The scroll in a block that has just begun. -/
def opened (x : Scroll) (opening closing : Text) : Scroll :=
  { x with
    column := x.column.write opening
    margins := ⟨x.lead, (x.column.write opening).column, closing⟩ :: x.margins }

theorem begin_eq (x : Scroll) (opening closing : Text) :
    x.begin opening [] closing = .ok (x.opened opening closing) := by
  unfold Scroll.begin opened Printer.leadBelow
  simp only [List.isEmpty_nil, if_true, bind, Except.bind, Column.write_nil]
  rfl

theorem reclose_closing (x : Scroll) : x.reclose x.closing = x := by
  obtain ⟨column, options, margins⟩ := x
  cases margins <;> rfl

theorem reclose_reclose (x : Scroll) (s t : Text) : (x.reclose s).reclose t = x.reclose t := by
  obtain ⟨column, options, margins⟩ := x
  cases margins <;> rfl

theorem closing_reclose {x : Scroll} (h : x.margins ≠ []) (s : Text) : (x.reclose s).closing = s := by
  obtain ⟨column, options, margins⟩ := x
  cases margins with
  | nil => exact absurd rfl h
  | cons m margins => rfl

/-- **A block whose texts are on one line** is a text. -/
theorem finish_opened (x : Scroll) {opening closing : Text} (hopening : '\n' ∉ opening)
    (hclosing : '\n' ∉ closing) (text last : Text) :
    (((x.opened opening last).write text).reclose closing).finish = x.write (opening ++ (text ++ closing)) := by
  have hlead : ((x.opened opening last).write text).column =
      (x.column.write opening).write (Text.led x.lead text) := rfl
  show Scroll.mk (((x.opened opening last).write text).column.write closing) x.options x.margins = _
  rw [hlead, Scroll.write, Text.led_append, Text.led_append, Text.led_of_flat hopening,
    Text.led_of_flat hclosing, Column.write_append, Column.write_append]

end Scroll

theorem Printer.Idle.margins_ne {p : Printer} (h : p.Idle) : p.scroll.margins ≠ [] := by
  rw [margins_of_idle h]
  exact List.cons_ne_nil _ _

theorem Printer.Idle.closing_eq {p : Printer} (h : p.Idle) :
    (p.block p.current).closing = p.scroll.closing := by
  rw [Scroll.closing, margins_of_idle h]
  rfl

namespace Action

open Tilde.Stream (Wrote)

/-- On an idle printer, along any route that passes no fold twice, the action writes the text, which
takes so many calls. With a few more besides one for every fold it never fails. -/
structure Utters (a : Route → Action Unit) (calls : Nat) (text : Text) : Prop where
  said : ∀ {r p folds s}, p.Idle → r.folds.Nodup → a r ⟨.printer p, folds⟩ = .ok () s →
    calls ≤ r.room ∧ Wrote r.folds text ⟨.printer p, folds⟩ s
  ample : ∀ {r p}, p.Idle → p.Spacious → r.folds.Nodup → r.folds.length + calls + 9 ≤ r.room → ∀ folds,
    ∃ q folds', a r ⟨.printer p, folds⟩ = .ok () ⟨.printer q, folds'⟩ ∧ q.Spacious

/-- The action does not succeed on any idle printer. -/
def Mute (a : Route → Action Unit) : Prop :=
  ∀ ⦃r p folds s⦄, p.Idle → r.folds.Nodup → a r ⟨.printer p, folds⟩ ≠ .ok () s

/-- The action writes a text or fails, and then for good. -/
structure Speaks (a : Route → Action Unit) : Prop where
  spares : ∀ r, (a r).Spares fun e => e.isFatal = true
  utters : (∃ calls text, Utters a calls text) ∨ Mute a

theorem ok_of_bind {α β : Type} {a : Action α} {k : α → Action β} {s s' : Stream} {y : β}
    (h : (a >>= k) s = .ok y s') : ∃ x t, a s = .ok x t ∧ k x t = .ok y s' := by
  simp only [bind, EStateM.bind] at h
  cases hrun : a s with
  | ok x t =>
    rw [hrun] at h
    exact ⟨x, t, rfl, h⟩
  | error e t => simp [hrun] at h

theorem of_checkRoom {route : Route} {calls : Nat} {s s' : Stream}
    (h : checkRoom route calls s = .ok () s') : route.folds.length + calls ≤ route.room ∧ s' = s := by
  unfold checkRoom at h
  split_ifs at h with hroom
  · cases h
  · cases h
    exact ⟨Nat.not_lt.mp hroom, rfl⟩

variable {a b : Route → Action Unit} {calls calls' : Nat} {t u : Text}

namespace Utters

theorem nothing : Utters (fun _ => pure ()) 0 [] where
  said := by
    intro r p folds s hp hr hrun
    cases hrun
    exact ⟨Nat.zero_le _, Stream.wrote_nil r.folds hp folds⟩
  ample _ hspace _ _ _ := ⟨_, _, rfl, hspace⟩

theorem bind (ha : Utters a calls t) (hb : Utters b calls' u) (hcut : Text.Cut t u) :
    Utters (fun r => a r >>= fun _ => b r) (max calls calls') (t ++ u) where
  said := by
    intro r p folds s hp hr hrun
    obtain ⟨_, s₁, hrun₁, hrun₂⟩ := ok_of_bind hrun
    obtain ⟨hcalls, hwrote⟩ := ha.said hp hr hrun₁
    cases hwrote with
    | intro idle scroll =>
      obtain ⟨hcalls', hwrote'⟩ := hb.said idle hr hrun₂
      exact ⟨Nat.max_le.mpr ⟨hcalls, hcalls'⟩, .append hr hcut (.intro idle scroll) hwrote'⟩
  ample := by
    intro r p hp hspace hr hroom folds
    obtain ⟨q, folds₁, hrun, hspace₁⟩ := ha.ample hp hspace hr (by omega) folds
    obtain ⟨-, hwrote⟩ := ha.said hp hr hrun
    generalize hs : Stream.mk (.printer q) folds₁ = s₁ at hwrote hrun
    cases hwrote with
    | intro idle scroll =>
      cases hs
      obtain ⟨q₂, folds₂, hrun₂, hspace₂⟩ := hb.ample idle hspace₁ hr (by omega) _
      exact ⟨q₂, folds₂, (bind_of_ok hrun).trans hrun₂, hspace₂⟩

theorem descend (hb : Utters b calls' t) (calls : Nat) :
    Utters (fun r => Action.descend r calls >>= b) (calls + calls') t where
  said := by
    intro r p folds s hp hr hrun
    unfold Action.descend at hrun
    split_ifs at hrun with hroom
    · cases hrun
    · obtain ⟨hcalls, hwrote⟩ := hb.said (r := { r with room := r.room - calls }) hp hr hrun
      dsimp only at hcalls
      exact ⟨by omega, hwrote⟩
  ample := by
    intro r p hp hspace hr hroom folds
    unfold Action.descend
    rw [if_neg (by omega)]
    exact hb.ample (r := { r with room := r.room - calls }) hp hspace hr (by dsimp only; omega) folds

theorem write (t : Text) : Utters (fun r => Action.write r t) 4 t where
  said := by
    intro r p folds s hp hr hrun
    obtain ⟨_, s₁, hcheck, hrun⟩ := ok_of_bind hrun
    obtain ⟨hroom, rfl⟩ := of_checkRoom hcheck
    rw [bind_of_ok (fold_eq r t (.printer p) folds)] at hrun
    obtain ⟨q, rfl, hidle, hscroll⟩ := ok_of_onPrinter (.write _) hp hrun
    exact ⟨by omega, .intro hidle (Except.ok.inj hscroll).symm⟩
  ample := by
    intro r p hp hspace hr hroom folds
    have hput : layoutCalls < r.room - r.folds.length := by
      unfold layoutCalls
      omega
    obtain ⟨q, hq, -, hspace', -⟩ := onPrinter_eq_ok (.write (passAll folds r.folds t).2) hp hput rfl
      (passAll folds r.folds t).1
    refine ⟨q, (passAll folds r.folds t).1, ?_, hspace'⟩
    refine (bind_of_ok (checkRoom_of_le (by omega))).trans ?_
    exact (bind_of_ok (fold_eq r t (.printer p) folds)).trans hq

end Utters

/-! ## Blocks -/

variable {p : Printer} {folds : Array Fold} {r : Route} {s : Stream} {begun : Bool} {opening closing : Text}

/-- **A block is entered** on an idle printer. -/
theorem exists_enter (h : p.Idle) (hroom : r.folds.length + 5 ≤ r.room) (opening closing : Text)
    (folds : Array Fold) : ∃ q, enter r none opening [] closing ⟨.printer p, folds⟩ =
      .ok true ⟨.printer q, (passAll folds r.folds opening).1⟩ ∧ q.Idle ∧
      q.room = some (r.room - r.folds.length - layoutCalls) ∧
      q.scroll = p.scroll.opened (passAll folds r.folds opening).2 closing := by
  have hrolls (room : Option Nat) : Printer.Rolls _ _ :=
    Printer.idle_begin (h.room room) (passAll folds r.folds opening).2 [] closing none
  simp only [Printer.scroll_room, Scroll.begin_eq] at hrolls
  obtain ⟨q, hq, hidle, hroom', hscroll⟩ := exists_onPrinter (.begin _ [] closing) (hrolls _)
    (passAll folds r.folds opening).1
  refine ⟨q, ?_, hidle, hroom', hscroll⟩
  have hbegin : begin r opening [] closing none ⟨.printer p, folds⟩ =
      .ok () ⟨.printer q, (passAll folds r.folds opening).1⟩ := by
    refine (bind_of_ok (checkRoom_of_le hroom)).trans ?_
    exact (bind_of_ok (foldStart_eq r.folds opening _ folds)).trans hq
  rw [enter_eq, if_neg (by simp [h.opened]), hbegin]

theorem room_of_enter (h : p.Idle)
    (hrun : enter r none opening [] closing ⟨.printer p, folds⟩ = .ok begun s) :
    r.folds.length + 5 ≤ r.room := by
  by_contra hroom
  have hbegin : begin r opening [] closing none ⟨.printer p, folds⟩ =
      .error .tooDeep ⟨.printer p, folds⟩ := by
    unfold begin checkRoom
    rw [if_pos (Nat.not_le.mp hroom)]
    rfl
  rw [enter_eq, if_neg (by simp [h.opened]), hbegin] at hrun
  cases hrun

/-- The text at the end of a block passes the folds. -/
theorem exists_forM_foldClosing (h : p.Idle) (is : List Nat) (folds : Array Fold) :
    ∃ q, is.forM foldClosing ⟨.printer p, folds⟩ =
        .ok () ⟨.printer q, (passAll folds is p.scroll.closing).1⟩ ∧ q.Idle ∧
      q.scroll = p.scroll.reclose (passAll folds is p.scroll.closing).2 := by
  induction is generalizing p folds with
  | nil => exact ⟨p, rfl, h, (Scroll.reclose_closing _).symm⟩
  | cons i is ih =>
    obtain ⟨hidle, hscroll⟩ := Printer.idle_reclose h (pass folds i p.scroll.closing).2
    obtain ⟨q, hq, hidle', hscroll'⟩ := ih hidle (pass folds i p.scroll.closing).1
    rw [hscroll, Scroll.closing_reclose h.margins_ne] at hq hscroll'
    have hfirst := foldClosing_eq i p folds
    rw [h.closing_eq] at hfirst
    refine ⟨q, (bind_of_ok hfirst).trans hq, hidle', ?_⟩
    rw [hscroll', Scroll.reclose_reclose, passAll_cons]

/-- **A block ends** on an idle printer. -/
theorem exists_finish (h : p.Idle) (hdepth : p.scroll.depth ≠ 0) (hroom : r.folds.length + 4 ≤ r.room)
    (folds : Array Fold) : ∃ q, finish r ⟨.printer p, folds⟩ =
      .ok () ⟨.printer q, (passAll folds r.folds p.scroll.closing).1⟩ ∧ q.Idle ∧
      q.room = some (r.room - r.folds.length - layoutCalls) ∧
      q.scroll = (p.scroll.reclose (passAll folds r.folds p.scroll.closing).2).finish := by
  obtain ⟨p', hp', hidle, hscroll⟩ := exists_forM_foldClosing h r.folds folds
  have hdepth' : p'.scroll.depth ≠ 0 := by
    rw [hscroll, Scroll.depth, Scroll.reclose, List.length_modifyHead]
    exact hdepth
  have hrolls (room : Option Nat) :
      Printer.Rolls (.ok p'.scroll.finish) { p' with room := room }.finish := by
    have hfinish := Printer.idle_finish (hidle.room room)
    rw [Printer.scroll_room, if_neg hdepth'] at hfinish
    exact hfinish
  obtain ⟨q, hq, hidle', hroom', hscroll'⟩ := exists_onPrinter .finish (hrolls _)
    (passAll folds r.folds p.scroll.closing).1
  refine ⟨q, ?_, hidle', hroom', by rw [hscroll', hscroll]⟩
  refine (bind_of_ok (checkRoom_of_le hroom)).trans ?_
  exact (bind_of_ok hp').trans hq

theorem room_of_finish (hrun : finish r ⟨.printer p, folds⟩ = .ok () s) :
    r.folds.length + 4 ≤ r.room := by
  obtain ⟨_, _, hcheck, -⟩ := ok_of_bind hrun
  exact (of_checkRoom hcheck).1

/-- Only that a list runs out is no fault. -/
theorem not_leave {e : Fault} (he : e.isFatal = true) {s s' : Stream} :
    leave r true (some e) s ≠ .ok () s' := by
  rw [leave_eq]
  cases finish r s with
  | error => exact nofun
  | ok _ t =>
    cases e with
    | exhausted => cases he
    | _ => exact nofun

/-- What a block has been if nothing has gone wrong. -/
theorem of_within {body : Action Unit} (h : p.Idle) (hbody : body.Spares fun e => e.isFatal = true)
    (hrun : within r none opening [] closing body ⟨.printer p, folds⟩ = .ok () s) :
    ∃ s₁ s₂, enter r none opening [] closing ⟨.printer p, folds⟩ = .ok true s₁ ∧
      body s₁ = .ok () s₂ ∧ finish r s₂ = .ok () s := by
  rw [within_eq] at hrun
  cases henter : enter r none opening [] closing ⟨.printer p, folds⟩ with
  | error e s₁ => simp [henter] at hrun
  | ok begun s₁ =>
    obtain ⟨q, hq, hidle, -, -⟩ := exists_enter h (room_of_enter h henter) opening closing folds
    rw [henter] at hq hrun
    cases hq
    have hinside := hbody _ (Stream.unharmed_printer hidle.unharmed (passAll folds r.folds opening).1)
    dsimp only at hrun
    cases hrun' : body ⟨.printer q, (passAll folds r.folds opening).1⟩ with
    | ok _ s₂ =>
      rw [hrun'] at hrun
      dsimp only at hrun
      rw [leave_eq] at hrun
      cases hfinish : finish r s₂ <;> rw [hfinish] at hrun <;> cases hrun
      exact ⟨_, s₂, rfl, hrun', hfinish⟩
    | error e s₂ =>
      rw [hrun'] at hinside hrun
      exact absurd hrun (not_leave hinside.1)

theorem within_of {body : Action Unit} {s₁ s₂ : Stream}
    (henter : enter r none opening [] closing ⟨.printer p, folds⟩ = .ok true s₁)
    (hbody : body s₁ = .ok () s₂) (hfinish : finish r s₂ = .ok () s) :
    within r none opening [] closing body ⟨.printer p, folds⟩ = .ok () s := by
  rw [within_eq, henter]
  dsimp only
  rw [hbody]
  dsimp only
  rw [leave_eq, hfinish]

theorem depth_opened (h : p.Idle) (opening closing t : Text) :
    ((p.scroll.opened opening closing).write t).depth ≠ 0 := by
  have hlength := List.length_pos_iff.mpr h.margins_ne
  show p.scroll.margins.length + 1 - 1 ≠ 0
  omega

/-- **A block around a text** is a text. -/
theorem Utters.within (ha : Utters a calls t) (hspares : ∀ r, (a r).Spares fun e => e.isFatal = true)
    (h : Text.Encloses opening closing) :
    Utters (fun r => Action.within r none opening [] closing (a r)) (max 5 calls)
      (opening ++ (t ++ closing)) where
  said := by
    intro r p folds s hp hr hrun
    obtain ⟨s₁, s₂, henter, hbody, hfinish⟩ := of_within hp (hspares r) hrun
    have hroom := room_of_enter hp henter
    obtain ⟨q₁, hq₁, hidle₁, -, hscroll₁⟩ := exists_enter hp hroom opening closing folds
    rw [henter] at hq₁
    cases hq₁
    obtain ⟨hcalls, hwrote⟩ := ha.said hidle₁ hr hbody
    refine ⟨by omega, ?_⟩
    cases hwrote with
    | @intro _ q₂ _ hidle₂ hscroll₂ =>
      rw [hscroll₁] at hscroll₂
      have hclosing₂ : q₂.scroll.closing = closing := by
        rw [hscroll₂]
        rfl
      obtain ⟨q, hq, hidle, -, hscroll⟩ := exists_finish hidle₂ (hscroll₂ ▸ depth_opened hp _ _ _)
        (room_of_finish hfinish) (passAll (passAll folds r.folds opening).1 r.folds t).1
      rw [hfinish, hclosing₂] at hq
      cases hq
      have htext := passAll_append hr (h.front (t ++ closing)) folds
      rw [passAll_append hr (h.back t)] at htext
      have hfolds := congrArg Prod.fst htext
      dsimp only at hfolds
      rw [← hfolds]
      refine .intro hidle ?_
      rw [hscroll, hclosing₂, hscroll₂, htext]
      exact Scroll.finish_opened _ (ascii_passAll _ _ h.1).flat (ascii_passAll _ _ h.2.1).flat _ _
  ample := by
    intro r p hp hspace hr hroom folds
    have hcalls : layoutCalls < r.room - r.folds.length := by
      unfold layoutCalls
      omega
    obtain ⟨q₁, hq₁, hidle₁, hroom₁, hscroll₁⟩ := exists_enter (r := r) hp (by omega) opening closing folds
    obtain ⟨q₂, folds₂, hq₂, -⟩ := ha.ample hidle₁ (spacious_of_room hroom₁ hcalls) hr (by omega) _
    obtain ⟨-, hwrote⟩ := ha.said hidle₁ hr hq₂
    generalize hs : Stream.mk (.printer q₂) folds₂ = s₂ at hwrote hq₂
    cases hwrote with
    | intro hidle₂ hscroll₂ =>
      rw [hscroll₁] at hscroll₂
      obtain ⟨q, hq, -, hroom', -⟩ := exists_finish hidle₂ (r := r) (hscroll₂ ▸ depth_opened hp _ _ _)
        (by omega) (passAll (passAll folds r.folds opening).1 r.folds t).1
      exact ⟨q, _, within_of hq₁ hq₂ hq, spacious_of_room hroom' hcalls⟩

theorem Mute.within (ha : Mute a) (hspares : ∀ r, (a r).Spares fun e => e.isFatal = true) :
    Mute fun r => Action.within r none opening [] closing (a r) := by
  intro r p folds s hp hr hrun
  obtain ⟨s₁, s₂, henter, hbody, -⟩ := of_within hp (hspares r) hrun
  obtain ⟨q, hq, hidle, -, -⟩ := exists_enter hp (room_of_enter hp henter) opening closing folds
  rw [henter] at hq
  cases hq
  exact ha hidle hr hbody

/-! ## Actions in sequence -/

theorem Mute.bind (ha : Mute a) : Mute fun r => a r >>= fun _ => b r := by
  intro r p folds s hp hr hrun
  obtain ⟨_, s₁, hfirst, -⟩ := ok_of_bind hrun
  exact ha hp hr hfirst

theorem Utters.bind_mute (ha : Utters a calls t) (hb : Mute b) : Mute fun r => a r >>= fun _ => b r := by
  intro r p folds s hp hr hrun
  obtain ⟨_, s₁, hfirst, hrest⟩ := ok_of_bind hrun
  obtain ⟨-, hwrote⟩ := ha.said hp hr hfirst
  cases hwrote with
  | intro idle _ => exact hb idle hr hrest

namespace Speaks

variable {m : Text}

theorem nothing : Speaks fun _ => pure () := ⟨fun _ => .pure (), .inl ⟨_, _, .nothing⟩⟩

theorem write (t : Text) : Speaks fun r => Action.write r t :=
  ⟨fun r => .write r t, .inl ⟨_, _, .write t⟩⟩

theorem descend (hb : Speaks b) (calls : Nat) : Speaks fun r => Action.descend r calls >>= b where
  spares r := .descend (by rfl) calls hb.spares
  utters := by
    obtain ⟨calls', t, hb⟩ | hb := hb.utters
    · exact .inl ⟨_, _, hb.descend calls⟩
    · refine .inr fun r p folds s hp hr hrun => ?_
      dsimp only at hrun
      unfold Action.descend at hrun
      split_ifs at hrun
      · cases hrun
      · exact @hb { r with room := r.room - calls } p folds s hp hr hrun

theorem lift {x : Except Fault Text} (hx : ∀ e, x = .error e → e.isFatal = true) :
    Speaks fun r => Action.lift x >>= Action.write r := by
  cases x with
  | ok t => exact write t
  | error e => exact ⟨fun r => fun s hs => And.intro (hx e rfl) hs, .inr fun r p folds s hp hr hrun => nomatch hrun⟩

/-- Behind a text that separates. -/
theorem behind (hm : m.Separates) (hb : Speaks b) : Speaks fun r => Action.write r m >>= fun _ => b r where
  spares r := (Spares.write r m).bind fun _ => hb.spares r
  utters := by
    obtain ⟨calls, t, hb⟩ | hb := hb.utters
    · exact .inl ⟨_, _, (Utters.write m).bind hb (hm.behind t)⟩
    · exact .inr ((Utters.write m).bind_mute hb)

/-- On both sides of a text that separates. -/
theorem around (ha : Speaks a) (hm : m.Separates) (hb : Speaks b) :
    Speaks fun r => a r >>= fun _ => Action.write r m >>= fun _ => b r where
  spares r := (ha.spares r).bind fun _ => (behind hm hb).spares r
  utters := by
    obtain ⟨calls, t, ha⟩ | ha := ha.utters
    · obtain ⟨calls', u, hb⟩ | hb := hb.utters
      · exact .inl ⟨_, _, ha.bind ((Utters.write m).bind hb (hm.behind u)) (hm.before t u)⟩
      · exact .inr (ha.bind_mute ((Utters.write m).bind_mute hb))
    · exact .inr ha.bind

/-- **In a block.** -/
theorem within (ha : Speaks a) (h : Text.Encloses opening closing) :
    Speaks fun r => Action.within r none opening [] closing (a r) where
  spares r := (ha.spares r).within
  utters := by
    obtain ⟨calls, t, hutters⟩ | hmute := ha.utters
    · exact .inl ⟨_, _, hutters.within ha.spares h⟩
    · exact .inr (hmute.within ha.spares)

end Speaks

/-! ## Values -/

variable {o : Options}

theorem isFatal_integerText {n : Int} {e : Fault} (h : integerText n o = .error e) : e.isFatal = true := by
  unfold integerText at h
  split at h <;> cases h
  rfl

theorem printSeparator_eq (ho : o.Plain) (r : Route) : printSeparator r o = write r [',', ' '] := by
  unfold printSeparator
  rw [ho.1]
  exact bind_pure_unit

theorem Speaks.print_only (hv : Speaks fun r => print r o v) :
    Speaks fun r => print r o v >>= fun _ => pure () := by
  simpa only [bind_pure_unit] using hv

mutual

/-- **To print a value** is to write a text. -/
theorem speaks_print (ho : o.Plain) (v : Value) : Speaks fun r => print r o v := by
  have hblock {a : Route → Action Unit} (ha : Speaks a) (opening closing : Text)
      (h : Text.Encloses opening closing) : Speaks fun r => within r o.level opening [] closing (a r) := by
    rw [ho.2]
    exact ha.within h
  unfold print
  refine .descend ?_ _
  match v with
  | .text s =>
    dsimp only
    cases o.enclosure <;> exact .write _
  | .int n => exact .lift fun _ => isFatal_integerText
  | .list vs => exact hblock (speaks_printItems ho 0 vs) _ _ (by decide)
  | .set vs => exact hblock (speaks_printItems ho 0 vs) _ _ (by decide)
  | .frozenSet vs => exact hblock (speaks_printItems ho 0 vs) _ _ (by decide)
  | .deque vs => exact hblock (speaks_printItems ho 0 vs) _ _ (by decide)
  | .tuple vs => exact hblock (speaks_printTuple ho vs) _ _ (by decide)
  | .dict es => exact hblock (speaks_printEntries ho 0 es) _ _ (by decide)
  | .layoutObject written shown layout vs =>
    dsimp only
    rw [ho.1]
    exact .write _
  | .nothing | .bool _ | .float _ | .decimal _ | .fraction _ | .complex .. | .bytes _ | .control _
  | .object .. => exact .write _

theorem speaks_printItems (ho : o.Plain) (i : Nat) (vs : List Value) :
    Speaks fun r => printItems r o i vs := by
  unfold printItems
  match vs with
  | [] => exact .nothing
  | v :: vs =>
    simp only [printSeparator_eq ho]
    split_ifs
    · exact .write _
    · exact (speaks_print ho v).around Text.separates_comma (speaks_printItems ho (i + 1) vs)
    · exact (speaks_print ho v).print_only

theorem speaks_printTuple (ho : o.Plain) (vs : List Value) : Speaks fun r => printTuple r o vs := by
  have hcomma : Text.Separates [','] := Text.separates_mark (by decide)
  have hspace : Text.Separates [' '] := Text.separates_mark (by decide)
  unfold printTuple
  match vs with
  | [] => exact .nothing
  | v :: vs =>
    simp only [ho.1, Bool.false_eq_true, if_false]
    split_ifs
    · exact .write _
    · exact (speaks_print ho v).around hcomma (.behind hspace (speaks_printItems ho 1 vs))
    · exact (speaks_print ho v).around hcomma .nothing

theorem speaks_printEntries (ho : o.Plain) (i : Nat) (es : List (Value × Value)) :
    Speaks fun r => printEntries r o i es := by
  unfold printEntries
  match es with
  | [] => exact .nothing
  | (k, v) :: es =>
    have hentry := speaks_print ho v
    simp only [printSeparator_eq ho]
    split_ifs
    · exact .write _
    · refine (speaks_print ho k).around Text.separates_colon ?_
      exact hentry.around Text.separates_comma (speaks_printEntries ho (i + 1) es)
    · exact (speaks_print ho k).around Text.separates_colon hentry.print_only

end

/-! ## Texts of their own -/

/-- What an idle printer has put out when it has been flushed. -/
theorem base_of_flush {q q' : Printer} (h : q.Idle) (hflush : q.flush = .ok q') : q'.base = q.shown := by
  obtain ⟨rfl, hs⟩ := Printer.eq_of_conclude hflush
  obtain heq | ⟨-, hstopped⟩ := h.writeBuffered_of_idle
  · rw [heq]
    rfl
  · exact absurd ((Printer.Outputs.putHeld _).unharmed hs) hstopped

theorem eq_of_flushedOutput {q : Printer} (h : q.Idle)
    (hu : Stream.flushedOutput ⟨.printer q, folds⟩ = .ok u) : u = q.shown.output := by
  unfold Stream.flushedOutput at hu
  dsimp only at hu
  cases hflush : q.flush <;> rw [hflush] at hu
  · cases hu
  · rw [← Except.ok.inj hu, base_of_flush h hflush]

theorem flushedOutput_of_idle {q : Printer} (h : q.Idle) (hspace : q.Spacious) :
    Stream.flushedOutput ⟨.printer q, folds⟩ = .ok q.shown.output := by
  obtain ⟨q', hflush, -, -, hbase⟩ := Printer.idle_flush h hspace
  unfold Stream.flushedOutput
  dsimp only
  rw [hflush]
  dsimp only
  rw [hbase]

/-- A new printer puts out what is written to it. -/
theorem output_of_wrote {q : Printer} {folds' : Array Fold} (hp : Printer.create o none 0 = .ok p)
    (h : Wrote [] t ⟨.printer p, folds⟩ ⟨.printer q, folds'⟩) : q.Idle ∧ q.shown.output = t := by
  cases h with
  | intro idle scroll =>
    refine ⟨idle, ?_⟩
    have hwritten : q.shown.output = (p.shown.write (Text.led [] t)).output := by
      obtain ⟨_, hcreate, -, hscroll⟩ := Printer.idle_create o 0
      cases hp.symm.trans hcreate
      have hlead : p.scroll.lead = [] := by
        rw [hscroll]
        rfl
      rw [Scroll.write, hlead] at scroll
      exact congrArg (fun x : Scroll => x.column.output) scroll
    cases hp
    rw [hwritten, Text.led_nil, Column.output_write _ _ rfl]
    rfl

variable {v : Value} {room : Nat}

/-- **To make a text of a value** is to print it to a new printer, and to flush that. -/
theorem exists_toText_eq (v : Value) (room : Nat) (o : Options) : ∃ p, Printer.create o none 0 = .ok p ∧
    p.Idle ∧ p.Spacious ∧ v.toText room o = match print { room := room - 2 } o v ⟨.printer p, #[]⟩ with
      | .ok _ s => s.flushedOutput
      | .error e _ => .error e := by
  obtain ⟨p, hp, hidle, -⟩ := Printer.idle_create o 0
  refine ⟨p, hp, hidle, ?_, ?_⟩
  · cases hp
    exact .inr nofun
  · unfold Value.toText
    rw [hp]
    simp only [bind, Except.bind, perform]
    generalize print { room := room - 2 } o v ⟨.printer p, #[]⟩ = result
    cases result <;> rfl

/-- **The printed form** is the text, if there is one. -/
theorem Utters.of_toText (h : Utters (fun r => print r o v) calls t) (htext : v.toText room o = .ok u) :
    u = t ∧ calls ≤ room - 2 := by
  obtain ⟨p, hp, hidle, -, heq⟩ := exists_toText_eq v room o
  rw [heq] at htext
  cases hrun : print { room := room - 2 } o v ⟨.printer p, #[]⟩ <;> rw [hrun] at htext
  · obtain ⟨hcalls, hwrote⟩ := h.said (r := { room := room - 2 }) hidle List.nodup_nil hrun
    refine ⟨?_, hcalls⟩
    cases hwrote with
    | @intro _ q _ idle scroll =>
      obtain ⟨-, houtput⟩ := output_of_wrote hp (.intro idle scroll)
      rw [eq_of_flushedOutput idle htext, houtput]
  · cases htext

theorem Utters.toText_eq (h : Utters (fun r => print r o v) calls t) (hroom : calls + 11 ≤ room) :
    v.toText room o = .ok t := by
  obtain ⟨p, hp, hidle, hspace, heq⟩ := exists_toText_eq v room o
  have hample : 0 + calls + 9 ≤ room - 2 := by omega
  obtain ⟨q, folds', hrun, hspace'⟩ := h.ample (r := { room := room - 2 }) hidle hspace List.nodup_nil hample #[]
  obtain ⟨-, hwrote⟩ := h.said (r := { room := room - 2 }) hidle List.nodup_nil hrun
  obtain ⟨idle, houtput⟩ := output_of_wrote hp hwrote
  rw [heq, hrun]
  dsimp only
  rw [flushedOutput_of_idle idle hspace', houtput]

theorem Mute.toText_ne (h : Mute fun r => print r o v) : v.toText room o ≠ .ok u := by
  intro htext
  obtain ⟨p, -, hidle, -, heq⟩ := exists_toText_eq v room o
  rw [heq] at htext
  cases hrun : print { room := room - 2 } o v ⟨.printer p, #[]⟩ <;> rw [hrun] at htext
  · exact @h { room := room - 2 } _ _ _ hidle List.nodup_nil hrun
  · cases htext

/-- What cannot be made a text fails for good. -/
theorem isFatal_toText (ho : o.Plain) {e : Fault} (h : v.toText room o = .error e) : e.isFatal = true := by
  obtain ⟨p, -, hidle, -, heq⟩ := exists_toText_eq v room o
  have hprint := (speaks_print ho v).spares { room := room - 2 } ⟨.printer p, #[]⟩
    (Stream.unharmed_printer hidle.unharmed #[])
  rw [heq] at h
  cases hrun : print { room := room - 2 } o v ⟨.printer p, #[]⟩ <;> rw [hrun] at hprint h
  · rename_i s
    obtain ⟨d, folds⟩ := s
    cases d with
    | column c => cases h
    | printer q =>
      have hflush := Printer.spares_flush (hprint q rfl)
      unfold Stream.flushedOutput at h
      dsimp only at h
      cases hq : q.flush <;> rw [hq] at hflush h
      · cases h
        exact hflush.1
      · cases h
  · cases h
    exact hprint.1

end Action

end Tilde
