import Tilde.Format.Formatter
import Tilde.Proofs.Fold.Spared
import Tilde.Proofs.Layout.Nested
import Tilde.Proofs.Run.Orderly

/-!
# Balanced blocks

Behind an orderly action the blocks are open that were open before it, whether it succeeds or fails,
and no others, unless the start or the end of a block fails on the way: such a block stays open
(**`balances_of_unharmed`**).

* `Stream.Open`: the blocks that are open on a stream;
* `Leaves`: what is known of the stream behind an action;
* `Stumbles`: the start or the end of a block fails on the way, and the block stays open;
* `Stumbles.leaves`, `Orderly.settles`: the blocks behind actions that stumble, and behind orderly
  ones that do not;
* `exists_path_ne`: an indentation that is too large for a line.
-/

namespace Tilde

/-- The stream is over a printer in which nothing is going wrong, and these blocks are open. -/
inductive Stream.Open : Path → Stream → Prop
  | printer {p : Printer} (hp : p.stopped = none) (folds : Array Fold) : Open p.path ⟨.printer p, folds⟩

theorem Stream.Open.unharmed {path : Path} {s : Stream} (h : s.Open path) : s.Unharmed := by
  cases h with
  | printer hp folds => exact unharmed_printer hp folds

theorem Stream.Open.eq {path path' : Path} {s : Stream} (h : s.Open path) (h' : s.Open path') :
    path' = path := by
  cases h
  cases h'
  rfl

theorem Stream.Open.exists_printer {path : Path} {s : Stream} (h : s.Open path) :
    ∃ (q : Printer) (folds : Array Fold), s = ⟨.printer q, folds⟩ ∧ q.path = path := by
  cases h with
  | @printer q hq folds => exact ⟨q, folds, rfl, rfl⟩

/-- The blocks that are open, if there can be any. -/
def Stream.path (s : Stream) : Path :=
  match s.device with
  | .printer p => p.path
  | .column _ => []

namespace Action

variable {α β : Type} {a : Action α} {k : α → Action β} {s t : Stream} {path path' : Path}
  {route : Route} {level : Option Int} {opening perLine closing : Text} {body : Action Unit}

/-! ## Behind an action -/

/-- What is known of the result and the stream when the action has succeeded, and of the fault and the
stream when it has failed. -/
def Leaves (a : Action α) (s : Stream) (done : α → Stream → Prop) (failed : Fault → Stream → Prop) :
    Prop :=
  match a s with
  | .ok x t => done x t
  | .error e t => failed e t

section

variable {done done' : α → Stream → Prop} {failed failed' : Fault → Stream → Prop}

theorem leaves_of_ok {x : α} (h : a s = .ok x t) : Leaves a s done failed ↔ done x t := by
  unfold Leaves
  rw [h]

theorem leaves_of_error {e : Fault} (h : a s = .error e t) : Leaves a s done failed ↔ failed e t := by
  unfold Leaves
  rw [h]

theorem bind_of_error {e : Fault} (h : a s = .error e t) : (a >>= k) s = .error e t := by
  simp only [Bind.bind, EStateM.bind, h]

theorem Leaves.bind {done' : β → Stream → Prop} (ha : Leaves a s done failed)
    (hk : ∀ x t, a s = .ok x t → done x t → Leaves (k x) t done' failed) :
    Leaves (a >>= k) s done' failed := by
  cases hrun : a s with
  | ok x t =>
    have h := hk x t hrun ((leaves_of_ok hrun).mp ha)
    unfold Leaves at h ⊢
    rwa [bind_of_ok hrun]
  | error e t =>
    exact (leaves_of_error (bind_of_error hrun)).mpr ((leaves_of_error hrun).mp ha)

theorem Leaves.mono (h : Leaves a s done failed) (hdone : ∀ x t, done x t → done' x t)
    (hfailed : ∀ e t, failed e t → failed' e t) : Leaves a s done' failed' := by
  cases hrun : a s with
  | ok x t => exact (leaves_of_ok hrun).mpr (hdone x t ((leaves_of_ok hrun).mp h))
  | error e t => exact (leaves_of_error hrun).mpr (hfailed e t ((leaves_of_error hrun).mp h))

end

/-- The action leaves the blocks alone that are open. -/
def Steady (a : Action α) : Prop :=
  ∀ s path, s.Open path → Leaves a s (fun _ t => t.Open path) fun _ t => t.Open path

namespace Steady

theorem pure (x : α) : Steady (Pure.pure x : Action α) := fun _ _ hs => hs

theorem throw (e : Fault) : Steady (MonadExcept.throw e : Action α) := fun _ _ hs => hs

theorem bind (ha : Steady a) (hk : ∀ x, Steady (k x)) : Steady (a >>= k) := fun s path hs =>
  (ha s path hs).bind fun x t _ ht => hk x t path ht

theorem look {k : Device → Action α} (hk : ∀ d, Steady (k d)) : Steady (device >>= k) :=
  fun s path hs => hk s.device s path hs

theorem of_aloof (ha : a.Aloof) : Steady a := by
  rintro _ _ @⟨p, hp, folds⟩
  unfold Leaves
  obtain ⟨folds', -, ⟨x, hx⟩ | ⟨e, he⟩⟩ := ha folds
  · rw [hx]
    exact .printer hp folds'
  · rw [he]
    exact .printer hp folds'

theorem foldlM {γ : Type} {f : β → γ → Action β} (hf : ∀ x i, Steady (f x i)) (is : List γ) (x : β) :
    Steady (is.foldlM f x) := by
  induction is generalizing x with
  | nil => exact pure x
  | cons i is ih => exact (hf x i).bind ih

theorem forM {γ : Type} {f : γ → Action PUnit} (hf : ∀ x, Steady (f x)) (xs : List γ) :
    Steady (xs.forM f) := by
  induction xs with
  | nil => exact pure PUnit.unit
  | cons x xs ih => exact (hf x).bind fun _ => ih

theorem foldClosing (i : Nat) : Steady (foldClosing i) := by
  rintro _ _ @⟨p, hp, folds⟩
  unfold Leaves
  rw [foldClosing_eq]
  exact .printer (p := p.modifyBlock _ _) hp _

end Steady

/-- An operation of the printer. -/
theorem leaves_onPrinter {room : Nat} {f : Printer → Except Printer.Stop Printer} {P : Fault → Prop}
    {done : Printer → Path} {failed : Printer → Path → Prop} {p : Printer} {folds : Array Fold}
    (hp : p.stopped = none)
    (hspares : ∀ p : Printer, p.stopped = none → Printer.Spares P (f p))
    (hleaves : ∀ p : Printer, p.stopped = none → Printer.Leaves (done p) (failed p) (f p)) :
    Leaves (onPrinter room f) ⟨.printer p, folds⟩
      (fun _ t => t.Open (done { p with room := some (room - layoutCalls) }))
      fun e t => P e ∧ ∃ path, failed { p with room := some (room - layoutCalls) } path ∧
        t.Open path := by
  have hspared := hspares { p with room := some (room - layoutCalls) } hp
  have hleft := hleaves { p with room := some (room - layoutCalls) } hp
  unfold Leaves onPrinter
  dsimp only
  cases hrun : f { p with room := some (room - layoutCalls) } with
  | ok q =>
    rw [hrun] at hspared hleft
    rw [← show q.path = _ from hleft]
    exact .printer hspared folds
  | error stop =>
    rw [hrun] at hspared hleft
    exact ⟨hspared.1, _, hleft, .printer hspared.2 folds⟩

namespace Steady

theorem onPrinter {room : Nat} {f : Printer → Except Printer.Stop Printer} {P : Fault → Prop}
    (hspares : ∀ p : Printer, p.stopped = none → Printer.Spares P (f p))
    (hleaves : ∀ p : Printer, p.stopped = none → Printer.Leaves p.path (· = p.path) (f p)) :
    Steady (onPrinter room f) := by
  rintro _ _ @⟨p, hp, folds⟩
  refine (leaves_onPrinter hp hspares hleaves).mono (fun _ _ ht => ht) ?_
  rintro e t ⟨-, _, rfl, ht⟩
  exact ht

theorem put (room : Nat) (text : Text) : Steady (put room text) := by
  rintro _ _ @⟨p, hp, folds⟩
  exact onPrinter (fun _ hp => Printer.spares_write hp text)
    (fun _ hp => Printer.leaves_write hp text) _ _ (.printer hp folds)

theorem checkOpen : Steady checkOpen := by
  refine look fun d => ?_
  cases d with
  | column c => exact throw _
  | printer p =>
    dsimp only
    split
    · exact throw _
    · exact pure _

theorem write (route : Route) (text : Text) : Steady (write route text) :=
  (of_aloof (.checkRoom route 4)).bind fun _ => (of_aloof (.fold route text)).bind fun t => put _ t

theorem endLine (route : Route) : Steady (endLine route) :=
  (of_aloof (.checkRoom route 2)).bind fun _ => put _ _

theorem newline (route : Route) (kind : NewlineKind) : Steady (newline route kind) :=
  (of_aloof (.checkRoom route 2)).bind fun _ => onPrinter
    (fun _ hp => Printer.spares_newline hp kind) fun _ hp => Printer.leaves_newline hp kind

theorem indent (route : Route) (offset : Value) (relative : Bool) :
    Steady (indent route offset relative) :=
  (of_aloof (.checkRoom route 2)).bind fun _ => onPrinter
    (fun _ hp => Printer.spares_indent hp _ relative) fun _ hp => Printer.leaves_indent hp _ relative

theorem flush (route : Route) : Steady (flush route) := by
  rintro _ _ @⟨p, hp, folds⟩
  exact onPrinter (fun _ hp => Printer.spares_flush hp) (fun _ hp => Printer.leaves_flush hp) _ _
    (.printer hp folds)

theorem writeValue (route : Route) (v : Value) : Steady (writeValue route v) := by
  have hput (room : Nat) (v : Value) : Steady (putValue room v) := by
    cases v with
    | text text => exact put room text
    | _ =>
      unfold putValue
      refine look fun d => ?_
      split_ifs
      · exact checkOpen.bind fun _ => throw _
      · exact throw _
  cases v with
  | text text => exact write route text
  | _ =>
    refine (of_aloof (.checkRoom route 4)).bind fun _ => ?_
    exact (of_aloof (.foldValues route _)).bind fun v => hput _ v

/-- **What every stream can do** leaves the blocks alone. -/
theorem of_portable {ok : Route → Prop} (ha : Portable ok a) : Steady a := by
  induction ha with
  | pure x => exact pure x
  | throw e => exact throw e
  | bind ha hk iha ihk => exact iha.bind ihk
  | look hk hfront ih => exact look ih
  | newFold mode => exact of_aloof (.newFold mode)
  | @write route hroute v => exact writeValue route v
  | @endLine route hroute => exact endLine route

end Steady

/-! ## The start and the end of a block -/

/-- Behind its start a block is open, or its start has failed. -/
theorem leaves_begin (hs : s.Open path) (route : Route) (opening perLine closing : Text)
    (level : Option Int) :
    Leaves (begin route opening perLine closing level) s (fun _ t => ∃ i, t.Open (i :: path))
      fun _ t => t.Open path ∨ ∃ i, t.Open (i :: path) := by
  have hfold (x : Text × Text) (i : Nat) : Steady (do
      let perLine ← foldOnce i x.1
      let opening ← foldOnce i x.2
      return (perLine, opening)) :=
    (Steady.of_aloof (.foldOnce i x.1)).bind fun perLine =>
      (Steady.of_aloof (.foldOnce i x.2)).bind fun opening => .pure (perLine, opening)
  have hroom := (Steady.of_aloof (.checkRoom route 5)) s path hs
  refine (hroom.mono (fun _ _ => id) fun _ _ => .inl).bind fun _ s₁ _ hs₁ => ?_
  have htexts := Steady.foldlM hfold route.folds (perLine, opening) s₁ path hs₁
  refine (htexts.mono (fun _ _ => id) fun _ _ => .inl).bind fun x s₂ _ hs₂ => ?_
  cases hs₂ with
  | @printer p hp folds =>
    refine (leaves_onPrinter hp (fun p hp => Printer.spares_begin hp x.2 x.1 closing level)
      fun p hp => Printer.leaves_begin hp x.2 x.1 closing level).mono (fun _ t ht => ⟨_, ht⟩) ?_
    rintro e t ⟨-, _, rfl | rfl, ht⟩
    · exact .inl ht
    · exact .inr ⟨_, ht⟩

/-- A block has been entered, and is open then, or it has been left out; or this has failed, and the
block may be open all the same. -/
theorem leaves_enter (hs : s.Open path) (route : Route) (level : Option Int)
    (opening perLine closing : Text) :
    Leaves (enter route level opening perLine closing) s
      (fun begun t => if begun then ∃ i, t.Open (i :: path) else t.Open path)
      fun _ t => t.Open path ∨ ∃ i, t.Open (i :: path) := by
  obtain @⟨p, hp, folds⟩ := hs
  have hbegin := leaves_begin (.printer hp folds) route opening perLine closing level
  unfold Leaves at hbegin ⊢
  rw [enter_eq]
  split_ifs
  · exact .inl (.printer hp folds)
  cases hrun : begin route opening perLine closing level ⟨.printer p, folds⟩ with
  | ok _ t =>
    rw [hrun] at hbegin
    exact hbegin
  | error e t =>
    rw [hrun] at hbegin
    cases e with
    | levelExceeded d =>
      obtain ⟨room, rfl⟩ := eq_of_begin_refused hp hrun
      have hwrite := Steady.write route ['#'] _ _ (.printer (p := { p with room := room }) hp
        (advance route.folds perLine opening folds))
      unfold Leaves at hwrite
      dsimp only
      cases hrun' : write route ['#'] ⟨.printer { p with room := room },
        advance route.folds perLine opening folds⟩ <;> rw [hrun'] at hwrite
      · exact hwrite
      · exact .inl hwrite
    | _ => exact hbegin

/-- Behind its end a block is not open any longer, unless the end has failed. -/
theorem leaves_finish (hs : s.Open path) (route : Route) :
    Leaves (finish route) s (fun _ t => t.Open path.tail) fun _ t => t.Open path := by
  refine ((Steady.of_aloof (.checkRoom route 4)) s path hs).bind fun _ s₁ _ hs₁ => ?_
  refine (Steady.forM Steady.foldClosing route.folds s₁ path hs₁).bind fun _ s₂ _ hs₂ => ?_
  cases hs₂ with
  | @printer p hp folds =>
    refine (leaves_onPrinter hp (fun p hp => Printer.spares_finish hp)
      fun p hp => Printer.leaves_finish hp).mono (fun _ _ ht => ht) ?_
    rintro e t ⟨-, _, rfl, ht⟩
    exact ht

/-! ## Blocks that stay open -/

/-- Carried out on the stream, the action comes to a block whose start or whose end fails, so that the
block stays open. -/
inductive Stumbles : {α : Type} → Action α → Stream → Prop
  | first {α β : Type} {a : Action α} {k : α → Action β} {s : Stream} (h : Stumbles a s) :
    Stumbles (a >>= k) s
  | later {α β : Type} {a : Action α} {k : α → Action β} {s t : Stream} {x : α} {path : Path}
      (ha : a s = .ok x t) (hs : s.Open path) (ht : t.Open path) (h : Stumbles (k x) t) :
    Stumbles (a >>= k) s
  | start {route : Route} {level : Option Int} {opening perLine closing : Text} {body : Action Unit}
      {s t : Stream} {e : Fault} {path : Path} {i : Nat}
      (henter : enter route level opening perLine closing s = .error e t)
      (hs : s.Open path) (ht : t.Open (i :: path)) :
    Stumbles (within route level opening perLine closing body) s
  | inside {route : Route} {level : Option Int} {opening perLine closing : Text} {body : Action Unit}
      {s t : Stream} (henter : enter route level opening perLine closing s = .ok true t)
      (h : Stumbles body t) :
    Stumbles (within route level opening perLine closing body) s
  | finish {route : Route} {level : Option Int} {opening perLine closing : Text} {body : Action Unit}
      {s t u : Stream} {e : Fault} {path : Path}
      (henter : enter route level opening perLine closing s = .ok true t)
      (ht : t.Open path) (hbody : (body.perform t).2.Open path)
      (hfinish : finish route (body.perform t).2 = .error e u) :
    Stumbles (within route level opening perLine closing body) s

theorem within_of_enter_error {e : Fault} (hs : s.Open path)
    (henter : enter route level opening perLine closing s = .error e t) :
    within route level opening perLine closing body s = .error e t := by
  cases hs with
  | printer hp folds => rw [within_eq, henter]

theorem within_of_enter_false (hs : s.Open path)
    (henter : enter route level opening perLine closing s = .ok false t) :
    within route level opening perLine closing body s = .ok () t := by
  cases hs with
  | printer hp folds => rw [within_eq, henter]

/-- A block that has been entered ends, whatever has happened inside. If its end fails, that is what is
told. -/
theorem within_of_finish_error {e : Fault} {u : Stream} (hs : s.Open path)
    (henter : enter route level opening perLine closing s = .ok true t)
    (hfinish : finish route (body.perform t).2 = .error e u) :
    within route level opening perLine closing body s = .error e u := by
  unfold perform at hfinish
  cases hs with
  | printer hp folds =>
    rw [within_eq, henter]
    dsimp only
    cases hrun : body t <;> rw [hrun] at hfinish <;> dsimp only at hfinish ⊢ <;>
      rw [leave_eq, hfinish]

/-- Else what has gone wrong inside is told, if it is for good. -/
theorem within_of_finish_ok {u : Stream} (hs : s.Open path)
    (henter : enter route level opening perLine closing s = .ok true t)
    (hfinish : finish route (body.perform t).2 = .ok () u) :
    ((within route level opening perLine closing body).perform s).2 = u ∧
      ∀ e v, body t = .error e v → e.isFatal = true →
        within route level opening perLine closing body s = .error e u := by
  unfold perform at hfinish ⊢
  cases hs with
  | printer hp folds =>
    rw [within_eq, henter]
    dsimp only
    cases hrun : body t with
    | ok x v =>
      rw [hrun] at hfinish
      dsimp only at hfinish ⊢
      rw [leave_eq, hfinish]
      exact ⟨rfl, fun e v h => by cases h⟩
    | error e v =>
      rw [hrun] at hfinish
      dsimp only at hfinish ⊢
      rw [leave_eq, hfinish]
      constructor
      · cases e <;> rfl
      · rintro e' v' ⟨⟩ he
        cases e with
        | exhausted => cases he
        | _ => rfl

theorem open_of_enter (hs : s.Open path)
    (henter : enter route level opening perLine closing s = .ok true t) : ∃ i, t.Open (i :: path) :=
  (leaves_of_ok henter).mp (leaves_enter hs route level opening perLine closing)

theorem isFatal_of_enter {e : Fault} (hs : s.Open path)
    (henter : enter route level opening perLine closing s = .error e t) : e.isFatal = true := by
  have hspares : (enter route level opening perLine closing).Spares fun e => e.isFatal = true :=
    .enter level opening perLine closing
  have h := hspares s hs.unharmed
  rw [henter] at h
  exact h.1

theorem isFatal_of_finish {e : Fault} (hs : s.Open path) (hfinish : finish route s = .error e t) :
    e.isFatal = true := by
  have hspares : (finish route).Spares fun e => e.isFatal = true := .finish
  have h := hspares s hs.unharmed
  rw [hfinish] at h
  exact h.1

/-- **An action that stumbles** fails, and leaves blocks open. -/
theorem Stumbles.leaves (h : a.Stumbles s) (hs : s.Open path) :
    Leaves a s (fun _ _ => False) fun e t =>
      e.isFatal = true ∧ ∃ more, more ≠ [] ∧ t.Open (more ++ path) := by
  induction h generalizing path with
  | first h ih => exact (ih hs).bind fun _ _ _ hfalse => hfalse.elim
  | @later _ _ a k s t x path' ha hs' ht h ih =>
    obtain rfl := hs'.eq hs
    have hk := ih ht
    unfold Leaves at hk ⊢
    rwa [bind_of_ok ha]
  | @start route level opening perLine closing body s t e path' i henter hs' ht =>
    obtain rfl := hs'.eq hs
    refine (leaves_of_error (within_of_enter_error hs henter)).mpr ?_
    exact ⟨isFatal_of_enter hs henter, [i], by simp, ht⟩
  | @inside route level opening perLine closing body s t henter h ih =>
    obtain ⟨i, ht⟩ := open_of_enter hs henter
    have hbody := ih ht
    cases hrun : body t with
    | ok x u => exact ((leaves_of_ok hrun).mp hbody).elim
    | error e u =>
      obtain ⟨he, more, hmore, hu⟩ := (leaves_of_error hrun).mp hbody
      have hlast : (body.perform t).2 = u := by rw [perform, hrun]
      have hend := leaves_finish hu route
      cases hfinish : Action.finish route u with
      | ok _ v =>
        have hwithin := (within_of_finish_ok hs henter (hlast ▸ hfinish)).2 e u hrun he
        have hv := (leaves_of_ok hfinish).mp hend
        obtain ⟨j, more, rfl⟩ := List.exists_cons_of_ne_nil hmore
        refine (leaves_of_error hwithin).mpr ⟨he, more ++ [i], by simp, ?_⟩
        simpa using hv
      | error e' v =>
        have hwithin := within_of_finish_error hs henter (hlast ▸ hfinish)
        have hv := (leaves_of_error hfinish).mp hend
        refine (leaves_of_error hwithin).mpr ⟨isFatal_of_finish hu hfinish, more ++ [i], by simp, ?_⟩
        simpa using hv
  | @finish route level opening perLine closing body s t u e path' henter ht hbody hfinish =>
    obtain ⟨i, ht'⟩ := open_of_enter hs henter
    obtain rfl := ht'.eq ht
    refine (leaves_of_error (within_of_finish_error hs henter hfinish)).mpr ?_
    exact ⟨isFatal_of_finish hbody hfinish, [i], by simp,
      (leaves_of_error hfinish).mp (leaves_finish hbody route)⟩

/-- What becomes of the blocks when the action does not stumble. -/
def Settles (a : Action α) (s : Stream) (path : Path) : Prop :=
  Leaves a s (fun _ t => t.Open path) fun _ t => t.Open path ∨ a.Stumbles s

theorem Stumbles.settles (h : a.Stumbles s) (hs : s.Open path) : a.Settles s path :=
  (h.leaves hs).mono (fun _ _ => False.elim) fun _ _ _ => .inr h

theorem Steady.settles (h : a.Steady) (hs : s.Open path) : a.Settles s path :=
  (h s path hs).mono (fun _ _ => id) fun _ _ => .inl

theorem settles_of_perform (h : (a.perform s).2.Open path) : a.Settles s path := by
  unfold perform at h
  cases hrun : a s with
  | ok x t =>
    rw [hrun] at h
    exact (leaves_of_ok hrun).mpr h
  | error e t =>
    rw [hrun] at h
    exact (leaves_of_error hrun).mpr (.inl h)

/-- What is done behind an action that has left the blocks as they were. -/
theorem Settles.bind (hs : s.Open path) (ha : a.Settles s path)
    (hk : ∀ x t, a s = .ok x t → t.Open path → (k x).Settles t path) :
    (a >>= k).Settles s path := by
  cases hrun : a s with
  | ok x t =>
    have ht := (leaves_of_ok hrun).mp ha
    have h := hk x t hrun ht
    unfold Settles Leaves at h ⊢
    rw [bind_of_ok hrun]
    cases hrun' : k x t with
    | ok y u =>
      rw [hrun'] at h
      exact h
    | error e u =>
      rw [hrun'] at h
      exact h.imp_right (.later hrun hs ht)
  | error e t =>
    refine (leaves_of_error (bind_of_error hrun)).mpr ?_
    exact ((leaves_of_error hrun).mp ha).imp_right .first

/-- A block around an action that has left the blocks as they were. -/
theorem Settles.within (hs : s.Open path) (hbody : ∀ t i, t.Open (i :: path) →
      body.Settles t (i :: path)) :
    (within route level opening perLine closing body).Settles s path := by
  have hentered := leaves_enter hs route level opening perLine closing
  cases henter : enter route level opening perLine closing s with
  | error e t =>
    refine (leaves_of_error (within_of_enter_error hs henter)).mpr ?_
    rcases (leaves_of_error henter).mp hentered with ht | ⟨i, ht⟩
    · exact .inl ht
    · exact .inr (.start henter hs ht)
  | ok begun t =>
    cases begun with
    | false =>
      refine (leaves_of_ok (within_of_enter_false hs henter)).mpr ?_
      exact (leaves_of_ok henter).mp hentered
    | true =>
      obtain ⟨i, ht⟩ := open_of_enter hs henter
      have hinside : (body.perform t).2.Open (i :: path) ∨ body.Stumbles t := by
        have h := hbody t i ht
        unfold perform
        cases hrun : body t with
        | ok x u => exact .inl ((leaves_of_ok hrun).mp h)
        | error e u => exact (leaves_of_error hrun).mp h
      rcases hinside with hu | hstumbles
      · have hend := leaves_finish hu route
        cases hfinish : finish route (body.perform t).2 with
        | ok _ v =>
          refine settles_of_perform ?_
          rw [(within_of_finish_ok hs henter hfinish).1]
          exact (leaves_of_ok hfinish).mp hend
        | error e v => exact (Stumbles.finish henter ht hu hfinish).settles hs
      · exact (Stumbles.inside henter hstumbles).settles hs

/-- **An orderly action** that does not stumble leaves the blocks as they were. -/
theorem Orderly.settles (ha : a.Orderly) (hs : s.Open path) : a.Settles s path := by
  induction ha generalizing s path with
  | portable ha => exact (Steady.of_portable ha).settles hs
  | bind ha hk iha ihk => exact (iha hs).bind hs fun x t _ ht => ihk x ht
  | look hk ih => exact Settles.bind (a := device) hs hs fun d t _ ht => ih d ht
  | newline route kind => exact (Steady.newline route kind).settles hs
  | indent route offset relative => exact (Steady.indent route offset relative).settles hs
  | flush route => exact (Steady.flush route).settles hs
  | within route level opening perLine closing hbody ih => exact .within hs fun t i ht => ih ht

/-! ## Formatters and values -/

/-- Those blocks are open behind the action that were open before it, and there are no others, unless
the action stumbles; if it does, it fails. -/
structure Balances (a : Action α) (p : Printer) (folds : Array Fold) : Prop where
  exists_path : ∃ q folds', (a.perform ⟨.printer p, folds⟩).2 = ⟨.printer q, folds'⟩ ∧
    p.path <:+ q.path ∧ (q.path = p.path ↔ ¬a.Stumbles ⟨.printer p, folds⟩)
  fails : a.Stumbles ⟨.printer p, folds⟩ → ∃ e t, a ⟨.printer p, folds⟩ = .error e t

theorem Settles.balances {p : Printer} {folds : Array Fold} (hp : p.stopped = none)
    (h : a.Settles ⟨.printer p, folds⟩ p.path) : a.Balances p folds := by
  have hs : Stream.Open p.path ⟨.printer p, folds⟩ := .printer hp folds
  have hperform : (a.perform ⟨.printer p, folds⟩).2.Open p.path ∨ a.Stumbles ⟨.printer p, folds⟩ := by
    unfold perform
    cases hrun : a ⟨.printer p, folds⟩ with
    | ok x t => exact .inl ((leaves_of_ok hrun).mp h)
    | error e t => exact (leaves_of_error hrun).mp h
  -- an action that stumbles leaves at least one block more, so the path tells the two cases apart
  by_cases hstumbles : a.Stumbles ⟨.printer p, folds⟩
  · have hleft := hstumbles.leaves hs
    cases hrun : a ⟨.printer p, folds⟩ with
    | ok x t => exact ((leaves_of_ok hrun).mp hleft).elim
    | error e t =>
      obtain ⟨-, more, hmore, ht⟩ := (leaves_of_error hrun).mp hleft
      obtain ⟨q, folds', rfl, hpath⟩ := ht.exists_printer
      refine ⟨⟨q, folds', by rw [perform, hrun], ⟨more, hpath.symm⟩, ?_⟩, fun _ => ⟨e, _, hrun⟩⟩
      rw [hpath]
      simpa [hstumbles] using hmore
  · obtain ⟨q, folds', heq, hpath⟩ := (hperform.resolve_right hstumbles).exists_printer
    exact ⟨⟨q, folds', heq, hpath ▸ List.suffix_rfl, iff_of_true hpath hstumbles⟩,
      fun h => absurd h hstumbles⟩

theorem Balances.not_stumbles {p : Printer} {folds : Array Fold} (h : a.Balances p folds)
    (hpath : (a.perform ⟨.printer p, folds⟩).2.path = p.path) : ¬a.Stumbles ⟨.printer p, folds⟩ := by
  obtain ⟨q, folds', heq, -, hiff⟩ := h.exists_path
  rw [heq] at hpath
  exact hiff.mp hpath

/-- **Blocks are balanced**: behind a formatter that is run on a printer, behind a value that is
printed to it, and behind whatever else begins and ends blocks around actions only. -/
theorem balances_of_unharmed {p : Printer} (hp : p.stopped = none) (folds : Array Fold) :
    (∀ (f : Formatter) (limits : Limits) (route : Route) (c : Cursor),
      (f.apply limits route c).Balances p folds) ∧
    (∀ (route : Route) (o : Options) (v : Value), (print route o v).Balances p folds) ∧
    ∀ a : Action Unit, a.Orderly → a.Balances p folds := by
  have hs : Stream.Open p.path ⟨.printer p, folds⟩ := .printer hp folds
  refine ⟨fun f limits route c => ?_, fun route o v => ?_, fun a ha => ?_⟩
  · refine Settles.balances hp (Settles.bind (a := device) hs hs ?_)
    rintro _ _ ⟨⟩ -
    exact (Orderly.run limits route f.nodes c).settles hs
  · exact ((Orderly.print route o v).settles hs).balances hp
  · exact (ha.settles hs).balances hp

/-- A formatter fails inside of a block whose text passes a fold, behind another block that has been
refused; and so does what an object might do to lay itself out. -/
theorem balances_of_unharmed_refused :
    ∃ p f, Printer.create { level := some 1 } none 0 = .ok p ∧ p.stopped = none ∧
      Formatter.ofSource (.text "~(~<A~<B~:>~D~:>~)".toList) = .ok f ∧
      (let run := f.apply .standard {} (.ofList [.list [.list []]]);
      (run.perform ⟨.printer p, #[]⟩).1.toOption.isNone = true ∧
        (run.perform ⟨.printer p, #[]⟩).2.path = p.path ∧ ¬run.Stumbles ⟨.printer p, #[]⟩) ∧
      (let block := within {} none ['('] [] [')'] (throw .wrongValue);
      block.Orderly ∧ (block.perform ⟨.printer p, #[]⟩).2.path = p.path ∧
        ¬block.Stumbles ⟨.printer p, #[]⟩) := by
  let p : Printer := {
    base := { column := 0, maxColumn := some 72, options := { level := some 1 } }
    options := { level := some 1 } }
  let run (f : Formatter) := f.apply .standard {} (.ofList [.list [.list []]])
  obtain ⟨hformatters, -, horderly⟩ := balances_of_unharmed (p := p) rfl #[]
  obtain ⟨f, hf, hresult⟩ := exists_of_toOption
    (x := Formatter.ofSource (.text "~(~<A~<B~:>~D~:>~)".toList)) (b := (true, [0]))
    (f := fun f => (((run f).perform ⟨.printer p, #[]⟩).1.toOption.isNone,
      ((run f).perform ⟨.printer p, #[]⟩).2.path)) (by decide +kernel)
  obtain ⟨hfails, hpath⟩ := Prod.mk.inj hresult
  have hblock : Orderly (within {} none ['('] [] [')'] (throw .wrongValue)) :=
    .within _ _ _ _ _ (.throw _)
  exact ⟨p, f, rfl, rfl, hf, ⟨hfails, hpath, (hformatters f _ _ _).not_stumbles hpath⟩,
    hblock, by decide +kernel, (horderly _ hblock).not_stumbles (by decide +kernel)⟩

/-- **An indentation that is too large** for a line comes to light at the start of the next block. The
start fails, and the block stays open. -/
theorem exists_path_ne :
    ∃ p f, Printer.create {} (some 3) 0 = .ok p ∧ p.stopped = none ∧
      Formatter.ofSource (.text "~99999999999999999999I~:@_~<abc~;d~:>".toList) = .ok f ∧
      let outcome := (f.apply .standard {} (.ofList [.list [.int 1]])).perform ⟨.printer p, #[]⟩
      outcome.1.toOption.isNone = true ∧ p.path = [0] ∧ outcome.2.path = [1, 0] := by
  let outcome (f : Formatter) := (f.apply .standard {} (.ofList [.list [.int 1]])).perform
    ⟨.printer {
      base := { column := 0, maxColumn := some 3, options := { rightMargin := some 3 } }
      options := { rightMargin := some 3 } }, #[]⟩
  obtain ⟨f, hf, hresult⟩ := exists_of_toOption
    (x := Formatter.ofSource (.text "~99999999999999999999I~:@_~<abc~;d~:>".toList))
    (f := fun f => ((outcome f).1.toOption.isNone, (outcome f).2.path)) (b := (true, [1, 0]))
    (by decide +kernel)
  obtain ⟨hfails, hpath⟩ := Prod.mk.inj hresult
  exact ⟨_, f, rfl, rfl, hf, hfails, rfl, hpath⟩

end Action

end Tilde
