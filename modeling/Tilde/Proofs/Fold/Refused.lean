import Tilde.Proofs.Fold.Request
import Tilde.Proofs.Print.Element

/-!
# Refused blocks

A block is refused when blocks are nested too deeply, and the end of a block when none is open. The
printer does not change then. But the texts at the start of the block have passed the folds before
the printer refuses it, and the folds remember them (**`Action.like_of_refused`**).

* `advance`: the folds behind the texts at the start of a block;
* `Unseen`: none of the folds remembers anything of them;
* `Action.exists_refused_trace`: a word that is never written, and what becomes of the next one.
-/

namespace Tilde

variable {p : Printer} {folds : Array Fold} {route : Route}

/-- The folds of a route behind the texts at the start of a block, which pass each of them together,
the one at the start of all lines first. -/
def advance : List Nat → Text → Text → Array Fold → Array Fold
  | [], _, _, folds => folds
  | i :: is, perLine, opening, folds =>
    let (folds₁, perLine) := pass folds i perLine
    let (folds₂, opening) := pass folds₁ i opening
    advance is perLine opening folds₂

/-- None of the folds remembers anything of the texts at the start of a block. -/
def Unseen : List Nat → Text → Text → Array Fold → Prop
  | [], _, _, _ => True
  | i :: is, perLine, opening, folds =>
    (∀ f, folds[i]? = some f → f.Overlooks perLine ∧ f.Overlooks opening) ∧
      Unseen is (pass folds i perLine).2 (pass folds i opening).2 folds

theorem advance_of_unseen {is : List Nat} {perLine opening : Text}
    (h : Unseen is perLine opening folds) : advance is perLine opening folds = folds := by
  induction is generalizing perLine opening with
  | nil => rfl
  | cons i is ih =>
    obtain ⟨hoverlooks, hrest⟩ := h
    have hperLine : (pass folds i perLine).1 = folds := pass_fst fun f hf => (hoverlooks f hf).1
    have hopening : (pass folds i opening).1 = folds := pass_fst fun f hf => (hoverlooks f hf).2
    simp only [advance, hperLine, hopening]
    exact ih hrest

/-! ## The printer -/

namespace Printer

/-- A printer that refuses a block stays as it is: what goes wrong in the output of one is something
else. -/
theorem eq_of_begin_refused {q : Printer} {opening perLine closing : Text} {level : Option Int}
    {d : Nat} (hp : p.stopped = none)
    (h : p.begin opening perLine closing level = .error ⟨.levelExceeded d, q⟩) : q = p := by
  rcases strikes_begin hp opening perLine closing level with hstrikes | ⟨-, depth, hrefused⟩
  · rw [h] at hstrikes
    cases hstrikes.1
  · rw [h] at hrefused
    cases hrefused
    rfl

/-- A printer without open blocks stays as it is when one is ended. -/
theorem exists_finish_eq (hdepth : p.depth = 0) :
    ∃ e, p.finish = .error ⟨e, p⟩ ∧ (p.closed = false → e = .noOpenBlock) := by
  unfold finish whileOpen
  rw [hdepth]
  cases p.closed with
  | true => exact ⟨_, rfl, nofun⟩
  | false => exact ⟨_, rfl, fun _ => rfl⟩

theorem Standing.path_eq (h : p.Standing) (hdepth : p.depth = 0) : p.path = [0] := by
  have hlast := h.rooted.outermost
  unfold depth at hdepth
  match hpath : p.path with
  | [] => simp [hpath] at hlast
  | [i] => simpa [hpath] using hlast
  | i :: j :: path => simp [hpath] at hdepth

/-- Where there is no closing text, an empty one makes no difference. -/
theorem modifyBlock_of_nil {i : Nat} (h : (p.block i).closing = []) :
    p.modifyBlock i (fun b => { b with closing := [] }) = p := by
  have hblocks : p.blocks.modify i (fun b => { b with closing := [] }) = p.blocks := by
    apply Array.ext_getElem?
    intro j
    rw [Array.getElem?_modify]
    split_ifs with hij
    · subst hij
      cases hb : p.blocks[i]? with
      | none => rfl
      | some b =>
        rw [block, Array.getD_eq_getD_getElem?, hb, Option.getD_some] at h
        rw [Option.map_some, ← h]
    · rfl
  rw [modifyBlock, hblocks]

end Printer

namespace Action

/-! ## The start of a block -/

/-- The texts at the start of a block pass the folds. -/
theorem exists_foldStart (is : List Nat) (perLine opening : Text) (device : Device)
    (folds : Array Fold) : ∃ texts,
      (is.foldlM (fun (perLine, opening) i => do
        let perLine ← foldOnce i perLine
        let opening ← foldOnce i opening
        return (perLine, opening)) (perLine, opening) : Action (Text × Text)) ⟨device, folds⟩ =
      .ok texts ⟨device, advance is perLine opening folds⟩ := by
  induction is generalizing perLine opening folds with
  | nil => exact ⟨(perLine, opening), rfl⟩
  | cons i is ih =>
    obtain ⟨texts, htexts⟩ := ih (pass folds i perLine).2
      (pass (pass folds i perLine).1 i opening).2 (pass (pass folds i perLine).1 i opening).1
    refine ⟨texts, ?_⟩
    rw [List.foldlM_cons]
    refine (bind_of_ok ?_).trans htexts
    refine (bind_of_ok (foldOnce_eq i perLine _)).trans ?_
    exact (bind_of_ok (foldOnce_eq i opening _)).trans rfl

theorem error_of_onPrinter {room : Nat} {f : Printer → Except Printer.Stop Printer} {e : Fault}
    {s' : Stream} (h : onPrinter room f ⟨.printer p, folds⟩ = .error e s') :
    ∃ q, f { p with room := some (room - layoutCalls) } = .error ⟨e, q⟩ ∧
      s' = ⟨.printer q, folds⟩ := by
  cases hresult : f { p with room := some (room - layoutCalls) } with
  | ok q => simp [onPrinter, hresult] at h
  | error stop =>
    simp only [onPrinter, hresult] at h
    cases h
    exact ⟨stop.printer, rfl, rfl⟩

/-- **A block is refused behind the folds.** -/
theorem eq_of_begin_refused {opening perLine closing : Text} {level : Option Int} {d : Nat}
    {s' : Stream} (hp : p.stopped = none)
    (h : begin route opening perLine closing level ⟨.printer p, folds⟩ =
      .error (.levelExceeded d) s') :
    ∃ room, s' =
      ⟨.printer { p with room := room }, advance route.folds perLine opening folds⟩ := by
  unfold begin at h
  by_cases hroom : route.folds.length + 5 ≤ route.room
  · obtain ⟨⟨perLine', opening'⟩, htexts⟩ :=
      exists_foldStart route.folds perLine opening (.printer p) folds
    rw [bind_of_ok (checkRoom_of_le hroom), bind_of_ok htexts] at h
    obtain ⟨q, hbegin, rfl⟩ := error_of_onPrinter h
    set room := some (route.room - route.folds.length - layoutCalls)
    have hq := Printer.eq_of_begin_refused (p := { p with room := room }) hp hbegin
    exact ⟨room, by rw [hq]⟩
  · rw [checkRoom, if_pos (Nat.not_le.mp hroom)] at h
    cases h

/-! ## The end of a block -/

/-- Where there is no closing text, nothing is folded. -/
theorem foldClosing_of_nil (h : (p.block p.current).closing = []) (i : Nat) :
    foldClosing i ⟨.printer p, folds⟩ = .ok () ⟨.printer p, folds⟩ := by
  rw [foldClosing_eq, h, pass_nil, Printer.modifyBlock_of_nil h]

theorem forM_foldClosing_of_nil (h : (p.block p.current).closing = []) (is : List Nat) :
    is.forM foldClosing ⟨.printer p, folds⟩ = .ok () ⟨.printer p, folds⟩ := by
  induction is with
  | nil => rfl
  | cons i is ih => exact (bind_of_ok (foldClosing_of_nil h i)).trans ih

/-- **The end of a block that has not been begun leaves nothing behind.** -/
theorem exists_finish_eq (hp : p.Standing) (hdepth : p.depth = 0) :
    ∃ e s', finish route ⟨.printer p, folds⟩ = .error e s' ∧
      (p.closed = false → route.folds.length + 4 ≤ route.room → e = .noOpenBlock) ∧
      Stream.Like ⟨.printer p, folds⟩ s' := by
  have hclosing : (p.block p.current).closing = [] := by
    rw [Printer.current, hp.path_eq hdepth]
    exact hp.closing
  unfold finish
  by_cases hroom : route.folds.length + 4 ≤ route.room
  · rw [bind_of_ok (checkRoom_of_le hroom), bind_of_ok (forM_foldClosing_of_nil hclosing _)]
    set room := some (route.room - route.folds.length - layoutCalls)
    obtain ⟨e, hfinish, hfault⟩ := Printer.exists_finish_eq (p := { p with room := room }) hdepth
    refine ⟨e, _, ?_, fun hopen _ => hfault hopen, .room p folds room⟩
    simp only [onPrinter, hfinish, room]
  · rw [checkRoom, if_pos (Nat.not_le.mp hroom)]
    exact ⟨_, _, rfl, fun _ henough => absurd henough hroom, .same _⟩

/-! ## What is left behind -/

/-- **Where a block is refused, only the folds change**, and only by the texts at its start; if they
remember nothing of these, it is as if the block had never been tried. And so it is always if a
block is ended that has not been begun. -/
theorem like_of_refused (h : Stream.Reached ⟨.printer p, folds⟩) (route : Route) :
    (∀ opening perLine closing level d s',
      begin route opening perLine closing level ⟨.printer p, folds⟩ =
          .error (.levelExceeded d) s' →
        Stream.Like ⟨.printer p, advance route.folds perLine opening folds⟩ s' ∧
        (Unseen route.folds perLine opening folds →
          ∀ xs, (Stream.after ⟨.printer p, folds⟩ xs).Like (s'.after xs))) ∧
    (p.depth = 0 → ∃ e s', finish route ⟨.printer p, folds⟩ = .error e s' ∧
      (p.closed = false → route.folds.length + 4 ≤ route.room → e = .noOpenBlock) ∧
      ∀ xs, (Stream.after ⟨.printer p, folds⟩ xs).Like (s'.after xs)) := by
  have hstanding : p.Standing := by
    cases h.stands with
    | printer hp _ => exact hp
  refine ⟨fun opening perLine closing level d s' hrefused => ?_, fun hdepth => ?_⟩
  · obtain ⟨room, rfl⟩ := eq_of_begin_refused hstanding.unharmed hrefused
    refine ⟨.room _ _ _, fun hunseen => ?_⟩
    rw [advance_of_unseen hunseen]
    exact Stream.Like.after (.room p folds room)
  · obtain ⟨e, s', hfinish, hfault, hlike⟩ := exists_finish_eq hstanding hdepth
    exact ⟨e, s', hfinish, hfault, hlike.after⟩

/-- There has been a word already. -/
theorem like_of_refused_started :
    ∃ p s₁ s₂, Printer.create {} none 0 = .ok p ∧
      begin { folds := [0] } ['a'] [] ['z'] (some 0)
        ⟨.printer p, #[⟨.capitalizeFirst, false, true⟩]⟩ = .error (.levelExceeded 0) s₁ ∧
      (∀ xs, (Stream.after ⟨.printer p, #[⟨.capitalizeFirst, false, true⟩]⟩ xs).Like
        (s₁.after xs)) ∧
      p.depth = 0 ∧
      finish { folds := [0] } ⟨.printer p, #[⟨.capitalizeFirst, false, true⟩]⟩ =
        .error .noOpenBlock s₂ ∧
      ∀ xs, (Stream.after ⟨.printer p, #[⟨.capitalizeFirst, false, true⟩]⟩ xs).Like
        (s₂.after xs) := by
  have hcreate : Printer.create {} none 0 = .ok _ := rfl
  obtain ⟨hbegin, hfinish⟩ := like_of_refused
    (.create hcreate #[⟨.capitalizeFirst, false, true⟩]) { folds := [0] }
  obtain ⟨e, s₂, herror, hfault, hlater⟩ := hfinish rfl
  obtain rfl := hfault rfl (by decide)
  have hunseen : Unseen [0] [] ['a'] #[⟨.capitalizeFirst, false, true⟩] := by
    refine ⟨fun f hf => ?_, trivial⟩
    cases hf
    exact ⟨Or.inl rfl, Or.inl rfl⟩
  obtain ⟨-, hagain⟩ := hbegin ['a'] [] ['z'] (some 0) 0 _ rfl
  exact ⟨_, _, s₂, rfl, rfl, hagain hunseen, rfl, herror, hlater⟩

/-- **A word that is never written counts as the first one**, so that the next word is not
capitalized. -/
theorem exists_refused_trace :
    ∃ p s', Printer.create {} none 0 = .ok p ∧
      begin { folds := [0] } ['a'] [] [] (some 0)
        ⟨.printer p, #[⟨.capitalizeFirst, false, false⟩]⟩ = .error (.levelExceeded 0) s' ∧
      s'.folds = #[⟨.capitalizeFirst, false, true⟩] ∧
      (s'.after [({ folds := [0] }, .write ['b'])]).device.output = ['b'] ∧
      (Stream.after ⟨.printer p, #[⟨.capitalizeFirst, false, false⟩]⟩
        [({ folds := [0] }, .write ['b'])]).device.output = ['B'] := by
  refine ⟨_, _, rfl, rfl, ?_, ?_, ?_⟩ <;> decide +kernel

end Action

end Tilde
