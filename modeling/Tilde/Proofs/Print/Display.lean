import Tilde.Proofs.Layout.Invariant
import Tilde.Proofs.Print.Value

/-!
# The right margin

**`lawful_display`**: when a plain value is printed on a line of its own, every line that has a
separator is within the right margin.

* `printing_strokes`: the strokes that print elements, one after the other;
* `strokes_of_display`: what is done to print a value and to end the line.
-/

namespace Tilde

theorem Printer.Strokes.of_room {p q : Printer} {s : Stroke} {ss : List Stroke}
    {room : Option Nat} (h : Strokes { p with room := room } (s :: ss) q) :
    Strokes p (s :: ss) q := by
  cases h with
  | cons room' allowed unharmed rest => exact .cons room' allowed unharmed rest

theorem Action.strokes_of_endLine {route : Route} {p : Printer} {folds : Array Fold} {s : Stream}
    (hr : route.folds = [])
    (h : endLine route { device := .printer p, folds := folds } = .ok () s) :
    ∃ q, s = { device := .printer q, folds := folds } ∧
      Printer.Strokes p [.text [], .newline .literal, .text []] q := by
  have hend : endLine route { device := .printer p, folds := folds } =
      if route.room < 2 then .error .tooDeep { device := .printer p, folds := folds }
      else onPrinter route.room (·.write ['\n']) { device := .printer p, folds := folds } := by
    unfold endLine pastFolds checkRoom
    simp only [hr, List.length_nil, Nat.zero_add]
    split_ifs <;> rfl
  rw [hend] at h
  split_ifs at h
  unfold onPrinter at h
  dsimp only at h
  cases hwrite : { p with room := some (route.room - layoutCalls) }.write ['\n'] with
  | error stop =>
    rw [hwrite] at h
    cases h
  | ok q =>
    rw [hwrite] at h
    cases h
    have hss := Printer.strokes_of_write hwrite
    simp only [Stroke.ofText, if_true, List.reverse_nil] at hss
    exact ⟨q, rfl, hss.of_room⟩

namespace Printer

/-- What is done to print a plain value and to end the line. -/
theorem strokes_of_display {p q : Printer} {v : Value} {room : Nat}
    (hpretty : p.options.pretty = true) (hv : v.Plain) (hp : p.stopped = none)
    (h : p.display v room = .ok q) :
    ∃ ss r, Strokes p ss r ∧ Phase.Steps .element ss .ended ∧ r.close = .ok q := by
  have hprints := Action.prints_print hpretty hv { room := room } rfl p #[] hp
  unfold display Action.perform at h
  simp only [bind, EStateM.bind] at h
  cases hrun : Action.print { room := room } p.options v { device := .printer p } with
  | error e s =>
    rw [hrun] at h hprints
    obtain ⟨-, r, rfl, -⟩ := hprints
    simp at h
  | ok _ s =>
    rw [hrun] at h hprints
    obtain ⟨r, ss, rfl, hss, hsteps, -⟩ := hprints
    dsimp only at h
    cases hend : Action.endLine { room := room } { device := .printer r, folds := #[] } with
    | error e s =>
      rw [hend] at h
      obtain ⟨device, folds⟩ := s
      cases device <;> cases h
    | ok _ s =>
      obtain ⟨r', rfl, hss'⟩ := Action.strokes_of_endLine rfl hend
      rw [hend] at h
      exact ⟨_, r', hss.append hss', hsteps.append (.cons (.solid (by decide))
        (.cons .break_ (.cons .nothing (.nil _)))), h⟩

/-- Strokes that print elements keep to the margin. -/
theorem printing_strokes {w : Int} {φ ψ : Phase} {p q : Printer} {ss : List Stroke}
    (hp : Buffered p) (h : Printing w φ p p.buffer) (hss : Strokes p ss q)
    (hsteps : φ.Steps ss ψ) : Buffered q ∧ Printing w ψ q q.buffer := by
  induction hss generalizing φ with
  | nil p =>
    cases hsteps
    exact ⟨hp, h⟩
  | cons room allowed unharmed rest ih =>
    cases hsteps with
    | cons first steps =>
      have hp' := hp.room room
      have hstroke := (printing_stroking w).stroke _ first hp'
        ((printing_stroking w).restate _ _ _ _ room h) unharmed
      exact ih (hp'.stroke allowed unharmed) hstroke steps

theorem printing_create {o : Options} {w column : Int} {p : Printer} (hcolumn : 0 ≤ column)
    (h : create o (some w) column = .ok p) : Printing w .element p p.buffer := by
  have hbuffered := buffered_create h
  unfold create at h
  split_ifs at h with hw hsome
  · cases h
    refine ⟨[], rfl, rfl, ⟨by simp, Or.inl rfl⟩, hcolumn, Or.inl rfl, ?_, ?_, ?_, ?_,
      hbuffered.sound, ?_, ?_, ?_, ?_, ?_⟩
    all_goals simp [block_of_blocks, Solid, buffer, Buffer.toList, Separated, separator]
  · exact absurd rfl hsome

/-- **The right margin law.** In a plain value that is printed on a line of its own, every line with
a separator is within the right margin. -/
theorem lawful_display {o : Options} {w column : Int} {p q : Printer} {v : Value} {room : Nat}
    (hpretty : o.pretty = true) (hcolumn : 0 ≤ column) (hv : v.Plain)
    (hcreate : create o (some w) column = .ok p) (h : p.display v room = .ok q) :
    ∀ line ∈ q.base.output.splitOn '\n', separator <:+: line → (line.length : Int) ≤ w := by
  have hp : p.options.pretty = true ∧ p.stopped = none := by
    obtain ⟨o', rfl | rfl, rfl⟩ := exists_of_create hcreate <;> exact ⟨hpretty, rfl⟩
  obtain ⟨ss, r, hss, hsteps, hclose⟩ := strokes_of_display hp.1 hv hp.2 h
  obtain ⟨hr, hended⟩ :=
    printing_strokes (buffered_create hcreate) (printing_create hcolumn hcreate) hss hsteps
  cases hclosed : r.closed with
  | true =>
    have hq : r = q := by simpa [close, hclosed, pure, Except.pure] using hclose
    exact hq ▸ hended.lawful
  | false =>
    obtain ⟨hs, rfl⟩ := eq_of_close hclosed hclose
    exact ((printing_stroking w).stroke .ended .flush hr hended hs).lawful

theorem lawful_display_list :
    ∃ p q, create { pretty := true } (some 12) 0 = .ok p ∧
      p.display (.list [.int 1, .tuple [.int (-22)], .dict [(.int 4, .int 5)], .int 6]) = .ok q ∧
      q.base.output = "[1,\n (-22,),\n \x7b4: 5\x7d, 6]\n".toList ∧
      ∀ line ∈ q.base.output.splitOn '\n', separator <:+: line → (line.length : Int) ≤ 12 := by
  obtain ⟨p, hcreate⟩ : ∃ p, create { pretty := true } (some 12) 0 = .ok p := ⟨_, rfl⟩
  obtain ⟨q, hdisplay, houtput⟩ : ∃ q,
      p.display (.list [.int 1, .tuple [.int (-22)], .dict [(.int 4, .int 5)], .int 6]) = .ok q ∧
        q.base.output = "[1,\n (-22,),\n \x7b4: 5\x7d, 6]\n".toList := by
    cases hcreate
    exact exists_of_toOption (by decide +kernel)
  refine ⟨p, q, hcreate, hdisplay, houtput, ?_⟩
  refine lawful_display rfl (by decide) (.list ?_) hcreate hdisplay
  simp only [List.forall_mem_cons, List.not_mem_nil, false_implies, implies_true, and_true]
  refine ⟨.int _, .tuple ?_, .dict ?_ ?_, .int _⟩ <;>
    simp [Value.Plain.int]

end Printer

end Tilde
