import Tilde.Proofs.Print.Literal
import Tilde.Proofs.Sheet.Unharmed

/-!
# Literals are printed as they are written

**`toText_literal`**: the printed form of a literal is its written form, in which a line break with
the spaces behind it may stand for a space if lines are broken. There is such a form unless calls run
out or there is no memory for a text of this length.

* `Printer.respaced_output`, `Printer.unharmed_flush`: a flush outputs the words that have been said;
* `Value.toText_of_delivers`: the printed form, if it is known how the value is printed.
-/

namespace Tilde

namespace Saying

variable {pretty : Bool} {ss : List Stroke} {w : Text}

theorem steps_flush (h : Saying pretty ss w) :
    ∃ ψ, Ending.Steps pretty .word (ss ++ [.flush]) ψ := by
  obtain ⟨ψ, hss⟩ := h.steps .word
  exact ⟨_, hss.append (.cons .flush (.nil _))⟩

theorem text_flush (h : Saying pretty ss w) :
    ((ss ++ [Stroke.flush]).foldl Account.stroke {}).text = w := by
  rw [List.foldl_append]
  exact h.text {}

theorem sayable (h : Saying pretty ss w) (hshort : pretty = true → w.length < Text.memoryLimit) :
    Sayable pretty (ss ++ [.flush]) :=
  ⟨h.steps_flush, by rwa [h.text_flush]⟩

end Saying

/-! ## The last flush -/

namespace Printer

variable {pretty : Bool} {o : Options} {p q : Printer} {ss : List Stroke}

/-- Strokes from the beginning. -/
theorem drawn_of_create (hcreate : create o none 0 = .ok p) (hss : Strokes p ss q)
    (hfree : ∀ s ∈ ss, s.NewlineFree) :
    Buffered q ∧ Drawn 0 ss q.path q q.buffer ∧ Flat q q.buffer := by
  have hp := buffered_create hcreate
  have hflat := flat_create hcreate
  exact ⟨hp.strokes hss, drawn_strokes hp (drawn_create (Int.le_refl 0) hcreate) hflat hss hfree,
    flat_strokes hp hflat hss hfree⟩

/-- Words that have been said are output by a flush. -/
theorem respaced_output {ψ : Ending} (hcreate : create o none 0 = .ok p)
    (hss : Strokes p (ss ++ [.flush]) q) (hq : q.buffer = [])
    (hsteps : Ending.Steps pretty .word (ss ++ [.flush]) ψ) :
    respaced q.base.output = ((ss ++ [Stroke.flush]).foldl Account.stroke {}).text ∧
      (pretty = false → '\n' ∉ q.base.output) := by
  obtain ⟨-, hdrawn, -⟩ := drawn_of_create hcreate hss hsteps.newlineFree
  obtain ⟨first, waiting, S, n, π, heq, hrun, hshows, -, howed⟩ := hdrawn
  rw [hq] at howed
  obtain ⟨-, hnothing⟩ := howed.of_nil 0
  have hall : Sheet.Run 0 {} (ss ++ [.flush]) S := heq ▸ hrun.append (hnothing S)
  have hheld : S.held = [] := by
    obtain ⟨T, -, hflush⟩ := Sheet.run_append.mp hall
    cases hflush with
    | cons first rest =>
      cases rest
      cases first
      rfl
  have hspells := (Sheet.spells_nil pretty).run hsteps hall
  have htext := hspells.text
  rw [hheld, List.append_nil] at htext
  rw [hshows.output]
  exact ⟨htext, hspells.unbroken⟩

/-- The flush does no harm. -/
theorem unharmed_flush {k : Nat} (hcreate : create o none 0 = .ok p) (hss : p.Taken k ss q)
    (hsay : Sayable pretty (ss ++ [.flush])) (hk : ss.length + 1 < k) :
    (q.stroke .flush).stopped = none := by
  have hp : p.stopped = none ∧ p.room = none := by
    obtain ⟨o', -, rfl⟩ := exists_of_create hcreate
    exact ⟨rfl, rfl⟩
  obtain ⟨hq, hdrawn, hflat⟩ := drawn_of_create hcreate hss.strokes hsay.left.newlineFree
  refine unharmed_stroke hq hdrawn hflat (hss.unharmed hp.1) trivial hsay fun n hn => ?_
  have := hss.room (by simp [hp.2]) n hn
  omega

end Printer

theorem Stream.flushedOutput_of_stopped {q : Printer} {folds : Array Fold}
    (h : (q.stroke .flush).stopped = none) :
    flushedOutput { device := .printer q, folds := folds } = .ok (q.stroke .flush).base.output := by
  have hflush : q.flush = .ok (q.stroke .flush) := by
    show (q.stroke .flush).conclude = _
    rw [Printer.conclude, h]
  unfold flushedOutput
  dsimp only
  rw [hflush]

theorem Stream.eq_of_flushedOutput {q : Printer} {folds : Array Fold} {t : Text}
    (h : flushedOutput { device := .printer q, folds := folds } = .ok t) :
    (q.stroke .flush).stopped = none ∧ (q.stroke .flush).base.output = t := by
  unfold flushedOutput at h
  dsimp only at h
  cases hflush : q.flush with
  | error stop =>
    rw [hflush] at h
    cases h
  | ok r =>
    rw [hflush] at h
    obtain ⟨rfl, hs⟩ := Printer.eq_of_conclude hflush
    exact ⟨hs, Except.ok.inj h⟩

/-! ## The printed form -/

namespace Value

variable {pretty : Bool} {o : Options} {v : Value}

/-- The printed form of a value, if the strokes by which it is printed say its written form. -/
theorem toText_of_delivers {n room : Nat} {ss : List Stroke} (hss : Saying pretty ss v.written)
    (h : Action.Delivers { room := room - 2 } n (Action.print { room := room - 2 } o v) ss) :
    (∀ t, v.toText room o = .ok t → respaced t = v.written ∧ (pretty = false → '\n' ∉ t)) ∧
      (n + ss.length + 4 ≤ room → (pretty = true → v.written.length < Text.memoryLimit) →
        ∃ t, v.toText room o = .ok t) := by
  obtain ⟨p, hcreate⟩ : ∃ p, Printer.create o none 0 = .ok p := ⟨_, rfl⟩
  have hp : p.stopped = none ∧ p.closed = false ∧ p.path ≠ [] := by
    obtain ⟨o', -, rfl⟩ := Printer.exists_of_create hcreate
    exact ⟨rfl, rfl, by simp⟩
  have hresult := h p #[] hp.1 hp.2.1 hp.2.2
  unfold toText
  rw [hcreate]
  simp only [bind, Except.bind, Action.perform]
  cases hrun : Action.print { room := room - 2 } o v { device := .printer p } with
  | error e s =>
    rw [hrun] at hresult
    refine ⟨fun t ht => (by cases ht), fun hroom hshort => ?_⟩
    have hlength : (ss ++ [Stroke.flush]).length < room - 2 - n := by
      rw [List.length_append, List.length_singleton]
      omega
    have hall : p.Withstands (room - 2 - n) (ss ++ [.flush]) :=
      Printer.withstands_of_drawn (Printer.buffered_create hcreate)
        (Printer.drawn_create (Int.le_refl 0) hcreate) (Printer.flat_create hcreate) hp.1
        (hss.sayable hshort) hlength
    exact absurd hall.left (hresult.2.2 (by dsimp only; omega))
  | ok _ s =>
    rw [hrun] at hresult
    obtain ⟨q, rfl, htaken, -⟩ := hresult
    dsimp only
    refine ⟨fun t ht => ?_, fun hroom hshort => ?_⟩
    · obtain ⟨hs, rfl⟩ := Stream.eq_of_flushedOutput ht
      obtain ⟨ψ, hsteps⟩ := hss.steps_flush
      have hflush : Printer.Strokes q [.flush] (q.stroke .flush) := .cons q.room trivial hs (.nil _)
      rw [← hss.text_flush]
      exact Printer.respaced_output hcreate (htaken.strokes.append hflush) rfl hsteps
    · refine ⟨_, Stream.flushedOutput_of_stopped ?_⟩
      refine Printer.unharmed_flush hcreate htaken (hss.sayable hshort) ?_
      dsimp only
      omega

/-- **Literals are printed as they are written**, with any margin and any miser width. -/
theorem toText_literal (hv : v.Literal) :
    ∃ calls, ∀ (pretty : Bool) (margin miser : Option Int) (room : Nat),
      let result := v.toText room { rightMargin := margin, miserWidth := miser, pretty := pretty }
      (∀ t, result = .ok t → respaced t = v.written ∧ (pretty = false → t = v.written)) ∧
        (calls ≤ room → (pretty = true → v.written.length < Text.memoryLimit) →
          ∃ t, result = .ok t) := by
  have hprint (pretty : Bool) : Action.RecitesValue pretty v := Action.recites_print hv
  choose ss n _ hss hdelivers using hprint
  refine ⟨max (n false + (ss false).length + 4) (n true + (ss true).length + 4),
    fun pretty margin miser room => ?_⟩
  have husual : Options.Usual pretty
      { rightMargin := margin, miserWidth := miser, pretty := pretty } :=
    ⟨rfl, rfl, rfl, rfl, rfl, rfl, rfl⟩
  obtain ⟨hall, hsome⟩ := toText_of_delivers (hss pretty)
    (hdelivers pretty _ { room := room - 2 } husual rfl)
  refine ⟨fun t ht => ⟨(hall t ht).1, fun hpretty => ?_⟩, fun hroom => hsome ?_⟩
  · rw [← (hall t ht).1, respaced_of_flat ((hall t ht).2 hpretty)]
  · cases pretty <;> omega

theorem toText_literal_nested :
    ∃ (v : Value) (t : Text), v.Literal ∧
      v.toText 1000 { rightMargin := some 12, miserWidth := none, pretty := true } = .ok t ∧
      t = "['a b',\n (1.5,),\n \x7bNone: True\x7d,\n deque([-1,\n        []])]".toList ∧
      respaced t = v.written ∧ ∃ calls, ∀ room, calls ≤ room → ∃ t,
        v.toText room { rightMargin := some 12, miserWidth := none, pretty := true } = .ok t := by
  obtain ⟨v, hvalue⟩ : ∃ v : Value, v = .list [.text "a b".toList,
      .tuple [.float (.finite false 3 (-1))], .dict [(.nothing, .bool true)],
      .deque [.int (-1), .list []]] := ⟨_, rfl⟩
  have hv : v.Literal := by
    subst hvalue
    refine .list ?_
    simp only [List.forall_mem_cons, List.not_mem_nil, false_implies, implies_true, and_true]
    refine ⟨.text _, .tuple ?_, .dict ?_ ?_, .deque ?_⟩ <;>
      simp [Literal.float, Literal.nothing, Literal.bool, Literal.int, Literal.list]
  obtain ⟨t, ht, htext⟩ : ∃ t,
      v.toText 1000 { rightMargin := some 12, miserWidth := none, pretty := true } = .ok t ∧
        t = "['a b',\n (1.5,),\n \x7bNone: True\x7d,\n deque([-1,\n        []])]".toList := by
    subst hvalue
    exact exists_of_toOption (by decide +kernel)
  have hshort : v.written.length < Text.memoryLimit := by
    subst hvalue
    decide +kernel
  obtain ⟨calls, hfaithful⟩ := toText_literal hv
  exact ⟨v, t, hv, ht, htext, ((hfaithful true (some 12) none 1000).1 t ht).1, calls,
    fun room hroom => (hfaithful true (some 12) none room).2 hroom fun _ => hshort⟩

end Value

end Tilde
