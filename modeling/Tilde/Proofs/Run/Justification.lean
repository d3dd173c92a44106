import Tilde.Format.Run
import Tilde.Proofs.Field.Justified
import Tilde.Proofs.Value.Integer

/-!
# Running a justification

A justification renders its clauses, lays their texts out over its field and writes them as one
text. The layout by the rules for values is the one on integers where the settings are integers,
however large they are; only padding for which there is no memory is refused.

* `plan_settings`, `spread_settings`, `text_settings`: the layout by the rules for values;
* `exists_layOut`: the layout of either kind;
* `writeOverflow`: what is written in front of a field that does not fit on the line;
* **`runJustification_justifies`**: a justification writes a justified text.
-/

namespace Tilde

/-! ## The layout by the rules for values -/

namespace Justification

/-- Settings that are whole numbers, and a text for padding. -/
def settings (j : Justification) : JustificationSettings where
  width := .int j.width
  step := .int j.step
  least := .int j.least
  pad := .text j.pad
  before := j.before
  after := j.after

variable {j : Justification} {c : Char} {parts : List Text}

/-- Ordinary settings make the justification. -/
theorem style?_settings {k : Justification} (h : j.settings.style? = some k) : k = j := by
  unfold JustificationSettings.style? at h
  simp only [bind, Option.bind_eq_some_iff] at h
  obtain ⟨width, hwidth, step, hstep, least, hleast, pad, hpad, h⟩ := h
  obtain rfl := Value.ordinary?_eq hwidth
  obtain rfl := Value.ordinary?_eq hstep
  obtain rfl := Value.ordinary?_eq hleast
  obtain rfl : j.pad = pad := Option.some.inj hpad
  exact (Option.some.inj h).symm

theorem plan_settings (hstep : 1 ≤ j.step) (parts : List Text) :
    j.settings.plan parts =
      .ok ⟨.int (j.columns parts), .int (j.share parts), .int (j.extra parts)⟩ := by
  have hslots : 0 < j.slots parts := by
    unfold slots
    omega
  have hshape : j.settings.shape.slots parts = j.slots parts := rfl
  unfold JustificationSettings.plan
  simp only [hshape, show j.settings.width = .int j.width from rfl,
    show j.settings.step = .int j.step from rfl, show j.settings.least = .int j.least from rfl,
    Value.times_integer, Value.plus_integer, Value.minus_integer, Value.atMost_integer,
    Value.floorQuotient_integer _ hslots, Value.floorQuotient_integer _ (show 0 < j.step by omega),
    Value.larger_integer, ok_bind, decide_eq_true_eq, pure, Except.pure]
  unfold extra share columns
  dsimp only
  split_ifs <;> rfl

/-- The padding of a slot, where padding can be repeated so often. -/
theorem slot_settings (hpad : j.pad = [c]) {share : Int}
    (hshare : (Value.text [c]).times (.int share) = .ok (.text (Text.times [c] share)))
    (extra : Int) (i : Nat) :
    j.settings.slot (.int share) (.int (extra - i)) true =
      .ok (j.slot share extra i, true, .int (extra - (i + 1 : Nat))) := by
  have hmore : (0 < extra - i) ↔ (i : Int) < extra := by omega
  unfold JustificationSettings.slot slot
  simp only [show j.settings.pad = .text j.pad from rfl, hpad, hshare, if_true, Functor.map,
    Except.map, JustificationSettings.padding, ok_bind, Value.less_integer, Value.minus_integer,
    decide_eq_true_eq, hmore]
  split_ifs <;> simp [pure, Except.pure, bind, Except.bind] <;> omega

/-- The texts from a slot on. What is left for the slots is used up behind the last of them. -/
theorem spread_settings (hpad : j.pad = [c]) {share : Int}
    (hshare : (Value.text [c]).times (.int share) = .ok (.text (Text.times [c] share)))
    (parts : List Text) (extra : Int) (i : Nat)
    (hextra : extra ≤ i + (parts.length - 1 : Nat) + (if j.after then 1 else 0 : Nat)) :
    j.settings.spread (.int share) (.int (extra - i)) parts =
      .ok (j.spread share extra i parts, true) := by
  induction parts generalizing i with
  | nil => rfl
  | cons part rest ih =>
    cases rest with
    | nil =>
      unfold JustificationSettings.spread spread
      cases hafter : j.after with
      | true =>
        simp only [List.isEmpty_nil, show j.settings.after = true from hafter, Bool.not_true,
          Bool.or_true, slot_settings hpad hshare, ok_bind, if_true]
        simp [JustificationSettings.spread, pure, Except.pure, bind, Except.bind]
      | false =>
        -- nothing is left over, so that the last text stands at the end
        have hnone : ¬(i : Int) < extra := by
          simp [hafter] at hextra
          omega
        simp [JustificationSettings.slot, JustificationSettings.spread, Value.less_integer,
          Value.minus_integer, hnone, show j.settings.after = false from hafter, pure, Except.pure,
          bind, Except.bind]
    | cons next rest =>
      have hrest := ih (i + 1) (by simp at hextra ⊢; omega)
      unfold JustificationSettings.spread
      simp only [List.isEmpty_cons, Bool.not_false, Bool.true_or, slot_settings hpad hshare,
        ok_bind, hrest]
      rfl

/-- The justified texts, where padding can be repeated as often as it is shared out; otherwise they
are refused for the same reason. -/
theorem text_settings (hpad : j.pad = [c]) (hne : parts ≠ []) (hstep : 1 ≤ j.step) :
    j.settings.text ⟨.int (j.columns parts), .int (j.share parts), .int (j.extra parts)⟩ parts =
      (do
        discard ((Value.text [c]).times (.int (j.share parts)))
        return j.text parts) := by
  obtain ⟨-, -, hfew, -⟩ := share_extra hne hstep
  have hbefore : (j.settings.shape.padsBefore parts && !parts.isEmpty) = j.padsBefore parts := by
    show (j.padsBefore parts && !parts.isEmpty) = _
    simp [hne]
  unfold JustificationSettings.text text
  simp only [hbefore, if_neg (show ¬parts.isEmpty = true by simpa using hne)]
  cases hshare : (Value.text [c]).times (.int (j.share parts)) with
  | error e =>
    have hslot : ∀ extra, j.settings.slot (.int (j.share parts)) extra true = .error e := by
      intro extra
      unfold JustificationSettings.slot
      rw [if_pos rfl, show j.settings.pad = .text [c] from congrArg Value.text hpad, hshare]
      rfl
    cases hfirst : j.padsBefore parts with
    | true =>
      rw [if_pos rfl, hslot]
      rfl
    | false =>
      -- a text without padding in front of it has some behind it
      obtain ⟨part, rest, rfl⟩ := List.exists_cons_of_ne_nil hne
      have hwanted : (!rest.isEmpty || j.settings.after) = true := by
        show (!rest.isEmpty || j.after) = true
        unfold padsBefore at hfirst
        cases rest <;> simp_all
      unfold JustificationSettings.spread
      rw [if_neg Bool.false_ne_true, hwanted]
      simp only [pure, Except.pure, ok_bind, hslot]
      rfl
  | ok padding =>
    rw [Value.eq_times_of_times hshare] at hshare
    have hgaps := hfew.le
    unfold gapCount at hgaps
    cases hfirst : j.padsBefore parts with
    | true =>
      have hslot := slot_settings hpad hshare (j.extra parts) 0
      have hrest := spread_settings hpad hshare parts (j.extra parts) 1 (by
        rw [hfirst, if_pos rfl] at hgaps
        omega)
      simp only [Nat.cast_zero, Int.sub_zero] at hslot
      simp only [if_true, hslot, hrest, ok_bind, Nat.zero_add]
      rfl
    | false =>
      have hrest := spread_settings hpad hshare parts (j.extra parts) 0 (by
        rw [hfirst, if_neg Bool.false_ne_true] at hgaps
        omega)
      simp only [Nat.cast_zero, Int.sub_zero] at hrest
      simp only [pure, Except.pure, hrest, ok_bind, Bool.false_eq_true, if_false, if_true,
        Bool.and_self, List.nil_append]
      rfl

/-- The layout of the texts, by the rules for integers or by those for values. -/
theorem exists_layOut (hpad : j.pad = [c]) (hne : parts ≠ []) (hleast : 0 ≤ j.least)
    (hstep : 1 ≤ j.step) :
    ∃ written, Action.layOut j.settings parts = .ok (.int (j.text parts).length, written) ∧
      (∀ t, written = .ok t → t = j.text parts) ∧
      ((j.text parts).length < Text.memoryLimit → written = .ok (j.text parts)) := by
  have hlength := length_text hpad hne hleast hstep
  unfold Action.layOut
  rw [hlength]
  cases hstyle : j.settings.style? with
  | some k =>
    rw [style?_settings hstyle]
    exact ⟨.ok (j.text parts), rfl, fun t ht => (Except.ok.inj ht).symm, fun _ => rfl⟩
  | none =>
    simp only [plan_settings hstep, ok_bind, text_settings hpad hne hstep]
    refine ⟨_, rfl, fun t ht => ?_, fun hfits => ?_⟩
    · obtain ⟨-, -, ht⟩ := exists_of_bind_ok ht
      exact (Except.ok.inj ht).symm
    · -- no slot is longer than the whole text
      obtain ⟨hshare, hextra, hfew, htotal⟩ := share_extra hne hstep
      have hmost : 1 * j.share parts ≤ j.gapCount parts * j.share parts :=
        Int.mul_le_mul_of_nonneg_right (by omega) (by omega)
      unfold characters at htotal
      rw [Value.times_of_fits c (by omega) (by omega)]
      rfl

end Justification

/-! ## The run -/

namespace Action

/-- Writes the overflow clause of a justification, if there is one and a field of so many columns
does not fit on the line. -/
def writeOverflow (route : Route) (overflow : Option (Text × Value × Value)) (columns : Value) :
    Action Unit :=
  match overflow with
  | none => pure ()
  | some (clause, spare, width) => do
    if ← lift (overflows (← device) spare width columns) then write route clause

theorem lift_ok {α : Type} (x : α) : lift (.ok x) = pure x := rfl

/-- **A justification** whose clauses render to at least one text writes these texts spread over its
field, with the padding shared out fairly, and in front of them nothing but the overflow clause if
the field does not fit on the line. Only a text for which there is no memory may not be written. -/
theorem runJustification_justifies {run : Runner} {route : Route} {head : Head}
    {clauses : List (List Node)} {separators : List Head} {c c₁ c₂ c₃ : Cursor} {s : Stream}
    {width step least : Int} {pad : Char} {overflow : Option (Text × Value × Value)}
    {texts : List Text}
    (hsettle : head.settle Group.justification.defaults c =
      .ok ([.int width, .int step, .int least, .text [pad]], c₁))
    (hoverflow : renderOverflow run route.room s.device.options clauses separators c₁ =
      .ok (overflow, c₂))
    (htexts : renderSegments run route.room s.device.options (segments clauses separators) c₂ =
      .ok (texts, c₃))
    (hne : texts ≠ []) (hstep : 1 ≤ step) (hleast : 0 ≤ least) :
    ∃ (gaps : List Nat) (text : Text) (written : Except Fault Text),
      Justification.Justifies ⟨width, step, least, [pad], head.colon, head.atSign⟩ pad texts gaps
        text ∧
      (∀ t, written = .ok t → t = text) ∧
      (text.length < Text.memoryLimit → written = .ok text) ∧
      runJustification run route head clauses separators c s =
        (do
          writeOverflow route overflow (.int text.length)
          write route (← lift written)
          return (c₃, none) : Action Tilde.Outcome) s := by
  obtain ⟨j, hj⟩ : ∃ j : Justification,
    j = ⟨width, step, least, [pad], head.colon, head.atSign⟩ := ⟨_, rfl⟩
  have hpad : j.pad = [pad] := by rw [hj]
  have hstep' : 1 ≤ j.step := by rwa [hj]
  have hleast' : 0 ≤ j.least := by rwa [hj]
  obtain ⟨written, hlayOut, hunique, hfits⟩ := j.exists_layOut hpad hne hleast' hstep'
  refine ⟨j.gaps texts, j.text texts, written, hj ▸ j.justified_text hpad hne hleast' hstep',
    hunique, hfits, ?_⟩
  have hpositive : (Value.int step).less (.int 1) = .ok false := by
    rw [Value.less_integer]
    simpa using hstep
  have hsettings : j.settings = {
      width := .int width
      step := .int step
      least := .int least
      pad := .text [pad]
      before := head.colon
      after := head.atSign } := by rw [hj]; rfl
  rw [hsettings] at hlayOut
  have hoptions : ∀ {α : Type} (k : Options → Action α),
      (currentOptions >>= k) s = k s.device.options s := fun _ => rfl
  unfold runJustification
  simp only [hsettle, lift_ok, pure_bind,
    show setting [Value.int width, .int step, .int least, .text [pad]] 1 = .int step from rfl,
    hpositive, Bool.false_eq_true, if_false]
  rw [hoptions]
  simp only [hoverflow, htexts, lift_ok, pure_bind,
    show setting [Value.int width, .int step, .int least, .text [pad]] 0 = .int width from rfl,
    show setting [Value.int width, .int step, .int least, .text [pad]] 2 = .int least from rfl,
    show setting [Value.int width, .int step, .int least, .text [pad]] 3 = .text [pad] from rfl,
    hlayOut]
  cases overflow with
  | none => rfl
  | some overflow =>
    obtain ⟨clause, spare, limit⟩ := overflow
    simp only [writeOverflow, bind_assoc]
    refine congrFun (bind_congr fun d => bind_congr fun wide => ?_) s
    cases wide <;> rfl

/-- Two texts in a field of eight columns, with dots between them and on both sides. -/
theorem runJustification_justifies_dotted :
    ∃ (gaps : List Nat) (text : Text) (written : Except Fault Text),
      Justification.Justifies ⟨8, 1, 0, ['.'], true, true⟩ '.' [['a', 'b'], ['c']] gaps text ∧
      (∀ t, written = .ok t → t = text) ∧
      (text.length < Text.memoryLimit → written = .ok text) ∧
      runJustification (runWithin 1 1) {}
          ⟨[.number 8, .absent, .absent, .character '.'], [], true, true, 0, 0⟩
          [[.text ['a', 'b']], [.text ['c']]] [] (.ofList []) { device := .column {} } =
        (do
          writeOverflow {} none (.int text.length)
          write {} (← lift written)
          return (.ofList [], none) : Action Tilde.Outcome) { device := .column {} } := by
  have hsettle : Head.settle ⟨[.number 8, .absent, .absent, .character '.'], [], true, true, 0, 0⟩
      Group.justification.defaults (.ofList []) =
        .ok ([.int 8, .int 1, .int 0, .text ['.']], .ofList []) := rfl
  have hoverflow : renderOverflow (runWithin 1 1) standardRoom {}
      [[.text ['a', 'b']], [.text ['c']]] [] (.ofList []) = .ok (none, .ofList []) := rfl
  have htexts : renderSegments (runWithin 1 1) standardRoom {} [[.text ['a', 'b']], [.text ['c']]]
      (.ofList []) = .ok ([['a', 'b'], ['c']], .ofList []) := by rfl
  exact runJustification_justifies (s := { device := .column {} }) hsettle hoverflow htexts
    (by decide) (by decide) (by decide)

end Action

end Tilde
