import Mathlib.Data.List.Induction
import Tilde.Proofs.Fold.Route

/-!
# Folding in pieces

A fold gets its text piece by piece, and line breaks go past it. It makes of the pieces what it
would make of the whole text, unless one of them begins in the middle of a word: a sigma does not
see letters of other pieces, and the next letter does not see that a line has been ended.

* `Text.downcase_append`: where a text can be cut before it comes down;
* `Unsevered`: no piece begins in the middle of a word;
* **`Fold.takeAll_eq_apply`**: then the pieces are folded like the whole text;
* **`Action.output_calls`**: the same of calls to a column stream, none of which fails;
* `Action.exists_output_ne`: line breaks and sigmas in the middle of words.
-/

namespace Tilde

/-! ## Lower case -/

namespace Text

variable {s t before : Text}

theorem meetsCased_cons (c : Char) (s : Text) :
    meetsCased (c :: s) = if isSkipped c then meetsCased s else isCased c := by
  cases h : isSkipped c <;> simp [meetsCased, h]

theorem meetsCased_append (s t : Text) :
    meetsCased (s ++ t) = if s.all isSkipped then meetsCased t else meetsCased s := by
  induction s with
  | nil => rfl
  | cons c s ih =>
    rw [List.cons_append, meetsCased_cons, meetsCased_cons, ih]
    cases h : isSkipped c <;> simp [h]

theorem meetsCased_of_all (h : s.all isSkipped = true) : meetsCased s = false := by
  have hnil := meetsCased_append s []
  rwa [List.append_nil, if_pos h] at hnil

theorem meetsCased_sigma {c : Char} (hc : (c.toNat == 0x3A3) = true) (s : Text) :
    meetsCased (c :: s) = true := by
  have hskipped : isSkipped c = false := by
    rw [isSkipped, beq_iff_eq.mp hc]
    decide +kernel
  have hcased : isCased c = true := by
    rw [isCased, beq_iff_eq.mp hc]
    decide +kernel
  simp [meetsCased_cons, hskipped, hcased]

/-- The text behind matters only to a sigma at the end of a word that goes on there. -/
theorem downcaseAfter_append
    (h : ¬(meetsCased (s.reverse ++ before) = true ∧ meetsCased t = true)) :
    downcaseAfter before (s ++ t) =
      downcaseAfter before s ++ downcaseAfter (s.reverse ++ before) t := by
  induction s generalizing before with
  | nil => rfl
  | cons c s ih =>
    have hreverse : (c :: s).reverse ++ before = s.reverse ++ c :: before := by simp
    rw [hreverse] at h ⊢
    have hends (hc : (c.toNat == 0x3A3) = true) : endsWord before (s ++ t) = endsWord before s := by
      unfold endsWord
      rw [meetsCased_append s t]
      split_ifs with hall
      · have hsigma : meetsCased (s.reverse ++ c :: before) = true := by
          rw [meetsCased_append, if_pos (by simpa using hall), meetsCased_sigma hc]
        rw [meetsCased_of_all hall, Bool.eq_false_iff.mpr fun ht => h ⟨hsigma, ht⟩]
      · rfl
    rw [List.cons_append, downcaseAfter, downcaseAfter, ih h, List.append_assoc]
    by_cases hc : (c.toNat == 0x3A3) = true
    · rw [hends hc]
    · rw [if_neg hc, if_neg hc]

/-- The text before matters only to a sigma at the start of a word that comes from there. -/
theorem downcaseAfter_of_not_meetsCased {near far : Text}
    (h : ¬(meetsCased far = true ∧ meetsCased (near.reverse ++ t) = true)) :
    downcaseAfter (near ++ far) t = downcaseAfter near t := by
  induction t generalizing near with
  | nil => rfl
  | cons c t ih =>
    have hends (hc : (c.toNat == 0x3A3) = true) : endsWord (near ++ far) t = endsWord near t := by
      unfold endsWord
      rw [meetsCased_append near far]
      split_ifs with hall
      · have hsigma : meetsCased (near.reverse ++ c :: t) = true := by
          rw [meetsCased_append, if_pos (by simpa using hall), meetsCased_sigma hc]
        rw [meetsCased_of_all hall, Bool.eq_false_iff.mpr fun hfar => h ⟨hfar, hsigma⟩]
      · rfl
    have hfurther : ¬(meetsCased far = true ∧ meetsCased ((c :: near).reverse ++ t) = true) := by
      simpa using h
    have hrest : downcaseAfter (c :: (near ++ far)) t = downcaseAfter (c :: near) t := ih hfurther
    rw [downcaseAfter, downcaseAfter, hrest]
    by_cases hc : (c.toNat == 0x3A3) = true
    · rw [hends hc]
    · rw [if_neg hc, if_neg hc]

/-- **A text can be cut before it comes down, but not in a word.** -/
theorem downcase_append (h : ¬(meetsCased s.reverse = true ∧ meetsCased t = true)) :
    downcase (s ++ t) = downcase s ++ downcase t := by
  have hbehind : downcaseAfter [] (s ++ t) = downcaseAfter [] s ++ downcaseAfter s.reverse t := by
    have happend := @downcaseAfter_append s t []
    rw [List.append_nil] at happend
    exact happend h
  have hbefore : downcaseAfter s.reverse t = downcaseAfter [] t :=
    @downcaseAfter_of_not_meetsCased t [] s.reverse h
  rw [downcase, hbehind, hbefore]
  rfl

end Text

/-! ## Pieces -/

/-- What reaches a stream by way of a fold: a text that is folded, or a line break that is not. -/
inductive Piece
  | text (s : Text)
  | line
  deriving DecidableEq, Repr

namespace Piece

/-- What the piece adds to the whole text. -/
def content : Piece → Text
  | text s => s
  | line => ['\n']

/-- Behind this text, the piece begins in the middle of a word, and the fold cannot see it. -/
def Severs (mode : FoldMode) (before : Text) : Piece → Prop
  | text s => mode = .downcase ∧ Text.meetsCased before.reverse = true ∧ Text.meetsCased s = true
  | line => mode = .capitalize ∧ before.getLast?.any Text.isAlphanumeric = true

end Piece

/-- The whole text. -/
def whole (ps : List Piece) : Text := ps.flatMap Piece.content

theorem whole_append (ps qs : List Piece) : whole (ps ++ qs) = whole ps ++ whole qs :=
  List.flatMap_append

theorem whole_singleton (p : Piece) : whole [p] = p.content := List.flatMap_singleton ..

/-- No piece begins in the middle of a word. -/
def Unsevered (mode : FoldMode) (ps : List Piece) : Prop :=
  ∀ front p, front ++ [p] <+: ps → ¬p.Severs mode (whole front)

namespace Fold

variable {mode : FoldMode} {f : Fold} {s : Text} {p : Piece} {ps : List Piece}

/-- Folds one piece. -/
def take (f : Fold) : Piece → Fold × Text
  | .text s => f.apply s
  | .line => (f, ['\n'])

/-- Folds the pieces one after the other. -/
def takeAll (f : Fold) : List Piece → Fold × Text
  | [] => (f, [])
  | p :: ps =>
    let (f₁, t) := f.take p
    let (f₂, u) := f₁.takeAll ps
    (f₂, t ++ u)

theorem takeAll_append (f : Fold) (ps qs : List Piece) :
    f.takeAll (ps ++ qs) = (((f.takeAll ps).1.takeAll qs).1,
      (f.takeAll ps).2 ++ ((f.takeAll ps).1.takeAll qs).2) := by
  induction ps generalizing f with
  | nil => rfl
  | cons p ps ih => simp [takeAll, ih]

theorem takeAll_singleton (f : Fold) (p : Piece) : f.takeAll [p] = f.take p := by
  simp [takeAll]

theorem mode_steps (f : Fold) (s : Text) : (f.steps s).1.mode = f.mode := by
  induction s generalizing f with
  | nil => rfl
  | cons c s ih => simp [steps, ih, mode_step]

theorem apply_of_word (hmode : f.mode = .capitalize ∨ f.mode = .capitalizeFirst) (s : Text) :
    f.apply s = f.steps s := by
  unfold apply
  rcases hmode with h | h <;> rw [h]

/-- A fold that starts outside of words is in one if the last character was. -/
theorem inWord_steps (hmode : f.mode = .capitalize) (hword : f.inWord = false) (s : Text) :
    (f.steps s).1.inWord = s.getLast?.any Text.isAlphanumeric := by
  rw [steps_capitalize hmode, hword]
  cases s.getLast? <;> rfl

/-- Outside of words, a line break leaves a fold as it is. -/
theorem steps_newline (hmode : f.mode = .capitalize ∨ f.mode = .capitalizeFirst)
    (hword : f.mode = .capitalize → f.inWord = false) : f.steps ['\n'] = (f, ['\n']) := by
  have hnewline : Text.isAlphanumeric '\n' = false := by decide +kernel
  have hdown : Text.downcaseChar '\n' = ['\n'] := by decide +kernel
  obtain ⟨mode, inWord, started⟩ := f
  rcases hmode with rfl | rfl
  · obtain rfl : inWord = false := hword rfl
    simp [steps, step, hnewline]
  · simp [steps, step, hnewline, hdown]

theorem take_apply_of_word {w : Text} (hmode : mode = .capitalize ∨ mode = .capitalizeFirst)
    (h : ¬p.Severs mode w) :
    apply ⟨mode, false, false⟩ (w ++ p.content) =
      (((apply ⟨mode, false, false⟩ w).1.take p).1,
        (apply ⟨mode, false, false⟩ w).2 ++ ((apply ⟨mode, false, false⟩ w).1.take p).2) := by
  rw [apply_of_word hmode, apply_of_word hmode, steps_append]
  set f := (steps ⟨mode, false, false⟩ w).1 with hf
  have hf' : f.mode = mode := mode_steps _ w
  rw [← hf'] at hmode
  cases p with
  | text s => rw [Piece.content, take, apply_of_word hmode]
  | line =>
    have hword (hcapitalize : f.mode = .capitalize) : f.inWord = false := by
      obtain rfl := hf'.symm.trans hcapitalize
      rw [hf, inWord_steps rfl rfl]
      exact Bool.eq_false_iff.mpr fun hlast => h ⟨rfl, hlast⟩
    rw [Piece.content, take, steps_newline hmode hword]

/-- Behind a text that it has folded, a fold does with a piece what it would have done at once. -/
theorem take_apply {w : Text} (h : ¬p.Severs mode w) :
    apply ⟨mode, false, false⟩ (w ++ p.content) =
      (((apply ⟨mode, false, false⟩ w).1.take p).1,
        (apply ⟨mode, false, false⟩ w).2 ++ ((apply ⟨mode, false, false⟩ w).1.take p).2) := by
  cases mode with
  | downcase =>
    cases p with
    | text s => exact Prod.ext rfl (Text.downcase_append fun hsevers => h ⟨rfl, hsevers⟩)
    | line =>
      have hline : Text.meetsCased ['\n'] = false := by decide +kernel
      have hcontent : Text.downcase ['\n'] = ['\n'] := by decide +kernel
      refine Prod.ext rfl ((Text.downcase_append (t := ['\n']) ?_).trans ?_)
      · simp [hline]
      · rw [hcontent]
        rfl
  | upcase =>
    cases p with
    | text s => exact Prod.ext rfl (Text.upcase_append w s)
    | line =>
      have hcontent : Text.upcase ['\n'] = ['\n'] := by decide +kernel
      refine Prod.ext rfl ((Text.upcase_append w ['\n']).trans ?_)
      rw [hcontent]
      rfl
  | capitalize | capitalizeFirst => exact take_apply_of_word (by simp) h

/-- **Pieces that cut no word are folded like the whole text.** -/
theorem takeAll_eq_apply (h : Unsevered mode ps) :
    takeAll ⟨mode, false, false⟩ ps = apply ⟨mode, false, false⟩ (whole ps) := by
  induction ps using List.reverseRecOn with
  | nil => cases mode <;> rfl
  | append_singleton ps p ih =>
    have hps : Unsevered mode ps := fun front q hq =>
      h front q (hq.trans (List.prefix_append ps [p]))
    have hp := h ps p (List.prefix_refl _)
    rw [takeAll_append, takeAll_singleton, ih hps, whole_append, whole_singleton, take_apply hp]

end Fold

/-! ## Calls -/

/-- What a caller does to a stream. -/
inductive Call
  | write (s : Text)
  | endLine
  | freshLine
  deriving DecidableEq, Repr

namespace Action

variable {i : Nat} {f : Fold} {text : Text} {s : Stream} {route : Route}

/-- Makes a call along a route, and gives the pieces that it makes out. -/
def call (route : Route) : Call → Action (List Piece)
  | .write s => do
    write route s
    return [.text s]
  | .endLine => do
    endLine route
    return [.line]
  | .freshLine => do return if ← freshLine route then [.line] else []

/-- Makes the calls one after the other. -/
def calls (route : Route) : List Call → Action (List Piece)
  | [] => return []
  | x :: xs => do
    let ps ← call route x
    return ps ++ (← calls route xs)

theorem endLine_column {c : Column} {folds : Array Fold} (hc : c.closed = false)
    (hroom : route.folds.length + 2 ≤ route.room) :
    endLine route ⟨.column c, folds⟩ = .ok () ⟨.column (c.write ['\n']), folds⟩ :=
  (bind_of_ok (checkRoom_of_le hroom)).trans (put_column hc _ _ _)

theorem freshLine_column {c : Column} {folds : Array Fold} (hc : c.closed = false)
    (hroom : route.folds.length + 2 ≤ route.room) :
    freshLine route ⟨.column c, folds⟩ =
      if 0 < c.column then .ok true ⟨.column (c.write ['\n']), folds⟩
      else .ok false ⟨.column c, folds⟩ := by
  refine (bind_of_ok (checkRoom_of_le hroom)).trans ?_
  show (if 0 < c.column then endLine route >>= fun _ => pure true else pure false : Action Bool)
    ⟨.column c, folds⟩ = _
  split_ifs
  · rw [bind_of_ok (endLine_column hc hroom)]
    rfl
  · rfl

theorem write_column {c : Column} {folds : Array Fold} (hc : c.closed = false)
    (hf : folds[i]? = some f) (hfolds : route.folds = [i]) (hroom : 5 ≤ route.room) :
    write route text ⟨.column c, folds⟩ =
      .ok () ⟨.column (c.write (f.apply text).2), folds.setIfInBounds i (f.apply text).1⟩ := by
  have hfold : fold route text ⟨.column c, folds⟩ =
      .ok (f.apply text).2 ⟨.column c, folds.setIfInBounds i (f.apply text).1⟩ := by
    have honce := foldOnce_eq i text ⟨.column c, folds⟩
    rw [pass_of_some hf] at honce
    rw [fold, hfolds, List.foldlM_cons, bind_of_ok honce]
    rfl
  have hcheck : route.folds.length + 4 ≤ route.room := by simpa [hfolds] using hroom
  rw [write, bind_of_ok (checkRoom_of_le hcheck), bind_of_ok hfold]
  exact put_column hc _ _ _

/-- The device is an open column stream that has put the text out, and this is the fold now. -/
structure Folding (i : Nat) (f : Fold) (text : Text) (c : Column) (folds : Array Fold) : Prop where
  opened : c.closed = false
  output : c.output = text
  fold : folds[i]? = some f

/-- **One call puts out what the fold makes of its pieces.** -/
theorem folding_call {c : Column} {folds : Array Fold} (h : Folding i f text c folds)
    (hfolds : route.folds = [i]) (hroom : 5 ≤ route.room) (x : Call) :
    ∃ ps c' folds', call route x ⟨.column c, folds⟩ = .ok ps ⟨.column c', folds'⟩ ∧
      Folding i (f.takeAll ps).1 (text ++ (f.takeAll ps).2) c' folds' := by
  have hcheck : route.folds.length + 2 ≤ route.room := by
    rw [hfolds, List.length_singleton]
    omega
  have hline : Folding i f (text ++ ['\n']) (c.write ['\n']) folds := by
    refine ⟨by simpa using h.opened, ?_, h.fold⟩
    rw [Column.output_write c _ h.opened, h.output]
  cases x with
  | write s =>
    refine ⟨[.text s], c.write (f.apply s).2, folds.setIfInBounds i (f.apply s).1, ?_, ?_, ?_, ?_⟩
    · rw [call, bind_of_ok (write_column h.opened h.fold hfolds hroom)]
      rfl
    · simpa using h.opened
    · rw [Column.output_write c _ h.opened, h.output, Fold.takeAll_singleton, Fold.take]
    · obtain ⟨hlt, -⟩ := Array.getElem?_eq_some_iff.mp h.fold
      rw [Fold.takeAll_singleton, Fold.take, Array.getElem?_setIfInBounds_self_of_lt hlt]
  | endLine =>
    refine ⟨[.line], c.write ['\n'], folds, ?_, hline⟩
    rw [call, bind_of_ok (endLine_column h.opened hcheck)]
    rfl
  | freshLine =>
    have hfresh := @freshLine_column _ _ folds h.opened hcheck
    by_cases hcolumn : 0 < c.column
    · refine ⟨[.line], c.write ['\n'], folds, ?_, hline⟩
      rw [if_pos hcolumn] at hfresh
      rw [call, bind_of_ok hfresh]
      rfl
    · refine ⟨[], c, folds, ?_, h.opened, by simpa [Fold.takeAll] using h.output, h.fold⟩
      rw [if_neg hcolumn] at hfresh
      rw [call, bind_of_ok hfresh]
      rfl

theorem folding_calls {c : Column} {folds : Array Fold} (h : Folding i f text c folds)
    (hfolds : route.folds = [i]) (hroom : 5 ≤ route.room) (xs : List Call) :
    ∃ ps c' folds', calls route xs ⟨.column c, folds⟩ = .ok ps ⟨.column c', folds'⟩ ∧
      Folding i (f.takeAll ps).1 (text ++ (f.takeAll ps).2) c' folds' := by
  induction xs generalizing f text c folds with
  | nil => exact ⟨[], c, folds, rfl, h.opened, by simpa [Fold.takeAll] using h.output, h.fold⟩
  | cons x xs ih =>
    obtain ⟨ps, c₁, folds₁, hcall, h₁⟩ := folding_call h hfolds hroom x
    obtain ⟨qs, c₂, folds₂, hcalls, h₂⟩ := ih h₁
    refine ⟨ps ++ qs, c₂, folds₂, ?_, ?_⟩
    · rw [calls, bind_of_ok hcall, bind_of_ok hcalls]
      rfl
    · rw [Fold.takeAll_append]
      simpa using h₂

/-- **Calls fold their text as if it had been written at once**, if no piece of it begins in the
middle of a word; and they never fail. -/
theorem output_calls {mode : FoldMode} {c : Column} {folds : Array Fold} (hc : c.closed = false)
    (hf : folds[i]? = some ⟨mode, false, false⟩) (hroom : 5 ≤ route.room)
    (hfolds : route.folds = [i]) (xs : List Call) :
    ∃ ps c' folds', calls route xs ⟨.column c, folds⟩ = .ok ps ⟨.column c', folds'⟩ ∧
      (Unsevered mode ps →
        c'.output = c.output ++ (Fold.apply ⟨mode, false, false⟩ (whole ps)).2) := by
  obtain ⟨ps, c', folds', hcalls, h⟩ := folding_calls ⟨hc, rfl, hf⟩ hfolds hroom xs
  refine ⟨ps, c', folds', hcalls, fun hps => ?_⟩
  rw [h.output, Fold.takeAll_eq_apply hps]

/-- A line is ended behind a space, so the word after it is capitalized. -/
theorem output_calls_capitalize :
    let xs : List Call := [.write "ab ".toList, .freshLine, .write "cd".toList]
    ∃ ps c folds, calls { folds := [0] } xs ⟨.column {}, #[⟨.capitalize, false, false⟩]⟩ =
        .ok ps ⟨.column c, folds⟩ ∧ Unsevered .capitalize ps ∧
      c.output = (Fold.apply ⟨.capitalize, false, false⟩ (whole ps)).2 ∧
      whole ps = "ab \ncd".toList := by
  intro xs
  obtain ⟨ps, c, folds, hcalls, h⟩ := @output_calls 0 { folds := [0] } .capitalize {}
    #[⟨.capitalize, false, false⟩] rfl rfl (by decide) rfl xs
  have hps : ps = [.text "ab ".toList, .line, .text "cd".toList] := by
    have hpieces : (match
          calls { folds := [0] } xs ⟨.column {}, #[⟨.capitalize, false, false⟩]⟩ with
        | .ok ps _ => some ps
        | .error .. => none) = some [.text "ab ".toList, .line, .text "cd".toList] := by
      decide +kernel
    rw [hcalls] at hpieces
    exact Option.some.inj hpieces
  have hunsevered : Unsevered .capitalize ps := by
    rintro front (s | _) hprefix ⟨hmode, hlast⟩
    · cases hmode
    · rw [hps] at hprefix
      match front with
      | [] | [a, b] | a :: b :: d :: front => simp at hprefix
      | [a] =>
        obtain ⟨rfl, -⟩ := List.cons_prefix_cons.mp hprefix
        revert hlast
        decide +kernel
  exact ⟨ps, c, folds, hcalls, hunsevered, h hunsevered, by rw [hps]; rfl⟩

/-- **Words go on where they should not**, or end where they should not: behind a line break, and in
the middle of a Greek word. -/
theorem exists_output_ne :
    (∃ ps c folds, calls { folds := [0] } [.write "ab".toList, .freshLine, .write "cd".toList]
        ⟨.column {}, #[⟨.capitalize, false, false⟩]⟩ = .ok ps ⟨.column c, folds⟩ ∧
      c.output = "Ab\ncd".toList ∧
      (Fold.apply ⟨.capitalize, false, false⟩ (whole ps)).2 = "Ab\nCd".toList) ∧
    ∃ ps c folds, calls { folds := [0] } [.write "ΑΣ".toList, .write "Α".toList]
        ⟨.column {}, #[⟨.downcase, false, false⟩]⟩ = .ok ps ⟨.column c, folds⟩ ∧
      c.output = "αςα".toList ∧
      (Fold.apply ⟨.downcase, false, false⟩ (whole ps)).2 = "ασα".toList := by
  refine ⟨⟨_, _, _, rfl, ?_, ?_⟩, ⟨_, _, _, rfl, ?_, ?_⟩⟩ <;> decide +kernel

end Action

end Tilde
