import Tilde.Proofs.Cut.Write
import Tilde.Proofs.Sheet.Follow

/-!
# What lines end in

A conditional newline that breaks the line drops the white space held, that is what the last text
has ended in. White space that stands on the sheet already is not dropped: a further text of nothing
but white space, the start or the end of a block without a text, or a newline that does not break
has written it.

* `Shown`, `Mute`: the strokes that show something, and those that write at most the white space
  held;
* `EndsShown`, `EndsBlank`: what a sheet ends in; `Run.ending`: it is one of the two;
* `HeldBy`: which text the white space held comes from;
* **`Printer.exists_endings`**: what the lines end in that conditional newlines break.
-/

namespace Tilde

/-- Without the white space at its end a text is empty or ends in a character that is none. -/
theorem Text.splitTrailing_cases (s : Text) : (Text.splitTrailing s).1 = [] ∨
    ∃ t c, (Text.splitTrailing s).1 = t ++ [c] ∧ Text.isBlank c = false := by
  cases hrest : s.reverse.dropWhile Text.isBlank with
  | nil => exact .inl (by simp [Text.splitTrailing, hrest])
  | cons c t =>
    have hc := List.head?_dropWhile_not Text.isBlank s.reverse
    rw [hrest] at hc
    exact .inr ⟨t.reverse, c, by simp [Text.splitTrailing, hrest], by simpa using hc⟩

/-- The stroke puts nothing on a sheet: an empty text, an indentation, or a conditional newline that
stays. -/
def Stroke.IsIdle : Stroke → Prop
  | .text s => s = []
  | .newline kind => kind ≠ .literal
  | .indent .. => True
  | _ => False

namespace Sheet

/-! ## What strokes put on a sheet -/

/-- What a stroke shows behind the white space held. It does not end in white space of a text. -/
inductive Shown (S : Sheet) : Stroke → Text → Prop
  | text {s t : Text} {c : Char} (hs : (Text.splitTrailing s).1 = t ++ [c])
    (hc : Text.isBlank c = false) : Shown S (.text s) (t ++ [c])
  | begin {opening perLine : Text} (closing : Text) (h : opening ++ perLine ≠ []) :
    Shown S (.begin opening perLine closing) (opening ++ perLine)
  | finish (h : S.level.closing ≠ []) : Shown S .finish S.level.closing
  | literal (lead : Text) : Shown S (.newline .literal) ('\n' :: lead)

/-- The stroke has nothing to show. -/
inductive Mute (S : Sheet) : Stroke → Prop
  | text {s : Text} (hs : (Text.splitTrailing s).1 = []) : Mute S (.text s)
  | begin (closing : Text) : Mute S (.begin [] [] closing)
  | finish (h : S.level.closing = []) : Mute S .finish
  | newline {kind : NewlineKind} (hkind : kind ≠ .literal) : Mute S (.newline kind)
  | indent (offset : Option Number) (relative : Bool) : Mute S (.indent offset relative)
  | flush : Mute S .flush

variable {start : Int} {S T : Sheet} {s : Stroke} {ss : List Stroke}

/-- A stroke shows something, breaks the line, or has nothing to show. -/
theorem Step.cases_put (h : Step start S s T) :
    (∃ t, Shown S s t ∧ T.text = S.text ++ S.held ++ t) ∨
      (∃ kind t, s = .newline kind ∧ T.text = S.text ++ '\n' :: t) ∨
        Mute S s ∧ (T.text = S.text ∨ T.text = S.text ++ S.held) := by
  cases h with
  | nothing => exact .inr (.inr ⟨.text rfl, .inl rfl⟩)
  | @text s hs =>
    rcases Text.splitTrailing_cases s with hbody | ⟨t, c, hbody, hc⟩
    · exact .inr (.inr ⟨.text hbody, .inr (by simp [put, hbody])⟩)
    · exact .inl ⟨_, .text hbody hc, by simp [put, hbody]⟩
  | begin opening perLine closing =>
    by_cases hshown : opening ++ perLine = []
    · obtain ⟨rfl, rfl⟩ := List.append_eq_nil_iff.mp hshown
      exact .inr (.inr ⟨.begin closing, .inr (by simp [put])⟩)
    · exact .inl ⟨_, .begin closing hshown, rfl⟩
  | finish =>
    by_cases hshown : S.level.closing = []
    · exact .inr (.inr ⟨.finish hshown, .inr (by simp [put, hshown])⟩)
    · exact .inl ⟨_, .finish hshown, rfl⟩
  | indent hn => exact .inr (.inr ⟨.indent _ _, .inl rfl⟩)
  | stays hkind => exact .inr (.inr ⟨.newline hkind, .inl rfl⟩)
  | written hkind => exact .inr (.inr ⟨.newline hkind, .inr (by simp [put])⟩)
  | breaks hkind hlead hindent => exact .inr (.inl ⟨_, _, rfl, rfl⟩)
  | @literal lead hlead => exact .inl ⟨_, .literal lead, by simp [put, turn]⟩
  | flush => exact .inr (.inr ⟨.flush, .inr (by simp [put])⟩)

theorem run_concat : Run start {} (ss ++ [s]) T ↔ ∃ S, Run start {} ss S ∧ Step start S s T := by
  rw [run_append]
  refine ⟨fun ⟨S, hrun, hlast⟩ => ⟨S, hrun, ?_⟩,
    fun ⟨S, hrun, hstep⟩ => ⟨S, hrun, .cons hstep (.nil T)⟩⟩
  cases hlast with
  | cons first rest =>
    cases rest
    exact first

/-! ## What a sheet ends in -/

/-- The sheet `T` comes of the strokes, and the last of them that has put anything on it is `s`, on
the sheet `R`. -/
def LastPut (start : Int) (ss : List Stroke) (T R : Sheet) (s : Stroke) : Prop :=
  ∃ before after R', ss = before ++ s :: after ∧ Run start {} before R ∧ Step start R s R' ∧
    Run start R' after T ∧ T.text = R'.text

/-- The sheet is empty, ends in what a stroke has shown, or with what a newline has begun a line
with. -/
def EndsShown (start : Int) (ss : List Stroke) (T : Sheet) : Prop :=
  T.text = [] ∨ ∃ R s, LastPut start ss T R s ∧
    ((∃ t, Shown R s t ∧ T.text = R.text ++ R.held ++ t) ∨
      ∃ kind t, s = .newline kind ∧ T.text = R.text ++ '\n' :: t)

/-- The sheet ends in white space that was held behind a text and that a later stroke has written
which has nothing to show. -/
def EndsBlank (start : Int) (ss : List Stroke) (T : Sheet) : Prop :=
  ∃ R s, LastPut start ss T R s ∧ Mute R s ∧ R.held ≠ [] ∧ T.text = R.text ++ R.held

theorem Step.lastPut {S : Sheet} (hrun : Run start {} ss S) (h : Step start S s T) :
    LastPut start (ss ++ [s]) T S s :=
  ⟨ss, [], T, rfl, hrun, h, .nil T, rfl⟩

theorem LastPut.concat {R : Sheet} {s' : Stroke} (h : LastPut start ss S R s')
    (hstep : Step start S s T) (hsame : T.text = S.text) : LastPut start (ss ++ [s]) T R s' := by
  obtain ⟨before, after, R', rfl, hbefore, hput, hafter, htext⟩ := h
  exact ⟨before, after ++ [s], R', by simp, hbefore, hput, hafter.concat hstep,
    hsame.trans htext⟩

/-- A stroke that puts nothing on a sheet does not change what it ends in. -/
theorem ending_concat (h : EndsShown start ss S ∨ EndsBlank start ss S)
    (hstep : Step start S s T) (hsame : T.text = S.text) :
    EndsShown start (ss ++ [s]) T ∨ EndsBlank start (ss ++ [s]) T := by
  unfold EndsShown EndsBlank at h ⊢
  rw [hsame]
  rcases h with (hempty | ⟨R, s', hlast, hshown⟩) | ⟨R, s', hlast, hblank⟩
  · exact .inl (.inl hempty)
  · exact .inl (.inr ⟨R, s', hlast.concat hstep hsame, hshown⟩)
  · exact .inr ⟨R, s', hlast.concat hstep hsame, hblank⟩

/-- What comes of strokes ends in one or the other way. -/
theorem Run.ending (h : Run start {} ss T) : EndsShown start ss T ∨ EndsBlank start ss T := by
  induction ss using List.reverseRecOn generalizing T with
  | nil =>
    cases h
    exact .inl (.inl rfl)
  | append_singleton ss s ih =>
    obtain ⟨S, hrun, hstep⟩ := run_concat.mp h
    rcases hstep.cases_put with hshown | hline | ⟨hmute, hsame | hheld⟩
    · exact .inl (.inr ⟨S, s, hstep.lastPut hrun, .inl hshown⟩)
    · exact .inl (.inr ⟨S, s, hstep.lastPut hrun, .inr hline⟩)
    · exact ending_concat (ih hrun) hstep hsame
    · by_cases hnone : S.held = []
      · exact ending_concat (ih hrun) hstep (by rw [hheld, hnone, List.append_nil])
      · exact .inr ⟨S, s, hstep.lastPut hrun, hmute, hnone, hheld⟩

/-! ## The white space held -/

/-- The white space held is what the last text has ended in, with nothing put on the sheet behind
it. -/
def HeldBy (ss : List Stroke) (S : Sheet) : Prop :=
  S.held = [] ∨ ∃ before t after, ss = before ++ .text t :: after ∧
    S.held = (Text.splitTrailing t).2 ∧ ∀ s ∈ after, s.IsIdle

theorem HeldBy.concat (h : HeldBy ss S) (hidle : s.IsIdle) (hsame : T.held = S.held) :
    HeldBy (ss ++ [s]) T := by
  unfold HeldBy at h ⊢
  rw [hsame]
  rcases h with hnone | ⟨before, t, after, rfl, hheld, hafter⟩
  · exact .inl hnone
  · refine .inr ⟨before, t, after ++ [s], by simp, hheld, ?_⟩
    simpa [or_imp, forall_and] using ⟨hafter, hidle⟩

theorem Run.heldBy (h : Run start {} ss T) : HeldBy ss T := by
  induction ss using List.reverseRecOn generalizing T with
  | nil =>
    cases h
    exact .inl rfl
  | append_singleton ss s ih =>
    obtain ⟨S, hrun, hstep⟩ := run_concat.mp h
    cases hstep with
    | nothing => exact (ih hrun).concat rfl rfl
    | @text t ht => exact .inr ⟨ss, t, [], rfl, rfl, by simp⟩
    | indent hn => exact (ih hrun).concat trivial rfl
    | stays hkind => exact (ih hrun).concat hkind rfl
    | _ => exact .inl rfl

end Sheet

/-! ## Line breaks -/

namespace Printer

open Sheet (Step Run EndsShown EndsBlank HeldBy)

/-- After any operations, what has been output is what a first part of their strokes puts on a
sheet. Where a conditional newline has broken a line, the white space held was dropped, which is
what the last text had ended in. The line ends in what a stroke has shown or a line break has begun
it with, or else in white space of an earlier text that a stroke with nothing to show has
written. -/
theorem exists_endings {options : Options} {width : Option Int} {column : Int} {p q : Printer}
    {ops : List Operation} (hcolumn : 0 ≤ column) (hcreate : create options width column = .ok p)
    (hflat : ∀ op ∈ ops, op.NewlineFree) (hrun : p.runAll ops = .ok q) :
    ∃ done waiting S, p.strokesTaken ops = done ++ waiting ∧ Run column {} done S ∧
      q.base.output = S.text ∧ (q.buffer = [] → waiting = []) ∧
      ∀ before kind after T line, done = before ++ .newline kind :: after → kind ≠ .literal →
        Run column {} before T → Step column T (.newline kind) (T.turn line) →
        Run column (T.turn line) after S →
        HeldBy before T ∧ (EndsShown column before T ∨ EndsBlank column before T) := by
  obtain ⟨done, waiting, S, htaken, hsheet, houtput, hall⟩ :=
    (drawn_runAll hcolumn hcreate hflat hrun).exists_run
  exact ⟨done, waiting, S, htaken, hsheet, houtput, hall,
    fun before kind after T line _ _ hbefore _ _ => ⟨hbefore.heldBy, hbefore.ending⟩⟩

/-- A block in which white space is written twice in front of a newline that breaks. -/
def blankTwice : List Operation :=
  [.begin ['('] [] [')'] none, .write ['a', ' '], .newline .linear, .write ['b', ' '],
    .write [' '], .newline .mandatory, .write ['c'], .finish, .flush]

theorem exists_endings_blankTwice :
    ∃ p q, create {} (some 8) 0 = .ok p ∧ (∀ op ∈ blankTwice, op.NewlineFree) ∧
      p.runAll blankTwice = .ok q ∧ q.base.output = "(a b \n c)".toList ∧
      ∃ done waiting S, p.strokesTaken blankTwice = done ++ waiting ∧ Run 0 {} done S ∧
        q.base.output = S.text ∧ (q.buffer = [] → waiting = []) ∧
        ∀ before kind after T line, done = before ++ .newline kind :: after → kind ≠ .literal →
          Run 0 {} before T → Step 0 T (.newline kind) (T.turn line) →
          Run 0 (T.turn line) after S →
          HeldBy before T ∧ (EndsShown 0 before T ∨ EndsBlank 0 before T) := by
  obtain ⟨p, hcreate⟩ : ∃ p, create {} (some 8) 0 = .ok p := ⟨_, rfl⟩
  have hflat : ∀ op ∈ blankTwice, op.NewlineFree := by simp [blankTwice, Operation.NewlineFree]
  obtain ⟨q, hrun, houtput⟩ : ∃ q, p.runAll blankTwice = .ok q ∧
      q.base.output = "(a b \n c)".toList := by
    cases hcreate
    exact exists_of_toOption (by decide +kernel)
  exact ⟨p, q, hcreate, hflat, hrun, houtput, exists_endings (by decide) hcreate hflat hrun⟩

/-- White space of two texts is not all dropped, and neither is white space in front of the end of a
block that has no text. -/
theorem exists_blank_in_front_of_break :
    ∃ p, create {} none 0 = .ok p ∧
      p.outcome [.write ['a', ' '], .write [' '], .newline .mandatory, .write ['b']] =
        some ['a', ' ', '\n', 'b'] ∧
      p.outcome [.begin [] [] [] none, .write ['a', ' '], .finish, .newline .mandatory,
        .write ['b']] = some ['a', ' ', '\n', 'b'] :=
  ⟨_, rfl, by decide +kernel, by decide +kernel⟩

end Printer

end Tilde
