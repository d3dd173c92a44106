import Mathlib.Logic.Relation
import Tilde.Proofs.Layout.Written

/-!
# Lines come to an end

Settling puts the tokens behind it one after another: each is output, or it is a newline that breaks
the line or is dropped (`Disposes`). A line that does not fit gets shorter by it, unless a token
cannot be output or sections are nested too deeply (`Interrupts`).

* `Kept`: what has gone wrong first stays on record;
* `Passed`: tokens are behind the printer, or something has gone wrong among them;
* `exists_passed_settle`: settling, by recursion on the sections;
* `LineStep`: one round of the loop that writes a line;
* **`writeLine_progress`**: the rounds, and where they end.
-/

namespace Tilde.Printer

variable {p q r : Printer} {room : Option ℕ} {t : Token} {ts us done : List Token} {path : Path}
variable {x : Fault × PrinterState} {e : Fault}

/-! ## What has gone wrong -/

/-- What has gone wrong in the first printer is on record in the second one. -/
def Kept (p q : Printer) : Prop := ∀ x, p.stopped = some x → q.stopped = some x

theorem Kept.of_eq (h : q.stopped = p.stopped) : Kept p q := fun _ hx => h.trans hx

theorem Kept.trans (h : Kept p q) (h' : Kept q r) : Kept p r := fun x hx => h' x (h x hx)

theorem stopped_markBroken (p : Printer) (path : Path) :
    (p.markBroken path).stopped = p.stopped := by
  rw [markBroken_eq]

/-- What goes wrong now is on record if nothing has gone wrong before. -/
theorem eq_of_stopped_stop (hx : (p.stop e).stopped = some x) (hs : p.stopped = none) :
    e = x.1 := by
  rw [stop, hs] at hx
  exact congrArg Prod.fst (Option.some.inj hx)

theorem kept_stop (p : Printer) (e : Fault) : Kept p (p.stop e) := by
  intro x hx
  rw [stop, hx]
  exact hx

theorem kept_putOrStop (p : Printer) (s : Except Fault Text) : Kept p (p.putOrStop s) := by
  cases s with
  | ok s => exact .of_eq rfl
  | error e => exact kept_stop p e

theorem kept_breakLine (p : Printer) (path : Path) : Kept p (p.breakLine path) := by
  intro x hx
  rw [breakLine, stopped_markBroken]
  exact kept_putOrStop _ _ x hx

theorem kept_startBlock (p : Printer) (path : Path) : Kept p (p.startBlock path) := by
  intro x hx
  unfold startBlock
  dsimp only
  split
  · exact kept_stop _ _ x hx
  · exact hx

theorem kept_setIndent (p : Printer) (path : Path) (offset : Option Number) (relative : Bool) :
    Kept p (p.setIndent path offset relative) := by
  intro x hx
  unfold setIndent
  dsimp only
  split
  · exact hx
  · exact kept_stop _ _ x hx

theorem kept_putToken (p : Printer) (t : Token) : Kept p (p.putToken t) := by
  unfold putToken
  split
  · exact kept_setIndent _ _ _ _
  · split_ifs
    · exact kept_breakLine _ _
    · exact .of_eq rfl
  · exact .of_eq rfl
  · exact Kept.trans (.of_eq rfl) (kept_startBlock p.putHeld _)
  · exact .of_eq rfl

/-! ## Tokens behind the printer -/

/-- What a token needs to be output cannot be made: the indentation of the next line, the text that
the lines of a block begin with, or a new indentation. -/
inductive Refuses (p : Printer) : TokenKind → Fault → Prop
  | indentation {kind : NewlineKind} {path : Path} {e : Fault} :
    (p.block (path.headD 0)).indentation = .error e → Refuses p (.newline kind path) e
  | lead {path : Path} {parentLead : Text} {column : ℤ} {e : Fault} :
    leadBelow parentLead (p.block (path.headD 0)).perLine column = .error e →
    Refuses p (.blockStart path) e
  | offset {path : Path} {relative : Bool} : Refuses p (.indent path none relative) .wrongType
  | sum {path : Path} {n : Number} {relative : Bool} {origin : ℤ} {e : Fault} :
    (Number.integer origin).plus n = .error e → Refuses p (.indent path (some n) relative) e

/-- The tokens are disposed of in their order: each is output, or it is a newline that breaks the
line or is dropped. -/
inductive Disposes : Printer → List Token → Printer → Prop
  | nil (p : Printer) : Disposes p [] p
  | put {p q : Printer} {t : Token} {ts : List Token} :
    Disposes (p.putToken t) ts q → Disposes p (t :: ts) q
  | broken {p q : Printer} {t : Token} {ts : List Token} {kind : NewlineKind} {path : Path} :
    t.kind = .newline kind path → Disposes (p.breakLine path) ts q → Disposes p (t :: ts) q
  | dropped {p q : Printer} {t : Token} {ts : List Token} :
    t.isNewline = true → Disposes p ts q → Disposes p (t :: ts) q

/-- Behind tokens that are disposed of, something goes wrong: a token cannot be output, or there is
not as much room for sections inside each other as there are tokens. -/
def Interrupts (room : Option ℕ) (p : Printer) (tokens : List Token) (e : Fault) : Prop :=
  ∃ done left q, tokens = done ++ left ∧ Disposes p done q ∧ q.stopped = none ∧
    (e = .tooDeep ∧ (∃ n ∈ room, n ≤ tokens.length) ∨
      ∃ t rest, left = t :: rest ∧ q.Refuses t.kind e)

/-- The tokens are disposed of, unless something has gone wrong among them or before. -/
structure Passed (room : Option ℕ) (p : Printer) (ts : List Token) (q : Printer) : Prop where
  kept : Kept p q
  disposes : q.stopped = none → Disposes p ts q
  interrupts : p.stopped = none → ∀ x, q.stopped = some x → Interrupts room p ts x.1

theorem refuses_of_breakLine (hs : p.stopped = none) (hx : (p.breakLine path).stopped = some x) :
    (p.block (path.headD 0)).indentation = .error x.1 := by
  rw [breakLine, stopped_markBroken] at hx
  generalize (p.block (path.headD 0)).indentation = indentation at hx
  cases indentation with
  | ok s => exact absurd (hs.symm.trans hx) (Option.some_ne_none _).symm
  | error e => rw [eq_of_stopped_stop hx hs]

theorem refuses_of_putToken (hs : p.stopped = none) (hx : (p.putToken t).stopped = some x) :
    p.Refuses t.kind x.1 := by
  have hnone : p.stopped ≠ some x := by
    rw [hs]
    exact (Option.some_ne_none x).symm
  unfold putToken at hx
  split at hx
  · rename_i path offset relative hkind
    rw [hkind]
    unfold setIndent at hx
    dsimp only at hx
    split at hx
    · exact absurd hx hnone
    · rename_i e herror
      obtain rfl := eq_of_stopped_stop hx hs
      cases offset with
      | none =>
        rw [← Except.error.inj herror]
        exact .offset
      | some n => exact .sum herror
  · rename_i kind path hkind
    rw [hkind]
    split_ifs at hx
    · exact .indentation (refuses_of_breakLine hs hx)
    · exact absurd hx hnone
  · exact absurd hx hnone
  · rename_i path hkind
    rw [hkind]
    unfold startBlock at hx
    dsimp only at hx
    split at hx
    · rename_i e herror
      obtain rfl := eq_of_stopped_stop hx hs
      exact .lead herror
    · exact absurd hx hnone
  · exact absurd hx hnone

theorem Disposes.trans (h : Disposes p ts q) (h' : Disposes q us r) : Disposes p (ts ++ us) r := by
  induction h with
  | nil p => exact h'
  | put _ ih => exact .put (ih h')
  | broken hkind _ ih => exact .broken hkind (ih h')
  | dropped hnewline _ ih => exact .dropped hnewline (ih h')

/-- What comes behind does not matter then. -/
theorem Interrupts.append (h : Interrupts room p ts e) (us : List Token) :
    Interrupts room p (ts ++ us) e := by
  obtain ⟨done, left, q, rfl, hdone, hs, hwhy⟩ := h
  refine ⟨done, left ++ us, q, List.append_assoc .., hdone, hs, hwhy.imp ?_ ?_⟩
  · rintro ⟨hdeep, n, hn, hle⟩
    refine ⟨hdeep, n, hn, ?_⟩
    rw [List.length_append]
    omega
  · rintro ⟨t, rest, rfl, hrefuses⟩
    exact ⟨t, rest ++ us, rfl, hrefuses⟩

theorem Kept.stopped_eq_none (h : Kept p q) (hs : q.stopped = none) : p.stopped = none := by
  cases hp : p.stopped with
  | none => rfl
  | some x => exact absurd ((h x hp).symm.trans hs) (Option.some_ne_none _)

namespace Passed

theorem nil (p : Printer) : Passed room p [] p :=
  ⟨.of_eq rfl, fun _ => .nil p, fun hs x hx =>
    absurd (hs.symm.trans hx) (Option.some_ne_none x).symm⟩

theorem put (p : Printer) (t : Token) : Passed room p [t] (p.putToken t) where
  kept := kept_putToken p t
  disposes _ := .put (.nil _)
  interrupts hs _ hx := ⟨[], [t], p, rfl, .nil p, hs, .inr ⟨t, [], rfl, refuses_of_putToken hs hx⟩⟩

theorem broken {kind : NewlineKind} (p : Printer) (hkind : t.kind = .newline kind path) :
    Passed room p [t] (p.breakLine path) where
  kept := kept_breakLine p path
  disposes _ := .broken hkind (.nil _)
  interrupts hs x hx := by
    refine ⟨[], [t], p, rfl, .nil p, hs, .inr ⟨t, [], rfl, ?_⟩⟩
    rw [hkind]
    exact .indentation (refuses_of_breakLine hs hx)

theorem dropped (p : Printer) (hnewline : t.isNewline = true) : Passed room p [t] p :=
  ⟨.of_eq rfl, fun _ => .dropped hnewline (.nil p), fun hs x hx =>
    absurd (hs.symm.trans hx) (Option.some_ne_none x).symm⟩

theorem tooDeep (p : Printer) (ts : List Token) : Passed (some 0) p ts (p.stop .tooDeep) where
  kept := kept_stop p _
  disposes hs := absurd hs (stopped_stop_ne p _)
  interrupts hs x hx := by
    rw [← eq_of_stopped_stop hx hs]
    exact ⟨[], ts, p, rfl, .nil p, hs, .inl ⟨rfl, 0, rfl, Nat.zero_le _⟩⟩

/-- Other tokens come next; one more token makes up for one section less that there is room for. -/
theorem trans {room' : Option ℕ} (h : Passed room p ts q) (h' : Passed room' q us r)
    (hroom : ∀ n ∈ room', ∃ m ∈ room, m ≤ n + ts.length) : Passed room p (ts ++ us) r where
  kept := h.kept.trans h'.kept
  disposes hr := (h.disposes (h'.kept.stopped_eq_none hr)).trans (h'.disposes hr)
  interrupts hs x hx := by
    cases hq : q.stopped with
    | none =>
      have hts := h.disposes hq
      obtain ⟨done, left, q', rfl, hdone, hs', hwhy⟩ := h'.interrupts hq x hx
      refine ⟨ts ++ done, left, q', (List.append_assoc ..).symm, hts.trans hdone, hs', ?_⟩
      refine hwhy.imp_left ?_
      rintro ⟨hdeep, n, hn, hle⟩
      obtain ⟨m, hm, hmn⟩ := hroom n hn
      refine ⟨hdeep, m, hm, ?_⟩
      rw [List.length_append]
      omega
    | some y =>
      obtain rfl : y = x := Option.some.inj ((h'.kept y hq).symm.trans hx)
      exact (h.interrupts hs y hq).append us

theorem append (h : Passed room p ts q) (h' : Passed room q us r) : Passed room p (ts ++ us) r :=
  h.trans h' fun n hn => ⟨n, hn, Nat.le_add_right n _⟩

theorem putTokens (p : Printer) (ts : List Token) : Passed room p ts (p.putTokens ts) := by
  induction ts generalizing p with
  | nil => exact nil p
  | cons t ts ih => exact (put p t).append (ih (p.putToken t))

end Passed

/-! ## Settling -/

section Settle

variable {kind : NewlineKind} {following : List Token}

/-- A newline breaks the line, or else it may be dropped. -/
theorem passed_decided (p : Printer) (hkind : t.kind = .newline kind path) :
    Passed room p [t] (p.decided t kind path following).1 := by
  unfold decided
  split_ifs
  · exact .broken p hkind
  · exact .dropped p (Token.isNewline_of_kind hkind)

/-- It stays if it is not dropped. -/
theorem exists_passed_decided (p : Printer) (hkind : t.kind = .newline kind path) :
    ∃ done, t :: following = done ++ (p.decided t kind path following).2 ∧
      Passed room p done (p.decided t kind path following).1 := by
  unfold decided
  split_ifs
  · exact ⟨[t], rfl, .broken p hkind⟩
  · exact ⟨[], rfl, .nil p⟩

/-- A section has been broken up; if nothing of it has been disposed of, all of it is output. -/
theorem exists_passed_behindSection {s : Printer × List Token}
    (hdone : Token.sectionOf path following = done ++ s.2) (h : Passed room p done s.1) :
    ∃ done, following = done ++ (behindSection path following s).2 ∧
      Passed room p done (behindSection path following s).1 := by
  have hsplit := Token.sectionOf_append_afterSection path following
  unfold behindSection
  split_ifs with hlength
  · obtain rfl : done = [] := by
      rw [hdone, List.length_append] at hlength
      apply List.eq_nil_of_length_eq_zero
      omega
    exact ⟨[] ++ Token.sectionOf path following, hsplit.symm, h.append (.putTokens _ _)⟩
  · refine ⟨done, ?_, h⟩
    rw [← List.append_assoc, ← hdone, hsplit]

/-- A newline is decided about, and its section is broken up if need be. -/
theorem exists_passed_resume (p : Printer) (hkind : t.kind = .newline kind path)
    (hsection : ∀ q : Printer, ∃ done, Token.sectionOf path following =
      done ++ (q.settle (room.map (· - 1)) (Token.sectionOf path following)).2 ∧
      Passed (room.map (· - 1)) q done
        (q.settle (room.map (· - 1)) (Token.sectionOf path following)).1) :
    ∃ done, t :: following =
      done ++ (resume room path following (p.decided t kind path following)).2 ∧
      Passed room p done (resume room path following (p.decided t kind path following)).1 := by
  unfold resume
  split_ifs
  · exact exists_passed_decided p hkind
  · obtain ⟨done, hdone, hpassed⟩ := hsection (p.decided t kind path following).1
    obtain ⟨done', hdone', hbehind⟩ := exists_passed_behindSection hdone hpassed
    refine ⟨t :: done', ?_, (passed_decided p hkind).trans hbehind fun n hn => ?_⟩
    · rw [List.cons_append, ← hdone']
    · obtain ⟨m, hm, rfl⟩ := Option.map_eq_some_iff.mp hn
      refine ⟨m, hm, ?_⟩
      rw [List.length_singleton]
      omega

end Settle

/-- **Settling disposes of the tokens before those that it leaves.** -/
theorem exists_passed_settle (p : Printer) (room : Option ℕ) (tokens : List Token) :
    ∃ done, tokens = done ++ (p.settle room tokens).2 ∧
      Passed room p done (p.settle room tokens).1 := by
  induction hlength : tokens.length using Nat.strong_induction_on generalizing p room tokens with
  | _ length ih =>
    by_cases hroom : room = some 0
    · subst hroom
      rw [settle, if_pos rfl]
      exact ⟨tokens, (List.append_nil _).symm, .tooDeep p tokens⟩
    · have hsplit := List.takeWhile_append_dropWhile (p := fun t => !t.isNewline) (l := tokens)
      cases hdrop : tokens.dropWhile fun t => !t.isNewline with
      | nil =>
        rw [settle_of_flat hroom hdrop]
        rw [hdrop] at hsplit
        exact ⟨_, hsplit.symm, .putTokens p _⟩
      | cons t following =>
        obtain ⟨kind, path, hkind⟩ := Token.isNewline_iff.mp (Token.isNewline_of_dropWhile hdrop)
        -- the section has fewer tokens
        have hshort : (Token.sectionOf path following).length < length :=
          hlength ▸ (Token.length_sectionOf_le path following).trans_lt (length_following_lt hdrop)
        obtain ⟨done, hdone, hpassed⟩ := exists_passed_resume
          (p.putTokens (tokens.takeWhile fun t => !t.isNewline)) hkind
          (fun q => ih _ hshort q (room.map (· - 1)) _ rfl)
        rw [settle_of_newline hroom hdrop hkind]
        refine ⟨_, ?_, (Passed.putTokens p _).append hpassed⟩
        rw [List.append_assoc, ← hdone, ← hdrop, hsplit]

/-! ## Lines -/

/-- One round of the loop that writes a line: what does not fit is settled, some of it is disposed
of, and nothing goes wrong. -/
structure LineStep (a b : Printer × List Token) : Prop where
  overfull : a.1.fits a.2 = false
  settled : a.1.settle a.1.room a.2 = b
  onward : b.2 ≠ a.2
  unharmed : b.1.stopped = none

/-- Something is disposed of whenever a line that does not fit is settled. -/
theorem exists_disposes_settle {tokens : List Token} (hfits : p.fits tokens = false)
    (hne : tokens ≠ []) (hs : (p.settle room tokens).1.stopped = none) :
    ∃ done, done ≠ [] ∧ tokens = done ++ (p.settle room tokens).2 ∧
      Disposes p done (p.settle room tokens).1 := by
  obtain ⟨done, hdone, hpassed⟩ := exists_passed_settle p room tokens
  refine ⟨done, ?_, hdone, hpassed.disposes hs⟩
  rintro rfl
  refine hne (eq_nil_of_length_settle hfits hs ?_)
  rw [← List.nil_append (p.settle room tokens).2, ← hdone]
  exact Nat.lt_irrefl _

namespace LineStep

variable {a b : Printer × List Token}

theorem exists_disposes (h : LineStep a b) :
    ∃ done, done ≠ [] ∧ a.2 = done ++ b.2 ∧ Disposes a.1 done b.1 := by
  obtain ⟨p, tokens⟩ := a
  obtain rfl := h.settled
  refine exists_disposes_settle h.overfull ?_ h.unharmed
  rintro rfl
  exact h.onward (List.suffix_nil.mp (settle_suffix p p.room []))

/-- Rounds come to an end. -/
theorem wellFounded : WellFounded fun b a => LineStep a b := by
  refine Subrelation.wf ?_ (measure fun a : Printer × List Token => a.2.length).wf
  intro b a h
  obtain ⟨done, hne, hdone, -⟩ := h.exists_disposes
  have := List.length_pos_iff.mpr hne
  show b.2.length < a.2.length
  rw [hdone, List.length_append]
  omega

/-- In all rounds together, the tokens before those that are left are disposed of. -/
theorem exists_disposes_of_rounds (h : Relation.ReflTransGen LineStep a b) :
    ∃ done, a.2 = done ++ b.2 ∧ Disposes a.1 done b.1 := by
  induction h with
  | refl => exact ⟨[], rfl, .nil _⟩
  | tail _ hstep ih =>
    obtain ⟨done, hdone, hdisposes⟩ := ih
    obtain ⟨done', -, hdone', hdisposes'⟩ := hstep.exists_disposes
    refine ⟨done ++ done', ?_, hdisposes.trans hdisposes'⟩
    rw [hdone, hdone', List.append_assoc]

end LineStep

theorem kept_writeLine (p : Printer) (tokens : List Token) : Kept p (p.writeLine tokens).1 := by
  fun_induction writeLine p tokens with
  | case1 p tokens hfits => exact .of_eq rfl
  | case2 p tokens hfits p₁ rest hrest hlength ih =>
    obtain ⟨done, -, hpassed⟩ := exists_passed_settle p p.room tokens
    rw [hrest] at hpassed
    exact hpassed.kept.trans ih
  | case3 p tokens hfits p₁ rest hrest hlength =>
    obtain ⟨done, -, hpassed⟩ := exists_passed_settle p p.room tokens
    rw [hrest] at hpassed
    exact hpassed.kept

theorem settle_nil (hs : (p.settle room []).1.stopped = none) : p.settle room [] = (p, []) := by
  have hnil : (p.settle room []).2 = [] := List.suffix_nil.mp (settle_suffix p room [])
  exact (settle_eq_self hs (by rw [hnil])).1

/-- How writing a line ends: with tokens that fit, or because something goes wrong. -/
theorem exists_rounds (p : Printer) (tokens : List Token) (hs : p.stopped = none) :
    ∃ q left, Relation.ReflTransGen LineStep (p, tokens) (q, left) ∧ q.stopped = none ∧
      (p.writeLine tokens = (q, left) ∧ (left = [] ∨ q.fits left = true) ∨
        q.fits left = false ∧ ∃ x, (q.settle q.room left).1.stopped = some x ∧
          (p.writeLine tokens).1.stopped = some x) := by
  fun_induction writeLine p tokens with
  | case1 p tokens hfits => exact ⟨p, tokens, .refl, hs, .inl ⟨rfl, .inr hfits⟩⟩
  | case2 p tokens hfits p₁ rest hrest hlength ih =>
    have hoverfull : p.fits tokens = false := by simpa using hfits
    cases hs₁ : p₁.stopped with
    | none =>
      have hstep : LineStep (p, tokens) (p₁, rest) :=
        ⟨hoverfull, hrest, fun h => hlength.ne (congrArg List.length h), hs₁⟩
      obtain ⟨q, left, hrounds, hend⟩ := ih hs₁
      exact ⟨q, left, hrounds.head hstep, hend⟩
    | some x =>
      refine ⟨p, tokens, .refl, hs, .inr ⟨hoverfull, x, ?_, kept_writeLine p₁ rest x hs₁⟩⟩
      rw [hrest]
      exact hs₁
  | case3 p tokens hfits p₁ rest hrest hlength =>
    have hoverfull : p.fits tokens = false := by simpa using hfits
    have hsettled : (p.settle p.room tokens).1.stopped = p₁.stopped := by rw [hrest]
    cases hs₁ : p₁.stopped with
    | none =>
      rw [hs₁] at hsettled
      obtain rfl : tokens = [] :=
        eq_nil_of_length_settle hoverfull hsettled (by rw [hrest]; exact hlength)
      obtain rfl : p₁ = p := congrArg Prod.fst (hrest.symm.trans (settle_nil hsettled))
      exact ⟨p₁, [], .refl, hs, .inl ⟨rfl, .inl rfl⟩⟩
    | some x => exact ⟨p, tokens, .refl, hs, .inr ⟨hoverfull, x, hsettled.trans hs₁, rfl⟩⟩

/-- A printer in the second of four columns, whose block has this indentation. -/
def narrow (indent : ℤ) : Printer :=
  { base := { column := 1, maxColumn := some 4 }
    options := {}
    blocks := #[{ indent := .integer indent }] }

/-- A newline and a text that the printer has no room for. -/
def overlong : List Token :=
  [⟨0, 0, .newline .linear [0]⟩, ⟨0, 3, .text ['b', 'c', 'd'] []⟩]

theorem settle_overlong (indent : ℤ) : (narrow indent).settle none overlong =
    resume none [0] [⟨0, 3, .text ['b', 'c', 'd'] []⟩] ((narrow indent).decided
      ⟨0, 0, .newline .linear [0]⟩ .linear [0] [⟨0, 3, .text ['b', 'c', 'd'] []⟩]) := by
  have hroom : (none : Option ℕ) ≠ some 0 := (Option.some_ne_none 0).symm
  have hdrop : overlong.dropWhile (fun t => !t.isNewline) =
      ⟨0, 0, .newline .linear [0]⟩ :: [⟨0, 3, .text ['b', 'c', 'd'] []⟩] := rfl
  exact settle_of_newline hroom hdrop rfl

end Tilde.Printer
