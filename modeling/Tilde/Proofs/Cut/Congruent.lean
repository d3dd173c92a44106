import Tilde.Proofs.Layout.Settle
import Tilde.Proofs.Layout.Written

/-!
# A text in one token or in two

Two printers that differ in this alone, that one of them has a text in two tokens of its buffer which
the other has in one, decide alike about all newlines, and output the same
(**`Congruent.settle`**, **`Congruent.writeLine`**).

* `Token.Joins`, `Token.Cuts`: a token in place of two;
* `Congruent`: printers that differ in their buffers and in what they remember of a failure.
-/

namespace Tilde

namespace Token

/-- A token that is output as two others are, one after the other. -/
structure Joins (t t₁ t₂ : Token) : Prop where
  start : t₁.start = t.start
  stop : t₂.stop = t.stop
  kind : ∃ body between rest trailing, t.kind = .text (body ++ between ++ rest) trailing ∧
    t₁.kind = .text body between ∧ t₂.kind = .text rest trailing

/-- The same tokens, but that there may be two in the place of one. -/
inductive Cuts : List Token → List Token → Prop
  | nil : Cuts [] []
  | cons (t : Token) {ts ts' : List Token} (rest : Cuts ts ts') : Cuts (t :: ts) (t :: ts')
  | joined {t t₁ t₂ : Token} {ts ts' : List Token} (joins : t.Joins t₁ t₂) (rest : Cuts ts ts') :
    Cuts (t :: ts) (t₁ :: t₂ :: ts')

variable {t t₁ t₂ : Token} {ts ts' us us' : List Token}

theorem Joins.isNewline (h : t.Joins t₁ t₂) :
    t.isNewline = false ∧ t₁.isNewline = false ∧ t₂.isNewline = false := by
  obtain ⟨body, between, rest, trailing, hkind, hkind₁, hkind₂⟩ := h.kind
  simp only [Token.isNewline, newlinePath?, hkind, hkind₁, hkind₂, Option.isSome_none, and_self]

namespace Cuts

theorem refl (ts : List Token) : Cuts ts ts := by
  induction ts with
  | nil => exact .nil
  | cons t ts ih => exact .cons t ih

theorem append (h : Cuts ts ts') (h' : Cuts us us') : Cuts (ts ++ us) (ts' ++ us') := by
  induction h with
  | nil => exact h'
  | cons t rest ih => exact .cons t ih
  | joined joins rest ih => exact .joined joins ih

theorem nil_iff (h : Cuts ts ts') : ts = [] ↔ ts' = [] := by
  cases h <;> simp

theorem isEmpty (h : Cuts ts ts') : ts'.isEmpty = ts.isEmpty := by
  cases h <;> rfl

theorem head_start (h : Cuts ts ts') : ts'.head?.map start = ts.head?.map start := by
  cases h with
  | nil => rfl
  | cons => rfl
  | joined joins => exact congrArg some joins.start

theorem last_stop (h : Cuts ts ts') : ts'.getLast?.map stop = ts.getLast?.map stop := by
  induction h with
  | nil => rfl
  | @cons t ts ts' rest ih =>
    have hnil := rest.nil_iff
    cases ts <;> cases ts' <;> simp_all [List.getLast?_cons]
  | @joined t t₁ t₂ ts ts' joins rest ih =>
    have hnil := rest.nil_iff
    have hstop := joins.stop
    cases ts <;> cases ts' <;> simp_all [List.getLast?_cons]

/-- The tokens take the same room. -/
theorem extent (h : Cuts ts ts') : extent ts' = Token.extent ts := by
  have hhead := h.head_start
  have hlast := h.last_stop
  unfold Token.extent
  cases hts : ts.head? <;> cases hts' : ts'.head? <;> cases hus : ts.getLast? <;>
    cases hus' : ts'.getLast? <;> simp_all

/-- The tokens up to one of some kind, and the others, if two tokens in the place of one are of that
kind as the one is. -/
theorem takeWhile_dropWhile (h : Cuts ts ts') {P : Token → Bool}
    (hP : ∀ t : Token, t.isNewline = false → P t = true) :
    Cuts (ts.takeWhile P) (ts'.takeWhile P) ∧ Cuts (ts.dropWhile P) (ts'.dropWhile P) := by
  induction h with
  | nil => exact ⟨.nil, .nil⟩
  | cons t rest ih =>
    simp only [List.takeWhile_cons, List.dropWhile_cons]
    split_ifs
    · exact ⟨.cons t ih.1, ih.2⟩
    · exact ⟨.nil, .cons t rest⟩
  | joined joins rest ih =>
    obtain ⟨ht, ht₁, ht₂⟩ := joins.isNewline
    simp only [List.takeWhile_cons, List.dropWhile_cons, hP _ ht, hP _ ht₁, hP _ ht₂, if_true]
    exact ⟨.joined joins ih.1, ih.2⟩

theorem takeWhile_dropWhile_isNewline (h : Cuts ts ts') :
    Cuts (ts.takeWhile fun t => !t.isNewline) (ts'.takeWhile fun t => !t.isNewline) ∧
      Cuts (ts.dropWhile fun t => !t.isNewline) (ts'.dropWhile fun t => !t.isNewline) :=
  h.takeWhile_dropWhile fun t ht => by simp [ht]

theorem sectionOf (path : Path) (h : Cuts ts ts') :
    Cuts (sectionOf path ts) (sectionOf path ts') :=
  (h.takeWhile_dropWhile fun t ht => by simp [breaksOutside_of_not_isNewline ht]).1

theorem afterSection (path : Path) (h : Cuts ts ts') :
    Cuts (afterSection path ts) (afterSection path ts') :=
  (h.takeWhile_dropWhile fun t ht => by simp [breaksOutside_of_not_isNewline ht]).2

theorem subsectionOf (path : Path) (h : Cuts ts ts') :
    Cuts (subsectionOf path ts) (subsectionOf path ts') :=
  (h.takeWhile_dropWhile fun t ht => by simp [breaksAround_of_not_isNewline ht]).1

theorem of_cons_newline (h : Cuts (t :: ts) ts') (ht : t.isNewline = true) :
    ∃ us, ts' = t :: us ∧ Cuts ts us := by
  cases h with
  | cons _ rest => exact ⟨_, rfl, rest⟩
  | joined joins =>
    rw [joins.isNewline.1] at ht
    cases ht

end Cuts

end Token

open Token (Cuts Joins)

namespace Printer

/-- The printers are the same, but for what is in their buffers and what they remember of a
failure. -/
def Congruent (p p' : Printer) : Prop :=
  ∃ b o, p' = { p with pending := b, stopped := o } ∧ o.isSome = p.stopped.isSome

variable {p p' : Printer} {ts ts' : List Token}

theorem startBlock_of_error {path : Path} {e : Fault}
    (hlead : leadBelow (p.leadAround path) (p.block (path.headD 0)).perLine
      (columnAfter p.base.column (p.block (path.headD 0)).opening) = .error e) :
    p.startBlock path = ((p.tell .start).put (p.block (path.headD 0)).opening).stop e := by
  unfold startBlock
  dsimp only
  split
  · rename_i e' herror
    rw [Except.error.inj (herror.symm.trans hlead)]
  · rename_i lead hlead'
    exact absurd (hlead'.symm.trans hlead) (by simp)

namespace Congruent

theorem refl (p : Printer) : Congruent p p := ⟨p.pending, p.stopped, rfl, rfl⟩

theorem room (h : Congruent p p') : p'.room = p.room := by
  obtain ⟨b, o, rfl, ho⟩ := h
  rfl

theorem buffering (h : Congruent p p') : p'.buffering = p.buffering := by
  obtain ⟨b, o, rfl, ho⟩ := h
  rfl

theorem position (h : Congruent p p') : p'.position = p.position := by
  obtain ⟨b, o, rfl, ho⟩ := h
  rfl

theorem path (h : Congruent p p') : p'.path = p.path := by
  obtain ⟨b, o, rfl, ho⟩ := h
  rfl

theorem closed (h : Congruent p p') : p'.closed = p.closed := by
  obtain ⟨b, o, rfl, ho⟩ := h
  rfl

theorem base (h : Congruent p p') : p'.base = p.base := by
  obtain ⟨b, o, rfl, ho⟩ := h
  rfl

theorem held (h : Congruent p p') : p'.held = p.held := by
  obtain ⟨b, o, rfl, ho⟩ := h
  rfl

theorem blocks (h : Congruent p p') : p'.blocks = p.blocks := by
  obtain ⟨b, o, rfl, ho⟩ := h
  rfl

theorem stopped (h : Congruent p p') : p'.stopped.isSome = p.stopped.isSome := by
  obtain ⟨b, o, rfl, ho⟩ := h
  exact ho

/-- The buffers do not matter. -/
theorem pending (h : Congruent p p') (b b' : Buffer) :
    Congruent { p with pending := b } { p' with pending := b' } := by
  obtain ⟨_, o, rfl, ho⟩ := h
  exact ⟨b', o, rfl, ho⟩

theorem stop (h : Congruent p p') (e : Fault) : Congruent (p.stop e) (p'.stop e) := by
  obtain ⟨b, o, rfl, ho⟩ := h
  unfold Printer.stop
  rw [ho]
  split_ifs with hs
  · exact ⟨b, o, rfl, ho⟩
  · exact ⟨b, _, rfl, rfl⟩

theorem put (h : Congruent p p') (s : Text) : Congruent (p.put s) (p'.put s) := by
  obtain ⟨b, o, rfl, ho⟩ := h
  exact ⟨b, o, rfl, ho⟩

theorem putHeld (h : Congruent p p') : Congruent p.putHeld p'.putHeld := by
  obtain ⟨b, o, rfl, ho⟩ := h
  exact ⟨b, o, rfl, ho⟩

theorem hold (h : Congruent p p') (s : Text) :
    Congruent { p with held := s } { p' with held := s } := by
  obtain ⟨b, o, rfl, ho⟩ := h
  exact ⟨b, o, rfl, ho⟩

theorem tell (h : Congruent p p') (e : BlockEvent) : Congruent (p.tell e) (p'.tell e) := by
  obtain ⟨b, o, rfl, ho⟩ := h
  exact ⟨b, o, rfl, ho⟩

theorem modifyBlock (h : Congruent p p') (i : Nat) (f : BlockState → BlockState) :
    Congruent (p.modifyBlock i f) (p'.modifyBlock i f) := by
  obtain ⟨b, o, rfl, ho⟩ := h
  exact ⟨b, o, rfl, ho⟩

theorem markBroken (h : Congruent p p') (path : Path) :
    Congruent (p.markBroken path) (p'.markBroken path) := by
  have hfold (f : BlockState → BlockState) (js : List Nat) {p p' : Printer} (h : Congruent p p') :
      Congruent (js.foldl (fun p j => p.modifyBlock j f) p)
        (js.foldl (fun p j => p.modifyBlock j f) p') := by
    induction js generalizing p p' with
    | nil => exact h
    | cons j js ih => exact ih (h.modifyBlock j f)
  cases path with
  | nil => exact h
  | cons i around => exact hfold _ around (h.modifyBlock i _)

theorem block (h : Congruent p p') (i : Nat) : p'.block i = p.block i := by
  rw [Printer.block, h.blocks, Printer.block]

theorem putOrStop (h : Congruent p p') (s : Except Fault Text) :
    Congruent (p.putOrStop s) (p'.putOrStop s) := by
  cases s with
  | ok s => exact h.put s
  | error e => exact h.stop e

theorem breakLine (h : Congruent p p') (path : Path) :
    Congruent (p.breakLine path) (p'.breakLine path) := by
  unfold Printer.breakLine
  rw [h.block]
  exact ((((h.put _).hold _).put _).putOrStop _).markBroken path

theorem startBlock (h : Congruent p p') (path : Path) :
    Congruent (p.startBlock path) (p'.startBlock path) := by
  have hopening := (h.tell .start).put (p.block (path.headD 0)).opening
  have hbelow : leadBelow (p'.leadAround path) (p'.block (path.headD 0)).perLine
      (columnAfter p'.base.column (p'.block (path.headD 0)).opening) =
      leadBelow (p.leadAround path) (p.block (path.headD 0)).perLine
        (columnAfter p.base.column (p.block (path.headD 0)).opening) := by
    obtain ⟨b, o, rfl, ho⟩ := h
    rfl
  cases hlead : leadBelow (p.leadAround path) (p.block (path.headD 0)).perLine
      (columnAfter p.base.column (p.block (path.headD 0)).opening) with
  | error e =>
    rw [startBlock_of_error hlead, startBlock_of_error (hbelow.trans hlead), h.block]
    exact hopening.stop e
  | ok lead =>
    rw [startBlock_eq hlead, startBlock_eq (hbelow.trans hlead), h.block, ← put_append,
      ← put_append, h.base]
    exact (hopening.put _).modifyBlock _ _

theorem endBlock (h : Congruent p p') (path : Path) :
    Congruent (p.endBlock path) (p'.endBlock path) := by
  unfold Printer.endBlock
  rw [h.block]
  exact (h.put _).tell _

theorem setIndent (h : Congruent p p') (path : Path) (offset : Option Number) (relative : Bool) :
    Congruent (p.setIndent path offset relative) (p'.setIndent path offset relative) := by
  have horigin : p'.base.column + p'.held.length = p.base.column + p.held.length := by
    obtain ⟨b, o, rfl, ho⟩ := h
    rfl
  unfold Printer.setIndent
  dsimp only
  rw [horigin, h.block]
  split
  · exact h.modifyBlock _ _
  · exact h.stop _

theorem breaksAnyway (h : Congruent p p') (kind : NewlineKind) (i : Nat) :
    p'.breaksAnyway kind i = p.breaksAnyway kind i := by
  obtain ⟨b, o, rfl, ho⟩ := h
  rfl

/-- A token is output alike. -/
theorem putToken (h : Congruent p p') (t : Token) : Congruent (p.putToken t) (p'.putToken t) := by
  unfold Printer.putToken
  split
  · exact h.setIndent _ _ _
  · rw [h.breaksAnyway]
    split_ifs
    · exact h.breakLine _
    · exact h.putHeld
  · exact (h.putHeld.put _).hold _
  · exact h.putHeld.startBlock _
  · exact h.putHeld.endBlock _

/-- Two tokens are output as the one in whose place they are. -/
theorem putJoined {t t₁ t₂ : Token} (h : Congruent p p') (joins : t.Joins t₁ t₂) :
    Congruent (p.putToken t) ((p'.putToken t₁).putToken t₂) := by
  obtain ⟨body, between, rest, trailing, hkind, hkind₁, hkind₂⟩ := joins.kind
  have hput : (p'.putToken t₁).putToken t₂ = p'.putToken t := by
    simp only [Printer.putToken, hkind, hkind₁, hkind₂, ← put_append]
    rfl
  rw [hput]
  exact h.putToken t

theorem putTokens (h : Congruent p p') (hts : Cuts ts ts') :
    Congruent (p.putTokens ts) (p'.putTokens ts') := by
  induction hts generalizing p p' with
  | nil => exact h
  | cons t rest ih => exact ih (h.putToken t)
  | joined joins rest ih => exact ih (h.putJoined joins)

/-! ## Newlines -/

theorem fits (h : Congruent p p') (hts : Cuts ts ts') : p'.fits ts' = p.fits ts := by
  obtain ⟨b, o, rfl, ho⟩ := h
  rw [Printer.fits, hts.extent]
  rfl

/-- It is decided alike whether a newline breaks. -/
theorem breaks (h : Congruent p p') (kind : NewlineKind) (i : Nat) {us us' : List Token}
    (hts : Cuts ts ts') (hus : Cuts us us') :
    p'.breaks kind i ts' us' = p.breaks kind i ts us := by
  have hfits := h.fits hts
  have hsub := h.fits hus
  obtain ⟨b, o, rfl, ho⟩ := h
  unfold Printer.breaks Printer.miserBreaks
  rw [hfits, hsub]
  rfl

/-- What is left of a line, and the printer behind it, when the text is in one token and when it is
in two. Something has happened to the one line if something has to the other. -/
structure Matches (ts ts' : List Token) (r r' : Printer × List Token) : Prop where
  printers : Congruent r.1 r'.1
  cuts : Cuts r.2 r'.2
  whole : r.2.length = ts.length ↔ r'.2.length = ts'.length

/-- It is decided alike about a newline. -/
theorem decided (h : Congruent p p') (hts : Cuts ts ts') (t : Token) (kind : NewlineKind)
    (path : Path) :
    Matches (t :: ts) (t :: ts') (p.decided t kind path ts) (p'.decided t kind path ts') := by
  unfold Printer.decided
  rw [h.breaks kind _ (hts.sectionOf path) (hts.subsectionOf path)]
  split_ifs
  · exact ⟨h.breakLine path, hts, by simp⟩
  · exact ⟨h, .cons t hts, by simp⟩

theorem length_takeWhile_add {t : Token} {following : List Token}
    (h : ts.dropWhile (fun t => !t.isNewline) = t :: following) :
    (ts.takeWhile fun t => !t.isNewline).length + (following.length + 1) = ts.length := by
  rw [← List.length_cons, ← h, ← List.length_append, List.takeWhile_append_dropWhile]

theorem length_decided_le (p : Printer) (t : Token) (kind : NewlineKind) (path : Path)
    (following : List Token) :
    (p.decided t kind path following).2.length ≤ following.length + 1 := by
  unfold Printer.decided
  split_ifs <;> simp

theorem length_behindSection_le {path : Path} {r : Printer × List Token}
    (hle : r.2.length ≤ (Token.sectionOf path ts).length) :
    (behindSection path ts r).2.length ≤ ts.length := by
  have := length_section_add path ts
  unfold behindSection
  split_ifs
  · dsimp only
    omega
  · rw [List.length_append]
    omega

theorem Matches.behindSection {path : Path} {r r' : Printer × List Token}
    (h : Matches (Token.sectionOf path ts) (Token.sectionOf path ts') r r') (hts : Cuts ts ts') :
    Congruent (behindSection path ts r).1 (behindSection path ts' r').1 ∧
      Cuts (behindSection path ts r).2 (behindSection path ts' r').2 := by
  obtain ⟨hcongr, hcuts, hwhole⟩ := h
  unfold Printer.behindSection
  by_cases hlength : r.2.length = (Token.sectionOf path ts).length
  · rw [if_pos hlength, if_pos (hwhole.mp hlength)]
    exact ⟨hcongr.putTokens (hts.sectionOf path), hts.afterSection path⟩
  · rw [if_neg hlength, if_neg (mt hwhole.mpr hlength)]
    exact ⟨hcongr, hcuts.append (hts.afterSection path)⟩

/-- **Newlines are settled alike.** -/
theorem settle {p p' : Printer} {ts ts' : List Token} (h : Congruent p p') (hts : Cuts ts ts')
    (room : Option Nat) : Matches ts ts' (p.settle room ts) (p'.settle room ts') := by
  by_cases hroom : room = some 0
  · rw [Printer.settle, Printer.settle, if_pos hroom, if_pos hroom]
    refine ⟨h.stop _, .nil, ?_⟩
    have := hts.nil_iff
    simpa [eq_comm] using this
  obtain ⟨htake, hdrop⟩ := hts.takeWhile_dropWhile_isNewline
  cases hts₁ : ts.dropWhile fun t => !t.isNewline with
  | nil =>
    rw [hts₁] at hdrop
    rw [settle_of_flat hroom hts₁, settle_of_flat hroom (hdrop.nil_iff.mp rfl)]
    refine ⟨h.putTokens htake, .nil, ?_⟩
    have := hts.nil_iff
    simpa [eq_comm] using this
  | cons t following =>
    rw [hts₁] at hdrop
    obtain ⟨kind, path, hkind⟩ := Token.isNewline_iff.mp (Token.isNewline_of_dropWhile hts₁)
    obtain ⟨following', hts₁', hfollowing⟩ :=
      hdrop.of_cons_newline (Token.isNewline_of_dropWhile hts₁)
    have hnil := htake.nil_iff
    have hlength := length_takeWhile_add hts₁
    have hlength' := length_takeWhile_add hts₁'
    rw [settle_of_newline hroom hts₁ hkind, settle_of_newline hroom hts₁' hkind]
    generalize ts.takeWhile (fun t => !t.isNewline) = lead at *
    generalize ts'.takeWhile (fun t => !t.isNewline) = lead' at *
    have hle := length_decided_le (p.putTokens lead) t kind path following
    have hle' := length_decided_le (p'.putTokens lead') t kind path following'
    obtain ⟨hcongr, hleft, hwhole⟩ := (h.putTokens htake).decided hfollowing t kind path
    generalize (p.putTokens lead).decided t kind path following = r at *
    generalize (p'.putTokens lead').decided t kind path following' = r' at *
    rw [← List.length_eq_zero_iff, ← List.length_eq_zero_iff] at hnil
    rw [List.length_cons, List.length_cons] at hwhole
    unfold resume
    rw [hcongr.fits hleft]
    split_ifs
    · exact ⟨hcongr, hleft, by omega⟩
    · have hsection := hcongr.settle (hfollowing.sectionOf path) (room.map (· - 1))
      obtain ⟨hcongr, hleft⟩ := hsection.behindSection hfollowing
      have := length_behindSection_le (settle_suffix r.1 (room.map (· - 1))
        (Token.sectionOf path following)).length_le
      have := length_behindSection_le (settle_suffix r'.1 (room.map (· - 1))
        (Token.sectionOf path following')).length_le
      exact ⟨hcongr, hleft, by omega⟩
termination_by ts.length
decreasing_by
  have := Token.length_sectionOf_le path following
  omega

/-- **Lines are broken alike.** -/
theorem writeLine {p p' : Printer} {ts ts' : List Token} (h : Congruent p p') (hts : Cuts ts ts') :
    Congruent (p.writeLine ts).1 (p'.writeLine ts').1 ∧
      Cuts (p.writeLine ts).2 (p'.writeLine ts').2 := by
  rw [Printer.writeLine, Printer.writeLine, h.fits hts, h.room]
  split_ifs with hfits
  · exact ⟨h, hts⟩
  obtain ⟨hcongr, hleft, hwhole⟩ := h.settle hts p.room
  have hle := (settle_suffix p p.room ts).length_le
  have hle' := (settle_suffix p' p.room ts').length_le
  generalize p.settle p.room ts = r at *
  generalize p'.settle p.room ts' = r' at *
  dsimp only
  by_cases hlength : r.2.length < ts.length
  · rw [if_pos hlength, if_pos (by omega)]
    exact hcongr.writeLine hleft
  · rw [if_neg hlength, if_neg (by omega)]
    exact ⟨hcongr, hts⟩
termination_by ts.length

end Congruent

end Printer

end Tilde
