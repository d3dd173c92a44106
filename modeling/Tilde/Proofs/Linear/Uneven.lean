import Tilde.Proofs.Linear.Steady

/-!
# White space before newlines that is not steady

The white space held back before a newline is not counted when it is decided whether the section
behind it fits. Hence a newline may stay and a later one of the same block break, and it is just the
condition of `allOrNone_of_steady` that rules this out (**`allOrNone_iff`**).

* `uneven`: the operations, for any amounts of white space of which the first is larger;
* `runAll_uneven`, `directOutput_uneven`: what the printer does, and what would be all or none.
-/

namespace Tilde

theorem Buffer.ofList_concat (ts : List Token) (t : Token) :
    Buffer.ofList (ts ++ [t]) = (Buffer.ofList ts).push t := by
  cases ts <;> simp [Buffer.ofList, Buffer.push]

namespace Printer

variable {p q : Printer} {ts rest lead following : List Token} {t : Token} {kind : NewlineKind}
  {path : Path} {a b : Nat}

/-! ## Settling a newline -/

theorem breaks_iff {w : Int} {i : Nat} {us : List Token} (hw : p.base.maxColumn = some w)
    (hwhole : (p.block i).broken = false) :
    p.breaks .linear i ts us = true ↔ w ≤ p.base.column + Token.extent ts := by
  show ((p.block i).broken || !p.fits ts) = true ↔ _
  rw [hwhole, Bool.false_or, Bool.not_eq_true', Bool.eq_false_iff, Ne, fits_iff hw, Int.not_lt]

/-- Settling, if there is a newline. -/
theorem settle_at (hlead : ∀ t ∈ lead, t.isNewline = false) (hkind : t.kind = .newline kind path) :
    p.settle none (lead ++ t :: following) =
      let stretch := Token.sectionOf path following
      let (q, result) :=
        if (p.putTokens lead).breaks kind (path.headD 0) stretch
            (Token.subsectionOf path following) then
          ((p.putTokens lead).breakLine path, following)
        else (p.putTokens lead, t :: following)
      if q.fits result then (q, result)
      else
        let (q', rest) := q.settle none stretch
        if rest.length = stretch.length then
          (q'.putTokens stretch, Token.afterSection path following)
        else (q', rest ++ Token.afterSection path following) := by
  have hnot : ∀ t ∈ lead, (!t.isNewline) = true := fun t ht => by rw [hlead t ht]; rfl
  have ht := Token.isNewline_of_kind hkind
  have htake : (lead ++ t :: following).takeWhile (fun t => !t.isNewline) = lead := by
    rw [List.takeWhile_append_of_pos hnot]
    simp [ht]
  have hdrop : (lead ++ t :: following).dropWhile (fun t => !t.isNewline) = t :: following := by
    rw [List.dropWhile_append_of_pos hnot]
    simp [ht]
  rw [settle_of_newline (by simp) hdrop hkind, htake]
  rfl

/-- A newline breaks, and what follows it fits then. -/
theorem settle_breaks (lead : List Token) (hlead : ∀ t ∈ lead, t.isNewline = false)
    (hkind : t.kind = .newline kind path)
    (hbreaks : (p.putTokens lead).breaks kind (path.headD 0) (Token.sectionOf path following)
      (Token.subsectionOf path following) = true)
    (hfits : ((p.putTokens lead).breakLine path).fits following = true) :
    p.settle none (lead ++ t :: following) = ((p.putTokens lead).breakLine path, following) := by
  rw [settle_at hlead hkind]
  simp only [hbreaks, if_true, hfits]

/-- A newline stays, but a newline in its section does not. -/
theorem settle_stays (hkind : t.kind = .newline kind path)
    (hbreaks : p.breaks kind (path.headD 0) (Token.sectionOf path following)
      (Token.subsectionOf path following) = false)
    (hfits : p.fits (t :: following) = false)
    (hsection : p.settle none (Token.sectionOf path following) = (q, rest))
    (hlength : rest.length ≠ (Token.sectionOf path following).length) :
    p.settle none (t :: following) = (q, rest ++ Token.afterSection path following) := by
  have h : p.settle none ([] ++ t :: following) = _ := settle_at (by simp) hkind
  have hput : p.putTokens [] = p := rfl
  rw [hput] at h
  simpa only [List.nil_append, hbreaks, Bool.false_eq_true, if_false, hfits, hsection,
    if_neg hlength] using h

theorem writeLine_settle (hfits : p.fits ts = false) (hsettle : p.settle p.room ts = (q, rest))
    (hlength : rest.length < ts.length) (hq : q.fits rest = true) : p.writeLine ts = (q, rest) := by
  rw [writeLine, if_neg (by simp [hfits]), hsettle]
  simp only [hlength, if_true]
  rw [writeLine, if_pos hq]

/-! ## Uneven operations -/

/-- In a block, a newline behind `a` spaces and a newline behind `b` spaces; the end of the block, a
newline and one more text. -/
def uneven (a b : Nat) : List Operation :=
  [.begin [] [] [] none, .write ('x' :: List.replicate a ' '), .newline .linear,
    .write ('y' :: List.replicate b ' '), .newline .linear, .finish, .newline .linear, .write ['u']]

theorem strokesOf_uneven (p : Printer) (a b : Nat) : p.strokesOf (uneven a b) =
    [.begin [] [] [], .text ('x' :: List.replicate a ' '), .newline .linear,
      .text ('y' :: List.replicate b ' '), .newline .linear, .finish, .newline .linear,
      .text ['u']] := by
  simp [strokesOf, uneven, Operation.strokes, ofText_eq, List.mem_replicate]

theorem isLinear_uneven (a b : Nat) : ∀ op ∈ uneven a b, op.IsLinear := by
  simp [uneven, Operation.IsLinear, List.mem_replicate]

/-! ### White space -/

theorem splitTrailing_spaced {c : Char} (hc : Text.isBlank c = false) (n : Nat) :
    Text.splitTrailing (c :: List.replicate n ' ') = ([c], List.replicate n ' ') := by
  have hblank : ∀ x ∈ List.replicate n ' ', Text.isBlank x = true := fun x hx => by
    rw [List.eq_of_mem_replicate hx]
    rfl
  simp only [Text.splitTrailing, List.reverse_cons, List.reverse_replicate]
  rw [List.dropWhile_append_of_pos hblank, List.takeWhile_append_of_pos hblank]
  simp [hc]

theorem not_mem_spaced {c : Char} (hc : c ≠ '\n') (n : Nat) :
    '\n' ∉ c :: List.replicate n ' ' := by
  simp [hc.symm]

/-- Only the second newline has a newline of its block before it. -/
theorem steady_uneven {ρ : Nat → Nat → Prop} (h : ρ a b) (p : Printer) :
    Gaps.Steady ρ {} (p.strokesOf (uneven a b)) := by
  have hx := splitTrailing_spaced (c := 'x') rfl a
  have hy := splitTrailing_spaced (c := 'y') rfl b
  rw [strokesOf_uneven]
  simp [Gaps.Steady, Gaps.Suits, Gaps.step, hx, hy, h]

/-! ### What would be all or none -/

theorem direct_spaced (f : Nat → Bool) (hp : p.buffering = false) {c : Char}
    (hc : Text.isBlank c = false) (n : Nat) :
    direct f p (.text (c :: List.replicate n ' ')) =
      { p.putHeld.put [c] with held := List.replicate n ' ' } :=
  (stroke_text hp (List.cons_ne_nil _ _)).trans (by rw [splitTrailing_spaced hc])

theorem direct_finish (f : Nat → Bool) (hp : p.buffering = false) :
    direct f p .finish = { p.putHeld.endBlock p.path with path := p.path.tail } := by
  show p.closeBlock = _
  simp only [closeBlock, hp, Bool.false_eq_true, if_false]

theorem direct_stays {f : Nat → Bool} (h : f p.current = false) :
    direct f p (.newline .linear) = p :=
  if_neg (by simp [h])

theorem direct_breaks {f : Nat → Bool} (h : f p.current = true) :
    direct f p (.newline .linear) = p.breakLine p.path :=
  if_pos h

theorem breakLine_bare (hlead : (p.block (path.headD 0)).lead = [])
    (hindent : (p.block (path.headD 0)).indent = .integer 0) :
    p.breakLine path = { p.put ['\n'] with held := [] }.markBroken path := by
  have hspace : (p.block (path.headD 0)).indentation = .ok [] := by
    rw [BlockState.indentation, hindent, hlead]
    rfl
  simp only [breakLine, hlead, hspace, putOrStop, put_nil]

/-! ## The run -/

def unevenOptions (b : Nat) : Options := { rightMargin := some (b + 3) }

/-- There is just not enough room for the two spaced texts and one more character. -/
def unevenPrinter (b : Nat) : Printer := {
  base := { column := 0, maxColumn := some (b + 3), options := unevenOptions b }
  options := unevenOptions b }

/-- Before the first newline. -/
def unevenStart (a b : Nat) : Printer := {
  base := { column := 1, maxColumn := some (b + 3), options := unevenOptions b, taken := ['x'] }
  options := unevenOptions b
  blocks := #[{}, {}]
  path := [1, 0]
  held := List.replicate a ' '
  told := [.start] }

/-- What comes to stand in the buffer. -/
def unevenTokens (b : Nat) : List Token :=
  [⟨0, 0, .newline .linear [1, 0]⟩, ⟨0, b + 1, .text ['y'] (List.replicate b ' ')⟩,
    ⟨b + 1, b + 1, .newline .linear [1, 0]⟩, ⟨b + 1, b + 1, .blockEnd [1, 0]⟩,
    ⟨b + 1, b + 1, .newline .linear [0]⟩, ⟨b + 1, b + 2, .text ['u'] []⟩]

/-- The first `n` tokens are in the buffer. -/
def unevenBuffering (a b n position : Nat) (path : Path) : Printer :=
  { unevenStart a b with
    buffering := true, position := position, path := path
    pending := .ofList ((unevenTokens b).take n) }

/-- The line has been broken for the second newline. -/
def unevenBroken (a b : Nat) : Printer :=
  { unevenBuffering a b 6 (b + 2) [0] with
    base := {
      column := 0, line := 1, maxColumn := some (b + 3), options := unevenOptions b
      taken := '\n' :: 'y' :: List.replicate a ' ' ++ ['x'] }
    blocks := #[{ broken := true, brokenInside := true }, { broken := true }]
    held := [] }

/-- Before the printer is closed. -/
def unevenEnd (a b : Nat) : Printer :=
  { unevenBroken a b with pending := .ofList ((unevenTokens b).drop 3) }

theorem create_uneven (b : Nat) : create {} (some (b + 3)) 0 = .ok (unevenPrinter b) := by
  rw [create, if_neg (by simp; omega)]
  rfl

/-- All or none would be one of these. -/
theorem directOutput_uneven (f : Nat → Bool) (a b : Nat) :
    (unevenPrinter b).directOutput f (uneven a b) =
      'x' :: (if f 1 then ['\n'] else List.replicate a ' ') ++
        'y' :: (if f 1 then ['\n'] else List.replicate b ' ') ++
          (if f 0 then ['\n'] else []) ++ ['u'] := by
  have hx : direct f (direct f (unevenPrinter b) (.begin [] [] []))
      (.text ('x' :: List.replicate a ' ')) = unevenStart a b := direct_spaced f rfl rfl a
  have hy (p : Printer) (hp : p.buffering = false) :
      direct f p (.text ('y' :: List.replicate b ' ')) =
        { p.putHeld.put ['y'] with held := List.replicate b ' ' } := direct_spaced f hp rfl b
  have hu (p : Printer) (hp : p.buffering = false) :
      direct f p (.text ['u']) = { p.putHeld.put ['u'] with held := [] } :=
    direct_spaced f hp rfl 0
  rw [directOutput, strokesOf_uneven]
  simp only [List.foldl, hx]
  cases h1 : f 1 <;> cases h0 : f 0 <;>
    simp [direct_stays, direct_breaks, direct_finish, hy, hu, breakLine_bare, unevenStart, current,
      h1, h0, putHeld, put, endBlock, block, tell, markBroken, modifyBlock, Column.output,
      Column.write, List.reverseAux_eq]

/-! ### Buffering -/

theorem append_of_fits {width : Nat} {kind : TokenKind}
    (hq : { p with
      position := p.position + width
      pending := p.pending.push (Token.mk p.position (p.position + width) kind) } = q)
    (hfits : q.bufferFits = true) : p.append width kind = q := by
  subst hq
  exact if_pos hfits

/-- The next token is buffered, as long as the tokens fit. -/
theorem append_uneven {n width position : Nat} {path : Path} {kind : TokenKind}
    (hnext : (unevenTokens b).take (n + 1) =
      (unevenTokens b).take n ++ [Token.mk position (position + width) kind])
    (hroom : position + width < b + 2) :
    (unevenBuffering a b n position path).append width kind =
      unevenBuffering a b (n + 1) (position + width) path := by
  refine append_of_fits ?_ ?_
  · simp only [unevenBuffering, hnext, Buffer.ofList_concat]
  · have hfirst : ((unevenTokens b).take (n + 1)).head? =
        some ⟨0, 0, .newline .linear [1, 0]⟩ := rfl
    rw [bufferFits, Buffer.extent_eq]
    simp only [unevenBuffering, Buffer.toList_ofList, Token.extent, hfirst]
    rw [hnext, List.getLast?_append]
    simp [hasRoom, unevenStart]
    omega

theorem run_write {s : Text} (hopen : p.closed = false) (hs : '\n' ∉ s) :
    Operation.run p (.write s) = (p.stroke (.text s)).conclude := by
  simp [Operation.run, write, whileOpen, hopen, writeLines_text hs, bind, Except.bind]

theorem run_write_buffering {s : Text} (hopen : p.closed = false) (hp : p.buffering = true)
    (hne : s ≠ []) (hs : '\n' ∉ s) : Operation.run p (.write s) =
      (p.append s.length (.text (Text.splitTrailing s).1 (Text.splitTrailing s).2)).conclude := by
  rw [run_write hopen hs]
  simp [stroke, writeText, hp, hne]

theorem runAll_start (a b : Nat) :
    (unevenPrinter b).runAll [.begin [] [] [] none, .write ('x' :: List.replicate a ' ')] =
      .ok (unevenStart a b) := by
  refine runAll_cons.mpr ⟨_, rfl, runAll_cons.mpr ⟨_, ?_, rfl⟩⟩
  rw [run_write rfl (not_mem_spaced (by decide) a), stroke_text rfl (List.cons_ne_nil _ _),
    splitTrailing_spaced rfl]
  rfl

theorem runAll_section (a b : Nat) :
    (unevenStart a b).runAll [.newline .linear, .write ('y' :: List.replicate b ' '),
      .newline .linear, .finish, .newline .linear] = .ok (unevenBuffering a b 5 (b + 1) [0]) := by
  refine runAll_cons.mpr ⟨unevenBuffering a b 1 0 [1, 0], ?_,
    runAll_cons.mpr ⟨unevenBuffering a b 2 (b + 1) [1, 0], ?_,
    runAll_cons.mpr ⟨unevenBuffering a b 3 (b + 1) [1, 0], ?_,
    runAll_cons.mpr ⟨unevenBuffering a b 4 (b + 1) [0], ?_, runAll_cons.mpr ⟨_, ?_, rfl⟩⟩⟩⟩⟩
  · show ((unevenBuffering a b 0 0 [1, 0]).append 0 (.newline .linear [1, 0])).conclude = _
    rw [append_uneven rfl (by omega)]
    rfl
  · rw [run_write_buffering rfl rfl (List.cons_ne_nil _ _) (not_mem_spaced (by decide) b),
      splitTrailing_spaced rfl, append_uneven (by simp [unevenTokens]) (by simp)]
    simp only [List.length_cons, List.length_replicate, Nat.zero_add]
    rfl
  · show ((unevenBuffering a b 2 (b + 1) [1, 0]).append 0 (.newline .linear [1, 0])).conclude = _
    rw [append_uneven rfl (by omega)]
    rfl
  · show conclude { (unevenBuffering a b 3 (b + 1) [1, 0]).append 0 (.blockEnd [1, 0]) with
      path := [0] } = _
    rw [append_uneven rfl (by omega)]
    rfl
  · show ((unevenBuffering a b 4 (b + 1) [0]).append 0 (.newline .linear [0])).conclude = _
    rw [append_uneven rfl (by omega)]
    rfl

/-! ### Breaking the line -/

theorem putToken_uneven (a b : Nat) :
    (unevenBuffering a b 6 (b + 2) [0]).putToken
        ⟨0, b + 1, .text ['y'] (List.replicate b ' ')⟩ =
      { unevenBuffering a b 6 (b + 2) [0] with
        base := { (unevenBuffering a b 6 (b + 2) [0]).base with
          column := a + 2, taken := 'y' :: List.replicate a ' ' ++ ['x'] }
        held := List.replicate b ' ' } := by
  simp [putToken, putHeld, put, unevenBuffering, unevenStart, Column.write, columnAfter,
    List.reverseAux_eq, List.count_replicate]
  omega

/-- With the white space before it, the second text reaches too far for the newline behind it. -/
theorem settle_section (h : b < a) :
    (unevenBuffering a b 6 (b + 2) [0]).settle none
      [⟨0, b + 1, .text ['y'] (List.replicate b ' ')⟩, ⟨b + 1, b + 1, .newline .linear [1, 0]⟩,
        ⟨b + 1, b + 1, .blockEnd [1, 0]⟩] =
      (unevenBroken a b, [⟨b + 1, b + 1, .blockEnd [1, 0]⟩]) := by
  have hput : (unevenBuffering a b 6 (b + 2) [0]).putTokens
      [⟨0, b + 1, .text ['y'] (List.replicate b ' ')⟩] = _ := putToken_uneven a b
  have hbreak : ((unevenBuffering a b 6 (b + 2) [0]).putTokens
      [⟨0, b + 1, .text ['y'] (List.replicate b ' ')⟩]).breakLine [1, 0] = unevenBroken a b := by
    rw [hput]
    rfl
  refine (settle_breaks [⟨0, b + 1, .text ['y'] (List.replicate b ' ')⟩]
    (List.forall_mem_singleton.mpr rfl) rfl ?_ ?_).trans (by rw [hbreak])
  · rw [hput]
    refine (breaks_iff (w := b + 3) rfl rfl).mpr ?_
    show (b + 3 : Int) ≤ a + 2 + ((b + 1 : Nat) - (b + 1 : Nat))
    omega
  · rw [hbreak]
    refine (fits_iff (w := b + 3) rfl).mpr ?_
    show (0 : Int) + ((b + 1 : Nat) - (b + 1 : Nat)) < b + 3
    omega

theorem not_fits_uneven (a b : Nat) :
    (unevenBuffering a b 6 (b + 2) [0]).fits (unevenTokens b) = false := by
  refine Bool.eq_false_iff.mpr (mt (fits_iff (w := b + 3) rfl).mp ?_)
  show ¬(1 : Int) + ((b + 2 : Nat) - (0 : Nat)) < b + 3
  omega

theorem fits_uneven (a b : Nat) : (unevenBroken a b).fits ((unevenTokens b).drop 3) = true := by
  refine (fits_iff (w := b + 3) rfl).mpr ?_
  show (0 : Int) + ((b + 2 : Nat) - (b + 1 : Nat)) < b + 3
  omega

/-- The white space before the first newline is not counted, so it stays. -/
theorem settle_uneven (h : b < a) :
    (unevenBuffering a b 6 (b + 2) [0]).settle none (unevenTokens b) =
      (unevenBroken a b, (unevenTokens b).drop 3) := by
  have hsection : settle _ none (Token.sectionOf [1, 0] (unevenTokens b).tail) = _ :=
    settle_section h
  refine settle_stays rfl ?_ (not_fits_uneven a b) hsection ?_
  · refine Bool.eq_false_iff.mpr (mt (breaks_iff (w := b + 3) rfl rfl).mp ?_)
    show ¬(b + 3 : Int) ≤ 1 + ((b + 1 : Nat) - (0 : Nat))
    omega
  · show 1 ≠ 3
    decide

theorem run_last (h : b < a) :
    Operation.run (unevenBuffering a b 5 (b + 1) [0]) (.write ['u']) = .ok (unevenEnd a b) := by
  rw [run_write_buffering rfl rfl (List.cons_ne_nil _ _) (by decide), append_eq rfl]
  show conclude (keep ((unevenBuffering a b 6 (b + 2) [0]).writeLine (unevenTokens b))) = _
  rw [writeLine_settle (not_fits_uneven a b) (settle_uneven h) (by simp [unevenTokens])
    (fits_uneven a b)]
  rfl

/-- **The run** of uneven operations. -/
theorem runAll_uneven (h : b < a) :
    (unevenPrinter b).runAll (uneven a b) = .ok (unevenEnd a b) := by
  have hparts : uneven a b =
      [.begin [] [] [] none, .write ('x' :: List.replicate a ' ')] ++
        ([.newline .linear, .write ('y' :: List.replicate b ' '), .newline .linear, .finish,
          .newline .linear] ++ [.write ['u']]) := rfl
  rw [hparts, runAll_of_append (runAll_start a b), runAll_of_append (runAll_section a b)]
  exact runAll_cons.mpr ⟨_, run_last h, rfl⟩

theorem close_uneven (a b : Nat) :
    ∃ r, (unevenEnd a b).close = .ok r ∧
      r.base.output = 'x' :: List.replicate a ' ' ++ ['y', '\n', '\n', 'u'] := by
  have hline : (unevenEnd a b).writeLine (unevenEnd a b).buffer =
      (unevenEnd a b, (unevenTokens b).drop 3) := by
    rw [writeLine]
    exact if_pos (fits_uneven a b)
  refine ⟨{ (unevenEnd a b).writeBuffered.putHeld with closed := true }, ?_, ?_⟩
  · simp only [close, flush]
    rw [writeBuffered_putHeld, hline]
    rfl
  · rw [writeBuffered_putHeld, hline]
    show ('u' :: '\n' :: '\n' :: 'y' :: List.replicate a ' ' ++ ['x']).reverse = _
    simp

/-! ## What the condition is worth -/

/-- The first newline has stayed, the second one has broken the line. -/
theorem not_allOrNone_uneven {output : Text} (h : b < a)
    (ho : output = 'x' :: List.replicate a ' ' ++ ['y', '\n', '\n', 'u']) :
    ¬(unevenPrinter b).AllOrNone (uneven a b) output := by
  rintro ⟨f, hf⟩
  rw [directOutput_uneven, ho] at hf
  cases h1 : f 1 with
  | true =>
    -- the first text would be at the end of its line
    obtain ⟨n, rfl⟩ := Nat.exists_eq_succ_of_ne_zero (Nat.ne_zero_of_lt h)
    simp [h1, List.replicate_succ] at hf
  | false =>
    -- only the last newline would break the line
    have hcount := congrArg (List.count '\n') hf
    cases h0 : f 0 <;> simp [h1, h0, List.count_replicate] at hcount

theorem not_allOrNone_of_lt (h : b < a) : ∃ p q r, create {} (some (b + 3)) 0 = .ok p ∧
    p.runAll (uneven a b) = .ok q ∧ q.close = .ok r ∧
    r.base.output = 'x' :: List.replicate a ' ' ++ ['y', '\n', '\n', 'u'] ∧
    ¬p.AllOrNone (uneven a b) r.base.output := by
  obtain ⟨r, hclose, ho⟩ := close_uneven a b
  exact ⟨_, _, r, create_uneven b, runAll_uneven h, hclose, ho, not_allOrNone_uneven h ho⟩

/-- **Linear newlines break together under just one condition** on the white space before them: it
must never be less than that before the first newline of a block. Any other condition lets a printer
break some newlines of a block and not the others. -/
theorem allOrNone_iff {ρ : Nat → Nat → Prop} :
    (∀ {options width column p q r ops}, create options width column = .ok p →
      (∀ op ∈ ops, op.IsLinear) → Gaps.Steady ρ {} (p.strokesOf ops) → p.runAll ops = .ok q →
      q.close = .ok r → p.AllOrNone ops r.base.output) ↔ ∀ a b, ρ a b → a ≤ b := by
  constructor
  · intro hall a b h
    refine Nat.le_of_not_lt fun hlt => ?_
    obtain ⟨p, q, r, hcreate, hrun, hclose, -, hnot⟩ := not_allOrNone_of_lt hlt
    exact hnot (hall hcreate (isLinear_uneven a b) (steady_uneven h p) hrun hclose)
  · intro hρ options width column p q r ops hcreate hlinear hsteady hrun hclose
    exact allOrNone_of_steady hcreate hlinear (hsteady.mono hρ) hrun hclose

/-- A space before the first newline of a block, and none before the second. -/
theorem exists_not_allOrNone : ∃ p q r, create {} (some 3) 0 = .ok p ∧
    (∀ op ∈ uneven 1 0, op.IsLinear) ∧ p.runAll (uneven 1 0) = .ok q ∧ q.close = .ok r ∧
    r.base.output = ['x', ' ', 'y', '\n', '\n', 'u'] ∧ ¬p.AllOrNone (uneven 1 0) r.base.output := by
  obtain ⟨p, q, r, hcreate, hrun, hclose, ho, hnot⟩ :=
    not_allOrNone_of_lt (a := 1) (b := 0) (by decide)
  exact ⟨p, q, r, hcreate, isLinear_uneven 1 0, hrun, hclose, ho, hnot⟩

end Printer

end Tilde
