import Tilde.Proofs.Column
import Tilde.Proofs.Layout.Run
import Tilde.Proofs.Layout.Stroking
import Tilde.Proofs.Layout.Written

/-!
# The printer between operations

**`printer_invariant`**: after any operations, the printer is buffering exactly if there is something
in the buffer, the buffered tokens take the room that they print, without a gap, and fit on the line,
and the column of the printer is where all that is not yet written would end if no newline broke.

* `Flat`: no line break is held back, in the buffer or in the texts of a block.
-/

namespace Tilde

/-- The stroke writes no line break but by a newline. -/
def Stroke.NewlineFree : Stroke → Prop
  | begin opening perLine closing => '\n' ∉ opening ∧ '\n' ∉ perLine ∧ '\n' ∉ closing
  | text s => '\n' ∉ s
  | _ => True

/-- The texts around a block are without line breaks. -/
def Operation.NewlineFree : Operation → Prop
  | begin opening perLine closing _ => '\n' ∉ opening ∧ '\n' ∉ perLine ∧ '\n' ∉ closing
  | _ => True

theorem newlineFree_of_ofText {acc t : Text} {s : Stroke} (hacc : '\n' ∉ acc)
    (h : s ∈ Stroke.ofText acc t) : s.NewlineFree := by
  fun_induction Stroke.ofText acc t with
  | case1 acc =>
    obtain rfl := List.mem_singleton.mp h
    simpa [Stroke.NewlineFree] using hacc
  | case2 acc t ih =>
    rcases List.mem_cons.mp h with rfl | h
    · simpa [Stroke.NewlineFree] using hacc
    · rcases List.mem_cons.mp h with rfl | h
      · trivial
      · exact ih (by simp) h
  | case3 acc c t hc ih =>
    exact ih (by simpa [hacc] using Ne.symm hc) h

theorem Operation.newlineFree_of_mem_strokes {op : Operation} (hop : op.NewlineFree) {p : Printer}
    {s : Stroke} (h : s ∈ op.strokes p) : s.NewlineFree := by
  cases op with
  | begin opening perLine closing level =>
    obtain rfl := List.mem_singleton.mp h
    exact hop
  | write t => exact newlineFree_of_ofText (by simp) h
  | endLine => exact newlineFree_of_ofText (by simp) h
  | freshLine =>
    unfold strokes at h
    split_ifs at h
    · exact newlineFree_of_ofText (by simp) h
    · simp at h
  | _ =>
    obtain rfl := List.mem_singleton.mp h
    trivial

namespace Printer

/-! ## Line breaks -/

/-- No line break is held back, in the tokens, or in the texts of a block. -/
structure Flat (p : Printer) (ts : List Token) : Prop where
  held : '\n' ∉ p.held
  opening : ∀ i, '\n' ∉ (p.block i).opening
  perLine : ∀ i, '\n' ∉ (p.block i).perLine
  closing : ∀ i, '\n' ∉ (p.block i).closing
  text : ∀ t ∈ ts, ∀ body trailing, t.kind = .text body trailing →
    '\n' ∉ body ∧ '\n' ∉ trailing

namespace Flat

variable {p q : Printer} {ts us : List Token}

theorem outputs (h : Flat p ts) (ho : Outputs p q) (hheld : '\n' ∉ q.held) (hus : us ⊆ ts) :
    Flat q us where
  held := hheld
  opening i := by rw [ho.opening]; exact h.opening i
  perLine i := by rw [ho.perLine]; exact h.perLine i
  closing i := by rw [ho.closing]; exact h.closing i
  text t ht := h.text t (hus ht)

theorem printed (h : Flat p ts) {t : Token} (ht : t ∈ ts) : '\n' ∉ p.printed t := by
  unfold Printer.printed
  split
  · rename_i hkind
    have := h.text t ht _ _ hkind
    simpa using this
  · simpa using ⟨h.opening _, h.perLine _⟩
  · exact h.closing _
  · simp
  · simp

theorem putToken {t : Token} (h : Flat p (t :: ts)) : Flat (p.putToken t) ts := by
  refine h.outputs (.putToken p t) ?_ (List.subset_cons_self t ts)
  unfold Printer.putToken
  split
  · simpa using h.held
  · split_ifs <;> simp
  · rename_i body trailing hkind
    exact (h.text t List.mem_cons_self body trailing hkind).2
  · simp
  · simp [endBlock, tell]

theorem putTokens (h : Flat p (ts ++ us)) : Flat (p.putTokens ts) us := by
  induction ts generalizing p with
  | nil => exact h
  | cons t ts ih => exact ih h.putToken

theorem putAll (h : Flat p ts) : Flat (p.putTokens ts) [] :=
  putTokens (by rwa [List.append_nil])

theorem putHeld (h : Flat p ts) : Flat p.putHeld ts :=
  h.outputs (.putHeld p) (by simp) (List.Subset.refl ts)

end Flat

theorem Flat.issue {p p' : Printer} {s : Stroke} {kind : TokenKind} {ts : List Token}
    (h : Flat p ts) (hs : s.NewlineFree) (hi : Issues p s kind p') (start : Nat) :
    Flat p' (ts ++ [p'.tokenAt start kind]) := by
  have htext : ∀ body trailing, kind = .text body trailing → '\n' ∉ body ∧ '\n' ∉ trailing := by
    intro body trailing hkind
    cases hi with
    | @text s hne =>
      cases hkind
      have hs' : '\n' ∉ s := hs
      rwa [← Text.splitTrailing_append s, List.mem_append, not_or] at hs'
    | _ => cases hkind
  have hblock (f : BlockState → Text) (hf : ∀ i, '\n' ∉ f (p.block i))
      (hb : ∀ b : BlockState, s = .begin b.opening b.perLine b.closing → '\n' ∉ f b) (i : Nat) :
      '\n' ∉ f (p'.block i) := by
    cases hi with
    | begin b =>
      rw [block_push]
      split_ifs
      · exact hb b rfl
      · exact hf i
    | _ => exact hf i
  refine ⟨?_, hblock _ h.opening ?_, hblock _ h.perLine ?_, hblock _ h.closing ?_, ?_⟩
  · rw [hi.state]
    exact h.held
  · rintro b rfl
    exact hs.1
  · rintro b rfl
    exact hs.2.1
  · rintro b rfl
    exact hs.2.2
  · intro t ht body trailing hkind
    rcases List.mem_append.mp ht with ht | ht
    · exact h.text t ht body trailing hkind
    · obtain rfl := List.mem_singleton.mp ht
      exact htext body trailing hkind

theorem flat_stroking : Stroking (fun (_ : Unit) _ s (_ : Unit) => s.NewlineFree)
    (fun _ p ts => Flat p ts) where
  settling _ := {
    put _ _ h := h.putToken
    broken _ _ _ h := h.outputs (.breakLine _ _) (by simp) (List.subset_cons_self _ _)
    passed _ _ _ h := h.outputs (.refl _) h.held (List.subset_cons_self _ _)
    putSection {p ts rest path} _ _ _ _ _ h := by
      rw [← Token.sectionOf_append_afterSection path ts, List.append_assoc] at h
      exact h.putTokens }
  restate _ _ _ _ _ h := ⟨h.held, h.opening, h.perLine, h.closing, h.text⟩
  nothing _ h := h
  issue start hs hi _ _ _ h := h.issue hs hi start
  flush _ _ _ h := h.putAll.putHeld
  literal {_ _ _ q ts} _ _ _ _ h := by
    have hall := h.putAll.putHeld
    refine Flat.outputs
      (p := { (q.putTokens ts).putHeld with pending := .empty, buffering := false })
      ⟨hall.held, hall.opening, hall.perLine, hall.closing, hall.text⟩ (.breakHere _) ?_
      (List.Subset.refl _)
    simp [breakHere]

/-- **The invariant of the printer.** -/
theorem flat_strokes {p q : Printer} {ss : List Stroke} (hp : Buffered p) (h : Flat p p.buffer)
    (hss : Strokes p ss q) (hflat : ∀ s ∈ ss, s.NewlineFree) : Flat q q.buffer := by
  induction hss with
  | nil p => exact h
  | @cons p q s ss room allowed unharmed rest ih =>
    have hp' := hp.room room
    exact ih (hp'.stroke allowed unharmed)
      (flat_stroking.stroke (g := ()) () (hflat s List.mem_cons_self) hp'
        (flat_stroking.restate (g := ()) _ _ _ _ room h) unharmed)
      fun s' hs' => hflat s' (List.mem_cons_of_mem _ hs')

/-! ## The column -/

/-- The column of a printer is where the white space held and the buffered tokens end. -/
theorem column_eq {p : Printer} (hp : Buffered p) (h : Flat p p.buffer) :
    p.column = columnAfter p.base.column (p.held ++ p.buffer.flatMap p.printed) := by
  have hbreak : '\n' ∉ p.held ++ p.buffer.flatMap p.printed := by
    simp only [List.mem_append, List.mem_flatMap, not_or, not_exists, not_and]
    exact ⟨h.held, fun t ht => h.printed ht⟩
  have hextent := hp.sound.extent_eq
  have hposition := hp.position
  rw [columnAfter_eq hbreak, List.length_append, column, Buffer.first?_eq]
  rw [show p.pending.toList = p.buffer from rfl]
  cases hbuffer : p.buffer with
  | nil => simp
  | cons t ts =>
    rw [hbuffer] at hextent hposition
    have hlast := hposition _ (List.getLast?_eq_some_getLast (List.cons_ne_nil t ts))
    simp only [List.head?_cons, Token.extent,
      List.getLast?_eq_some_getLast (List.cons_ne_nil t ts)] at hextent ⊢
    omega

/-! ## Between operations -/

theorem exists_of_create {options : Options} {width : Option Int} {column : Int} {p : Printer}
    (h : create options width column = .ok p) :
    ∃ o : Options, (o = { options with rightMargin := width } ∨ o = options) ∧ p = {
      base := { column := column, maxColumn := o.rightMargin, options := o }
      options := o } := by
  unfold create at h
  split_ifs at h <;> cases h
  · exact ⟨_, Or.inl rfl, rfl⟩
  · exact ⟨_, Or.inr rfl, rfl⟩

theorem block_of_blocks {p : Printer} (h : p.blocks = #[{}]) (i : Nat) : p.block i = {} := by
  rw [block, h]
  cases i <;> rfl

theorem buffered_create {options : Options} {width : Option Int} {column : Int} {p : Printer}
    (h : create options width column = .ok p) : Buffered p := by
  obtain ⟨o, -, rfl⟩ := exists_of_create h
  exact .idle ⟨by simp, by simp⟩ rfl rfl

theorem flat_create {options : Options} {width : Option Int} {column : Int} {p : Printer}
    (h : create options width column = .ok p) : Flat p p.buffer := by
  obtain ⟨o, -, rfl⟩ := exists_of_create h
  refine ⟨by simp, ?_, ?_, ?_, by simp [buffer, Buffer.toList]⟩
  all_goals simp [block_of_blocks]

/-- A printer whose buffer can be relied on. It is buffering exactly if something is buffered; the
tokens follow each other without a gap up to the current position, and take the room that they print
if no newline breaks; they fit on the line; and the column is the one in which all that is not yet
written would end. -/
structure Consistent (p : Printer) : Prop where
  buffering : p.buffering = false ↔ p.buffer = []
  chain : p.buffer.IsChain fun t t' => t.stop = t'.start
  position : ∀ t ∈ p.buffer.getLast?, t.stop = p.position
  width : ∀ t ∈ p.buffer, t.stop = t.start + (p.printed t).length
  fits : p.buffer = [] ∨
    ∀ limit, p.base.maxColumn = some limit → p.base.column + Token.extent p.buffer < limit
  column : p.column = columnAfter p.base.column (p.held ++ p.buffer.flatMap p.printed)

/-- **The printer is consistent after any operations.** -/
theorem printer_invariant {options : Options} {width : Option Int} {column : Int} {p q : Printer}
    {ops : List Operation} (hcreate : create options width column = .ok p)
    (hflat : ∀ op ∈ ops, op.NewlineFree) (hrun : p.runAll ops = .ok q) : Consistent q := by
  obtain ⟨ss, hss, hfrom⟩ := strokes_of_runAll hrun
  have hp := buffered_create hcreate
  have hq := hp.strokes hss
  have hq' := flat_strokes hp (flat_create hcreate) hss fun s hs => by
    obtain ⟨op, hop, p', hs'⟩ := hfrom s hs
    exact Operation.newlineFree_of_mem_strokes (hflat op hop) hs'
  refine ⟨?_, hq.sound.contiguous.chain, hq.position, hq.sound.width, ?_, column_eq hq hq'⟩
  · rw [← Bool.not_eq_true, hq.busy, not_not]
  · refine hq.fits.imp_right fun hfits limit hlimit => ?_
    exact (fits_iff hlimit).mp hfits

theorem printer_invariant_begin_write_newline :
    ∃ p q, create {} (some 10) 0 = .ok p ∧
      p.runAll [.begin ['('] [] [')'] none, .write ['a', ' '], .newline .linear, .write ['b']] =
        .ok q ∧ q.buffer.length = 2 ∧ Consistent q := by
  refine ⟨_, _, rfl, rfl, rfl, @printer_invariant {} (some 10) 0 _ _
    [.begin ['('] [] [')'] none, .write ['a', ' '], .newline .linear, .write ['b']] rfl ?_ rfl⟩
  simp [Operation.NewlineFree]

end Printer

end Tilde
