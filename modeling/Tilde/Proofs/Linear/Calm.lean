import Tilde.Proofs.Layout.Invariant

/-!
# Sections that stay on the line

Once a newline has been kept because its section fits, the section stays on the line as long as
nothing breaks (`Calm`): the white space before the newline, which has not been counted, is the only
excess. **`Calm.fits_section`**: so no newline in it that has as much white space before it breaks.

* `Calm.of_fits`: a newline is kept;
* `Calm.putToken`, `Calm.pass`, `Calm.append`: other tokens.
-/

namespace Tilde

namespace Token

variable {path path' : Path} {t : Token} {ts us : List Token}

theorem breaksOutside_eq {kind : NewlineKind} {i : Nat} {around : Path}
    (h : t.kind = .newline kind (i :: around)) :
    t.breaksOutside path = path.tail.contains i := by
  simp [breaksOutside, newlinePath?, h]

theorem sectionOf_cons (h : t.breaksOutside path = false) :
    sectionOf path (t :: ts) = t :: sectionOf path ts := by
  simp [sectionOf, h]

theorem afterSection_cons (h : t.breaksOutside path = false) :
    afterSection path (t :: ts) = afterSection path ts := by
  simp [afterSection, h]

theorem afterSection_append (h : afterSection path ts ≠ []) :
    afterSection path (ts ++ us) = afterSection path ts ++ us := by
  rw [afterSection] at h ⊢
  rw [List.dropWhile_append, if_neg (by simpa using h), afterSection]

theorem sectionOf_append (h : afterSection path ts ≠ []) :
    sectionOf path (ts ++ us) = sectionOf path ts := by
  have hall := sectionOf_append_afterSection path (ts ++ us)
  rw [afterSection_append h, ← List.append_assoc] at hall
  have hts := List.append_cancel_right hall
  exact List.append_cancel_right (hts.trans (sectionOf_append_afterSection path ts).symm)

theorem prefix_takeWhile {α : Type} {P Q : α → Bool} (h : ∀ a, P a = true → Q a = true)
    (l l' : List α) : l.takeWhile P <+: (l ++ l').takeWhile Q := by
  induction l with
  | nil => exact List.nil_prefix
  | cons a l ih =>
    rw [List.takeWhile_cons, List.cons_append, List.takeWhile_cons]
    cases hP : P a with
    | false => exact List.nil_prefix
    | true => simpa [h a hP] using ih

/-- The section of an inner newline is the first to end. -/
theorem sectionOf_prefix {i : Nat} {around : Path} (h : i :: around <:+ path) (ts us : List Token) :
    sectionOf path ts <+: sectionOf (i :: around) (ts ++ us) := by
  have hsub : around ⊆ path.tail := by
    obtain ⟨inner, rfl⟩ := h
    cases inner with
    | nil => exact List.Subset.refl _
    | cons j inner =>
      intro k hk
      simp [hk]
  refine prefix_takeWhile (fun t ht => ?_) ts us
  unfold breaksOutside at ht ⊢
  cases hpath : t.newlinePath? with
  | none => rfl
  | some π =>
    rw [hpath] at ht
    cases π with
    | nil => rfl
    | cons k π =>
      simp only [List.contains_eq_mem, Bool.not_eq_true', decide_eq_false_iff_not] at ht ⊢
      exact fun hk => ht (hsub hk)

end Token

namespace Printer

variable {p : Printer} {path : Path} {slack : Nat} {t : Token} {ts us : List Token}

/-- Where a token ends that does not break the line, with what is held back. -/
theorem column_putToken (hs : (p.putToken t).stopped = none) (hsound : Sound p (t :: ts))
    (hflat : Flat p (t :: ts)) (hkept : ∀ kind path, t.kind = .newline kind path →
      p.breaksAnyway kind (path.headD 0) = false) :
    (p.putToken t).base.column + (p.putToken t).held.length =
      p.base.column + p.held.length + ((t.stop : Int) - t.start) := by
  obtain ⟨s, hbase, hheld⟩ := exists_write_putToken hs hkept
  have hprinted := hflat.printed List.mem_cons_self
  have hs' : '\n' ∉ s := by
    have hmem : '\n' ∉ p.held ++ p.printed t := by simp [hflat.held, hprinted]
    rw [← hheld, List.mem_append, not_or] at hmem
    exact hmem.1
  have hlength := congrArg List.length hheld
  have hwidth := hsound.width t List.mem_cons_self
  have hcolumn : (p.putToken t).base.column = p.base.column + s.length := by
    rw [hbase]
    exact columnAfter_eq hs'
  simp only [List.length_append] at hlength
  omega

/-- The section behind a newline of the path ends, and it fits on the line, but for as much as the
slack. -/
structure Calm (slack : Nat) (p : Printer) (path : Path) (ts : List Token) : Prop where
  ends : Token.afterSection path ts ≠ []
  fits : ∀ w, p.base.maxColumn = some w →
    p.base.column + p.held.length + Token.extent (Token.sectionOf path ts) < w + slack

namespace Calm

theorem append (h : Calm slack p path ts) : Calm slack p path (ts ++ us) where
  ends := by
    rw [Token.afterSection_append h.ends]
    exact List.append_ne_nil_of_left_ne_nil h.ends us
  fits := by
    rw [Token.sectionOf_append h.ends]
    exact h.fits

/-- A newline that is kept takes no room. -/
theorem pass (h : Calm slack p path (t :: ts)) (hc : Token.Contiguous (t :: ts))
    (ht : t.isNewline = true) (hinside : t.breaksOutside path = false) : Calm slack p path ts where
  ends := by
    rw [← Token.afterSection_cons hinside]
    exact h.ends
  fits w hw := by
    have hfits := h.fits w hw
    have hsection : Token.Contiguous (t :: Token.sectionOf path ts) := by
      rw [← Token.sectionOf_append_afterSection path ts, ← List.cons_append] at hc
      exact hc.left
    rwa [Token.sectionOf_cons hinside, Token.extent_cons_newline hsection ht] at hfits

theorem putToken (h : Calm slack p path (t :: ts)) (hsound : Sound p (t :: ts))
    (hflat : Flat p (t :: ts)) (hinside : t.breaksOutside path = false)
    (hkept : ∀ kind path, t.kind = .newline kind path →
      p.breaksAnyway kind (path.headD 0) = false)
    (hs : (p.putToken t).stopped = none) : Calm slack (p.putToken t) path ts where
  ends := by
    rw [← Token.afterSection_cons hinside]
    exact h.ends
  fits w hw := by
    rw [(Outputs.putToken p t).maxColumn] at hw
    have hfits := h.fits w hw
    have hsection : Token.Contiguous (t :: Token.sectionOf path ts) := by
      have hc := hsound.contiguous
      rw [← Token.sectionOf_append_afterSection path ts, ← List.cons_append] at hc
      exact hc.left
    rw [Token.sectionOf_cons hinside, Token.extent_cons hsection] at hfits
    have := column_putToken hs hsound hflat hkept
    omega

/-- **A newline behind as much white space fits**, with its section. -/
theorem fits_section {i : Nat} {around : Path} {rest : List Token}
    (h : Calm slack p (i :: around) (ts ++ rest)) (hpath : i :: around <:+ path)
    (hc : Token.Contiguous (ts ++ rest)) (hheld : slack ≤ p.held.length) :
    p.fits (Token.sectionOf path ts) = true := by
  cases hw : p.base.maxColumn with
  | none => rw [Printer.fits, hasRoom, hw]
  | some w =>
    have hfits := h.fits w hw
    obtain ⟨us, hus⟩ := Token.sectionOf_prefix hpath ts rest
    rw [← Token.sectionOf_append_afterSection (i :: around) (ts ++ rest)] at hc
    have hle := Token.extent_le_of_prefix (hus ▸ hc.left)
    rw [hus] at hle
    exact (fits_iff hw).mpr (by omega)

/-- A newline is kept because its section fits, whereas what follows it does not. -/
theorem of_fits {rest : List Token} (hc : Token.Contiguous (t :: ts)) (ht : t.isNewline = true)
    (hsection : p.fits (Token.sectionOf path ts) = true) (hall : p.fits (t :: ts) = false) :
    Calm p.held.length p path (ts ++ rest) := by
  have hends : Token.afterSection path ts ≠ [] := by
    intro hnil
    have hts := Token.sectionOf_append_afterSection path ts
    rw [hnil, List.append_nil] at hts
    rw [Printer.fits, Token.extent_cons_newline hc ht] at hall
    rw [hts, Printer.fits, hall] at hsection
    exact Bool.noConfusion hsection
  refine append ⟨hends, fun w hw => ?_⟩
  have := (fits_iff hw).mp hsection
  omega

end Calm

end Printer

end Tilde
