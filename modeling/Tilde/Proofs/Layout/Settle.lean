import Tilde.Proofs.Layout.Extent
import Tilde.Proofs.Layout.Output

/-!
# Settling newlines

What holds of a printer and of the tokens that it has still to output is kept while newlines are
settled, if it is kept by single tokens (`Settling`, **`Settling.settle`**, **`Settling.writeLine`**).

* `settle_suffix`, `settle_eq_self`: what is left is a suffix of the tokens, and all of them only if
  nothing has happened;
* `fits_writeLine`: in the end, what is left fits.
-/

namespace Tilde

namespace Token

theorem isNewline_iff {t : Token} : t.isNewline = true ↔ ∃ kind path, t.kind = .newline kind path := by
  unfold isNewline newlinePath?
  split <;> simp_all

theorem isNewline_of_kind {t : Token} {kind : NewlineKind} {path : Path}
    (h : t.kind = .newline kind path) : t.isNewline = true :=
  isNewline_iff.mpr ⟨kind, path, h⟩

/-- Behind the tokens before the first newline comes that newline. -/
theorem isNewline_of_dropWhile {tokens following : List Token} {t : Token}
    (h : tokens.dropWhile (fun t => !t.isNewline) = t :: following) : t.isNewline = true := by
  have := List.head_dropWhile_not (fun t : Token => !t.isNewline) (by rw [h]; simp : _ ≠ [])
  simpa [h] using this

theorem afterSection_suffix (path : Path) (following : List Token) :
    afterSection path following <:+ following :=
  List.dropWhile_suffix _

/-- What comes behind a section begins with a newline of a block around. -/
theorem head_afterSection {path : Path} {following rest : List Token} {t : Token}
    (h : afterSection path following = t :: rest) : t.breaksOutside path = true := by
  unfold afterSection at h
  have := List.head_dropWhile_not (fun t : Token => !t.breaksOutside path) (by rw [h]; simp : _ ≠ [])
  simpa [h] using this

theorem isNewline_of_breaksOutside {path : Path} {t : Token} (h : t.breaksOutside path = true) :
    t.isNewline = true := by
  unfold breaksOutside at h
  unfold isNewline
  split at h <;> simp_all

theorem isNewline_of_breaksAround {path : Path} {t : Token} (h : t.breaksAround path = true) :
    t.isNewline = true := by
  unfold breaksAround at h
  unfold isNewline
  split at h <;> simp_all

theorem breaksOutside_of_not_isNewline {path : Path} {t : Token} (h : t.isNewline = false) :
    t.breaksOutside path = false := by
  by_contra hc
  rw [isNewline_of_breaksOutside (by simpa using hc)] at h
  cases h

theorem breaksAround_of_not_isNewline {path : Path} {t : Token} (h : t.isNewline = false) :
    t.breaksAround path = false := by
  by_contra hc
  rw [isNewline_of_breaksAround (by simpa using hc)] at h
  cases h

end Token

namespace Printer

theorem fits_iff {p : Printer} {w : Int} {tokens : List Token} (hw : p.base.maxColumn = some w) :
    p.fits tokens = true ↔ p.base.column + Token.extent tokens < w := by
  simp only [fits, hasRoom, hw, decide_eq_true_eq]

/-- Settling, if there is no newline. -/
theorem settle_of_flat {p : Printer} {room : Option Nat} {tokens : List Token}
    (hroom : room ≠ some 0) (hdrop : tokens.dropWhile (fun t => !t.isNewline) = []) :
    p.settle room tokens = (p.putTokens (tokens.takeWhile fun t => !t.isNewline), []) := by
  rw [settle, if_neg hroom]
  dsimp only
  split
  · rfl
  · rename_i heq
    rw [hdrop] at heq
    cases heq

/-- What is decided about a newline: the printer behind it, and what is left of the line. -/
def decided (p : Printer) (t : Token) (kind : NewlineKind) (path : Path) (following : List Token) :
    Printer × List Token :=
  if p.breaks kind (path.headD 0) (Token.sectionOf path following)
      (Token.subsectionOf path following) then (p.breakLine path, following)
  else (p, t :: following)

/-- What comes of a section that has been broken up: it is output as it is if nothing has happened to
it. -/
def behindSection (path : Path) (following : List Token) (r : Printer × List Token) :
    Printer × List Token :=
  if r.2.length = (Token.sectionOf path following).length then
    (r.1.putTokens (Token.sectionOf path following), Token.afterSection path following)
  else (r.1, r.2 ++ Token.afterSection path following)

/-- Settling goes on behind a newline that has been decided about, if what is left does not fit. -/
def resume (room : Option Nat) (path : Path) (following : List Token)
    (r : Printer × List Token) : Printer × List Token :=
  if r.1.fits r.2 then r
  else behindSection path following
    (r.1.settle (room.map (· - 1)) (Token.sectionOf path following))

/-- Settling, if there is a newline. -/
theorem settle_of_newline {p : Printer} {room : Option Nat} {tokens following : List Token}
    {t : Token} {kind : NewlineKind} {path : Path} (hroom : room ≠ some 0)
    (hdrop : tokens.dropWhile (fun t => !t.isNewline) = t :: following)
    (hkind : t.kind = .newline kind path) :
    p.settle room tokens = resume room path following
      ((p.putTokens (tokens.takeWhile fun t => !t.isNewline)).decided t kind path following) := by
  rw [settle, if_neg hroom]
  dsimp only
  split
  · rename_i heq
    rw [hdrop] at heq
    cases heq
  · rename_i t' following' heq
    rw [hdrop] at heq
    cases heq
    rw [hkind]
    rfl

theorem settle_suffix (p : Printer) (room : Option Nat) (tokens : List Token) :
    (p.settle room tokens).2 <:+ tokens := by
  fun_induction settle p room tokens with
  | case1 => exact List.nil_suffix
  | case2 => exact List.nil_suffix
  | case3 p room tokens hroom p₁ t following hdrop kind path hkind stretch p₂ rest hrest hfits =>
    have hsuffix : t :: following <:+ tokens := hdrop ▸ List.dropWhile_suffix _
    split at hrest <;> cases hrest
    · exact (List.suffix_cons t following).trans hsuffix
    · exact hsuffix
  | case4 p room tokens hroom p₁ t following hdrop kind path hkind stretch p₂ result hresult hfits
      p₃ rest hrest hlength ih =>
    have hsuffix : t :: following <:+ tokens := hdrop ▸ List.dropWhile_suffix _
    exact ((Token.afterSection_suffix path following).trans (List.suffix_cons t following)).trans
      hsuffix
  | case5 p room tokens hroom p₁ t following hdrop kind path hkind stretch p₂ result hresult hfits
      p₃ rest hrest hlength ih =>
    have hsuffix : t :: following <:+ tokens := hdrop ▸ List.dropWhile_suffix _
    rw [hrest] at ih
    refine List.IsSuffix.trans ?_ ((List.suffix_cons t following).trans hsuffix)
    obtain ⟨done, hdone⟩ := ih
    refine ⟨done, ?_⟩
    rw [← List.append_assoc, hdone, Token.sectionOf_append_afterSection]
  | case6 p room tokens hroom p₁ t following hdrop =>
    exact hdrop ▸ List.dropWhile_suffix _

theorem Outputs.settle (p : Printer) (room : Option Nat) (tokens : List Token) :
    Outputs p (p.settle room tokens).1 := by
  fun_induction Printer.settle p room tokens with
  | case1 p tokens => exact stop p rfl
  | case2 p room tokens hroom p₁ hdrop => exact putTokens p _
  | case3 p room tokens hroom p₁ t following hdrop kind path hkind stretch p₂ rest hrest hfits =>
    have hput : Outputs p p₁ := putTokens p _
    split at hrest <;> cases hrest
    · exact hput.trans (breakLine _ _)
    · exact hput
  | case4 p room tokens hroom p₁ t following hdrop kind path hkind stretch p₂ result hresult hfits
      p₃ rest hrest hlength ih =>
    have hput : Outputs p p₁ := putTokens p _
    rw [hrest] at ih
    split at hresult <;> cases hresult
    · exact hput.trans ((breakLine _ _).trans (ih.trans (putTokens _ _)))
    · exact hput.trans (ih.trans (putTokens _ _))
  | case5 p room tokens hroom p₁ t following hdrop kind path hkind stretch p₂ result hresult hfits
      p₃ rest hrest hlength ih =>
    have hput : Outputs p p₁ := putTokens p _
    rw [hrest] at ih
    split at hresult <;> cases hresult
    · exact hput.trans ((breakLine _ _).trans ih)
    · exact hput.trans ih
  | case6 p room tokens hroom p₁ t following hdrop => exact putTokens p _

theorem length_following_lt {tokens following : List Token} {t : Token}
    (hdrop : tokens.dropWhile (fun t => !t.isNewline) = t :: following) :
    following.length < tokens.length := by
  have := (hdrop ▸ List.dropWhile_suffix _ : t :: following <:+ tokens).length_le
  rw [List.length_cons] at this
  omega

theorem length_section_add (path : Path) (following : List Token) :
    (Token.sectionOf path following).length + (Token.afterSection path following).length =
      following.length := by
  rw [← List.length_append, Token.sectionOf_append_afterSection]

theorem stopped_stop_ne (p : Printer) (e : Fault) : (p.stop e).stopped ≠ none := by
  unfold stop
  split
  · rename_i h
    exact fun hc => by simp [hc] at h
  · exact Option.some_ne_none _

/-- Only if all tokens fit and begin with a newline, nothing happens to them. -/
theorem settle_eq_self {p : Printer} {room : Option Nat} {tokens : List Token}
    (hs : (p.settle room tokens).1.stopped = none)
    (hlength : (p.settle room tokens).2.length = tokens.length) :
    p.settle room tokens = (p, tokens) ∧ (tokens = [] ∨
      p.fits tokens = true ∧ ∃ t following, tokens = t :: following ∧ t.isNewline = true) := by
  fun_induction Printer.settle p room tokens with
  | case1 p tokens => exact absurd hs (stopped_stop_ne p _)
  | case2 p room tokens hroom p₁ hdrop =>
    obtain rfl : tokens = [] := List.length_eq_zero_iff.mp hlength.symm
    exact ⟨rfl, Or.inl rfl⟩
  | case3 p room tokens hroom p₁ t following hdrop kind path hkind stretch p₂ rest hrest hfits =>
    split at hrest <;> cases hrest
    · exact absurd hlength (Nat.ne_of_lt (length_following_lt hdrop))
    · have hall := (hdrop ▸ List.dropWhile_suffix _ : t :: following <:+ tokens).eq_of_length hlength
      have hput : tokens.takeWhile (fun t => !t.isNewline) = [] := by
        rw [← hall]
        simp [Token.isNewline_of_kind hkind]
      have hp : p₁ = p := by simp only [p₁, hput]; rfl
      refine ⟨by rw [hp, hall], Or.inr ⟨?_, t, following, hall.symm, Token.isNewline_of_kind hkind⟩⟩
      rw [← hall, ← hp]
      exact hfits
  | case4 p room tokens hroom p₁ t following hdrop kind path hkind stretch p₂ result hresult hfits
      p₃ rest hrest hlength' ih =>
    have := length_following_lt hdrop
    have := length_section_add path following
    simp only at hlength
    omega
  | case5 p room tokens hroom p₁ t following hdrop kind path hkind stretch p₂ result hresult hfits
      p₃ rest hrest hlength' ih =>
    have := length_following_lt hdrop
    have := length_section_add path following
    have hle := (settle_suffix p₂ (room.map (· - 1)) stretch).length_le
    rw [hrest] at hle
    simp only [List.length_append] at hlength
    simp only [stretch] at hle
    omega
  | case6 p room tokens hroom p₁ t following hdrop hkind =>
    obtain ⟨kind, path, h⟩ := Token.isNewline_iff.mp (Token.isNewline_of_dropWhile hdrop)
    exact absurd h (hkind kind path)

/-! ## Settling, token by token -/

/-- A relation between a printer and the tokens that it has still to output which is kept by every
step of settling in which nothing goes wrong: a token is output, a newline breaks the line or is
passed over, or a whole section that fits is output. -/
structure Settling (P : Printer → List Token → Prop) : Prop where
  put {p : Printer} {t : Token} {ts : List Token} :
    t.isNewline = false → (p.putToken t).stopped = none → P p (t :: ts) → P (p.putToken t) ts
  broken {p : Printer} {t : Token} {ts rest : List Token} {kind : NewlineKind} {path : Path} :
    t.kind = .newline kind path →
    p.breaks kind (path.headD 0) (Token.sectionOf path ts) (Token.subsectionOf path ts) = true →
    (p.breakLine path).stopped = none → P p (t :: (ts ++ rest)) → P (p.breakLine path) (ts ++ rest)
  passed {p : Printer} {t : Token} {ts rest : List Token} {kind : NewlineKind} {path : Path} :
    t.kind = .newline kind path →
    p.breaks kind (path.headD 0) (Token.sectionOf path ts) (Token.subsectionOf path ts) = false →
    p.fits (t :: ts) = false → P p (t :: (ts ++ rest)) → P p (ts ++ rest)
  putSection {p : Printer} {ts rest : List Token} {path : Path} :
    (∃ p t kind, t.kind = .newline kind path ∧ P p (t :: (ts ++ rest))) →
    (∃ t us, Token.sectionOf path ts = t :: us ∧ t.isNewline = true) →
    p.fits (Token.sectionOf path ts) = true → Token.afterSection path ts ≠ [] →
    (p.putTokens (Token.sectionOf path ts)).stopped = none → P p (ts ++ rest) →
    P (p.putTokens (Token.sectionOf path ts)) (Token.afterSection path ts ++ rest)

namespace Settling

variable {P : Printer → List Token → Prop} (hP : Settling P)

include hP

theorem putTokens {p : Printer} {ts rest : List Token} (hts : ∀ t ∈ ts, t.isNewline = false)
    (hs : (p.putTokens ts).stopped = none) (h : P p (ts ++ rest)) : P (p.putTokens ts) rest := by
  induction ts generalizing p with
  | nil => exact h
  | cons t ts ih =>
    exact ih (fun t' ht' => hts t' (List.mem_cons_of_mem _ ht')) hs
      (hP.put (hts t List.mem_cons_self) ((Outputs.putTokens (p.putToken t) ts).unharmed hs) h)

theorem putTokens_takeWhile {p : Printer} {tokens rest : List Token}
    (hs : (p.putTokens (tokens.takeWhile fun t => !t.isNewline)).stopped = none)
    (h : P p (tokens ++ rest)) :
    P (p.putTokens (tokens.takeWhile fun t => !t.isNewline))
      (tokens.dropWhile (fun t => !t.isNewline) ++ rest) := by
  refine hP.putTokens (fun t ht => ?_) hs ?_
  · simpa using List.all_eq_true.mp List.all_takeWhile t ht
  · rwa [← List.append_assoc, List.takeWhile_append_dropWhile]

/-- A section that has come back unsettled fits, whereas what follows the newline does not. So
another section comes behind it. -/
theorem putStretch {p : Printer} {room : Option Nat} {following rest : List Token} {path : Path}
    (hknown : ∃ p t kind, t.kind = .newline kind path ∧ P p (t :: (following ++ rest)))
    (hfits : p.fits following = false)
    (hs : ((p.settle room (Token.sectionOf path following)).1.putTokens
      (Token.sectionOf path following)).stopped = none)
    (hlength : (p.settle room (Token.sectionOf path following)).2.length =
      (Token.sectionOf path following).length)
    (h : P p (following ++ rest)) :
    P ((p.settle room (Token.sectionOf path following)).1.putTokens (Token.sectionOf path following))
      (Token.afterSection path following ++ rest) := by
  obtain ⟨heq, hnil | ⟨hstretch, hnewline⟩⟩ :=
    settle_eq_self ((Outputs.putTokens _ _).unharmed hs) hlength
  · have hafter : Token.afterSection path following = following := by
      have := Token.sectionOf_append_afterSection path following
      rwa [hnil, List.nil_append] at this
    rw [heq, hnil, hafter]
    exact h
  · rw [heq] at hs ⊢
    refine hP.putSection hknown hnewline hstretch (fun hafter => ?_) hs h
    have := Token.sectionOf_append_afterSection path following
    rw [hafter, List.append_nil] at this
    rw [this, hfits] at hstretch
    exact Bool.noConfusion hstretch

/-- Whether or not a newline breaks the line: if what is left does not fit, what follows the newline
does not. -/
theorem decided {p p' : Printer} {t : Token} {following result rest : List Token}
    {kind : NewlineKind} {path : Path} (hkind : t.kind = .newline kind path)
    (hresult : (if p.breaks kind (path.headD 0) (Token.sectionOf path following)
      (Token.subsectionOf path following) = true then (p.breakLine path, following)
      else (p, t :: following)) = (p', result))
    (hfits : p'.fits result = false) (hs : p'.stopped = none)
    (hc : Token.Contiguous (t :: following)) (h : P p (t :: (following ++ rest))) :
    P p' (following ++ rest) ∧ p'.fits following = false := by
  split_ifs at hresult with hbreaks <;> cases hresult
  · exact ⟨hP.broken hkind hbreaks hs h, hfits⟩
  · refine ⟨hP.passed hkind (by simpa using hbreaks) hfits h, ?_⟩
    rwa [fits, Token.extent_cons_newline hc (Token.isNewline_of_kind hkind)] at hfits

/-- **Settling newlines keeps what single tokens keep.** -/
theorem settle {p : Printer} {room : Option Nat} {tokens : List Token}
    (hs : (p.settle room tokens).1.stopped = none) (hc : Token.Contiguous tokens) :
    ∀ rest, P p (tokens ++ rest) →
      P (p.settle room tokens).1 ((p.settle room tokens).2 ++ rest) := by
  have hunharmed : ∀ {p p' : Printer} {t : Token} {following result : List Token} {path : Path}
      {b : Bool}, (if b = true then (p.breakLine path, following) else (p, t :: following)) =
        (p', result) → p'.stopped = none → p.stopped = none := by
    intro p p' t following result path b hresult hs
    split_ifs at hresult <;> cases hresult
    · exact (Outputs.breakLine p path).unharmed hs
    · exact hs
  fun_induction Printer.settle p room tokens with
  | case1 p tokens => exact absurd hs (stopped_stop_ne p _)
  | case2 p room tokens hroom p₁ hdrop =>
    intro rest h
    have h₁ := hP.putTokens_takeWhile hs h
    rwa [hdrop] at h₁
  | case3 p room tokens hroom p₁ t following hdrop kind path hkind stretch p₂ result hresult hfits =>
    intro rest h
    have h₁ := hP.putTokens_takeWhile (hunharmed hresult hs) h
    rw [hdrop] at h₁
    split at hresult <;> cases hresult
    · exact hP.broken hkind ‹_› hs h₁
    · exact h₁
  | case4 p room tokens hroom p₁ t following hdrop kind path hkind stretch p₂ result hresult hfits
      p₃ left hleft hlength ih =>
    intro rest h
    have hs₂ : p₂.stopped = none := by
      refine (Outputs.settle p₂ (room.map (· - 1)) stretch).unharmed ?_
      rw [hleft]
      exact (Outputs.putTokens p₃ stretch).unharmed hs
    have h₁ := hP.putTokens_takeWhile (hunharmed hresult hs₂) h
    rw [hdrop] at h₁
    have hc₁ := hc.of_suffix (hdrop ▸ List.dropWhile_suffix _ : t :: following <:+ tokens)
    obtain ⟨h₂, hfollowing⟩ := hP.decided hkind hresult (by simpa using hfits) hs₂ hc₁ h₁
    have := hP.putStretch ⟨_, t, kind, hkind, h₁⟩ hfollowing (by rw [hleft]; exact hs)
      (by rw [hleft]; exact hlength) h₂
    rwa [hleft] at this
  | case5 p room tokens hroom p₁ t following hdrop kind path hkind stretch p₂ result hresult hfits
      p₃ left hleft hlength ih =>
    intro rest h
    have hs₂ : p₂.stopped = none := by
      refine (Outputs.settle p₂ (room.map (· - 1)) stretch).unharmed ?_
      rw [hleft]
      exact hs
    have h₁ := hP.putTokens_takeWhile (hunharmed hresult hs₂) h
    rw [hdrop] at h₁
    have hc₁ := hc.of_suffix (hdrop ▸ List.dropWhile_suffix _ : t :: following <:+ tokens)
    obtain ⟨h₂, hfollowing⟩ := hP.decided hkind hresult (by simpa using hfits) hs₂ hc₁ h₁
    have hsplit := Token.sectionOf_append_afterSection path following
    rw [← hsplit, List.append_assoc] at h₂
    rw [hleft] at ih
    have := ih hs (Token.Contiguous.left (hsplit ▸ hc₁.tail)) _ h₂
    rwa [List.append_assoc]
  | case6 p room tokens hroom p₁ t following hdrop hkind =>
    intro rest h
    have h₁ := hP.putTokens_takeWhile hs h
    rwa [hdrop] at h₁

end Settling

/-! ## Lines -/

theorem writeLine_suffix (p : Printer) (tokens : List Token) : (p.writeLine tokens).2 <:+ tokens := by
  fun_induction writeLine p tokens with
  | case1 p tokens hfits => exact List.suffix_rfl
  | case2 p tokens hfits p₁ left hleft hlength ih =>
    exact ih.trans (by simpa [hleft] using settle_suffix p p.room tokens)
  | case3 p tokens hfits p₁ left hleft hlength => exact List.suffix_rfl

theorem Outputs.writeLine (p : Printer) (tokens : List Token) :
    Outputs p (p.writeLine tokens).1 := by
  fun_induction Printer.writeLine p tokens with
  | case1 p tokens hfits => exact refl p
  | case2 p tokens hfits p₁ left hleft hlength ih =>
    exact trans (by simpa [hleft] using settle p p.room tokens) ih
  | case3 p tokens hfits p₁ left hleft hlength => simpa [hleft] using settle p p.room tokens

/-- Settling goes on as long as it can. -/
theorem eq_nil_of_length_settle {p : Printer} {room : Option Nat} {tokens : List Token}
    (hfits : p.fits tokens = false) (hs : (p.settle room tokens).1.stopped = none)
    (hlength : ¬(p.settle room tokens).2.length < tokens.length) : tokens = [] := by
  have hle := (settle_suffix p room tokens).length_le
  obtain ⟨_, hnil | ⟨hfits', -⟩⟩ := settle_eq_self hs (by omega)
  · exact hnil
  · rw [hfits] at hfits'
    exact Bool.noConfusion hfits'

/-- **What is left of a line fits.** -/
theorem fits_writeLine {p : Printer} {tokens : List Token}
    (hs : (p.writeLine tokens).1.stopped = none) :
    (p.writeLine tokens).2 = [] ∨ (p.writeLine tokens).1.fits (p.writeLine tokens).2 = true := by
  fun_induction writeLine p tokens with
  | case1 p tokens hfits => exact Or.inr hfits
  | case2 p tokens hfits p₁ left hleft hlength ih => exact ih hs
  | case3 p tokens hfits p₁ left hleft hlength =>
    have hs₁ : (p.settle p.room tokens).1.stopped = none := by rw [hleft]; exact hs
    exact Or.inl (eq_nil_of_length_settle (by simpa using hfits) hs₁ (by rw [hleft]; exact hlength))

/-- **Writing a line keeps what single tokens keep.** -/
theorem Settling.writeLine {P : Printer → List Token → Prop} (hP : Settling P) {p : Printer}
    {tokens : List Token} (hs : (p.writeLine tokens).1.stopped = none)
    (hc : Token.Contiguous tokens) (rest : List Token) (h : P p (tokens ++ rest)) :
    P (p.writeLine tokens).1 ((p.writeLine tokens).2 ++ rest) := by
  fun_induction Printer.writeLine p tokens with
  | case1 p tokens hfits => exact h
  | case2 p tokens hfits p₁ left hleft hlength ih =>
    have hs₁ : (p.settle p.room tokens).1.stopped = none := by
      rw [hleft]
      exact (Outputs.writeLine p₁ left).unharmed hs
    have hsettle := hP.settle hs₁ hc rest h
    have hsuffix := settle_suffix p p.room tokens
    rw [hleft] at hsettle hsuffix
    exact ih hs (hc.of_suffix hsuffix) hsettle
  | case3 p tokens hfits p₁ left hleft hlength =>
    have hs₁ : (p.settle p.room tokens).1.stopped = none := by rw [hleft]; exact hs
    have hnil : tokens = [] :=
      eq_nil_of_length_settle (by simpa using hfits) hs₁ (by rw [hleft]; exact hlength)
    have hsettle := hP.settle hs₁ hc rest h
    have hleft' : left = [] := by
      have := (settle_suffix p p.room tokens).length_le
      rw [hleft, hnil] at this
      exact List.length_eq_zero_iff.mp (Nat.le_zero.mp this)
    rw [hleft, hleft'] at hsettle
    rwa [hnil]

end Printer

end Tilde
