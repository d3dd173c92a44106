import Tilde.Proofs.Layout.Run
import Tilde.Proofs.Layout.Stroking
import Tilde.Proofs.Layout.Written

/-!
# Strokes in which nothing goes wrong

**`Stroking.unharmed`**: nothing goes wrong in a stroke if there is no token whose output goes wrong,
and if sections may be broken up as deeply as there are tokens.

* `Safe`: relations by which tokens are output without harm;
* `Safe.settle`, `Safe.writeLine`: then newlines are settled without harm;
* `Taken`, `Withstands`: strokes that have been taken, or can be taken, with so much room for breaking
  up sections.
-/

namespace Tilde.Printer

/-- A relation between a printer and the tokens that it has still to output, kept while newlines are
settled, by which nothing goes wrong when tokens are output and when a newline breaks the line. -/
structure Safe (P : Printer → List Token → Prop) : Prop where
  settling : Settling P
  puts {p : Printer} {ts rest : List Token} :
    P p (ts ++ rest) → p.stopped = none → (p.putTokens ts).stopped = none
  breaks {p : Printer} {t : Token} {ts : List Token} {kind : NewlineKind} {path : Path} :
    t.kind = .newline kind path → P p (t :: ts) → p.stopped = none →
    (p.breakLine path).stopped = none

namespace Safe

variable {P : Printer → List Token → Prop} {p : Printer} {tokens rest : List Token}

theorem putAll (hP : Safe P) (hs : p.stopped = none) (h : P p tokens) :
    (p.putTokens tokens).stopped = none := by
  rw [← List.append_nil tokens] at h
  exact hP.puts h hs

theorem putTokens_takeWhile (hP : Safe P) (hs : p.stopped = none) (h : P p (tokens ++ rest)) :
    (p.putTokens (tokens.takeWhile fun t => !t.isNewline)).stopped = none ∧
      P (p.putTokens (tokens.takeWhile fun t => !t.isNewline))
        (tokens.dropWhile (fun t => !t.isNewline) ++ rest) := by
  have hput : (p.putTokens (tokens.takeWhile fun t => !t.isNewline)).stopped = none := by
    rw [← List.takeWhile_append_dropWhile (p := fun t => !t.isNewline) (l := tokens),
      List.append_assoc] at h
    exact hP.puts h hs
  exact ⟨hput, hP.settling.putTokens_takeWhile hput h⟩

theorem decided (hP : Safe P) {p' : Printer} {t : Token} {following result : List Token}
    {kind : NewlineKind} {path : Path} {b : Bool} (hkind : t.kind = .newline kind path)
    (hresult : (if b = true then (p.breakLine path, following) else (p, t :: following)) =
      (p', result)) (hs : p.stopped = none) (h : P p (t :: rest)) : p'.stopped = none := by
  split_ifs at hresult <;> cases hresult
  · exact hP.breaks hkind h hs
  · exact hs

/-- If what is left behind the first newline does not fit, its section comes next. -/
theorem sectionOf (hP : Safe P) {p' : Printer} {t : Token} {following result : List Token}
    {kind : NewlineKind} {path : Path} (hkind : t.kind = .newline kind path)
    (hdrop : tokens.dropWhile (fun t => !t.isNewline) = t :: following)
    (hresult : (if (p.putTokens (tokens.takeWhile fun t => !t.isNewline)).breaks kind (path.headD 0)
        (Token.sectionOf path following) (Token.subsectionOf path following) = true
      then ((p.putTokens (tokens.takeWhile fun t => !t.isNewline)).breakLine path, following)
      else (p.putTokens (tokens.takeWhile fun t => !t.isNewline), t :: following)) = (p', result))
    (hfits : p'.fits result = false) (hs : p.stopped = none) (hc : Token.Contiguous tokens)
    (h : P p (tokens ++ rest)) :
    p'.stopped = none ∧ Token.Contiguous (Token.sectionOf path following) ∧
      P p' (Token.sectionOf path following ++ (Token.afterSection path following ++ rest)) := by
  obtain ⟨hs₁, h₁⟩ := hP.putTokens_takeWhile hs h
  rw [hdrop] at h₁
  have hs' := hP.decided hkind hresult hs₁ h₁
  have hc₁ := hc.of_suffix (hdrop ▸ List.dropWhile_suffix _ : t :: following <:+ tokens)
  have hsplit := Token.sectionOf_append_afterSection path following
  refine ⟨hs', Token.Contiguous.left (hsplit ▸ hc₁.tail), ?_⟩
  rw [← List.append_assoc, hsplit]
  exact (hP.settling.decided hkind hresult hfits hs' hc₁ h₁).1

/-- **Settling does no harm** if it may go as deep as there are tokens. -/
theorem settle (hP : Safe P) {room : Option Nat} (hs : p.stopped = none)
    (hc : Token.Contiguous tokens) (hroom : ∀ n ∈ room, tokens.length < n) :
    ∀ rest, P p (tokens ++ rest) → (p.settle room tokens).1.stopped = none := by
  -- the section behind a newline has fewer tokens, so that there is room to break it up
  have hdeeper {room : Option Nat} {tokens following : List Token} {t : Token} (path : Path)
      (hdrop : tokens.dropWhile (fun t => !t.isNewline) = t :: following)
      (hroom : ∀ n ∈ room, tokens.length < n) :
      ∀ n ∈ room.map (· - 1), (Token.sectionOf path following).length < n := by
    intro n hn
    obtain ⟨m, hm, rfl⟩ := Option.map_eq_some_iff.mp hn
    have := hroom m hm
    have := length_following_lt hdrop
    have := Token.length_sectionOf_le path following
    omega
  fun_induction Printer.settle p room tokens with
  | case1 p tokens => exact absurd (hroom 0 rfl) (Nat.not_lt_zero _)
  | case2 p room tokens hroom' p₁ hdrop => exact fun rest h => (hP.putTokens_takeWhile hs h).1
  | case3 p room tokens hroom' p₁ t following hdrop kind path hkind stretch p₂ result hresult hfits =>
    intro rest h
    obtain ⟨hs₁, h₁⟩ := hP.putTokens_takeWhile hs h
    rw [hdrop] at h₁
    exact hP.decided hkind hresult hs₁ h₁
  | case4 p room tokens hroom' p₁ t following hdrop kind path hkind stretch p₂ result hresult hfits
      p₃ left hleft hlength ih =>
    intro rest h
    obtain ⟨hs₂, hc₂, h₂⟩ := hP.sectionOf hkind hdrop hresult (by simpa using hfits) hs hc h
    have hs₃ := ih hs₂ hc₂ (hdeeper path hdrop hroom) _ h₂
    -- nothing has happened to the section
    have heq := (settle_eq_self hs₃ (by rw [hleft]; exact hlength)).1
    obtain rfl : p₃ = p₂ := congrArg Prod.fst (hleft.symm.trans heq)
    exact hP.puts h₂ hs₂
  | case5 p room tokens hroom' p₁ t following hdrop kind path hkind stretch p₂ result hresult hfits
      p₃ left hleft hlength ih =>
    intro rest h
    obtain ⟨hs₂, hc₂, h₂⟩ := hP.sectionOf hkind hdrop hresult (by simpa using hfits) hs hc h
    have hs₃ := ih hs₂ hc₂ (hdeeper path hdrop hroom) _ h₂
    rwa [hleft] at hs₃
  | case6 p room tokens hroom' p₁ t following hdrop hkind =>
    exact fun rest h => (hP.putTokens_takeWhile hs h).1

/-- **Nor does writing a line.** -/
theorem writeLine (hP : Safe P) (hs : p.stopped = none) (hc : Token.Contiguous tokens)
    (hroom : ∀ n ∈ p.room, tokens.length < n) (h : P p tokens) :
    (p.writeLine tokens).1.stopped = none := by
  rw [← List.append_nil tokens] at h
  fun_induction Printer.writeLine p tokens with
  | case1 p tokens hfits => exact hs
  | case2 p tokens hfits p₁ left hleft hlength ih =>
    have hs₁ := hP.settle hs hc hroom [] h
    have hsettle := hP.settling.settle hs₁ hc [] h
    have hsuffix := settle_suffix p p.room tokens
    have hsame := (Outputs.settle p p.room tokens).room
    rw [hleft] at hs₁ hsettle hsuffix hsame
    refine ih hs₁ (hc.of_suffix hsuffix) (fun n hn => ?_) hsettle
    have := hroom n (hsame ▸ hn)
    omega
  | case3 p tokens hfits p₁ left hleft hlength =>
    have hs₁ := hP.settle hs hc hroom [] h
    rwa [hleft] at hs₁

end Safe

/-! ## Strokes -/

namespace Stroking

variable {G : Type} {next : G → Printer → Stroke → G → Prop} {P : G → Printer → List Token → Prop}
variable {g g' : G} {p q : Printer} {s : Stroke}

theorem unharmed_drain (hg : Safe (P g)) (hP : Stroking next P) (hp : Buffered p)
    (h : P g p p.buffer) (hs : p.stopped = none) (hroom : ∀ n ∈ p.room, p.buffer.length < n) :
    p.writeBuffered.putHeld.stopped = none := by
  rw [writeBuffered_putHeld]
  have hs' := hg.writeLine hs hp.sound.contiguous hroom h
  rw [← List.append_nil p.buffer] at h
  have hline := hg.settling.writeLine hs' hp.sound.contiguous [] h
  rw [List.append_nil] at hline
  exact hg.putAll hs' (hP.restate _ _ _ _ _ hline)

theorem unharmed_takes (hP : Stroking next P) (hg : Safe (P g)) (hg' : Safe (P g'))
    (hnext : next g p s g') (hp : Buffered p) (h : P g p p.buffer) (hs : p.stopped = none)
    (hroom : ∀ n ∈ p.room, p.buffer.length + 1 < n) (ht : Takes p s q) : q.stopped = none := by
  have hdrain := hP.unharmed_drain hg hp h hs fun n hn => Nat.lt_of_succ_lt (hroom n hn)
  cases ht with
  | nothing => exact hs
  | @direct s kind p' t hidle flat issues hkind =>
    have hp' : p'.stopped = none := by
      rw [issues.state]
      exact hs
    rw [stopped_leave,
      show p'.putToken t = p'.putToken (p'.tokenAt 0 kind) from putToken_kind p' hkind]
    exact hg'.putAll hp' (hP.issue_direct hnext hp h (hp.buffer_eq_nil hidle) issues)
  | @enqueued s kind p' issues =>
    obtain ⟨hcontiguous, hissue⟩ := hP.issue_enqueued hnext hp h issues
    rw [stopped_leave]
    refine hg'.writeLine ?_ hcontiguous (fun n hn => ?_) hissue
    · rw [issues.state]
      exact hs
    · rw [issues.state] at hn
      rw [List.length_append, List.length_singleton]
      exact hroom n hn
  | literal =>
    rw [literalNewline_eq, breakHere, markBroken_eq]
    exact hdrain
  | flush => exact hdrain

/-- **Nothing goes wrong in a stroke.** -/
theorem unharmed (hP : Stroking next P) (hg : Safe (P g)) (hg' : Safe (P g'))
    (hnext : next g p s g') (hp : Buffered p) (h : P g p p.buffer) (hs : p.stopped = none)
    (hroom : ∀ n ∈ p.room, p.buffer.length + 1 < n) : (p.stroke s).stopped = none :=
  hP.unharmed_takes hg hg' hnext hp h hs hroom (takes_stroke p s)

end Stroking

/-! ## Room -/

theorem Takes.room {p q : Printer} {s : Stroke} (ht : Takes p s q) : q.room = p.room := by
  have hdrain : p.writeBuffered.putHeld.room = p.room := by
    rw [writeBuffered_putHeld]
    exact ((Outputs.putTokens _ _).trans (.putHeld _)).room.trans (Outputs.writeLine p p.buffer).room
  cases ht with
  | nothing => rfl
  | @direct s kind p' t hidle flat issues hkind =>
    rw [room_leave, (Outputs.putToken p' t).room, issues.state]
  | @enqueued s kind p' issues =>
    rw [room_leave, issues.state]
    exact (Outputs.writeLine _ _).room
  | literal => exact (Outputs.breakHere _).room.trans hdrain
  | flush => exact hdrain

/-- Strokes lead from one printer to another, each with room `k` at least, and nothing goes wrong. -/
inductive Taken (k : Nat) : Printer → List Stroke → Printer → Prop
  | nil (p : Printer) : Taken k p [] p
  | cons {p q : Printer} {s : Stroke} {ss : List Stroke} {room : Nat} (hroom : k ≤ room)
    (allowed : p.Allows s) (unharmed : ({ p with room := some room }.stroke s).stopped = none)
    (rest : Taken k ({ p with room := some room }.stroke s) ss q) : Taken k p (s :: ss) q

/-- Whatever room there is, but `k` at least, nothing goes wrong in the strokes. -/
def Withstands (k : Nat) : Printer → List Stroke → Prop
  | _, [] => True
  | p, s :: ss => p.Allows s → ∀ room, k ≤ room →
    ({ p with room := some room }.stroke s).stopped = none ∧
      ({ p with room := some room }.stroke s).Withstands k ss

namespace Taken

variable {k n : Nat} {p q r : Printer} {s : Stroke} {ss ss' : List Stroke}

theorem strokes (h : Taken k p ss q) : Strokes p ss q := by
  induction h with
  | nil p => exact .nil p
  | cons hroom allowed unharmed rest ih => exact .cons _ allowed unharmed ih

theorem of_room {room : Option Nat} (h : Taken k { p with room := room } (s :: ss) q) :
    Taken k p (s :: ss) q := by
  cases h with
  | cons hroom allowed unharmed rest => exact .cons hroom allowed unharmed rest

theorem append (h : Taken k p ss q) (h' : Taken k q ss' r) : Taken k p (ss ++ ss') r := by
  induction h with
  | nil p => exact h'
  | cons hroom allowed unharmed rest ih => exact .cons hroom allowed unharmed (ih h')

theorem path (h : Taken k p [s] q) : q.path = p.pathAfter s := by
  cases h with
  | cons hroom allowed unharmed rest =>
    cases rest
    rw [path_stroke]
    cases s <;> rfl

theorem mono (h : Taken k p ss q) (hn : n ≤ k) : Taken n p ss q := by
  induction h with
  | nil p => exact .nil p
  | cons hroom allowed unharmed rest ih => exact .cons (hn.trans hroom) allowed unharmed ih

theorem unharmed (h : Taken k p ss q) (hs : p.stopped = none) : q.stopped = none := by
  induction h with
  | nil p => exact hs
  | cons hroom allowed unharmed rest ih => exact ih unharmed

theorem room (h : Taken k p ss q) (hp : ∀ n ∈ p.room, k ≤ n) : ∀ n ∈ q.room, k ≤ n := by
  induction h with
  | nil p => exact hp
  | cons hroom allowed unharmed rest ih =>
    refine ih fun n hn => ?_
    rw [(takes_stroke _ _).room] at hn
    exact Option.some.inj hn ▸ hroom

/-- What comes behind strokes that have been taken can be taken. -/
theorem withstands (h : Taken k p ss q) (hall : p.Withstands k (ss ++ ss')) :
    q.Withstands k ss' := by
  induction h with
  | nil p => exact hall
  | cons hroom allowed unharmed rest ih => exact ih (hall allowed _ hroom).2

end Taken

namespace Withstands

variable {k n : Nat} {p : Printer} {ss ss' : List Stroke}

theorem mono (h : p.Withstands k ss) (hk : k ≤ n) : p.Withstands n ss := by
  induction ss generalizing p with
  | nil => trivial
  | cons s ss ih =>
    intro allowed room hroom
    obtain ⟨hs, hrest⟩ := h allowed room (hk.trans hroom)
    exact ⟨hs, ih hrest⟩

theorem left (h : p.Withstands k (ss ++ ss')) : p.Withstands k ss := by
  induction ss generalizing p with
  | nil => trivial
  | cons s ss ih =>
    intro allowed room hroom
    obtain ⟨hs, hrest⟩ := h allowed room hroom
    exact ⟨hs, ih hrest⟩

end Withstands

end Tilde.Printer
