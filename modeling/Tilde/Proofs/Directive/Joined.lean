import Tilde.Proofs.Directive.Shifted

/-!
# Control strings one after the other

The nodes of two control strings one after the other are those of the first and then those of the
second, further on. Only literal text at the end of the first and at the start of the second becomes
one node, and only a continuation at the end of the first skips blanks at the start of the second.

* `Text.lastLexeme`: the text from the last lexeme on;
* `Seam`: how reading goes when something follows, with **`exists_seam`**;
* `Node.Joined`: nodes one after the other;
* **`compile_append`**: the nodes of both control strings.
-/

namespace Tilde

variable {w s t a b : Text} {i j : Nat} {r r' : Remainder} {lexeme : Lexeme} {nodes ms ns : List Node}

/-- The text of the last lexeme of a control string, with the blanks that it skips. -/
def Text.lastLexeme (w : Text) : Text :=
  match _ : readLexeme? ⟨w, 0⟩ with
  | .ok (some (_, r)) => if r.text = [] then w else lastLexeme r.text
  | _ => []
termination_by w.length
decreasing_by exact length_lt_of_readLexeme (by assumption)

/-- The text begins with a character that is no tilde. -/
def Text.BeginsPlain (s : Text) : Prop := ∃ x t, s = x :: t ∧ x ≠ '~'

/-- The node of literal text, if there is any. -/
def Node.ofText (s : Text) : List Node := if s = [] then [] else [.text s]

/-! ## The last lexeme -/

theorem Text.lastLexeme_nil : lastLexeme [] = [] := by
  rw [lastLexeme]
  split <;> simp_all [readLexeme?]

theorem Text.lastLexeme_of_readLexeme (h : readLexeme? ⟨w, i⟩ = .ok (some (lexeme, r))) :
    w.lastLexeme = if r.text = [] then w else r.text.lastLexeme := by
  obtain ⟨s, hs⟩ := exists_of_readLexeme h
  obtain rfl : w = s ++ r.text := hs
  obtain ⟨_, hread, -⟩ := readLexeme_append h rfl (.inl rfl) 0
  rw [lastLexeme]
  split <;> simp_all

/-! ## Literal text -/

theorem Text.BeginsPlain.of_plain (hs : '~' ∉ s) (hne : s ≠ []) : s.BeginsPlain := by
  obtain ⟨x, s, rfl⟩ := List.exists_cons_of_ne_nil hne
  exact ⟨x, s, rfl, fun hx => hs (hx ▸ List.mem_cons_self)⟩

theorem Text.dropWhile_of_not_beginsPlain (h : ¬ t.BeginsPlain) : t.dropWhile (· != '~') = t := by
  cases t with
  | nil => rfl
  | cons x t =>
    refine List.dropWhile_cons_of_neg fun hx => h ⟨x, t, rfl, ?_⟩
    simpa using hx

theorem Text.head?_of_not_beginsPlain (hne : t ≠ []) (h : ¬ t.BeginsPlain) : t.head? = some '~' := by
  obtain ⟨x, t, rfl⟩ := List.exists_cons_of_ne_nil hne
  by_contra hx
  exact h ⟨x, t, rfl, fun heq => hx (congrArg some heq)⟩

/-- Literal text is read up to the next tilde. -/
theorem readLexeme_plain (hs : '~' ∉ s) (hne : s ≠ []) (ht : ¬ t.BeginsPlain) :
    readLexeme? ⟨s ++ t, i⟩ = .ok (some (.text s, ⟨t, i + s.length⟩)) := by
  obtain ⟨x, s, rfl⟩ := List.exists_cons_of_ne_nil hne
  obtain ⟨hx, hs⟩ := not_or.mp (mt List.mem_cons.mpr hs)
  have hplain : ∀ y ∈ s, (y != '~') = true := fun y hy => by
    rw [bne_iff_ne]
    exact fun h => hs (h ▸ hy)
  obtain ⟨htaken, hdropped⟩ := Text.takeWhile_append hplain (Text.dropWhile_of_not_beginsPlain ht)
  rw [List.cons_append, readLexeme_text (Ne.symm hx), htaken, hdropped, List.length_cons, Nat.add_assoc,
    Nat.add_comm 1]

/-- Text that is read as a whole is literal. -/
theorem plain_of_readLexeme (h : readLexeme? ⟨s, i⟩ = .ok (some (lexeme, ⟨[], j⟩))) (hs : s.BeginsPlain) :
    '~' ∉ s ∧ lexeme = .text s := by
  obtain ⟨x, s, rfl, hx⟩ := hs
  rw [readLexeme_text hx] at h
  simp only [Except.ok.injEq, Option.some.injEq, Prod.mk.injEq, Remainder.mk.injEq] at h
  obtain ⟨rfl, hdropped, -⟩ := h
  have htaken : s.takeWhile (· != '~') = s := by
    have happend := List.takeWhile_append_dropWhile (p := (· != '~')) (l := s)
    rwa [hdropped, List.append_nil] at happend
  rw [htaken]
  refine ⟨fun hmem => ?_, rfl⟩
  rcases List.mem_cons.mp hmem with rfl | hmem
  · exact hx rfl
  · rw [← htaken] at hmem
    simpa using of_mem_takeWhile hmem

theorem Text.BeginsPlain.exists_append (h : t.BeginsPlain) :
    ∃ s u, t = s ++ u ∧ '~' ∉ s ∧ s ≠ [] ∧ ¬ u.BeginsPlain := by
  obtain ⟨x, t, rfl, hx⟩ := h
  refine ⟨_, _, (List.takeWhile_append_dropWhile (p := (· != '~'))).symm, fun hmem => ?_, ?_, ?_⟩
  · simpa using of_mem_takeWhile hmem
  · simp [hx]
  · rintro ⟨y, u, hu, hy⟩
    have := List.dropWhile_eq_self_iff.mp (List.dropWhile_idempotent (· != '~') (x :: t))
    simp_all

/-! ## The seam -/

/-- The builder that has read no lexeme yet. -/
abbrev Builder.empty : Builder := ⟨[], []⟩

theorem Builder.eq_of_finish {b : Builder} (h : b.finish = .ok nodes) : b = onto nodes empty := by
  obtain ⟨_ | ⟨f, fs⟩, ns⟩ := b
  · cases h
    simp [onto]
  · cases h

theorem Builder.eq_of_finish_push {b : Builder} {m : Node} (h : (b.push m).finish = .ok nodes) :
    ∃ before, b = onto before empty ∧ nodes = before ++ [m] := by
  obtain ⟨_ | ⟨f, fs⟩, ns⟩ := b
  · cases h
    exact ⟨ns.reverse, by simp [onto], List.reverse_cons⟩
  · cases h

/-- How a control string is read when something follows: literal text at its end is read together with
what follows, and all that is in front of it as it is by itself. -/
structure Seam (b : Builder) (w : Text) (i : Nat) (nodes : List Node) (front literal : Text)
    (before : List Node) : Prop where
  text : w = front ++ literal
  plain : '~' ∉ literal
  last : literal = [] ∧ ¬ w.lastLexeme.BeginsPlain ∨ literal ≠ [] ∧ w.lastLexeme = literal
  nodes : nodes = before ++ Node.ofText literal
  read : ∀ u, parseFrom b ⟨w ++ u, i⟩ =
    (parseFrom .empty ⟨literal ++ u, i + front.length⟩).map (before ++ ·)

namespace Seam

variable {b b' : Builder} {front literal : Text} {before : List Node}

/-- Nothing is left. -/
theorem of_nil (h : b.finish = .ok nodes) : Seam b [] i nodes [] [] nodes where
  text := rfl
  plain := List.not_mem_nil
  last := .inl ⟨rfl, by rw [Text.lastLexeme_nil]; rintro ⟨_, _, ⟨⟩, _⟩⟩
  nodes := (List.append_nil _).symm
  read u := by rw [Builder.eq_of_finish h, parseFrom_onto]; rfl

/-- Only literal text is left. -/
theorem of_plain (hread : readLexeme? ⟨s, i⟩ = .ok (some (lexeme, ⟨[], j⟩))) (hs : s.BeginsPlain)
    (hadd : b.add lexeme = .ok b') (hfinish : b'.finish = .ok nodes) :
    ∃ before, Seam b s i nodes [] s before := by
  obtain ⟨hplain, rfl⟩ := plain_of_readLexeme hread hs
  have hne : s ≠ [] := by
    obtain ⟨x, t, rfl, -⟩ := hs
    exact List.cons_ne_nil x t
  obtain rfl : b.push (.text s) = b' := by
    simpa [Builder.add, hne] using hadd
  obtain ⟨before, rfl, rfl⟩ := Builder.eq_of_finish_push hfinish
  refine ⟨before, rfl, hplain, .inr ⟨hne, ?_⟩, ?_, fun u => parseFrom_onto⟩
  · rw [Text.lastLexeme_of_readLexeme hread, if_pos rfl]
  · rw [Node.ofText, if_neg hne]

/-- Only a directive is left. -/
theorem of_directive (hread : readLexeme? ⟨s, i⟩ = .ok (some (lexeme, ⟨[], j⟩))) (hs : s.EndsItself)
    (hadd : b.add lexeme = .ok b') (hfinish : b'.finish = .ok nodes) : Seam b s i nodes s [] nodes where
  text := (List.append_nil s).symm
  plain := List.not_mem_nil
  last := by
    refine .inl ⟨rfl, ?_⟩
    rw [Text.lastLexeme_of_readLexeme hread, if_pos rfl]
    rintro ⟨x, t, rfl, hx⟩
    exact hx (Option.some.inj hs.1)
  nodes := (List.append_nil _).symm
  read u := by
    have hread : readLexeme? ⟨s ++ [], i⟩ = .ok (some (lexeme, ⟨[], j⟩)) := by rwa [List.append_nil]
    obtain ⟨_, hread', hmoved⟩ := readLexeme_append (u := u) hread rfl (.inr hs) i
    rw [hmoved.eq] at hread'
    rw [parseFrom_eq hread' hadd, Builder.eq_of_finish hfinish, parseFrom_onto]
    rfl

/-- A lexeme more is read. -/
theorem cons (hread : readLexeme? ⟨s ++ t, i⟩ = .ok (some (lexeme, ⟨t, i + s.length⟩)))
    (hadd : b.add lexeme = .ok b') (ht : t ≠ [])
    (h : Seam b' t (i + s.length) nodes front literal before) :
    Seam b (s ++ t) i nodes (s ++ front) literal before where
  text := by rw [List.append_assoc, ← h.text]
  plain := h.plain
  last := by
    rw [Text.lastLexeme_of_readLexeme hread, if_neg ht]
    exact h.last
  nodes := h.nodes
  read u := by
    have hhead : (t ++ u).head? = t.head? := by
      obtain ⟨x, t, rfl⟩ := List.exists_cons_of_ne_nil ht
      rfl
    obtain ⟨_, hread', hmoved⟩ := readLexeme_append hread rfl (.inl hhead) i
    rw [hmoved.eq] at hread'
    rw [List.append_assoc, parseFrom_eq hread' hadd, h.read, List.length_append, Nat.add_assoc]

end Seam

/-- **Reading goes on behind a control string** as it does at a start, but for literal text at its end. -/
theorem exists_seam {b : Builder} (h : parseFrom b ⟨w, i⟩ = .ok nodes) (hw : ¬ w.lastLexeme.IsContinuation) :
    ∃ front literal before, Seam b w i nodes front literal before := by
  induction h using parseFrom_induction with
  | finish b i _ h => exact ⟨_, _, _, .of_nil h⟩
  | lexeme b b' s t i lexeme _ h hread hadd ih =>
    have hlast := Text.lastLexeme_of_readLexeme hread
    -- only the last lexeme can go on in what follows; the others have something behind them already
    by_cases ht : t = []
    · subst ht
      rw [List.append_nil] at hread hlast hw ⊢
      rw [hlast, if_pos rfl] at hw
      have hfinish : b'.finish = .ok nodes := by
        rwa [parseFrom_none (readLexeme_none.mpr rfl)] at h
      by_cases hplain : s.BeginsPlain
      · obtain ⟨before, hseam⟩ := Seam.of_plain hread hplain hadd hfinish
        exact ⟨_, _, _, hseam⟩
      · have hne : s ≠ [] := by
          rintro rfl
          exact absurd (length_lt_of_readLexeme hread) (Nat.lt_irrefl _)
        exact ⟨_, _, _, .of_directive hread ⟨Text.head?_of_not_beginsPlain hne hplain, hw⟩ hadd hfinish⟩
    · rw [hlast, if_neg ht] at hw
      obtain ⟨front, literal, before, hseam⟩ := ih hw
      exact ⟨_, _, _, hseam.cons hread hadd ht⟩

/-! ## Both control strings -/

/-- Literal text at the start is a node of its own. -/
theorem parseFrom_plain (hs : '~' ∉ s) (hne : s ≠ []) (ht : ¬ t.BeginsPlain) :
    parseFrom .empty ⟨s ++ t, i⟩ = (parseFrom .empty ⟨t, i + s.length⟩).map (.text s :: ·) := by
  have hadd : Builder.add .empty (.text s) = .ok (.onto [.text s] .empty) := by
    simp [Builder.add, hne, Builder.push, Builder.onto]
  rw [parseFrom_eq (readLexeme_plain hs hne ht) hadd, parseFrom_onto]
  rfl

/-- The nodes of two control strings, and of both one after the other: literal text at the end of the
first and at the start of the second becomes one node. -/
inductive Node.Joined (a b : Text) : List Node → List Node → List Node → Prop
  | apart {ms ns : List Node} (h : ¬ (a.lastLexeme.BeginsPlain ∧ b.BeginsPlain)) : Joined a b ms ns (ms ++ ns)
  | merged {ms ns : List Node} {t : Text} (ha : a.lastLexeme.BeginsPlain) (hb : b.BeginsPlain) :
      Joined a b (ms ++ [.text a.lastLexeme]) (.text t :: ns) (ms ++ .text (a.lastLexeme ++ t) :: ns)

/-- Reading both control strings. -/
theorem parse_append (ha : parse a = .ok ms) (hb : parse b = .ok ns) (hend : ¬ a.lastLexeme.IsContinuation) :
    ∃ nodes, parse (a ++ b) = .ok nodes ∧ Node.Joined a b ms (Node.shiftAll a.length ns) nodes := by
  obtain ⟨front, literal, before, hseam⟩ := exists_seam ha hend
  have hlength : front.length + literal.length = a.length := by rw [hseam.text, List.length_append]
  have hread : parse (a ++ b) = _ := hseam.read b
  have hfurther : parseFrom .empty ⟨b, 0 + a.length⟩ = .ok (Node.shiftAll a.length ns) := parseFrom_shift hb
  obtain ⟨rfl, hlast⟩ | ⟨hne, hlast⟩ := hseam.last
  · have hms : ms = before := hseam.nodes.trans (List.append_nil before)
    rw [List.nil_append, show front.length = a.length from hlength, hfurther] at hread
    exact ⟨_, hread, hms ▸ .apart fun h => hlast h.1⟩
  have hms : ms = before ++ [.text literal] := by rw [hseam.nodes, Node.ofText, if_neg hne]
  have hbegins : a.lastLexeme.BeginsPlain := hlast ▸ .of_plain hseam.plain hne
  by_cases hplain : b.BeginsPlain
  · obtain ⟨s, t, rfl, hs, hs', ht⟩ := hplain.exists_append
    obtain ⟨ns', hns', rfl⟩ := exists_of_map_ok ((parseFrom_plain hs hs' ht).symm.trans hb)
    -- both texts are one lexeme now, but what is behind them is the same
    have hall : '~' ∉ literal ++ s := fun h => (List.mem_append.mp h).elim hseam.plain hs
    have hoffset : 0 + front.length + (literal ++ s).length = 0 + s.length + a.length := by
      rw [List.length_append]
      omega
    have hrest : parseFrom .empty ⟨t, 0 + s.length + a.length⟩ = .ok (Node.shiftAll a.length ns') :=
      parseFrom_shift hns'
    rw [← List.append_assoc literal, parseFrom_plain hall (by simp [hne]) ht, hoffset, hrest] at hread
    refine ⟨_, hread, ?_⟩
    rw [hms, ← hlast]
    exact .merged hbegins hplain
  · have hoffset : 0 + front.length + literal.length = 0 + a.length := by omega
    rw [parseFrom_plain hseam.plain hne hplain, hoffset, hfurther] at hread
    refine ⟨_, hread, ?_⟩
    rw [hms]
    have hjoined : Node.Joined a b (before ++ [.text literal]) (Node.shiftAll a.length ns)
      (before ++ [.text literal] ++ Node.shiftAll a.length ns) := .apart fun h => hplain h.2
    rwa [List.append_assoc] at hjoined

/-- **Control strings one after the other** have the nodes of the first and then those of the second,
further on, unless the first ends in a continuation that would skip blanks of the second. -/
theorem compile_append (ha : compile a = .ok ms) (hb : compile b = .ok ns)
    (hend : ¬ a.lastLexeme.IsContinuation) : ∃ nodes, compile (a ++ b) = .ok nodes ∧
      Node.Joined a b ms (Node.shiftAll a.length ns) nodes := by
  obtain ⟨nodes, hnodes, hjoined⟩ := parse_append (compile_eq_ok.mp ha) (compile_eq_ok.mp hb) hend
  exact ⟨nodes, compile_eq_ok.mpr hnodes, hjoined⟩

/-- A group in front of literal text, and text in front of a directive with parameters: the texts become
one, and the offsets of the parameters move with the directive. -/
theorem compile_append_merged :
    let a : Text := "~(~A~)=".toList
    let b : Text := "x~2,'0D~%".toList
    let group : Node := .group .caseConversion ⟨[], [], false, false, 0, 6⟩
      [[.atom .aesthetic ⟨[], [], false, false, 2, 4⟩]] [] ⟨[], [], false, false, 4, 6⟩
    let number (start : Nat) : Node :=
      .atom .decimal ⟨[.number 2, .character '0'], [start + 1, start + 3], false, false, start, start + 6⟩
    compile a = .ok [group, .text ['=']] ∧ compile b = .ok [.text ['x'], number 1, .text ['\n']] ∧
      ¬ a.lastLexeme.IsContinuation ∧
      ∃ nodes, compile (a ++ b) = .ok nodes ∧ Node.Joined a b [group, .text ['=']]
        [.text ['x'], number 8, .text ['\n']] nodes := by
  intro a b group number
  have ha : compile a = .ok [group, .text ['=']] := by with_unfolding_all rfl
  have hb : compile b = .ok [.text ['x'], number 1, .text ['\n']] := by with_unfolding_all rfl
  have hlast : a.lastLexeme = ['='] := by decide +kernel
  have hend : ¬ a.lastLexeme.IsContinuation := by
    rw [hlast]
    rintro ⟨_, _, ⟨⟩, _⟩
  exact ⟨ha, hb, hend, compile_append ha hb hend⟩

end Tilde
