import Mathlib.Data.Int.Interval
import Tilde.Proofs.Directive.Bracketed
import Tilde.Proofs.Run.Moves

/-!
# How long an iteration goes on

An iteration without a limit fails when a pass consumes nothing. But several passes together may
consume nothing, too, going back and forth, and then it never ends.

* `Action.Ends`, `Action.Laps`: an iteration that ends, and one that is still going on;
* **`Action.ends_or_recurs`**: an iteration without a limit ends, unless two of its passes begin at
  the same position;
* **`Action.not_ends_backAndForth`**: there are iterations that never end.
-/

namespace Tilde

/-! ## Positions -/

/-- The directive does not go back, and no arguments make nodes of their own go over the same
arguments. -/
def Node.GoesAhead : Node → Prop
  | .atom .goTo _ => False
  | .atom .plural head => head.colon = false
  | .atom .recursive head => head.atSign = false
  | .group .iteration head clauses _ _ => head.atSign = true → clauses.headD [] ≠ []
  | _ => True

namespace Cursor

/-- The list is the same, and a position below zero is none below the old one. -/
def Keeps (c c' : Cursor) : Prop :=
  c'.arguments = c.arguments ∧ ∀ n, c'.At n → 0 ≤ n ∨ ∃ m, c.At m ∧ m ≤ n

theorem keeps_of_goto {c c' : Cursor} {v : Value} (h : c.goto v = .ok c') : c.Keeps c' := by
  obtain ⟨rfl, hv⟩ := of_goto h
  exact ⟨rfl, fun n hn => .inl (hv n hn).1⟩

theorem keeps_of_relative {c c' : Cursor} {v : Value} (h : c.relative v = .ok c') : c.Keeps c' := by
  obtain ⟨position, -, h⟩ := exists_of_bind_ok h
  exact keeps_of_goto h

theorem keeps_of_moveCursor {c c' : Cursor} {head : Head} {s : List Value}
    (h : moveCursor head s c = .ok c') : c.Keeps c' := by
  obtain ⟨v, h⟩ := exists_goto_of_moveCursor h
  exact keeps_of_goto h

theorem keeps_refl (c : Cursor) : c.Keeps c := ⟨rfl, fun n hn => .inr ⟨n, hn, le_rfl⟩⟩

theorem travel_keeps : Travel Keeps (fun _ _ => True) fun _ => True where
  refl := keeps_refl
  trans := by
    rintro a b c ⟨hab, hb⟩ ⟨hbc, hc⟩
    refine ⟨hbc.trans hab, fun n hn => ?_⟩
    obtain h | ⟨m, hm, hmn⟩ := hc n hn
    · exact .inl h
    · obtain h | ⟨k, hk, hkm⟩ := hb m hm
      · exact .inl (h.trans hmn)
      · exact .inr ⟨k, hk, hkm.trans hmn⟩
  next := by
    intro c v c' h
    obtain ⟨n, hn, -, rfl⟩ := of_next h
    refine ⟨rfl, fun m hm => .inr ⟨n, hn, ?_⟩⟩
    obtain rfl := Option.some.inj hm
    omega
  last := keeps_of_goto
  goTo _ _ := keeps_of_moveCursor
  plural _ _ := keeps_of_relative
  recursive _ _ _ := trivial
  given _ _ _ _ := trivial
  clauses _ _ _ _ _ := trivial

/-- The list is the same, and the position is not lower. -/
def Advances (c c' : Cursor) : Prop :=
  c'.arguments = c.arguments ∧
    ∀ n, c.At n → n ≤ c.length → ∃ m, c'.At m ∧ n ≤ m ∧ m ≤ c.length

theorem travel_advances : Travel Advances (fun n _ => ∀ m, Within m [n] → m.GoesAhead)
    fun n => ∀ m, Within m [n] → m.GoesAhead where
  refl c := ⟨rfl, fun n hn hlength => ⟨n, hn, le_rfl, hlength⟩⟩
  trans := by
    rintro a b c ⟨hab, hb⟩ ⟨hbc, hc⟩
    refine ⟨hbc.trans hab, fun n hn hlength => ?_⟩
    have hsize : b.length = a.length := congrArg Array.size hab
    obtain ⟨m, hm, hnm, hma⟩ := hb n hn hlength
    obtain ⟨k, hk, hmk, hkb⟩ := hc m hm (hsize ▸ hma)
    exact ⟨k, hk, hnm.trans hmk, hsize ▸ hkb⟩
  next := by
    intro c v c' h
    obtain ⟨n, hn, hlt, rfl⟩ := of_next h
    refine ⟨rfl, fun m hm _ => ⟨n + 1, rfl, ?_, hlt⟩⟩
    obtain rfl := Option.some.inj (hn.symm.trans hm)
    omega
  last := by
    intro c c' h
    obtain ⟨rfl, -⟩ := of_goto h
    exact ⟨rfl, fun n _ hlength => ⟨c.length, rfl, hlength, le_rfl⟩⟩
  goTo h _ _ := (h _ (.here List.mem_cons_self)).elim
  plural h hcolon _ := by
    have hahead : _ = false := h _ (.here List.mem_cons_self)
    simp [hcolon] at hahead
  recursive h hatSign _ := by
    have hahead : _ = false := h _ (.here List.mem_cons_self)
    simp [hatSign] at hahead
  given h hempty hatSign _ := absurd hempty (h _ (.here List.mem_cons_self) hatSign)
  clauses h clause hclause n hn m hm := h m (.inside List.mem_cons_self hclause (hm.of_mem hn))

end Cursor

namespace Action

variable {run : Runner} {route : Route} {l : Loop} {passes depth i j k : Nat}
  {items c c' : Cursor} {cs : List Cursor} {s s' : Stream}
  {r : EStateM.Result Fault Stream Cursor}

/-! ## Passes -/

/-- A loop that has made `i` passes makes `k` more that go on, and then one that does not, with this
result. -/
inductive Ends (run : Runner) (route : Route) (l : Loop) :
    Nat → Nat → Cursor → Stream → EStateM.Result Fault Stream Cursor → Prop
  | stop {i : Nat} {items c : Cursor} {s s' : Stream}
      (h : pass run route l i items s = .ok (c, false) s') : Ends run route l 0 i items s (.ok c s')
  | fault {i : Nat} {items : Cursor} {s s' : Stream} {e : Fault}
      (h : pass run route l i items s = .error e s') : Ends run route l 0 i items s (.error e s')
  | again {k i : Nat} {items c : Cursor} {s s' : Stream} {r : EStateM.Result Fault Stream Cursor}
      (h : pass run route l i items s = .ok (c, true) s')
      (ends : Ends run route l k (i + 1) c s' r) : Ends run route l (k + 1) i items s r

/-- A loop has made passes that all go on, from these cursors, latest first. -/
inductive Laps (run : Runner) (route : Route) (l : Loop) (items : Cursor) (s : Stream) :
    List Cursor → Cursor → Stream → Prop
  | start : Laps run route l items s [] items s
  | lap {cs : List Cursor} {c c' : Cursor} {s' s'' : Stream} (h : Laps run route l items s cs c s')
      (hpass : pass run route l cs.length c s' = .ok (c', true) s'') :
      Laps run route l items s (c :: cs) c' s''

/-- Two of the cursors stand at the same position, or one at a position that is no whole number. -/
def Recurs (cs : List Cursor) : Prop :=
  (∃ c ∈ cs, c.position.integer? = none) ∨ ¬(cs.map fun c => c.position.integer?).Nodup

theorem iterate_of_ends (h : Ends run route l k i items s r) (hk : k < passes) :
    iterate run route l passes i items s = r := by
  induction h generalizing passes with
  | stop h =>
    obtain _ | passes := passes
    · omega
    · rw [iterate_succ]
      simp [bind, EStateM.bind, h, pure, EStateM.pure]
  | fault h =>
    obtain _ | passes := passes
    · omega
    · rw [iterate_succ]
      simp [bind, EStateM.bind, h]
  | again h ends ih =>
    obtain _ | passes := passes
    · omega
    · rw [iterate_succ]
      simp only [bind, EStateM.bind, h]
      exact ih (by omega)

theorem iterate_of_laps (h : Laps run route l items s cs c s') :
    iterate run route l (cs.length + passes) 0 items s =
      iterate run route l passes cs.length c s' := by
  induction h generalizing passes with
  | start => rw [List.length_nil, Nat.zero_add]
  | @lap cs c c' s' s'' h hpass ih =>
    rw [List.length_cons, Nat.add_assoc, Nat.add_comm 1, ih, iterate_succ]
    simp [bind, EStateM.bind, hpass]

theorem Laps.ends (h : Laps run route l items s cs c s')
    (hends : Ends run route l k cs.length c s' r) :
    Ends run route l (cs.length + k) 0 items s r := by
  induction h generalizing k with
  | start => simpa using hends
  | lap h hpass ih =>
    rw [List.length_cons, Nat.add_assoc, Nat.add_comm 1]
    exact ih (.again hpass hends)

/-- A loop ends early, or is still going on. -/
theorem ends_or_laps (run : Runner) (route : Route) (l : Loop) (items : Cursor) (s : Stream)
    (k : Nat) : (∃ j < k, ∃ r, Ends run route l j 0 items s r) ∨
      ∃ cs c s', Laps run route l items s cs c s' ∧ cs.length = k := by
  induction k with
  | zero => exact .inr ⟨[], items, s, .start, rfl⟩
  | succ k ih =>
    obtain ⟨j, hj, r, hends⟩ | ⟨cs, c, s', hlaps, rfl⟩ := ih
    · exact .inl ⟨j, by omega, r, hends⟩
    · cases hpass : pass run route l cs.length c s' with
      | error e s'' => exact .inl ⟨cs.length + 0, by omega, _, hlaps.ends (.fault hpass)⟩
      | ok x s'' =>
        obtain ⟨c', goesOn⟩ := x
        cases goesOn with
        | false => exact .inl ⟨cs.length + 0, by omega, _, hlaps.ends (.stop hpass)⟩
        | true => exact .inr ⟨c :: cs, c', s'', hlaps.lap hpass, rfl⟩

/-- Only the first pass of a loop that goes on can begin where no argument is left. -/
theorem nonempty_of_pass (h : pass run route l i items s = .ok (c, true) s') :
    i = 0 ∨ items.isEmpty = false := by
  have hpass : (pass run route l i items).Yields fun x =>
      x.2 = true → i = 0 ∨ items.isEmpty = false := by
    unfold pass
    refine .after fun allowed => ?_
    split
    · exact .pure (by simp)
    split
    · exact .pure (by simp)
    rename_i hempty
    refine (Yields.any _).mono fun _ _ _ => ?_
    cases h : items.isEmpty <;> simp_all
  exact hpass s _ s' h rfl

theorem Laps.travels {R : Cursor → Cursor → Prop} {ok : Node → Cursor → Prop}
    {inner : Node → Prop} (T : Travel R ok inner) (hrun : Guides R inner run)
    (hbody : ∀ n ∈ l.body, inner n) (h : Laps run route l items s cs c s') :
    R items c ∧ ∀ a ∈ cs, R items a ∧ (a = items ∨ a.isEmpty = false) := by
  induction h with
  | start => exact ⟨T.refl items, by simp⟩
  | @lap cs c c' s' s'' h hpass ih =>
    obtain ⟨hc, hcs⟩ := ih
    refine ⟨T.trans hc (T.pass hrun hbody cs.length c s' _ s'' hpass), ?_⟩
    refine List.forall_mem_cons.mpr ⟨⟨hc, ?_⟩, hcs⟩
    refine (nonempty_of_pass hpass).imp_left fun hfirst => ?_
    obtain rfl := List.length_eq_zero_iff.mp hfirst
    cases h
    rfl

/-- There are only so many positions. -/
theorem recurs_of_lt_length (n lo hi : Int)
    (h : ∀ c ∈ cs, ∀ p, c.At p → p = n ∨ lo ≤ p ∧ p < hi)
    (hlength : (hi - lo).toNat + 1 < cs.length) : Recurs cs := by
  by_contra hnot
  obtain ⟨hwhole, hnodup⟩ := not_or.mp hnot
  have hsubset : (cs.map fun c => c.position.integer?).toFinset ⊆
      (insert n (Finset.Ico lo hi)).image some := by
    intro p hp
    obtain ⟨c, hc, rfl⟩ := List.mem_map.mp (List.mem_toFinset.mp hp)
    cases hposition : c.position.integer? with
    | none => exact absurd ⟨c, hc, hposition⟩ hwhole
    | some p => simpa using h c hc p hposition
  have hcard := Finset.card_le_card hsubset
  rw [List.toFinset_card_of_nodup (not_not.mp hnodup), List.length_map] at hcard
  have himage : ((insert n (Finset.Ico lo hi)).image some).card ≤ (hi - lo).toNat + 1 := by
    refine Finset.card_image_le.trans ((Finset.card_insert_le _ _).trans ?_)
    rw [Int.card_Ico]
  omega

/-- **An iteration without a limit ends, or it comes back to where it was**, unless it leaves the
whole numbers. At the latest, this shows when it has made one pass more than there are positions. -/
theorem ends_or_recurs (passes depth : Nat) (route : Route) (body : List Node) (force : Bool)
    (items : Cursor) (n : Int) (s : Stream) :
    let run := runWithin passes depth
    let l : Loop := ⟨body, false, force, .nothing⟩
    let start := items.moved (.int n)
    let most := (items.length - min n 0).toNat + 1
    (∃ k ≤ most, ∃ r, Ends run route l k 0 start s r) ∨
      ∃ cs c s', Laps run route l start s cs c s' ∧ cs.length = most + 1 ∧ Recurs cs := by
  intro run l start most
  obtain ⟨k, hk, r, hends⟩ | ⟨cs, c, s', hlaps, hlength⟩ :=
    ends_or_laps run route l start s (most + 1)
  · exact .inl ⟨k, by omega, r, hends⟩
  · refine .inr ⟨cs, c, s', hlaps, hlength, ?_⟩
    have hrun := Cursor.travel_keeps.guides_runWithin passes depth
    obtain ⟨-, hcs⟩ := hlaps.travels Cursor.travel_keeps hrun fun _ _ => trivial
    refine recurs_of_lt_length n (min n 0) items.length ?_ (by omega)
    intro a ha p hp
    obtain ⟨⟨harguments, hlow⟩, rfl | hnonempty⟩ := hcs a ha
    · exact .inl (Option.some.inj hp).symm
    · have hlt : p < items.length := by
        have hsize : a.length = items.length := congrArg Array.size harguments
        simpa [Cursor.isEmpty_of_at hp, hsize] using hnonempty
      refine .inr ⟨?_, hlt⟩
      obtain h | ⟨m, hm, hmp⟩ := hlow p hp
      · omega
      · obtain rfl := Option.some.inj hm
        omega

/-- A pass that goes on ends elsewhere, unless no argument is left. -/
theorem not_samePosition_of_pass {body : List Node} {force : Bool}
    (h : pass run route ⟨body, false, force, .nothing⟩ i items s = .ok (c, true) s')
    (hnonempty : c.isEmpty = false) : samePosition c items = false := by
  have hpass : (pass run route ⟨body, false, force, .nothing⟩ i items).Yields fun x =>
      x.2 = true → x.1.isEmpty = false → samePosition x.1 items = false := by
    unfold pass
    refine .after fun allowed => ?_
    split
    · exact .pure (by simp)
    split
    · exact .pure (by simp)
    rw [if_neg Bool.false_ne_true]
    refine .after fun o => ?_
    dsimp only
    split
    · exact .pure (by simp)
    split
    · exact .throw
    · rename_i hmoved
      refine .pure fun _ hnonempty => ?_
      simpa [Value.isNothing, hnonempty] using hmoved
  exact hpass s _ s' h rfl hnonempty

theorem samePosition_of_at {p q : Int} (h : c.At p) (h' : c'.At q) :
    samePosition c c' = decide (p = q) := by
  rw [samePosition, Value.equal_of_integer h h']
  rfl

theorem not_recurs_cons {q : Int} (h : ¬Recurs cs) (hc : c.At q) (hcs : ∀ a ∈ cs, ¬a.At q) :
    ¬Recurs (c :: cs) := by
  obtain ⟨hwhole, hnodup⟩ := not_or.mp h
  refine not_or.mpr ⟨?_, ?_⟩
  · rintro ⟨a, ha, hnone⟩
    rcases List.mem_cons.mp ha with rfl | ha
    · simp [Cursor.At, hnone] at hc
    · exact hwhole ⟨a, ha, hnone⟩
  · rw [List.map_cons, List.nodup_cons, not_not]
    refine ⟨fun hmem => ?_, not_not.mp hnodup⟩
    obtain ⟨a, ha, hac⟩ := List.mem_map.mp hmem
    exact hcs a ha (hac.trans hc)

/-- Passes that only go ahead begin further and further on. -/
theorem Laps.not_recurs {body : List Node} {force : Bool} {p : Int}
    (hrun : Guides Cursor.Advances (fun n => ∀ m, Within m [n] → m.GoesAhead) run)
    (hbody : ∀ n ∈ body, ∀ m, Within m [n] → m.GoesAhead) (hp : items.At p)
    (hlength : p ≤ items.length)
    (h : Laps run route ⟨body, false, force, .nothing⟩ items s cs c s') :
    (∃ q, c.At q ∧ q ≤ c.length ∧ (c.isEmpty = false → ∀ a ∈ cs, ∃ q', a.At q' ∧ q' < q)) ∧
      ¬Recurs cs := by
  induction h with
  | start => exact ⟨⟨p, hp, hlength, by simp⟩, by simp [Recurs]⟩
  | @lap cs c c' s' s'' h hpass ih =>
    obtain ⟨⟨q, hq, hqlength, hbefore⟩, hcs⟩ := ih
    obtain ⟨harguments, hadvance⟩ : c.Advances c' :=
      Cursor.travel_advances.pass hrun hbody cs.length c s' _ s'' hpass
    obtain ⟨q', hq', hle, hq'length⟩ := hadvance q hq hqlength
    have hsize : c'.length = c.length := congrArg Array.size harguments
    refine ⟨⟨q', hq', hsize ▸ hq'length, fun hnonempty => ?_⟩, not_recurs_cons hcs hq ?_⟩
    · have hmoved := not_samePosition_of_pass hpass hnonempty
      rw [samePosition_of_at hq' hq, decide_eq_false_iff_not] at hmoved
      rw [Cursor.isEmpty_of_at hq', decide_eq_false_iff_not, hsize] at hnonempty
      have hbefore := hbefore (by rw [Cursor.isEmpty_of_at hq, decide_eq_false_iff_not]; omega)
      refine List.forall_mem_cons.mpr ⟨⟨q, hq, by omega⟩, fun a ha => ?_⟩
      obtain ⟨q'', hq'', hlt⟩ := hbefore a ha
      exact ⟨q'', hq'', by omega⟩
    · intro a ha haq
      obtain hfirst | hnonempty := nonempty_of_pass hpass
      · simp [List.length_eq_zero_iff.mp hfirst] at ha
      · obtain ⟨q'', hq'', hlt⟩ := hbefore hnonempty a ha
        obtain rfl := Option.some.inj (haq.symm.trans hq'')
        omega

/-- **An iteration without a limit ends if no directive of its body goes back.** -/
theorem ends_of_goesAhead (passes depth : Nat) (route : Route) {body : List Node} (force : Bool)
    {items : Cursor} {n : Int} (s : Stream) (hbody : ∀ m, Within m body → m.GoesAhead)
    (hn : items.At n) (hlength : n ≤ items.length) :
    ∃ k ≤ (items.length - n).toNat + 1, ∃ r,
      Ends (runWithin passes depth) route ⟨body, false, force, .nothing⟩ k 0 items s r := by
  have hrun := Cursor.travel_advances.guides_runWithin passes depth
  have hnodes : ∀ n ∈ body, ∀ m, Within m [n] → m.GoesAhead :=
    fun n hn m hm => hbody m (hm.of_mem hn)
  obtain ⟨k, hk, r, hends⟩ | ⟨cs, c, s', hlaps, hcs⟩ :=
    ends_or_laps (runWithin passes depth) route ⟨body, false, force, .nothing⟩ items s
      ((items.length - n).toNat + 2)
  · exact ⟨k, by omega, r, hends⟩
  · refine absurd (recurs_of_lt_length n n items.length ?_ (by omega))
      (hlaps.not_recurs hrun hnodes hn hlength).2
    intro a ha p hp
    obtain ⟨-, htravels⟩ := hlaps.travels Cursor.travel_advances hrun hnodes
    obtain ⟨⟨harguments, hadvance⟩, hfirst⟩ := htravels a ha
    obtain ⟨m, hm, hnm, -⟩ := hadvance n hn hlength
    obtain rfl := Option.some.inj (hm.symm.trans hp)
    obtain rfl | hnonempty := hfirst
    · exact .inl (Option.some.inj (hp.symm.trans hn))
    · have hsize : a.length = items.length := congrArg Array.size harguments
      rw [Cursor.isEmpty_of_at hp, decide_eq_false_iff_not, hsize] at hnonempty
      exact .inr ⟨hnm, by omega⟩

/-! ## Back and forth -/

/-- The body of `~{~*~#@*~}`: one argument ahead, and from there to the place that has as many
arguments before it as are left. -/
def backAndForth : List Node :=
  [.atom .goTo ⟨[], [], false, false, 2, 4⟩, .atom .goTo ⟨[.remaining], [5], false, true, 4, 8⟩]

theorem run_backAndForth {p : Int} (hroom : 2 ≤ route.room) (hp : 0 ≤ p)
    (hlength : p < items.length) :
    runWithin passes (depth + 1) route backAndForth (items.moved (.int p)) s =
      .ok (items.moved (.int (items.length - 1 - p)), none) s := by
  have hplus : (Value.int p).plus (.int 1) = .ok (.int (p + 1)) := rfl
  have hahead : (items.moved (.int p)).goto (.int (p + 1)) = .ok (items.moved (.int (p + 1))) :=
    Cursor.goto_moved (by omega) (by omega) _
  have hback : (items.moved (.int (p + 1))).goto (.int (items.length - (p + 1))) =
      .ok (items.moved (.int (items.length - 1 - p))) := by
    rw [show (items.length : Int) - (p + 1) = items.length - 1 - p by omega]
    exact Cursor.goto_moved (by omega) (by omega) _
  have hremaining : (items.moved (.int (p + 1))).remaining =
      .ok (.int (items.length - (p + 1))) := Cursor.remaining_of_at (items.at_moved (p + 1))
  simp [runWithin, descend, Nat.not_lt.mpr hroom, backAndForth, runNodes, runNode, runAtom,
    Head.settle, settleAll, Atom.defaults, Parameter.settle, hremaining, Except.map, runSettled,
    moveCursor, setting, Value.isNothing, Cursor.relative, hahead, hback, hplus, bind, EStateM.bind,
    Except.bind, pure, Except.pure, EStateM.pure, lift]

/-- A pass that begins on one side of the middle ends on the other one. -/
theorem pass_backAndForth {p : Int} (hroom : 2 ≤ route.room) (force : Bool) (hp : 0 ≤ p)
    (hlength : p < items.length) (hmiddle : 2 * p + 1 ≠ items.length) :
    pass (runWithin passes (depth + 1)) route ⟨backAndForth, false, force, .nothing⟩ i
      (items.moved (.int p)) s = .ok (items.moved (.int (items.length - 1 - p)), true) s := by
  have hempty : (items.moved (.int p)).isEmpty = false := by
    rw [Cursor.isEmpty_of_at (items.at_moved p), decide_eq_false_iff_not]
    exact not_le.mpr hlength
  have hmoved : samePosition (items.moved (.int (items.length - 1 - p))) (items.moved (.int p)) =
      false := by
    rw [samePosition_of_at (items.at_moved _) (items.at_moved p), decide_eq_false_iff_not]
    omega
  simp [pass, Loop.allows, hempty, run_backAndForth hroom hp hlength, hmoved, bind, EStateM.bind,
    pure, EStateM.pure, lift]

/-- **An iteration that goes back and forth never ends.** -/
theorem not_ends_backAndForth {p : Int} (hroom : 2 ≤ route.room) (force : Bool) (hp : 0 ≤ p)
    (hlength : p < items.length) (hmiddle : 2 * p + 1 ≠ items.length) :
    ¬Ends (runWithin passes (depth + 1)) route ⟨backAndForth, false, force, .nothing⟩ k i
      (items.moved (.int p)) s r := by
  intro h
  generalize hstart : items.moved (.int p) = start at h
  induction h generalizing p with
  | stop h => simp [← hstart, pass_backAndForth hroom force hp hlength hmiddle] at h
  | fault h => simp [← hstart, pass_backAndForth hroom force hp hlength hmiddle] at h
  | again h ends ih =>
    rw [← hstart, pass_backAndForth hroom force hp hlength hmiddle] at h
    simp only [EStateM.Result.ok.injEq, Prod.mk.injEq, and_true] at h
    exact ih (by omega) (by omega) (by omega) h.1

/-- On a list of two, the iteration never ends. -/
theorem exists_not_ends : ∃ (head closing : Head) (body : List Node),
    parse "~{~*~#@*~}".toList = .ok [.group .iteration head [body] [] closing] ∧
      head.colon = false ∧ head.parameters = [] ∧ ∀ s k r,
        ¬Ends (runWithin Limits.standard.passes Limits.standard.depth) {}
          ⟨body, false, closing.colon, .nothing⟩ k 0 (.ofList [.int 1, .int 2]) s r := by
  refine ⟨⟨[], [], false, false, 0, 10⟩, ⟨[], [], false, false, 8, 10⟩, backAndForth,
    by with_unfolding_all rfl, rfl, rfl, fun s k r => ?_⟩
  exact @not_ends_backAndForth _ _ _ _ _ (.ofList [.int 1, .int 2]) _ _ 0 (by decide) _ le_rfl
    (by decide) (by decide)

end Action

end Tilde
