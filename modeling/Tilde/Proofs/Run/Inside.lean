import Tilde.Directive.Parse
import Tilde.Format.Formatter
import Tilde.Proofs.Run.Rule
import Tilde.Proofs.Run.Supplied

/-!
# Runs only move the cursor

A directive may read arguments, skip them or come back to them, and run others on lists of their
own. Whatever it does, the cursor that it leaves stands in the same list as the one that it got.

* `Value.isPlain`: what the parameters `V` are meant to read;
* `Rule.plainParameters`: they read nothing else;
* **`Action.isInside_of_runWithin`**: then a run ends in the list where it started, at a whole
  position.

A parameter that reads something else can lead to a position that is no integer.
-/

namespace Tilde

/-! ## Plain values -/

namespace Value

/-- The value is one that a parameter can have: a whole number, a character or nothing. -/
def isPlain : Value → Bool
  | .nothing | .bool _ | .int _ | .text [_] => true
  | _ => false

variable {v w : Value} {m n : Int} {b : Bool}

/-- Only numbers can be compared with numbers. -/
theorem integer_of_isPlain (hv : v.isPlain = true) (hnumber : v.number?.isSome = true) :
    ∃ n, v.integer? = some n := by
  cases v <;> simp_all [isPlain, integer?, number?]

theorem number_of_asNumber {x : Number} (h : v.asNumber = .ok x) : v.number? = some x := by
  unfold asNumber at h
  split at h <;> simp_all

theorem integer_of_isBelowZero (hv : v.isPlain = true) (h : v.isBelowZero = .ok b) :
    ∃ n, v.integer? = some n := by
  refine integer_of_isPlain hv ?_
  unfold isBelowZero less at h
  split at h <;> simp_all

theorem isPlain_of_negated (hv : v.isPlain = true) (h : v.negated = .ok w) : w.isPlain = true := by
  obtain ⟨x, hx, h⟩ := exists_of_bind_ok h
  have hnumber := number_of_asNumber hx
  obtain ⟨n, hn⟩ := integer_of_isPlain hv (by simp [hnumber])
  obtain rfl := Option.some.inj (hnumber.symm.trans (number_of_integer hn))
  cases h
  rfl

/-- From a whole number, plain values lead to plain values. -/
theorem isPlain_of_plus (hv : v.integer? = some m) (hw : w.isPlain = true) {x : Value}
    (h : v.plus w = .ok x) : x.isPlain = true := by
  have hnumeric : v.plus w = numeric Number.plus v w := by
    obtain rfl | ⟨b, rfl⟩ := int_or_bool hv <;> rfl
  rw [hnumeric] at h
  obtain ⟨y, hy, h⟩ := exists_of_bind_ok h
  obtain ⟨z, hz, h⟩ := exists_of_bind_ok h
  obtain ⟨n, hn⟩ := integer_of_isPlain hw (by simp [number_of_asNumber hz])
  obtain rfl := Option.some.inj ((number_of_asNumber hy).symm.trans (number_of_integer hv))
  obtain rfl := Option.some.inj ((number_of_asNumber hz).symm.trans (number_of_integer hn))
  cases h
  rfl

end Value

/-! ## Steps -/

namespace Cursor

variable {c c' c₀ : Cursor} {v : Value} {head : Head} {s : List Value}

/-- The cursor stands at an argument of its list, or at the end. -/
def IsInside (c : Cursor) : Prop := ∃ n, c.At n ∧ 0 ≤ n ∧ n ≤ c.length

/-- The list and the enclosing one are the same, and the cursor has not left the list. -/
def Stays (c c' : Cursor) : Prop :=
  c'.arguments = c.arguments ∧ c'.outer = c.outer ∧ (c.IsInside → c'.IsInside)

theorem stays_of_goto (hv : c.IsInside → v.isPlain = true) (h : c.goto v = .ok c') :
    c.Stays c' := by
  obtain ⟨rfl, hbounds⟩ := of_goto h
  refine ⟨rfl, rfl, fun hc => ?_⟩
  obtain ⟨below, hbelow, -⟩ := exists_of_bind_ok h
  obtain ⟨n, hn⟩ := Value.integer_of_isBelowZero (hv hc) hbelow
  exact ⟨n, hn, hbounds n hn⟩

theorem stays_of_relative (hv : c.IsInside → v.isPlain = true) (h : c.relative v = .ok c') :
    c.Stays c' := by
  obtain ⟨position, hposition, h⟩ := exists_of_bind_ok h
  refine stays_of_goto (fun hc => ?_) h
  have hplain := hv hc
  obtain ⟨n, hn, -⟩ := hc
  exact Value.isPlain_of_plus hn hplain hposition

theorem stays_of_next (h : c.next = .ok (v, c')) : c.Stays c' := by
  obtain ⟨n, hn, hlength, rfl⟩ := of_next h
  refine ⟨rfl, rfl, ?_⟩
  rintro ⟨m, hm, hlow, -⟩
  obtain rfl := Option.some.inj (hn.symm.trans hm)
  have hsize : (c.moved (.int (n + 1))).length = c.length := rfl
  exact ⟨n + 1, rfl, by omega, by omega⟩

end Cursor

/-! ## The rule -/

/-- Whatever arguments the parameters `V` may read, these are plain. -/
def Head.ReadsPlain (head : Head) (c : Cursor) : Prop :=
  ∀ vs c', vs.length ≤ head.parameters.count .next → c.Reads vs c' → ∀ v ∈ vs, v.isPlain = true

/-- The parameters `V` of the directive read plain arguments. -/
def Node.ReadsPlain : Node → Cursor → Prop
  | .atom _ head, c | .group _ head _ _ _, c => head.ReadsPlain c
  | _, _ => True

/-- Directives are begun only where their parameters `V` read plain arguments. -/
def Rule.plainParameters : Rule Unit where
  allows _ n c := n.ReadsPlain c
  inside _ _ _ := ()

variable {c c' c₀ : Cursor} {head : Head} {s : List Value}

/-- A parameter that reads plain arguments has a plain value. -/
theorem isPlain_of_settle {v default : Value} (hdefault : default.isPlain = true)
    (hhead : head.ReadsPlain c₀) (hc : c.IsInside)
    (h : (head.parameters.headD .absent).settle default c₀ = .ok (v, c)) : v.isPlain = true := by
  obtain ⟨_ | ⟨p, ps⟩, offsets, colon, atSign, start, stop⟩ := head
  · cases h
    exact hdefault
  cases p with
  | absent =>
    cases h
    exact hdefault
  | number | character =>
    cases h
    rfl
  | remaining =>
    simp only [List.headD_cons, Parameter.settle] at h
    cases hremaining : c₀.remaining with
    | error e => simp [hremaining, Except.map] at h
    | ok n =>
      simp only [hremaining, Except.map, Except.ok.injEq, Prod.mk.injEq] at h
      obtain ⟨rfl, rfl⟩ := h
      obtain ⟨m, hm, -⟩ := hc
      obtain rfl := Except.ok.inj ((Cursor.remaining_of_at hm).symm.trans hremaining)
      rfl
  | next =>
    simp only [List.headD_cons, Parameter.settle] at h
    split at h
    · cases h
      exact hdefault
    · have hone : [v].length ≤ (Parameter.next :: ps).count .next := by simp
      exact hhead [v] c hone ⟨c, h, rfl⟩ v (List.mem_singleton_self v)

theorem stays_of_moveCursor (hhead : head.ReadsPlain c₀)
    (hs : head.settle Atom.goTo.defaults c₀ = .ok (s, c)) (h : moveCursor head s c = .ok c') :
    c.Stays c' := by
  obtain ⟨⟨v, c₁⟩, hv, hs⟩ := exists_of_bind_ok hs
  cases hs
  have hplain : c.IsInside → v.isPlain = true := fun hc => isPlain_of_settle rfl hhead hc hv
  unfold moveCursor at h
  split at h
  · exact Cursor.stays_of_goto (fun _ => rfl) h
  · exact Cursor.stays_of_goto hplain h
  · have hcount (hc : c.IsInside) : (if v.isNothing then .int 1 else v).isPlain = true := by
      split
      · rfl
      · exact hplain hc
    dsimp only at h
    split at h
    · obtain ⟨w, hw, h⟩ := exists_of_bind_ok h
      exact Cursor.stays_of_relative (fun hc => Value.isPlain_of_negated (hcount hc) hw) h
    · exact Cursor.stays_of_relative hcount h

theorem travel_stays : Travel Cursor.Stays (Rule.plainParameters.allows ()) fun _ => True where
  refl c := ⟨rfl, rfl, id⟩
  trans := by
    rintro a b c ⟨hab, houter, hb⟩ ⟨hbc, houter', hc⟩
    exact ⟨hbc.trans hab, houter'.trans houter, hc ∘ hb⟩
  next := Cursor.stays_of_next
  last := Cursor.stays_of_goto fun _ => rfl
  goTo := stays_of_moveCursor
  plural _ _ := Cursor.stays_of_relative fun _ => rfl
  recursive _ _ _ := trivial
  given _ _ _ _ := trivial
  clauses _ _ _ _ _ := trivial

/-! ## Runs -/

namespace Action

variable {passes depth : Nat} {route : Route} {nodes : List Node} {stream s' : Stream}
  {o : Tilde.Outcome}

/-- **A run ends in the list where it started, unless a parameter reads something odd.** -/
theorem isInside_of_runWithin (hc : c.IsInside)
    (hobeys : Obeys .plainParameters () passes depth route nodes c stream)
    (h : runWithin passes depth route nodes c stream = .ok o s') :
    o.1.arguments = c.arguments ∧ o.1.outer = c.outer ∧ o.1.IsInside := by
  have hguides := Travel.guides_runUnder (fun _ => travel_stays) .unsupported passes depth ()
  have hrun := (hobeys .unsupported).trans h
  obtain ⟨harguments, houter, hinside⟩ :=
    hguides route nodes c (fun _ _ => trivial) stream o s' hrun
  exact ⟨harguments, houter, hinside hc⟩

/-- `~V*` reads how many arguments to skip: none is given, so one is. -/
theorem isInside_of_runWithin_skip :
    let nodes : List Node := [.atom .goTo ⟨[.next], [1], false, false, 0, 3⟩,
      .atom .decimal ⟨[], [], false, false, 3, 5⟩]
    let c : Cursor := .ofList [.nothing, .int 1, .int 2]
    parse "~V*~D".toList = .ok nodes ∧ c.IsInside ∧
      Obeys .plainParameters () 1 1 {} nodes c (Formatter.sinkStream {}) ∧ ∃ o s',
      runWithin 1 1 {} nodes c (Formatter.sinkStream {}) = .ok o s' ∧
      o.1.arguments = c.arguments ∧ o.1.outer = c.outer ∧ o.1.IsInside := by
  intro nodes c
  have hinside : c.IsInside := ⟨0, rfl, le_rfl, by decide⟩
  have hskip : Node.ReadsPlain (.atom .goTo ⟨[.next], [1], false, false, 0, 3⟩) c := by
    rintro (_ | ⟨v, _ | ⟨w, vs⟩⟩) c' hlength hreads
    · simp
    · obtain ⟨c₁, hnext, -⟩ := hreads
      cases hnext
      exact List.forall_mem_singleton.mpr rfl
    · simp at hlength
  have hdecimal (c : Cursor) :
      Node.ReadsPlain (.atom .decimal ⟨[], [], false, false, 3, 5⟩) c := by
    rintro vs c' hlength - v hv
    simp [List.length_eq_zero_iff.mp (Nat.le_zero.mp hlength)] at hv
  have hobeys : Obeys .plainParameters () 1 1 {} nodes c (Formatter.sinkStream {}) := by
    intro e
    have hlast (run : Unit → Runner) (route : Route) (c : Cursor) :
        runNodesUnder .plainParameters e 1 run () route
            [.atom .decimal ⟨[], [], false, false, 3, 5⟩] c =
          runNodes 1 (run ()) route [.atom .decimal ⟨[], [], false, false, 3, 5⟩] c :=
      if_pos (hdecimal c)
    have hall (run : Unit → Runner) (route : Route) :
        runNodesUnder .plainParameters e 1 run () route nodes c =
          runNodes 1 (run ()) route nodes c := by
      refine (if_pos hskip).trans (bind_congr ?_)
      rintro ⟨c₁, _ | exit⟩
      · exact hlast run route c₁
      · exact rfl
    exact congrFun (bind_congr fun route => hall _ route) _
  obtain ⟨o, s', hrun⟩ : ∃ o s',
      runWithin 1 1 {} nodes c (Formatter.sinkStream {}) = .ok o s' :=
    ⟨_, _, by with_unfolding_all rfl⟩
  refine ⟨by with_unfolding_all rfl, hinside, hobeys, o, s', hrun, ?_⟩
  exact isInside_of_runWithin hinside hobeys hrun

end Action

end Tilde
