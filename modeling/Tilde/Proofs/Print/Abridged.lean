import Tilde.Proofs.Print.Numeral
import Tilde.Proofs.Print.Uttered

/-!
# Values cut short

**`toText_limited`**: with limits on depth and length the printed form of a value is its abridged
form. A container inside of as many as the limit on depth allows is a number sign; of any other one
no more elements are shown than the limit on length allows, and dots stand for the rest.

* `Value.abridged`: the abridged form;
* `curtailed_cons`: a list cut short, element by element;
* `Tells`: an action that comes to writing a text where so many blocks are open;
* **`Tells.within`**, `Tells.refused`: so does a block around such an action, or a number sign in its
  place;
* **`exists_tells_print`**: so does printing a value.
-/

namespace Tilde

/-! ## Abridged forms -/

namespace Value

/-- Texts separated by a comma and a space. If there are more than the limit allows, dots stand for
the others. -/
def curtailed (limit : Option Nat) (parts : List Text) : Text :=
  match limit with
  | none => listed parts
  | some k =>
    if k < parts.length then listed (parts.take k ++ [['.', '.', '.']]) else listed parts

/-- A container with such contents. If it is nested too deeply, a number sign stands for it. -/
def container (level : Option Nat) (depth : Nat) (opening closing contents : Text) : Text :=
  if level.any fun n => decide (n ≤ depth) then ['#'] else opening ++ (contents ++ closing)

/-- What follows the elements of a tuple: a comma, if there is one element, and it is shown. -/
def tupleEnd (limit : Option Nat) (parts : List Text) : Text :=
  if parts.length = 1 ∧ limit ≠ some 0 then [','] else []

mutual

/-- The form of a value inside of so many containers, with limits on depth and length. -/
def abridged (level limit : Option Nat) (depth : Nat) : Value → Text
  | .list vs =>
    container level depth ['['] [']'] (curtailed limit (abridgedItems level limit (depth + 1) vs))
  | .tuple vs =>
    let parts := abridgedItems level limit (depth + 1) vs
    container level depth ['('] [')'] (curtailed limit parts ++ tupleEnd limit parts)
  | .set vs =>
    container level depth "set([".toList [']', ')']
      (curtailed limit (abridgedItems level limit (depth + 1) vs))
  | .frozenSet vs =>
    container level depth "frozenset([".toList [']', ')']
      (curtailed limit (abridgedItems level limit (depth + 1) vs))
  | .deque vs =>
    container level depth "deque([".toList [']', ')']
      (curtailed limit (abridgedItems level limit (depth + 1) vs))
  | .dict es =>
    container level depth ['{'] ['}'] (curtailed limit (abridgedEntries level limit (depth + 1) es))
  | v => written v

def abridgedItems (level limit : Option Nat) (depth : Nat) : List Value → List Text
  | [] => []
  | v :: vs => abridged level limit depth v :: abridgedItems level limit depth vs

def abridgedEntries (level limit : Option Nat) (depth : Nat) : List (Value × Value) → List Text
  | [] => []
  | (k, v) :: es =>
    (abridged level limit depth k ++ ([':', ' '] ++ abridged level limit depth v)) ::
      abridgedEntries level limit depth es

end

theorem curtailed_nil (limit : Option Nat) : curtailed limit [] = [] := by
  cases limit <;> rfl

theorem curtailed_zero (s : Text) (ss : List Text) : curtailed (some 0) (s :: ss) = ['.', '.', '.'] := by
  simp [curtailed, listed, Text.join]

theorem listed_cons (s : Text) {ss : List Text} (hss : ss ≠ []) :
    listed (s :: ss) = s ++ ([',', ' '] ++ listed ss) := by
  obtain ⟨t, ts, rfl⟩ := List.exists_cons_of_ne_nil hss
  simp [listed, Text.join]

/-- A first element that is shown. -/
theorem curtailed_cons {limit : Option Nat} (h : limit ≠ some 0) (s : Text) {ss : List Text}
    (hss : ss ≠ []) :
    curtailed limit (s :: ss) = s ++ ([',', ' '] ++ curtailed (limit.map (· - 1)) ss) := by
  cases limit with
  | none => exact listed_cons s hss
  | some k =>
    obtain ⟨k, rfl⟩ := Nat.exists_eq_succ_of_ne_zero fun hk => h (congrArg some hk)
    simp only [curtailed, Option.map_some, Nat.succ_sub_one, List.length_cons, Nat.succ_eq_add_one,
      Nat.add_lt_add_iff_right, List.take_succ_cons, List.cons_append]
    split_ifs
    · exact listed_cons s (by simp)
    · exact listed_cons s hss

theorem curtailed_singleton {limit : Option Nat} (h : limit ≠ some 0) (s : Text) :
    curtailed limit [s] = s := by
  cases limit with
  | none => simp [curtailed, listed, Text.join]
  | some k =>
    have hk : ¬k < 1 := fun hk => h (congrArg some (Nat.lt_one_iff.mp hk))
    simp [curtailed, hk, listed, Text.join]

end Value

/-- The options that limit depth and length, and are the usual ones otherwise. -/
def Options.limited (level limit : Option Nat) : Options :=
  { level := level.map Int.ofNat, length := limit.map Int.ofNat }

/-! ## Actions that write texts -/

namespace Action

/-- On an idle printer with so many blocks open, the action comes to writing the text. With so many
calls it does not fail. -/
structure Tells (a : Route → Action Unit) (depth calls : Nat) (text : Text) : Prop where
  spares : ∀ r, (a r).Spares fun e => e.isFatal = true
  said : ∀ {r p folds s}, r.folds = [] → p.Idle → p.scroll.depth = depth →
    a r ⟨.printer p, folds⟩ = .ok () s →
    ∃ q, s = ⟨.printer q, folds⟩ ∧ q.Idle ∧ q.scroll = p.scroll.write text
  ample : ∀ {r p}, r.folds = [] → calls ≤ r.room → p.Idle → p.Spacious → p.scroll.depth = depth →
    ∀ folds, ∃ s, a r ⟨.printer p, folds⟩ = .ok () s ∧ ∀ q folds', s = ⟨.printer q, folds'⟩ → q.Spacious

variable {a b : Route → Action Unit} {depth calls calls' : Nat} {t u : Text}

/-- What comes to writing a text at any depth. -/
theorem Utters.tells (ha : Utters a calls t) (hspares : ∀ r, (a r).Spares fun e => e.isFatal = true)
    (depth : Nat) : Tells a depth (calls + 9) t where
  spares := hspares
  said := by
    intro r p folds s hr hp _ hrun
    obtain ⟨-, hwrote⟩ := ha.said hp (hr ▸ List.nodup_nil) hrun
    rw [hr] at hwrote
    cases hwrote with
    | intro idle scroll => exact ⟨_, rfl, idle, scroll⟩
  ample := by
    intro r p hr hroom hp hspace _ folds
    obtain ⟨q, folds', hrun, hspace'⟩ := ha.ample hp hspace (hr ▸ List.nodup_nil)
      (by rw [hr, List.length_nil]; omega) folds
    exact ⟨_, hrun, fun q' folds'' hs => by cases hs; exact hspace'⟩

namespace Tells

theorem nothing (depth : Nat) : Tells (fun _ => pure ()) depth 9 [] :=
  Utters.nothing.tells (fun _ => .pure ()) depth

theorem write (t : Text) (depth : Nat) : Tells (fun r => Action.write r t) depth 13 t :=
  (Utters.write t).tells (fun r => .write r t) depth

/-- **One action after another.** -/
theorem bind (ha : Tells a depth calls t) (hb : Tells b depth calls' u) :
    Tells (fun r => a r >>= fun _ => b r) depth (max calls calls') (t ++ u) where
  spares r := (ha.spares r).bind fun _ => hb.spares r
  said := by
    intro r p folds s hr hp hdepth hrun
    obtain ⟨_, s₁, hrun₁, hrun₂⟩ := ok_of_bind hrun
    obtain ⟨q, rfl, hq, hscroll⟩ := ha.said hr hp hdepth hrun₁
    obtain ⟨q', rfl, hq', hscroll'⟩ := hb.said hr hq (by rw [hscroll]; exact hdepth) hrun₂
    exact ⟨q', rfl, hq', by rw [hscroll', hscroll, Scroll.write_append]⟩
  ample := by
    intro r p hr hroom hp hspace hdepth folds
    obtain ⟨s₁, hrun₁, hspace₁⟩ := ha.ample hr (by omega) hp hspace hdepth folds
    obtain ⟨q, rfl, hq, hscroll⟩ := ha.said hr hp hdepth hrun₁
    obtain ⟨s₂, hrun₂, hspace₂⟩ := hb.ample hr (by omega) hq (hspace₁ _ _ rfl)
      (by rw [hscroll]; exact hdepth) folds
    exact ⟨s₂, (bind_of_ok hrun₁).trans hrun₂, hspace₂⟩

theorem descend (hb : Tells b depth calls t) (n : Nat) :
    Tells (fun r => Action.descend r n >>= b) depth (n + calls) t where
  spares r := .descend (by rfl) n hb.spares
  said := by
    intro r p folds s hr hp hdepth hrun
    unfold Action.descend at hrun
    split_ifs at hrun with hroom
    · cases hrun
    · exact hb.said (r := { r with room := r.room - n }) hr hp hdepth hrun
  ample := by
    intro r p hr hroom hp hspace hdepth folds
    unfold Action.descend
    rw [if_neg (by omega)]
    exact hb.ample (r := { r with room := r.room - n }) hr (by dsimp only; omega) hp hspace hdepth folds

end Tells

/-! ## Blocks -/

variable {level : Option Int} {opening closing : Text} {p : Printer} {folds : Array Fold} {r : Route}

theorem begin_of_flat (hr : r.folds = []) (level : Option Int) (opening closing : Text) (s : Stream) :
    begin r opening [] closing level s = if r.room < 5 then .error .tooDeep s
      else onPrinter r.room (·.begin opening [] closing level) s := by
  unfold begin checkRoom
  rw [hr]
  simp only [List.length_nil, Nat.zero_add, Nat.sub_zero]
  split_ifs <;> rfl

/-- A limit on depth that is not reached changes nothing. -/
theorem enter_of_level (hr : r.folds = []) (hlevel : ∀ n ∈ level, (p.scroll.depth : Int) < n) :
    enter r level opening [] closing ⟨.printer p, folds⟩ =
      enter r none opening [] closing ⟨.printer p, folds⟩ := by
  have hbegin (room : Option Nat) : { p with room := room }.begin opening [] closing level =
      { p with room := room }.begin opening [] closing none := by
    have hany : (level.any fun n => decide (n ≤ (p.depth : Int))) = false := by
      rw [Option.any_eq_false]
      intro n hn
      rw [← Printer.depth_eq]
      simpa using hlevel n hn
    unfold Printer.begin
    rw [show Printer.depth { p with room := room } = p.depth from rfl, hany]
    rfl
  have hcall : begin r opening [] closing level ⟨.printer p, folds⟩ =
      begin r opening [] closing none ⟨.printer p, folds⟩ := by
    rw [begin_of_flat hr, begin_of_flat hr]
    unfold onPrinter
    simp only [hbegin]
  rw [enter_eq, enter_eq, hcall]

/-- Where the limit on depth is reached, a number sign is written. -/
theorem enter_of_refused (hr : r.folds = []) (hp : p.Idle)
    (hlevel : ∃ n ∈ level, n ≤ (p.scroll.depth : Int)) :
    enter r level opening [] closing ⟨.printer p, folds⟩ =
      if r.room < 5 then .error .tooDeep ⟨.printer p, folds⟩
      else (write r ['#'] >>= fun _ => pure false : Action Bool)
        ⟨.printer { p with room := some (r.room - layoutCalls) }, folds⟩ := by
  have hany : (level.any fun n => decide (n ≤ (p.depth : Int))) = true := by
    obtain ⟨n, rfl, hn⟩ := hlevel
    rw [Printer.depth_eq] at hn
    simpa using hn
  rw [enter_eq, begin_of_flat hr, if_neg (by simp [hp.opened])]
  split_ifs with hroom
  · rfl
  · have hbegin (room : Option Nat) : { p with room := room }.begin opening [] closing level =
        .error ⟨.levelExceeded p.depth, { p with room := room }⟩ := by
      unfold Printer.begin
      rw [show Printer.depth { p with room := room } = p.depth from rfl, hany,
        Printer.whileOpen_of_idle (hp.room room)]
      rfl
    unfold onPrinter
    simp only [hbegin, bind, EStateM.bind]
    cases write r ['#'] ⟨.printer { p with room := some (r.room - layoutCalls) }, folds⟩ <;> rfl

theorem depth_opened_eq (hp : p.Idle) (opening closing : Text) :
    (p.scroll.opened opening closing).depth = p.scroll.depth + 1 := by
  have hlength := List.length_pos_iff.mpr hp.margins_ne
  show p.scroll.margins.length + 1 - 1 = p.scroll.margins.length - 1 + 1
  omega

/-- What a block around a text leaves behind. -/
theorem exists_finish_of_write {q : Printer} (hp : p.Idle) (hq : q.Idle)
    (hscroll : q.scroll = (p.scroll.opened opening closing).write t) (hr : r.folds = [])
    (hroom : 4 ≤ r.room) (hopening : '\n' ∉ opening) (hclosing : '\n' ∉ closing)
    (folds : Array Fold) :
    ∃ q', finish r ⟨.printer q, folds⟩ = .ok () ⟨.printer q', folds⟩ ∧ q'.Idle ∧
      q'.room = some (r.room - layoutCalls) ∧
      q'.scroll = p.scroll.write (opening ++ (t ++ closing)) := by
  obtain ⟨q', hfinish, hidle, hroom', hscroll'⟩ := exists_finish hq
    (hscroll ▸ depth_opened hp opening closing t) (r := r) (by rw [hr]; exact hroom) folds
  rw [hr] at hfinish hroom' hscroll'
  refine ⟨q', hfinish, hidle, hroom', ?_⟩
  have hlast : q.scroll.closing = closing := by
    rw [hscroll]
    rfl
  rw [hscroll', hlast, hscroll]
  exact Scroll.finish_opened _ hopening hclosing _ _

namespace Tells

/-- **A block around a text**, where the limit on depth is not reached. -/
theorem within (ha : Tells a (depth + 1) calls t) (hlevel : ∀ n ∈ level, (depth : Int) < n)
    (hopening : '\n' ∉ opening) (hclosing : '\n' ∉ closing) :
    Tells (fun r => Action.within r level opening [] closing (a r)) depth (max calls 9)
      (opening ++ (t ++ closing)) where
  spares r := (ha.spares r).within
  said := by
    intro r p folds s hr hp hdepth hrun
    rw [within_eq, enter_of_level hr (hdepth ▸ hlevel), ← within_eq] at hrun
    obtain ⟨s₁, s₂, henter, hbody, hfinish⟩ := of_within hp (ha.spares r) hrun
    obtain ⟨q₁, hq₁, hidle₁, -, hscroll₁⟩ := exists_enter hp (room_of_enter hp henter) opening closing folds
    rw [hr] at hscroll₁ hq₁
    cases henter.symm.trans hq₁
    obtain ⟨q₂, rfl, hidle₂, hscroll₂⟩ := ha.said hr hidle₁
      (by rw [hscroll₁, ← hdepth]; exact depth_opened_eq hp _ _) hbody
    rw [hscroll₁] at hscroll₂
    have hroom := room_of_finish hfinish
    rw [hr] at hroom
    obtain ⟨q, hq, hidle, -, hscroll⟩ := exists_finish_of_write hp hidle₂ hscroll₂ hr
      (Nat.le_trans (Nat.le_add_left _ _) hroom) hopening hclosing _
    cases hfinish.symm.trans hq
    exact ⟨q, rfl, hidle, hscroll⟩
  ample := by
    intro r p hr hroom hp hspace hdepth folds
    have hcalls : layoutCalls < r.room := by
      unfold layoutCalls
      omega
    obtain ⟨q₁, hq₁, hidle₁, hroom₁, hscroll₁⟩ := exists_enter (r := r) hp
      (by rw [hr, List.length_nil]; omega) opening closing folds
    rw [hr] at hq₁ hroom₁ hscroll₁
    have hdepth₁ : q₁.scroll.depth = depth + 1 := by
      rw [hscroll₁, ← hdepth]
      exact depth_opened_eq hp _ _
    obtain ⟨s₂, hbody, -⟩ := ha.ample hr (by omega) hidle₁ (spacious_of_room hroom₁ hcalls) hdepth₁ folds
    obtain ⟨q₂, rfl, hidle₂, hscroll₂⟩ := ha.said hr hidle₁ hdepth₁ hbody
    rw [hscroll₁] at hscroll₂
    obtain ⟨q, hq, hidle, hroom', hscroll⟩ := exists_finish_of_write hp hidle₂ hscroll₂ hr
      (by omega) hopening hclosing folds
    refine ⟨⟨.printer q, folds⟩, ?_, fun q' folds' hs => ?_⟩
    · rw [within_eq, enter_of_level hr (hdepth ▸ hlevel), ← within_eq]
      exact within_of hq₁ hbody hq
    · cases hs
      exact spacious_of_room hroom' hcalls

/-- Where the limit on depth is reached, there is a number sign in its place. -/
theorem refused (hspares : ∀ r, (a r).Spares fun e => e.isFatal = true)
    (hlevel : ∃ n ∈ level, n ≤ (depth : Int)) :
    Tells (fun r => Action.within r level opening [] closing (a r)) depth 13 ['#'] where
  spares r := (hspares r).within
  said := by
    intro r p folds s hr hp hdepth hrun
    rw [within_eq, enter_of_refused hr hp (hdepth ▸ hlevel)] at hrun
    split_ifs at hrun with hroom
    cases hwrite : Action.write r ['#'] ⟨.printer { p with room := some (r.room - layoutCalls) }, folds⟩ with
    | error e s' =>
      simp only [Bind.bind, EStateM.bind, hwrite] at hrun
      cases hrun
    | ok _ s' =>
      rw [bind_of_ok hwrite] at hrun
      cases hrun
      obtain ⟨q, hq, hidle, hscroll⟩ := (Tells.write ['#'] depth).said hr (hp.room _)
        ((Printer.scroll_room _ _).symm ▸ hdepth) hwrite
      exact ⟨q, hq, hidle, by rw [hscroll, Printer.scroll_room]⟩
  ample := by
    intro r p hr hroom hp hspace hdepth folds
    have hcalls : layoutCalls < r.room := by
      unfold layoutCalls
      omega
    obtain ⟨s, hwrite, hspace'⟩ := (Tells.write ['#'] depth).ample hr hroom
      (hp.room (some (r.room - layoutCalls))) (spacious_of_room rfl hcalls)
      ((Printer.scroll_room _ _).symm ▸ hdepth) folds
    refine ⟨s, ?_, hspace'⟩
    rw [within_eq, enter_of_refused hr hp (hdepth ▸ hlevel), if_neg (by omega), bind_of_ok hwrite]
    rfl

end Tells

/-- The action comes to writing the text, given calls enough. -/
def Says (a : Route → Action Unit) (depth : Nat) (text : Text) : Prop := ∃ calls, Tells a depth calls text

namespace Says

theorem nothing (depth : Nat) : Says (fun _ => pure ()) depth [] := ⟨_, .nothing depth⟩

theorem write (t : Text) (depth : Nat) : Says (fun r => Action.write r t) depth t := ⟨_, .write t depth⟩

theorem bind (ha : Says a depth t) (hb : Says b depth u) :
    Says (fun r => a r >>= fun _ => b r) depth (t ++ u) := by
  obtain ⟨calls, ha⟩ := ha
  obtain ⟨calls', hb⟩ := hb
  exact ⟨_, ha.bind hb⟩

theorem descend (hb : Says b depth t) (n : Nat) :
    Says (fun r => Action.descend r n >>= b) depth t := by
  obtain ⟨calls, hb⟩ := hb
  exact ⟨_, hb.descend n⟩

/-- **A container.** -/
theorem container {level limit : Option Nat} (ha : Says a (depth + 1) t) (hopening : '\n' ∉ opening)
    (hclosing : '\n' ∉ closing) :
    Says (fun r => Action.within r (Options.limited level limit).level opening [] closing (a r)) depth
      (Value.container level depth opening closing t) := by
  obtain ⟨calls, ha⟩ := ha
  unfold Value.container
  cases level with
  | none => exact ⟨_, ha.within (by simp [Options.limited]) hopening hclosing⟩
  | some n =>
    simp only [Option.any_some, decide_eq_true_eq]
    split_ifs with hn
    · exact ⟨_, .refused ha.spares ⟨n, rfl, Int.ofNat_le.mpr hn⟩⟩
    · refine ⟨_, ha.within ?_ hopening hclosing⟩
      rintro _ ⟨rfl⟩
      exact Int.ofNat_lt.mpr (Nat.not_le.mp hn)

end Says

/-! ## Values -/

section

variable (level limit : Option Nat)

theorem reachesLength_limited (i : Nat) :
    reachesLength (.limited level limit) i = true ↔ limit = some i := by
  cases limit with
  | none => simp [reachesLength, Options.limited]
  | some k =>
    simp only [reachesLength, Options.limited, Option.map_some, beq_iff_eq, Option.some.injEq]
    exact Int.ofNat_inj

theorem printSeparator_limited (r : Route) :
    printSeparator r (.limited level limit) = write r [',', ' '] := by
  unfold printSeparator
  exact bind_pure_unit

end

open Value (abridged abridgedItems abridgedEntries curtailed curtailed_nil curtailed_zero curtailed_cons
  curtailed_singleton tupleEnd)

variable {level limit left : Option Nat} {i : Nat}

theorem reachesLength_of_left (hleft : left.map (· + i) = limit) :
    reachesLength (.limited level limit) i = true ↔ left = some 0 := by
  rw [reachesLength_limited, ← hleft]
  cases left <;> simp

/-- One element less is left. -/
theorem left_step (hleft : left.map (· + i) = limit) (hne : left ≠ some 0) :
    (left.map (· - 1)).map (· + (i + 1)) = limit := by
  rw [← hleft]
  cases left with
  | none => rfl
  | some k =>
    have hk : k ≠ 0 := fun hk => hne (congrArg some hk)
    simp only [Option.map_some, Option.some.injEq]
    omega

theorem abridgedItems_ne {depth : Nat} {vs : List Value} (h : vs ≠ []) :
    abridgedItems level limit depth vs ≠ [] := by
  obtain ⟨v, vs, rfl⟩ := List.exists_cons_of_ne_nil h
  exact List.cons_ne_nil _ _

theorem abridgedEntries_ne {depth : Nat} {es : List (Value × Value)} (h : es ≠ []) :
    abridgedEntries level limit depth es ≠ [] := by
  obtain ⟨e, es, rfl⟩ := List.exists_cons_of_ne_nil h
  exact List.cons_ne_nil _ _

/-- **A separator, and the elements behind it.** -/
theorem Says.separated {b : Route → Action Unit} (hb : Says b depth u) :
    Says (fun r => printSeparator r (.limited level limit) >>= fun _ => b r) depth ([',', ' '] ++ u) := by
  simp only [printSeparator_limited]
  exact (Says.write _ _).bind hb

mutual

/-- **To print a value** is to write its abridged form. -/
theorem says_print (depth : Nat) (v : Value) :
    Says (fun r => print r (.limited level limit) v) depth (v.abridged level limit depth) := by
  unfold print
  refine .descend ?_ _
  match v with
  | .text s => exact .write _ _
  | .int n =>
    simp only [integerText_eq (o := .limited level limit) rfl rfl]
    exact .write _ _
  | .list vs => exact .container (says_printItems (depth + 1) (by simp) vs) (by decide) (by decide)
  | .set vs => exact .container (says_printItems (depth + 1) (by simp) vs) (by decide) (by decide)
  | .frozenSet vs => exact .container (says_printItems (depth + 1) (by simp) vs) (by decide) (by decide)
  | .deque vs => exact .container (says_printItems (depth + 1) (by simp) vs) (by decide) (by decide)
  | .tuple vs => exact .container (says_printTuple (depth + 1) vs) (by decide) (by decide)
  | .dict es => exact .container (says_printEntries (depth + 1) (by simp) es) (by decide) (by decide)
  | .layoutObject written shown layout vs => exact .write _ _
  | .nothing | .bool _ | .float _ | .decimal _ | .fraction _ | .complex .. | .bytes _ | .control _
  | .object .. => exact .write _ _

theorem says_printItems (depth : Nat) {left : Option Nat} {i : Nat} (hleft : left.map (· + i) = limit)
    (vs : List Value) :
    Says (fun r => printItems r (.limited level limit) i vs) depth
      (curtailed left (abridgedItems level limit depth vs)) := by
  unfold printItems
  match vs with
  | [] =>
    rw [abridgedItems, curtailed_nil]
    exact .nothing _
  | v :: vs =>
    rw [abridgedItems]
    split_ifs with hreach
    · rw [(reachesLength_of_left hleft).mp hreach, curtailed_zero]
      exact .write _ _
    · have hne := (reachesLength_of_left hleft).not.mp hreach
      by_cases hvs : vs = []
      · subst hvs
        rw [abridgedItems, curtailed_singleton hne]
        simpa [bind_pure_unit] using says_print depth v
      · rw [curtailed_cons hne _ (abridgedItems_ne hvs)]
        simpa [hvs] using (says_print depth v).bind
          (.separated (says_printItems depth (left_step hleft hne) vs))

theorem says_printTuple (depth : Nat) (vs : List Value) :
    Says (fun r => printTuple r (.limited level limit) vs) depth
      (curtailed limit (abridgedItems level limit depth vs) ++
        tupleEnd limit (abridgedItems level limit depth vs)) := by
  unfold printTuple
  match vs with
  | [] =>
    rw [abridgedItems, curtailed_nil]
    exact .nothing _
  | v :: vs =>
    have hpretty : (Options.limited level limit).pretty = false := rfl
    simp only [abridgedItems, hpretty, Bool.false_eq_true, if_false]
    by_cases hreach : reachesLength (.limited level limit) 0 = true
    · simp only [hreach, if_true]
      rw [(reachesLength_limited level limit 0).mp hreach, curtailed_zero, tupleEnd, if_neg (by simp)]
      exact .write _ _
    · simp only [hreach]
      have hne := (reachesLength_limited level limit 0).not.mp hreach
      have hcomma := (says_print depth v).bind (.write [','] depth)
      by_cases hvs : vs = []
      · subst hvs
        rw [abridgedItems, curtailed_singleton hne, tupleEnd, if_pos ⟨rfl, hne⟩]
        simpa [bind_pure_unit] using hcomma
      · have hend : tupleEnd limit (v.abridged level limit depth ::
            abridgedItems level limit depth vs) = [] := by
          simp [tupleEnd, abridgedItems_ne hvs]
        have hrest := says_printItems depth (left_step (i := 0) (by simp) hne) vs
        rw [hend, curtailed_cons hne _ (abridgedItems_ne hvs), List.append_nil]
        simpa [hvs] using (says_print depth v).bind
          ((Says.write [','] depth).bind ((Says.write [' '] depth).bind hrest))

theorem says_printEntries (depth : Nat) {left : Option Nat} {i : Nat} (hleft : left.map (· + i) = limit)
    (es : List (Value × Value)) :
    Says (fun r => printEntries r (.limited level limit) i es) depth
      (curtailed left (abridgedEntries level limit depth es)) := by
  unfold printEntries
  match es with
  | [] =>
    rw [abridgedEntries, curtailed_nil]
    exact .nothing _
  | (k, v) :: es =>
    rw [abridgedEntries]
    split_ifs with hreach
    · rw [(reachesLength_of_left hleft).mp hreach, curtailed_zero]
      exact .write _ _
    · have hne := (reachesLength_of_left hleft).not.mp hreach
      by_cases hes : es = []
      · subst hes
        rw [abridgedEntries, curtailed_singleton hne]
        simpa [bind_pure_unit] using
          (says_print depth k).bind ((Says.write [':', ' '] depth).bind (says_print depth v))
      · rw [curtailed_cons hne _ (abridgedEntries_ne hes), List.append_assoc, List.append_assoc]
        simpa [hes] using (says_print depth k).bind ((Says.write [':', ' '] depth).bind
          ((says_print depth v).bind
            (.separated (says_printEntries depth (left_step hleft hne) es))))

end

/-! ## The printed form -/

/-- The text that is printed to a new printer. -/
theorem Tells.toText_eq {o : Options} {v : Value} {room : Nat}
    (h : Tells (fun r => print r o v) 0 calls t) :
    (∀ u, v.toText room o = .ok u → u = t) ∧ (calls + 2 ≤ room → v.toText room o = .ok t) := by
  obtain ⟨p, hp, hidle, hspace, heq⟩ := exists_toText_eq v room o
  have hdepth : p.scroll.depth = 0 := by
    cases hp
    rfl
  have hwrote : ∀ q : Printer, q.Idle → q.scroll = p.scroll.write t →
      Stream.Wrote [] t ⟨.printer p, #[]⟩ ⟨.printer q, #[]⟩ := fun _ hq hscroll =>
    .intro hq hscroll
  rw [heq]
  constructor
  · intro u hu
    cases hrun : print { room := room - 2 } o v ⟨.printer p, #[]⟩ with
    | error e s =>
      rw [hrun] at hu
      cases hu
    | ok _ s =>
      obtain ⟨q, rfl, hq, hscroll⟩ := h.said (r := { room := room - 2 }) rfl hidle hdepth hrun
      rw [hrun] at hu
      rw [eq_of_flushedOutput hq hu]
      exact (output_of_wrote hp (hwrote q hq hscroll)).2
  · intro hroom
    obtain ⟨s, hrun, hspace'⟩ := h.ample (r := { room := room - 2 }) rfl (by dsimp only; omega) hidle hspace
      hdepth #[]
    obtain ⟨q, rfl, hq, hscroll⟩ := h.said (r := { room := room - 2 }) rfl hidle hdepth hrun
    rw [hrun]
    dsimp only
    rw [flushedOutput_of_idle hq (hspace' _ _ rfl), (output_of_wrote hp (hwrote q hq hscroll)).2]

end Action

namespace Value

/-- **Limits on depth and length cut values short** as the abridged form says, and do nothing else. -/
theorem toText_limited (level limit : Option Nat) (v : Value) :
    ∃ calls, ∀ room,
      (∀ t, v.toText room (.limited level limit) = .ok t → t = v.abridged level limit 0) ∧
      (calls ≤ room → v.toText room (.limited level limit) = .ok (v.abridged level limit 0)) := by
  obtain ⟨calls, htells⟩ : Action.Says (fun r => Action.print r (.limited level limit) v) 0
      (v.abridged level limit 0) := Action.says_print 0 v
  exact ⟨calls + 2, fun room => htells.toText_eq⟩

theorem toText_limited_tuple :
    ∃ calls, ∀ room, calls ≤ room →
      Value.toText (.tuple [.tuple [.int 1], .dict [(.text ['a'], .list [.list [], .int 2])], .int 3]) room
        (.limited (some 3) (some 2)) = .ok "((1,), \x7b'a': [#, 2]\x7d, ...)".toList := by
  obtain ⟨calls, hall⟩ := toText_limited (some 3) (some 2)
    (.tuple [.tuple [.int 1], .dict [(.text ['a'], .list [.list [], .int 2])], .int 3])
  refine ⟨calls, fun room hroom => ((hall room).2 hroom).trans (congrArg Except.ok ?_)⟩
  decide +kernel

example : abridged none (some 0) 0 (.tuple [.int 1]) = "(...)".toList := by decide +kernel

end Value

end Tilde
