import Tilde.Proofs.Print.Uttered
import Tilde.Proofs.Run.Mirrored
import Tilde.Proofs.Run.Portable

/-!
# What is done to a stream beside another

If the operations of one kind of stream are mirrored on another kind, then so is what directives make
out of them: printing a value, a field for a number, a text that is rendered on a stream of its own.

* `Mirroring`: what has to be known of the streams and of the routes to them;
* **`Mirroring.print`**, `Mirroring.toText`: values;
* `Mirroring.numberValue`: fields for numbers.
-/

namespace Tilde

open Tilde.Action (Mirrored Leads)

/-- How streams stand beside each other, be they pretty printers or not, and the routes to them, from
before a call and from behind one; a number may bound the folds that these pass. If streams are not
beside each other any more after a conditional newline, there are to be no `newlines`. -/
structure Mirroring (S : Bool → Nat → Stream → Stream → Prop) (V W : Nat → Route → Route → Prop)
    (newlines : Prop) : Prop where
  unharmed : ∀ {lays k s t}, S lays k s t → s.Unharmed
  front : ∀ {lays k s t}, S lays k s t → t.device.front = s.device.front
  plain : ∀ {lays k s t}, S lays k s t → newlines ∨ s.device.options.Plain
  newFold : ∀ {lays k s t r r'}, S lays k s t → W k r r' → ∀ mode, ∃ i k' s' t',
    Action.newFold mode s = .ok i s' ∧ Action.newFold mode t = .ok i t' ∧
      V k' { r with folds := i :: r.folds } { r' with folds := i :: r'.folds } ∧
      S lays k' s' t' ∧ ∀ s t, S lays k' s t → S lays k s t
  -- routes
  relax : ∀ {k r r'}, W k r r' → V k r r'
  descend : ∀ {k r r' calls}, V k r r' → 2 ≤ calls → calls ≤ r.room → calls ≤ r'.room ∧
    W k { r with room := r.room - calls } { r' with room := r'.room - calls }
  fresh : ∀ {k r r'}, W k r r' → V 0 { room := r.room - 2 } { room := r'.room - 2 }
  spare : ∀ {k r r'}, W k r r' → r.folds.length + 2 ≤ r.room → r'.folds.length + 2 ≤ r'.room
  -- operations
  writeValue : ∀ {lays k r r'}, W k r r' → ∀ v,
    Mirrored (S lays k) Eq (Action.writeValue r v) (Action.writeValue r' v)
  endLine : ∀ {lays k r r'}, W k r r' → Mirrored (S lays k) Eq (Action.endLine r) (Action.endLine r')
  newline : ∀ {lays k r r'}, newlines → W k r r' → ∀ kind,
    Mirrored (S lays k) Eq (Action.newline r kind) (Action.newline r' kind)
  indent : ∀ {lays k r r'}, W k r r' → ∀ offset relative,
    Mirrored (S lays k) Eq (Action.indent r offset relative) (Action.indent r' offset relative)
  enter : ∀ {lays k r r' level}, W k r r' → newlines ∨ level = none → ∀ opening perLine closing,
    Mirrored (S lays k) Eq (Action.enter r level opening perLine closing)
      (Action.enter r' level opening perLine closing)
  finish : ∀ {lays k r r'}, W k r r' → Mirrored (S lays k) Eq (Action.finish r) (Action.finish r')
  blockStart : ∀ {lays k}, Mirrored (S lays k) Eq Action.blockStart Action.blockStart
  -- streams of their own
  printer : ∀ {o p}, newlines ∨ o.Plain → Printer.create o none 0 = .ok p →
    S true 0 { device := .printer p } { device := .printer p }
  column : ∀ {o}, newlines ∨ o.Plain →
    S false 0 { device := .column { maxColumn := o.rightMargin, options := o } }
      { device := .column { maxColumn := o.rightMargin, options := o } }
  flushed : ∀ {lays k s t}, S lays k s t → Leads Eq s.flushedOutput t.flushedOutput

namespace Mirroring

variable {S : Bool → Nat → Stream → Stream → Prop} {V W : Nat → Route → Route → Prop} {newlines : Prop}
  (M : Mirroring S V W newlines)

include M

variable {lays : Bool} {k : Nat} {r r' : Route} {α β : Type} {Q : α → β → Prop} {o : Options}

/-! ## Operations -/

theorem lift {x : Except Fault α} {y : Except Fault β} (h : Leads Q x y) :
    Mirrored (S lays k) Q (Action.lift x) (Action.lift y) := .lift (fun _ _ => M.unharmed) h

theorem fatal {e : Fault} (he : e.isFatal = true) {b : Action β} :
    Mirrored (S lays k) Q (throw e) b := .fatal (fun _ _ => M.unharmed) he

theorem write (hr : W k r r') (text : Text) :
    Mirrored (S lays k) Eq (Action.write r text) (Action.write r' text) := M.writeValue hr (.text text)

theorem look {f : Device → Action α} {g : Device → Action β}
    (h : ∀ d, Mirrored (S lays k) Q (f d) (g d)) (hfront : ∀ d, g d = g (.column d.front)) :
    Mirrored (S lays k) Q (Action.device >>= f) (Action.device >>= g) := by
  intro s t hs
  show Action.Followed (S lays k) Q (f s.device s) (g t.device t)
  rw [hfront t.device, M.front hs, ← hfront]
  exact h s.device s t hs

theorem options {f : Options → Action α} {g : Options → Action β}
    (h : ∀ o, newlines ∨ o.Plain → Mirrored (S lays k) Q (f o) (g o)) :
    Mirrored (S lays k) Q (Action.currentOptions >>= f) (Action.currentOptions >>= g) := by
  intro s t hs
  have hoptions : t.device.options = s.device.options := congrArg Column.options (M.front hs)
  show Action.Followed (S lays k) Q (f s.device.options s) (g t.device.options t)
  rw [hoptions]
  exact h _ (M.plain hs) s t hs

theorem checkRoom (hr : W k r r') :
    Mirrored (S lays k) Eq (Action.checkRoom r 2) (Action.checkRoom r' 2) := by
  unfold Action.checkRoom
  by_cases hroom : r.room < r.folds.length + 2
  · rw [if_pos hroom]
    exact M.fatal rfl
  · rw [if_neg hroom, if_neg (Nat.not_lt.mpr (M.spare hr (Nat.not_lt.mp hroom)))]
    exact .pure rfl

theorem descend_bind {calls : Nat} {f : Route → Action α} {g : Route → Action β} (hr : V k r r')
    (hcalls : 2 ≤ calls) (h : ∀ r r', W k r r' → Mirrored (S lays k) Q (f r) (g r')) :
    Mirrored (S lays k) Q (Action.descend r calls >>= f) (Action.descend r' calls >>= g) := by
  unfold Action.descend
  by_cases hroom : r.room < calls
  · rw [if_pos hroom]
    exact (M.fatal (Q := W k) rfl).bind h
  · obtain ⟨hroom', hinside⟩ := M.descend hr hcalls (Nat.not_lt.mp hroom)
    rw [if_neg hroom, if_neg (Nat.not_lt.mpr hroom')]
    exact h _ _ hinside

theorem freshLine (hr : W k r r') :
    Mirrored (S lays k) Eq (Action.freshLine r) (Action.freshLine r') := by
  refine (M.checkRoom hr).bind_eq fun _ => M.look (fun d => ?_) fun _ => rfl
  split_ifs
  · exact (M.endLine hr).bind_eq fun _ => .pure rfl
  · exact .pure rfl

theorem endLines (hr : W k r r') (n : Nat) :
    Mirrored (S lays k) Eq (Action.endLines r n) (Action.endLines r' n) := by
  induction n with
  | zero => exact .pure rfl
  | succ n ih => exact (M.endLine hr).bind_eq fun _ => ih

theorem within (hr : W k r r') {level : Option Int} (hlevel : newlines ∨ level = none)
    {opening perLine closing : Text} {a b : Action Unit} (hab : Mirrored (S lays k) Eq a b) :
    Mirrored (S lays k) Eq (Action.within r level opening perLine closing a)
      (Action.within r' level opening perLine closing b) :=
  .within (M.enter hr hlevel opening perLine closing) (M.finish hr) hab

/-! ## Values -/

omit M in
theorem newlines_of_pretty (ho : newlines ∨ o.Plain) (hpretty : o.pretty = true) : newlines :=
  ho.resolve_right fun hplain => Bool.noConfusion (hplain.1.symm.trans hpretty)

theorem newlineIf (hr : W k r r') (ho : newlines ∨ o.Plain) (kind : NewlineKind) :
    Mirrored (S lays k) Eq (if o.pretty then Action.newline r kind else pure ())
      (if o.pretty then Action.newline r' kind else pure ()) := by
  split_ifs with hpretty
  · exact M.newline (newlines_of_pretty ho hpretty) hr kind
  · exact .pure rfl

theorem printSeparator (hr : W k r r') (ho : newlines ∨ o.Plain) :
    Mirrored (S lays k) Eq (Action.printSeparator r o) (Action.printSeparator r' o) :=
  (M.write hr _).bind_eq fun _ => M.newlineIf hr ho .fill

mutual

/-- **Printing a value** is mirrored. -/
theorem print {r r' : Route} (hr : V k r r') (ho : newlines ∨ o.Plain) (v : Value) :
    Mirrored (S lays k) Eq (Action.print r o v) (Action.print r' o v) := by
  have hlevel : newlines ∨ o.level = none := ho.imp_right And.right
  have hcalls : 2 ≤ Action.printCalls o v := by
    unfold Action.printCalls
    split <;> omega
  unfold Action.print
  refine M.descend_bind hr hcalls fun r r' hr => ?_
  match v with
  | .text s =>
    dsimp only
    cases o.enclosure <;> exact M.write hr _
  | .int n => exact (M.lift (.refl _)).bind_eq fun s => M.write hr s
  | .list vs => exact M.within hr hlevel (printItems hr ho 0 vs)
  | .set vs => exact M.within hr hlevel (printItems hr ho 0 vs)
  | .frozenSet vs => exact M.within hr hlevel (printItems hr ho 0 vs)
  | .deque vs => exact M.within hr hlevel (printItems hr ho 0 vs)
  | .tuple vs => exact M.within hr hlevel (printTuple hr ho vs)
  | .dict es => exact M.within hr hlevel (printEntries hr ho 0 es)
  | .layoutObject written shown layout vs =>
    dsimp only
    split_ifs with hpretty
    · exact M.within hr hlevel (printLayout hr (newlines_of_pretty ho hpretty) _ 0 vs)
    · exact M.write hr _
    · exact M.write hr _
  | .nothing | .bool _ | .float _ | .decimal _ | .fraction _ | .complex .. | .bytes _ | .control _
  | .object .. => exact M.write hr _

theorem printItems {r r' : Route} (hr : W k r r') (ho : newlines ∨ o.Plain) (i : Nat) (vs : List Value) :
    Mirrored (S lays k) Eq (Action.printItems r o i vs) (Action.printItems r' o i vs) := by
  unfold Action.printItems
  match vs with
  | [] => exact .pure rfl
  | v :: vs =>
    dsimp only
    split_ifs
    · exact M.write hr _
    · refine (print (M.relax hr) ho v).bind_eq fun _ => ?_
      exact (M.printSeparator hr ho).bind_eq fun _ => printItems hr ho (i + 1) vs
    · exact (print (M.relax hr) ho v).bind_eq fun _ => .pure rfl

theorem printTuple {r r' : Route} (hr : W k r r') (ho : newlines ∨ o.Plain) (vs : List Value) :
    Mirrored (S lays k) Eq (Action.printTuple r o vs) (Action.printTuple r' o vs) := by
  unfold Action.printTuple
  match vs with
  | [] => exact .pure rfl
  | v :: vs =>
    have hfirst := print (M.relax hr) ho v
    dsimp only
    split_ifs with _ _ hpretty
    · exact M.write hr _
    · refine hfirst.bind_eq fun _ => (M.write hr _).bind_eq fun _ => (M.write hr _).bind_eq fun _ => ?_
      refine (M.newline (newlines_of_pretty ho hpretty) hr .fill).bind_eq fun _ => ?_
      exact printItems hr ho 1 vs
    · refine hfirst.bind_eq fun _ => (M.write hr _).bind_eq fun _ => (M.write hr _).bind_eq fun _ => ?_
      exact printItems hr ho 1 vs
    · exact hfirst.bind_eq fun _ => (M.write hr _).bind_eq fun _ => .pure rfl

theorem printEntries {r r' : Route} (hr : W k r r') (ho : newlines ∨ o.Plain) (i : Nat)
    (es : List (Value × Value)) :
    Mirrored (S lays k) Eq (Action.printEntries r o i es) (Action.printEntries r' o i es) := by
  unfold Action.printEntries
  match es with
  | [] => exact .pure rfl
  | (key, v) :: es =>
    dsimp only
    split_ifs
    · exact M.write hr _
    · refine (print (M.relax hr) ho key).bind_eq fun _ => (M.write hr _).bind_eq fun _ => ?_
      refine (print (M.relax hr) ho v).bind_eq fun _ => ?_
      exact (M.printSeparator hr ho).bind_eq fun _ => printEntries hr ho (i + 1) es
    · refine (print (M.relax hr) ho key).bind_eq fun _ => (M.write hr _).bind_eq fun _ => ?_
      exact (print (M.relax hr) ho v).bind_eq fun _ => .pure rfl

theorem printLayout {r r' : Route} (hr : W k r r') (hnewlines : newlines) (kind : NewlineKind) (i : Nat)
    (vs : List Value) :
    Mirrored (S lays k) Eq (Action.printLayout r o kind i vs) (Action.printLayout r' o kind i vs) := by
  unfold Action.printLayout
  match vs with
  | [] => exact .pure rfl
  | v :: vs =>
    dsimp only
    split_ifs
    · exact M.write hr _
    · refine (print (M.relax hr) (.inl hnewlines) v).bind_eq fun _ => ?_
      refine (M.write hr _).bind_eq fun _ => (M.newline hnewlines hr kind).bind_eq fun _ => ?_
      exact printLayout hr hnewlines kind (i + 1) vs
    · exact (print (M.relax hr) (.inl hnewlines) v).bind_eq fun _ => .pure rfl

end

/-! ## Texts of their own -/

/-- What runs on a stream of its own ends alike, with the same text on it. -/
theorem flushed_of_mirrored {a : Action α} {b : Action β} {s : Stream} (hab : Mirrored (S lays 0) Q a b)
    (hs : S lays 0 s s) : match a s, b s with
      | .ok x s, .ok y t => Q x y ∧ Leads Eq s.flushedOutput t.flushedOutput
      | .ok .., .error .. => False
      | .error e _, .ok .. => e.isFatal = true
      | .error e _, .error e' _ => e.isFatal = true ∨ e' = e := by
  have h := hab s s hs
  cases hrun : a s with
  | ok x s₁ =>
    cases hrun' : b s <;> rw [hrun, hrun'] at h
    · exact And.intro h.1 (M.flushed h.2)
    · exact h
  | error e s₁ =>
    rw [hrun] at h
    obtain ⟨he, -⟩ | ⟨t, ht, -⟩ := h
    · cases hrun' : b s
      · exact he
      · exact .inl he
    · rw [ht]
      exact .inr rfl

/-- **The printed form of a value** is the same. -/
theorem toText (hr : W k r r') (ho : newlines ∨ o.Plain) (v : Value) :
    Leads Eq (v.toText r.room o) (v.toText r'.room o) := by
  obtain ⟨p, hp⟩ : ∃ p, Printer.create o none 0 = .ok p := ⟨_, rfl⟩
  have h := M.flushed_of_mirrored (M.print (M.fresh hr) ho v) (M.printer ho hp)
  unfold Value.toText
  rw [hp]
  simp only [bind, Except.bind, Action.perform]
  split at h <;> rename_i hrun hrun' <;> rw [hrun, hrun']
  · exact h.2
  · exact h.elim
  · exact .inl h
  · exact h.imp_right fun he => congrArg Except.error he

/-! ## Fields for numbers -/

theorem unrealText (hr : W k r r') (ho : newlines ∨ o.Plain) (width v : Value) :
    Leads Eq (Tilde.unrealText width r.room o v) (Tilde.unrealText width r'.room o v) :=
  (M.toText hr (o := { o with base := 10, escape := false }) ho v).bind_eq fun _ => .refl _

theorem integerField (hr : W k r r') (ho : newlines ∨ o.Plain) (s : IntegerSettings)
    (v radix : Value) :
    Leads Eq (Tilde.integerField s r.room o v radix) (Tilde.integerField s r'.room o v radix) := by
  unfold Tilde.integerField
  split
  · exact .refl _
  · exact (M.toText hr (o := { o with base := 10, showRadix := false, escape := false }) ho v).bind_eq
      fun _ => .refl _

/-- **What a number directive writes** is the same. -/
theorem numberValue (hr : W k r r') (ho : newlines ∨ o.Plain) (kind : Atom) (head : Head)
    (s : List Value) (v : Value) :
    Leads Eq (Tilde.numberValue kind head s r.room o v) (Tilde.numberValue kind head s r'.room o v) := by
  have hinteger (i : Nat) (radix : Value) :=
    (M.integerField hr ho (integerSettings head s i) v radix).map Value.text
  have hreal (field : Except Fault Value) (width : Value) :
      Leads Eq (if v.isReal then field else .text <$> Tilde.unrealText width r.room o v)
        (if v.isReal then field else .text <$> Tilde.unrealText width r'.room o v) := by
    split_ifs
    · exact .refl _
    · exact (M.unrealText hr ho width v).map Value.text
  have hradix : Leads Eq (radixText head s r.room o v) (radixText head s r'.room o v) := by
    unfold radixText
    split
    · exact .refl _
    · exact M.integerField hr ho _ v _
  cases kind with
  | radix => exact hradix.map Value.text
  | monetary | fixed | exponential | general => exact hreal _ _
  | _ => exact hinteger 0 _

end Mirroring

end Tilde
