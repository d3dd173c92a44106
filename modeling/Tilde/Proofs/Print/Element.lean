import Tilde.Print
import Tilde.Proofs.Layout.Safe
import Tilde.Proofs.Print.Margin

/-!
# Actions that print elements

An action prints elements if it takes strokes that do so, one part of a text after the other, or
fails, but never because a list has run out (`Prints`). **`prints_within`**: so does a block around
such an action.

* `prints_bind`: actions in sequence.
-/

namespace Tilde

/-! ## Series of strokes -/

/-- A series of strokes in the printing of elements. -/
inductive Phase.Steps : Phase → List Stroke → Phase → Prop
  | nil (φ : Phase) : Steps φ [] φ
  | cons {φ ψ χ : Phase} {s : Stroke} {ss : List Stroke} (first : Step φ s ψ) (rest : Steps ψ ss χ) :
    Steps φ (s :: ss) χ

theorem Phase.Steps.append {φ ψ χ : Phase} {ss ss' : List Stroke} (h : Steps φ ss ψ)
    (h' : Steps ψ ss' χ) : Steps φ (ss ++ ss') χ := by
  induction h with
  | nil φ => exact h'
  | cons first rest ih => exact .cons first (ih h')

namespace Printer

/-- An operation that is a single stroke, or is refused. An open printer refuses only strokes that
are not allowed or do harm. -/
def Strikes (p : Printer) (s : Stroke) (x : Except Stop Printer) : Prop :=
  match x with
  | .ok q => q = p.stroke s ∧ p.Allows s ∧ q.stopped = none
  | .error stop => stop.fault.isFatal = true ∧ stop.printer.stopped = none ∧
      (p.closed = false → p.Allows s → (p.stroke s).stopped ≠ none)

theorem strikes_conclude {p : Printer} {s : Stroke} (hp : p.stopped = none) (allowed : p.Allows s) :
    Strikes p s (p.stroke s).conclude := by
  cases hs : (p.stroke s).stopped with
  | none =>
    rw [conclude, hs]
    exact ⟨rfl, allowed, hs⟩
  | some fault =>
    obtain ⟨e, state⟩ := fault
    rw [conclude, hs]
    refine ⟨?_, rfl, fun _ _ => by simp [hs]⟩
    obtain ⟨p', hgrows, hframe, -⟩ := (takes_stroke p s).frame
    rcases hframe.fault e state hs with h | h
    · have hp' : p'.stopped = p.stopped := by
        cases s with
        | begin =>
          obtain ⟨b, -, -, -, rfl⟩ := hgrows
          rfl
        | _ => exact congrArg Printer.stopped hgrows
      rw [hp', hp] at h
      cases h
    · exact h

theorem strikes_whileOpen {p : Printer} {s : Stroke} {x : Except Stop Printer}
    (hp : p.stopped = none) (h : p.closed = false → Strikes p s x) :
    Strikes p s (do p.whileOpen; x) := by
  unfold whileOpen
  cases hclosed : p.closed with
  | true => exact ⟨rfl, hp, fun hopen => by simp [hclosed] at hopen⟩
  | false => exact h hclosed

theorem strikes_write {p : Printer} {t : Text} (hp : p.stopped = none) (ht : '\n' ∉ t) :
    Strikes p (.text t) (p.write t) := by
  refine strikes_whileOpen hp fun _ => ?_
  rw [writeLines_text ht]
  exact strikes_conclude hp trivial

theorem strikes_newline {p : Printer} (hp : p.stopped = none) (kind : NewlineKind) :
    Strikes p (.newline kind) (p.newline kind) :=
  strikes_whileOpen hp fun _ => strikes_conclude hp trivial

theorem strikes_finish {p : Printer} (hp : p.stopped = none) : Strikes p .finish p.finish := by
  refine strikes_whileOpen hp fun _ => ?_
  unfold depth
  split_ifs with hdepth
  · refine ⟨rfl, hp, fun _ (allowed : 1 < p.path.length) => ?_⟩
    omega
  · refine strikes_conclude hp ?_
    show 1 < p.path.length
    omega

/-- A block begins, or blocks are nested too deeply, and nothing happens. -/
theorem strikes_begin {p : Printer} (hp : p.stopped = none) (opening perLine closing : Text)
    (level : Option Int) :
    Strikes p (.begin opening perLine closing) (p.begin opening perLine closing level) ∨
      level ≠ none ∧
        ∃ depth, p.begin opening perLine closing level = .error ⟨.levelExceeded depth, p⟩ := by
  unfold begin whileOpen
  cases hclosed : p.closed with
  | true => exact Or.inl ⟨rfl, hp, fun hopen => by simp [hclosed] at hopen⟩
  | false =>
    cases hlevel : level.any fun n => decide (n ≤ (p.depth : Int)) with
    | true =>
      refine Or.inr ⟨?_, p.depth, by simp; rfl⟩
      rintro rfl
      cases hlevel
    | false => exact Or.inl (strikes_conclude hp trivial)

end Printer

namespace Action

/-! ## Printing -/

/-- What comes of printing elements to a printer: strokes, or a fault, which is not that a list has
run out or blocks are nested too deeply. -/
def Outcome (φ ψ : Phase) (p : Printer) (folds : Array Fold) :
    EStateM.Result Fault Stream Unit → Prop
  | .ok _ s => ∃ q ss, s = { device := .printer q, folds := folds } ∧
      Printer.Strokes p ss q ∧ φ.Steps ss ψ ∧ q.stopped = none
  | .error e s => e.isFatal = true ∧
      ∃ q, s = { device := .printer q, folds := folds } ∧ q.stopped = none

/-- The action prints elements. -/
def Prints (φ : Phase) (a : Action Unit) (ψ : Phase) : Prop :=
  ∀ (p : Printer) (folds : Array Fold), p.stopped = none →
    Outcome φ ψ p folds (a { device := .printer p, folds := folds })

variable {φ ψ χ : Phase} {route : Route}

theorem Outcome.after {p q : Printer} {folds : Array Fold} {ss : List Stroke}
    {x : EStateM.Result Fault Stream Unit} (h : Outcome ψ χ q folds x)
    (hss : Printer.Strokes p ss q) (hsteps : φ.Steps ss ψ) : Outcome φ χ p folds x := by
  cases x with
  | ok _ s =>
    obtain ⟨r, ss', hs, hss', hsteps', hr⟩ := h
    exact ⟨r, ss ++ ss', hs, hss.append hss', hsteps.append hsteps', hr⟩
  | error e s => exact h

theorem prints_pure (φ : Phase) : Prints φ (pure ()) φ := fun p _ hp =>
  ⟨p, [], rfl, .nil p, .nil φ, hp⟩

theorem prints_throw {e : Fault} (he : e.isFatal = true) : Prints φ (throw e) ψ := fun p _ hp =>
  ⟨he, p, rfl, hp⟩

theorem prints_bind {a b : Action Unit} (ha : Prints φ a ψ) (hb : Prints ψ b χ) :
    Prints φ (a >>= fun _ => b) χ := by
  intro p folds hp
  have hfirst := ha p folds hp
  cases hrun : a { device := .printer p, folds := folds } with
  | error e s =>
    rw [hrun] at hfirst
    simp only [bind, EStateM.bind, hrun]
    exact hfirst
  | ok _ s =>
    rw [hrun] at hfirst
    obtain ⟨q, ss, rfl, hss, hsteps, hq⟩ := hfirst
    simp only [bind, EStateM.bind, hrun]
    exact (hb q folds hq).after hss hsteps

theorem prints_descend {k : Route → Action Unit} (hr : route.folds = []) (calls : Nat)
    (hk : ∀ route : Route, route.folds = [] → Prints φ (k route) ψ) :
    Prints φ (descend route calls >>= k) ψ := by
  unfold descend
  split_ifs
  · exact fun p folds hp => prints_throw rfl p folds hp
  · exact fun p folds hp => hk { route with room := route.room - calls } hr p folds hp

theorem prints_lift {α : Type} {x : Except Fault α} {k : α → Action Unit}
    (hx : ∀ e, x = .error e → e.isFatal = true) (hk : ∀ a, x = .ok a → Prints φ (k a) ψ) :
    Prints φ (lift x >>= k) ψ := by
  cases x with
  | error e => exact fun p folds hp => prints_throw (hx e rfl) p folds hp
  | ok a => exact fun p folds hp => hk a rfl p folds hp

/-! ## Operations -/

/-- How many calls it takes at most to take a stroke. -/
def strokeCalls : Nat := 5 + layoutCalls

/-- What comes of an operation that is a single stroke, with so many calls left. -/
def Struck (room : Nat) (p : Printer) (s : Stroke) (folds : Array Fold) :
    EStateM.Result Fault Stream Unit → Prop
  | .ok _ t => ∃ q, t = { device := .printer q, folds := folds } ∧
      p.Taken (room - strokeCalls) [s] q
  | .error e t => e.isFatal = true ∧
      (∃ q, t = { device := .printer q, folds := folds } ∧ q.stopped = none) ∧
      (strokeCalls ≤ room → p.closed = false → p.Allows s →
        ¬p.Withstands (room - strokeCalls) [s])

theorem Struck.outcome {room : Nat} {p : Printer} {s : Stroke} {folds : Array Fold}
    {x : EStateM.Result Fault Stream Unit} (h : Struck room p s folds x) (hp : p.stopped = none)
    (hstep : φ.Step s ψ) : Outcome φ ψ p folds x := by
  cases x with
  | ok _ t =>
    obtain ⟨q, ht, hss⟩ := h
    exact ⟨q, [s], ht, hss.strokes, .cons hstep (.nil _), hss.unharmed hp⟩
  | error e t => exact ⟨h.1, h.2.1⟩

/-- Too few calls are left. -/
theorem struck_tooDeep {room : Nat} {p : Printer} {s : Stroke} (folds : Array Fold)
    (hp : p.stopped = none) (hroom : room < 5) :
    Struck room p s folds (.error .tooDeep { device := .printer p, folds := folds }) := by
  refine ⟨rfl, ⟨p, rfl, hp⟩, fun hcalls => ?_⟩
  unfold strokeCalls at hcalls
  omega

theorem struck_onPrinter {p : Printer} {s : Stroke} {f : Printer → Except Printer.Stop Printer}
    (folds : Array Fold) (room : Nat)
    (hstrike : Printer.Strikes { p with room := some (room - layoutCalls) } s
      (f { p with room := some (room - layoutCalls) })) :
    Struck room p s folds (onPrinter room f { device := .printer p, folds := folds }) := by
  have hroom : room - strokeCalls ≤ room - layoutCalls := by
    unfold strokeCalls
    omega
  unfold onPrinter
  dsimp only
  cases hrun : f { p with room := some (room - layoutCalls) } with
  | ok q =>
    rw [hrun] at hstrike
    obtain ⟨rfl, allowed, hs⟩ := hstrike
    exact ⟨_, rfl, .cons hroom allowed hs (.nil _)⟩
  | error stop =>
    rw [hrun] at hstrike
    obtain ⟨he, hstop, hharm⟩ := hstrike
    exact ⟨he, ⟨stop.printer, rfl, hstop⟩, fun _ hopen allowed hall =>
      hharm hopen allowed (hall allowed _ hroom).1⟩

theorem struck_write {p : Printer} {t : Text} (folds : Array Fold) (hr : route.folds = [])
    (hp : p.stopped = none) (ht : '\n' ∉ t) :
    Struck route.room p (.text t) folds
      (write route t { device := .printer p, folds := folds }) := by
  have hwrite : write route t { device := .printer p, folds := folds } =
      if route.room < 4 then .error .tooDeep { device := .printer p, folds := folds }
      else onPrinter route.room (·.write t) { device := .printer p, folds := folds } := by
    unfold write checkRoom
    simp only [hr, List.length_nil, Nat.zero_add]
    split_ifs
    · rfl
    · simp [fold, hr, put, device]
      rfl
  rw [hwrite]
  split_ifs with hroom
  · exact struck_tooDeep folds hp (Nat.lt_succ_of_lt hroom)
  · exact struck_onPrinter (p := p) folds _ (Printer.strikes_write hp ht)

theorem struck_newline {p : Printer} (folds : Array Fold) (hr : route.folds = [])
    (hp : p.stopped = none) (kind : NewlineKind) :
    Struck route.room p (.newline kind) folds
      (newline route kind { device := .printer p, folds := folds }) := by
  unfold newline pastFolds checkRoom
  simp only [hr, List.length_nil, Nat.zero_add]
  split_ifs with hroom
  · exact struck_tooDeep folds hp (by omega)
  · exact struck_onPrinter (p := p) (f := (·.newline kind)) folds _
      (Printer.strikes_newline (p := { p with room := some (route.room - layoutCalls) }) hp kind)

theorem struck_finish {p : Printer} (folds : Array Fold) (hr : route.folds = [])
    (hp : p.stopped = none) :
    Struck route.room p .finish folds (finish route { device := .printer p, folds := folds }) := by
  unfold finish checkRoom
  simp only [hr, List.length_nil, Nat.zero_add]
  split_ifs with hroom
  · exact struck_tooDeep folds hp (Nat.lt_succ_of_lt hroom)
  · exact struck_onPrinter (p := p) folds _ (Printer.strikes_finish hp)

theorem prints_write {t : Text} (hr : route.folds = []) (ht : '\n' ∉ t)
    (hstep : φ.Step (.text t) ψ) : Prints φ (write route t) ψ := fun _ folds hp =>
  (struck_write folds hr hp ht).outcome hp hstep

theorem prints_newline (hr : route.folds = []) :
    Prints .separator (newline route .fill) .element := fun _ folds hp =>
  (struck_newline folds hr hp .fill).outcome hp .fill

theorem prints_finish (hr : route.folds = []) : Prints .element (finish route) .element :=
  fun _ folds hp => (struck_finish folds hr hp).outcome hp .finish

/-! ## Blocks -/

theorem enter_eq (p : Printer) (folds : Array Fold) (level : Option Int)
    (opening perLine closing : Text) :
    enter route level opening perLine closing { device := .printer p, folds := folds } =
      if p.closed then .error .closedStream { device := .printer p, folds := folds }
      else match begin route opening perLine closing level
          { device := .printer p, folds := folds } with
        | .ok _ s => .ok true s
        | .error (.levelExceeded _) s =>
          match write route ['#'] s with
          | .ok _ s => .ok false s
          | .error e s => .error e s
        | .error e s => .error e s := by
  have hdevice (s : Stream) : device s = .ok s.device s := rfl
  unfold enter checkOpen
  simp only [bind, EStateM.bind, hdevice, pure, tryCatch, tryCatchThe,
    MonadExceptOf.tryCatch, EStateM.tryCatch]
  split_ifs
  · rfl
  · simp only [EStateM.pure]
    cases begin route opening perLine closing level { device := .printer p, folds := folds } with
    | ok _ s => rfl
    | error e s =>
      cases e with
      | levelExceeded depth =>
        simp only [EStateM.bind, EStateM.Backtrackable.restore, EStateM.dummyRestore]
        cases write route ['#'] s <;> rfl
      | _ => rfl

theorem fault?_eq (body : Action Unit) (s : Stream) :
    fault? body s = match body s with
      | .ok _ s => .ok none s
      | .error e s => .ok (some e) s := by
  unfold fault?
  simp only [bind, EStateM.bind, tryCatch, tryCatchThe, MonadExceptOf.tryCatch, EStateM.tryCatch]
  cases body s <;> rfl

theorem leave_eq (fault : Option Fault) (s : Stream) :
    leave route true fault s = match finish route s with
      | .error e s => .error e s
      | .ok _ s =>
        match fault with
        | none | some .exhausted => .ok () s
        | some e => .error e s := by
  unfold leave
  simp only [if_true, bind, EStateM.bind]
  cases finish route s with
  | error e s => rfl
  | ok _ s =>
    cases fault with
    | none => rfl
    | some e => cases e <;> rfl

theorem within_eq (p : Printer) (folds : Array Fold) (level : Option Int)
    (opening perLine closing : Text) (body : Action Unit) :
    within route level opening perLine closing body { device := .printer p, folds := folds } =
      match enter route level opening perLine closing { device := .printer p, folds := folds } with
      | .error e s => .error e s
      | .ok false s => .ok () s
      | .ok true s =>
        match body s with
        | .ok _ s => leave route true none s
        | .error e s => leave route true (some e) s := by
  unfold within
  simp only [bind, EStateM.bind]
  cases enter route level opening perLine closing { device := .printer p, folds := folds } with
  | error e s => rfl
  | ok begun s =>
    cases begun with
    | false => rfl
    | true =>
      show EStateM.bind (fault? body) (fun fault => leave route true fault) s =
        match body s with
        | .ok _ s => leave route true none s
        | .error e s => leave route true (some e) s
      unfold EStateM.bind
      rw [fault?_eq]
      cases body s <;> rfl

/-- Leaving a block after a fault ends the block, and the fault stays. -/
theorem leave_fatal {q : Printer} (folds : Array Fold) (hr : route.folds = [])
    (hq : q.stopped = none) {e : Fault} (he : e.isFatal = true) :
    ∃ e' r, leave route true (some e) { device := .printer q, folds := folds } =
      .error e' { device := .printer r, folds := folds } ∧ e'.isFatal = true ∧ r.stopped = none := by
  have hfinish := struck_finish folds hr hq
  rw [leave_eq]
  cases hrun : finish route { device := .printer q, folds := folds } with
  | error e s =>
    rw [hrun] at hfinish
    obtain ⟨he, ⟨r, rfl, hr⟩, -⟩ := hfinish
    exact ⟨e, r, rfl, he, hr⟩
  | ok _ s =>
    rw [hrun] at hfinish
    obtain ⟨r, rfl, hss⟩ := hfinish
    refine ⟨e, r, ?_, he, hss.unharmed hq⟩
    cases e <;> first | rfl | cases he

/-- What comes of beginning a block, unless blocks are nested too deeply. -/
theorem struck_begin {p : Printer} (folds : Array Fold) (hr : route.folds = [])
    (hp : p.stopped = none) (level : Option Int) (opening closing : Text) :
    Struck route.room p (.begin opening [] closing) folds
        (begin route opening [] closing level { device := .printer p, folds := folds }) ∨
      level ≠ none ∧ ∃ n, begin route opening [] closing level
          { device := .printer p, folds := folds } = .error (.levelExceeded n)
        { device := .printer { p with room := some (route.room - layoutCalls) }, folds := folds } := by
  have hbegin : begin route opening [] closing level { device := .printer p, folds := folds } =
      if route.room < 5 then .error .tooDeep { device := .printer p, folds := folds }
      else onPrinter route.room (·.begin opening [] closing level)
        { device := .printer p, folds := folds } := by
    unfold begin checkRoom
    simp only [hr, List.length_nil, Nat.zero_add]
    split_ifs <;> rfl
  let p' : Printer := { p with room := some (route.room - layoutCalls) }
  rw [hbegin]
  split_ifs with hroom
  · exact Or.inl (struck_tooDeep folds hp hroom)
  · rcases Printer.strikes_begin (p := p') hp opening [] closing level with hstrike | ⟨hlevel, n, hn⟩
    · exact Or.inl (struck_onPrinter (p := p) (f := (·.begin opening [] closing level)) folds _
        hstrike)
    · refine Or.inr ⟨hlevel, n, ?_⟩
      unfold onPrinter
      dsimp only
      rw [hn]

/-- What comes of entering a block. Without a limit on depth it begins, unless that does harm. -/
theorem struck_enter {p : Printer} (folds : Array Fold) (hr : route.folds = [])
    (hp : p.stopped = none) (level : Option Int) (opening closing : Text) :
    match enter route level opening [] closing { device := .printer p, folds := folds } with
    | .ok begun s => (level = none → begun = true) ∧
        ∃ q, s = { device := .printer q, folds := folds } ∧ p.Taken (route.room - strokeCalls)
          [if begun then .begin opening [] closing else .text ['#']] q
    | .error e s => e.isFatal = true ∧
        (∃ q, s = { device := .printer q, folds := folds } ∧ q.stopped = none) ∧
        (level = none → strokeCalls ≤ route.room → p.closed = false →
          ¬p.Withstands (route.room - strokeCalls) [.begin opening [] closing]) := by
  rw [enter_eq]
  cases hclosed : p.closed with
  | true => exact ⟨rfl, ⟨p, rfl, hp⟩, fun _ _ hopen => by simp at hopen⟩
  | false =>
    simp only [Bool.false_eq_true, if_false]
    rcases struck_begin folds hr hp level opening closing with hstruck | ⟨hlevel, n, hrun⟩
    · cases hrun : begin route opening [] closing level
          { device := .printer p, folds := folds } with
      | ok _ s =>
        rw [hrun] at hstruck
        exact ⟨fun _ => rfl, hstruck⟩
      | error e s =>
        rw [hrun] at hstruck
        obtain ⟨he, hq, hharm⟩ := hstruck
        -- the fault is not that blocks are nested too deeply
        cases e <;>
          first | exact ⟨he, hq, fun _ hcalls _ => hharm hcalls hclosed trivial⟩ | cases he
    · rw [hrun]
      have hwrite := struck_write (p := { p with room := some (route.room - layoutCalls) }) folds hr hp
        (t := ['#']) (by decide)
      cases hrun' : write route ['#'] { device := .printer { p with
          room := some (route.room - layoutCalls) }, folds := folds } with
      | ok _ s =>
        rw [hrun'] at hwrite
        obtain ⟨q, rfl, hss⟩ := hwrite
        simp only [hrun']
        exact ⟨fun hnone => absurd hnone hlevel, q, rfl, hss.of_room⟩
      | error e s =>
        rw [hrun'] at hwrite
        simp only [hrun']
        exact ⟨hwrite.1, hwrite.2.1, fun hnone => absurd hnone hlevel⟩

theorem prints_within {body : Action Unit} (hr : route.folds = []) (level : Option Int)
    {opening closing : Text} (hopening : Solid opening) (hclosing : Solid closing)
    (hbody : Prints .element body .element) :
    Prints .element (within route level opening [] closing body) .element := by
  intro p folds hp
  rw [within_eq]
  have henter := struck_enter folds hr hp level opening closing
  cases hrun : enter route level opening [] closing { device := .printer p, folds := folds } with
  | error e s =>
    rw [hrun] at henter
    exact ⟨henter.1, henter.2.1⟩
  | ok begun s =>
    rw [hrun] at henter
    obtain ⟨-, q, rfl, hss⟩ := henter
    have hq := hss.unharmed hp
    cases begun with
    | false =>
      exact ⟨q, _, rfl, hss.strokes, .cons (.solid (by simp [Solid, Text.isBlank])) (.nil _), hq⟩
    | true =>
      have hbegin : Phase.Steps .element [.begin opening [] closing] .element :=
        .cons (.begin hopening hclosing) (.nil _)
      have hinside := hbody q folds hq
      refine Outcome.after ?_ hss.strokes hbegin
      dsimp only
      cases hrun' : body { device := .printer q, folds := folds } with
      | ok _ s =>
        rw [hrun'] at hinside
        obtain ⟨r, ss, rfl, hss', hsteps, hr'⟩ := hinside
        dsimp only
        have hfinish := prints_finish hr r folds hr'
        rw [leave_eq]
        refine Outcome.after ?_ hss' hsteps
        cases hleave : finish route { device := .printer r, folds := folds } <;>
          rw [hleave] at hfinish <;> exact hfinish
      | error e s =>
        rw [hrun'] at hinside
        obtain ⟨he, r, rfl, hr'⟩ := hinside
        obtain ⟨e', r', hleave, he', hr''⟩ := leave_fatal folds hr hr' he
        dsimp only
        rw [hleave]
        exact ⟨he', r', rfl, hr''⟩

end Action

end Tilde
