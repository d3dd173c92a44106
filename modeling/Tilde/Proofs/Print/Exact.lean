import Tilde.Proofs.Print.Element

/-!
# Actions that take certain strokes

An action that always takes the same strokes fails only if one of them does harm, or if not enough
calls are left (`Delivers`). **`delivers_within`**: so does a block around such an action.

* `delivers_bind`: actions in sequence.
-/

namespace Tilde.Action

/-- What comes of an action with so many calls left, of which it needs `n` besides what breaking lines
takes, if it takes just these strokes and leaves these blocks open. -/
def Delivered (n room : Nat) (p : Printer) (ss : List Stroke) (path : Path) (folds : Array Fold) :
    EStateM.Result Fault Stream Unit → Prop
  | .ok _ t => ∃ q, t = { device := .printer q, folds := folds } ∧ p.Taken (room - n) ss q ∧
      q.path = path
  | .error e t => e.isFatal = true ∧
      (∃ q, t = { device := .printer q, folds := folds } ∧ q.stopped = none) ∧
      (n ≤ room → ¬p.Withstands (room - n) ss)

/-- The action takes just these strokes on any printer that is open. -/
def Delivers (route : Route) (n : Nat) (a : Action Unit) (ss : List Stroke) : Prop :=
  ∀ (p : Printer) (folds : Array Fold), p.stopped = none → p.closed = false → p.path ≠ [] →
    Delivered n route.room p ss p.path folds (a { device := .printer p, folds := folds })

section

variable {room n m : Nat} {p q : Printer} {ss ss' : List Stroke} {path : Path} {folds : Array Fold}
  {x : EStateM.Result Fault Stream Unit}

theorem Delivered.mono (h : Delivered n room p ss path folds x) (hn : n ≤ m) :
    Delivered m room p ss path folds x := by
  have hroom : room - m ≤ room - n := by omega
  cases x with
  | ok _ t =>
    obtain ⟨q, ht, hss, hq⟩ := h
    exact ⟨q, ht, hss.mono hroom, hq⟩
  | error e t =>
    obtain ⟨he, hq, hharm⟩ := h
    exact ⟨he, hq, fun hm hall => hharm (hn.trans hm) (hall.mono hroom)⟩

/-- What comes behind strokes that have been taken. -/
theorem Delivered.after (h : Delivered n room q ss' path folds x) (hss : p.Taken (room - n) ss q) :
    Delivered n room p (ss ++ ss') path folds x := by
  cases x with
  | ok _ t =>
    obtain ⟨r, ht, hss', hr⟩ := h
    exact ⟨r, ht, hss.append hss', hr⟩
  | error e t =>
    obtain ⟨he, hr, hharm⟩ := h
    exact ⟨he, hr, fun hn hall => hharm hn (hss.withstands hall)⟩

theorem Struck.delivered {s : Stroke} (h : Struck room p s folds x) (hopen : p.closed = false)
    (allowed : p.Allows s) (hn : strokeCalls ≤ n) :
    Delivered n room p [s] (p.pathAfter s) folds x := by
  have hroom : room - n ≤ room - strokeCalls := by omega
  cases x with
  | ok _ t =>
    obtain ⟨q, ht, hss⟩ := h
    exact ⟨q, ht, hss.mono hroom, hss.path⟩
  | error e t =>
    obtain ⟨he, hq, hharm⟩ := h
    exact ⟨he, hq, fun hle hall => hharm (hn.trans hle) hopen allowed (hall.mono hroom)⟩

end

variable {route : Route} {n m : Nat} {a b : Action Unit} {ss ss' : List Stroke}

theorem Delivers.mono (h : Delivers route n a ss) (hn : n ≤ m) : Delivers route m a ss :=
  fun p folds hp hopen hpath => (h p folds hp hopen hpath).mono hn

theorem delivers_pure : Delivers route n (pure ()) [] := fun p _ _ _ _ =>
  ⟨p, rfl, .nil p, rfl⟩

theorem delivers_bind (ha : Delivers route n a ss) (hb : Delivers route n b ss') :
    Delivers route n (a >>= fun _ => b) (ss ++ ss') := by
  intro p folds hp hopen hpath
  have hfirst := ha p folds hp hopen hpath
  cases hrun : a { device := .printer p, folds := folds } with
  | error e t =>
    rw [hrun] at hfirst
    obtain ⟨he, hq, hharm⟩ := hfirst
    simp only [bind, EStateM.bind, hrun]
    exact ⟨he, hq, fun hn hall => hharm hn hall.left⟩
  | ok _ t =>
    rw [hrun] at hfirst
    obtain ⟨q, rfl, hss, hq⟩ := hfirst
    simp only [bind, EStateM.bind, hrun]
    have hsecond := hb q folds (hss.unharmed hp) (hss.strokes.closed.trans hopen) (hq ▸ hpath)
    rw [hq] at hsecond
    exact hsecond.after hss

theorem delivers_descend {k : Route → Action Unit} (hr : route.folds = []) (calls : Nat)
    (hk : ∀ route : Route, route.folds = [] → Delivers route n (k route) ss) :
    Delivers route (n + calls) (descend route calls >>= k) ss := by
  unfold descend
  split_ifs with hroom
  · refine fun p folds hp _ _ => ⟨rfl, ⟨p, rfl, hp⟩, fun hn => ?_⟩
    omega
  · intro p folds hp hopen hpath
    have hresult := hk { route with room := route.room - calls } hr p folds hp hopen hpath
    have hle : n + calls ≤ route.room ↔ n ≤ route.room - calls := by omega
    rw [Delivered.eq_def, Nat.sub_sub, Nat.add_comm calls] at hresult
    rw [Delivered.eq_def, hle]
    exact hresult

/-! ## Operations -/

theorem delivers_write {t : Text} (hr : route.folds = []) (hn : strokeCalls ≤ n) (ht : '\n' ∉ t) :
    Delivers route n (write route t) [.text t] := fun _ folds hp hopen _ =>
  (struck_write folds hr hp ht).delivered hopen trivial hn

theorem delivers_newline (hr : route.folds = []) (hn : strokeCalls ≤ n) (kind : NewlineKind) :
    Delivers route n (newline route kind) [.newline kind] := fun _ folds hp hopen _ =>
  (struck_newline folds hr hp kind).delivered hopen trivial hn

/-- **A block around an action.** -/
theorem delivers_within {body : Action Unit} (hr : route.folds = []) (hn : strokeCalls ≤ n)
    {opening closing : Text} (hbody : Delivers route n body ss) :
    Delivers route n (within route none opening [] closing body)
      ([.begin opening [] closing] ++ (ss ++ [.finish])) := by
  intro p folds hp hopen hpath
  have hroom : route.room - n ≤ route.room - strokeCalls := by omega
  rw [within_eq]
  have henter := struck_enter folds hr hp none opening closing
  cases hrun : enter route none opening [] closing { device := .printer p, folds := folds } with
  | error e t =>
    rw [hrun] at henter
    obtain ⟨he, hq, hharm⟩ := henter
    exact ⟨he, hq, fun hle hall =>
      hharm rfl (hn.trans hle) hopen (Printer.Withstands.mono hall.left hroom)⟩
  | ok begun t =>
    rw [hrun] at henter
    obtain ⟨hbegun, q, rfl, hbegin⟩ := henter
    obtain rfl := hbegun rfl
    have hq : q.stopped = none := hbegin.unharmed hp
    have hqopen : q.closed = false := hbegin.strokes.closed.trans hopen
    have hqpath : q.path = p.blocks.size :: p.path := hbegin.path
    have hinside := hbody q folds hq hqopen (by simp [hqpath])
    refine Delivered.after ?_ (hbegin.mono hroom)
    dsimp only
    cases hrun' : body { device := .printer q, folds := folds } with
    | error e t =>
      rw [hrun'] at hinside
      obtain ⟨he, ⟨r, rfl, hr'⟩, hharm⟩ := hinside
      obtain ⟨e', r', hleave, he', hr''⟩ := leave_fatal folds hr hr' he
      dsimp only
      rw [hleave]
      exact ⟨he', ⟨r', rfl, hr''⟩, fun hle hall => hharm hle hall.left⟩
    | ok _ t =>
      rw [hrun'] at hinside
      obtain ⟨r, rfl, hss, hrpath⟩ := hinside
      have allowed : 1 < r.path.length := by
        have := List.length_pos_iff.mpr hpath
        rw [hrpath, hqpath, List.length_cons]
        omega
      have hfinish := (struck_finish folds hr (hss.unharmed hq)).delivered
        (hss.strokes.closed.trans hqopen) allowed hn
      rw [show r.pathAfter .finish = r.path.tail from rfl, hrpath, hqpath, List.tail_cons] at hfinish
      refine Delivered.after ?_ hss
      dsimp only
      rw [leave_eq]
      cases hleave : finish route { device := .printer r, folds := folds } <;>
        rw [hleave] at hfinish <;> exact hfinish

end Tilde.Action
