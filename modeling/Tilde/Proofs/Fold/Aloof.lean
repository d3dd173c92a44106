import Tilde.Proofs.Fold.Route
import Tilde.Stream.Value

/-!
# Actions that leave the device alone

What passes the folds comes to the same on every device, as does whatever neither looks at the device
nor changes it.

* `Action.Aloof`: the actions for which this holds;
* **`Aloof.fold`**, **`Aloof.foldValues`**: texts and values passing the folds of a route.
-/

namespace Tilde.Action

/-- What becomes of the action depends on the folds, and not on the device, which stays as it is. No
fold gets lost. -/
def Aloof {α : Type} (a : Action α) : Prop :=
  ∀ folds, ∃ folds', folds.size ≤ folds'.size ∧
    ((∃ x, ∀ d, a ⟨d, folds⟩ = .ok x ⟨d, folds'⟩) ∨ ∃ e, ∀ d, a ⟨d, folds⟩ = .error e ⟨d, folds'⟩)

namespace Aloof

variable {α β : Type} {a : Action α} {k : α → Action β}

theorem pure (x : α) : Aloof (pure x : Action α) := fun folds =>
  ⟨folds, Nat.le_refl _, .inl ⟨x, fun _ => rfl⟩⟩

theorem throw (e : Fault) : Aloof (throw e : Action α) := fun folds =>
  ⟨folds, Nat.le_refl _, .inr ⟨e, fun _ => rfl⟩⟩

theorem bind (ha : Aloof a) (hk : ∀ x, Aloof (k x)) : Aloof (a >>= k) := by
  intro folds
  obtain ⟨folds₁, hsize, ⟨x, hx⟩ | ⟨e, he⟩⟩ := ha folds
  · obtain ⟨folds₂, hsize', ⟨y, hy⟩ | ⟨e, he⟩⟩ := hk x folds₁
    · exact ⟨folds₂, Nat.le_trans hsize hsize', .inl ⟨y, fun d => (bind_of_ok (hx d)).trans (hy d)⟩⟩
    · exact ⟨folds₂, Nat.le_trans hsize hsize', .inr ⟨e, fun d => (bind_of_ok (hx d)).trans (he d)⟩⟩
  · refine ⟨folds₁, hsize, .inr ⟨e, fun d => ?_⟩⟩
    simp only [Bind.bind, EStateM.bind, he d]

/-- It may look at the folds. -/
theorem look {k : Array Fold → Action α} (hk : ∀ folds, Aloof (k folds)) :
    Aloof (get >>= fun s => k s.folds) := by
  intro folds
  obtain ⟨folds', hsize, ⟨x, hx⟩ | ⟨e, he⟩⟩ := hk folds folds
  · exact ⟨folds', hsize, .inl ⟨x, fun d => hx d⟩⟩
  · exact ⟨folds', hsize, .inr ⟨e, fun d => he d⟩⟩

theorem checkRoom (route : Route) (calls : Nat) : Aloof (checkRoom route calls) := by
  unfold Action.checkRoom
  split
  · exact throw _
  · exact pure ()

theorem newFold (mode : FoldMode) : Aloof (newFold mode) := fun folds =>
  ⟨folds.push { mode := mode }, by simp, .inl ⟨folds.size, fun _ => rfl⟩⟩

theorem foldlM {γ : Type} {f : β → γ → Action β} (hf : ∀ x i, Aloof (f x i)) (is : List γ) (x : β) :
    Aloof (is.foldlM f x) := by
  induction is generalizing x with
  | nil => exact pure x
  | cons i is ih => exact bind (hf x i) ih

theorem mapM {γ : Type} {f : γ → Action β} (hf : ∀ x, Aloof (f x)) (xs : List γ) :
    Aloof (xs.mapM f) := by
  induction xs with
  | nil => exact pure []
  | cons x xs ih =>
    rw [List.mapM_cons]
    exact bind (hf x) fun y => bind ih fun ys => pure (y :: ys)

/-! ## Passing folds -/

theorem foldOnce (i : Nat) (text : Text) : Aloof (foldOnce i text) := fun folds =>
  ⟨(pass folds i text).1, Nat.le_of_eq (size_pass folds i text).symm,
    .inl ⟨(pass folds i text).2, fun d => foldOnce_eq i text ⟨d, folds⟩⟩⟩

/-- **A text passes the folds of a route.** -/
theorem fold (route : Route) (text : Text) : Aloof (fold route text) :=
  foldlM (fun text i => foldOnce i text) route.folds text

theorem foldElement (i : Nat) (v : Value) : Aloof (foldElement i v) := by
  intro folds
  unfold Action.foldElement
  cases hf : folds[i]? with
  | none =>
    refine ⟨folds, Nat.le_refl _, .inr ⟨.unsupported, fun d => ?_⟩⟩
    refine (bind_of_ok rfl).trans ?_
    rw [hf]
    rfl
  | some f =>
    cases hv : f.stepValue v with
    | error e =>
      refine ⟨folds, Nat.le_refl _, .inr ⟨e, fun d => ?_⟩⟩
      refine (bind_of_ok rfl).trans ?_
      rw [hf]
      dsimp only
      rw [hv]
      rfl
    | ok x =>
      refine ⟨folds.set! i x.1, by simp, .inl ⟨x.2, fun d => ?_⟩⟩
      refine (bind_of_ok rfl).trans ?_
      rw [hf]
      dsimp only
      rw [hv]
      rfl

theorem foldForeign (i : Nat) (mode : FoldMode) (v : Value) : Aloof (foldForeign i mode v) := by
  unfold Action.foldForeign
  split
  · exact pure _
  · exact pure _
  · exact throw _
  · exact throw _
  · split
    · exact throw _
    · refine bind (mapM (foldElement i) _) fun texts => ?_
      split
      · exact pure _
      · exact throw _

theorem foldValue (i : Nat) (v : Value) : Aloof (foldValue i v) := by
  have hother (w : Value) (hw : Action.foldValue i w = (get >>= fun s : Stream =>
      s.folds[i]?.elim (Pure.pure w) fun f => Action.foldForeign i f.mode w)) :
      Aloof (Action.foldValue i w) := by
    rw [hw]
    refine look (k := fun folds => folds[i]?.elim (Pure.pure w) fun f => Action.foldForeign i f.mode w)
      fun folds => ?_
    cases folds[i]? with
    | none => exact pure w
    | some f => exact foldForeign i f.mode w
  cases v with
  | text s =>
    exact look (k := fun _ => Action.foldOnce i s >>= fun t => Pure.pure (Value.text t)) fun _ =>
      bind (foldOnce i s) fun t => pure (Value.text t)
  | _ =>
    refine hother _ (bind_congr fun s => ?_)
    cases s.folds[i]? <;> rfl

/-- **A value passes the folds of a route.** -/
theorem foldValues (route : Route) (v : Value) :
    Aloof (route.folds.foldlM (fun v i => Action.foldValue i v) v) :=
  foldlM (fun v i => foldValue i v) route.folds v

end Aloof

end Tilde.Action
