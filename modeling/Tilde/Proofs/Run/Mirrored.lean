import Tilde.Proofs.Fold.Spared

/-!
# One action beside another

Two actions run side by side on related streams. The second mirrors the first if it comes to a related
result wherever the first has one. Of a first action that fails for good it need not do anything, as
that fault comes out at the end of the run; but faults that somebody may handle it has to have, too.

* `Action.Mirrored`: one action mirrors the other; `Leads` for computations without streams;
* `Mirrored.bind`: one step after the other;
* **`Mirrored.within`**: a logical block around actions, which handles faults.
-/

namespace Tilde

namespace Action

/-! ## Mirrored actions -/

variable {α β γ δ : Type} {R R' : Stream → Stream → Prop} {Q Q₁ : α → β → Prop} {Q' : γ → δ → Prop}

/-- What comes of an action is followed by what comes of another one: if there is a result, by a
related one, and if there is a fault, by the same, unless it is for good. -/
def Followed (R : Stream → Stream → Prop) (Q : α → β → Prop) :
    EStateM.Result Fault Stream α → EStateM.Result Fault Stream β → Prop
  | .ok x s, .ok y t => Q x y ∧ R s t
  | .ok .., .error .. => False
  | .error e s, r => e.isFatal = true ∧ s.Unharmed ∨ ∃ t, r = .error e t ∧ R s t

/-- On related streams, what comes of the first action is followed by what comes of the second. -/
def Mirrored (R : Stream → Stream → Prop) (Q : α → β → Prop) (a : Action α) (b : Action β) : Prop :=
  ∀ s t, R s t → Followed R Q (a s) (b t)

/-- The same for computations that do not touch the stream. -/
def Leads (Q : α → β → Prop) : Except Fault α → Except Fault β → Prop
  | .ok x, .ok y => Q x y
  | .ok _, .error _ => False
  | .error e, y => e.isFatal = true ∨ y = .error e

theorem Followed.mono {r : EStateM.Result Fault Stream α} {r' : EStateM.Result Fault Stream β}
    (h : Followed R Q r r') (hQ : ∀ x y, Q x y → Q₁ x y) (hR : ∀ s t, R s t → R' s t) :
    Followed R' Q₁ r r' := by
  cases r with
  | ok x s =>
    cases r' with
    | ok y t => exact ⟨hQ x y h.1, hR s t h.2⟩
    | error e t => exact h
  | error e s =>
    refine h.imp_right ?_
    rintro ⟨t, rfl, hs⟩
    exact ⟨t, rfl, hR s t hs⟩

namespace Leads

variable {x : Except Fault α} {y : Except Fault β} {f : α → Except Fault γ} {g : β → Except Fault δ}

theorem refl (x : Except Fault α) : Leads Eq x x := by
  cases x with
  | ok x => exact Eq.refl x
  | error e => exact .inr rfl

theorem bind (hx : Leads Q x y) (hf : ∀ x y, Q x y → Leads Q' (f x) (g y)) :
    Leads Q' (x >>= f) (y >>= g) := by
  cases x with
  | ok x =>
    cases y with
    | ok y => exact hf x y hx
    | error e => exact hx.elim
  | error e =>
    obtain he | rfl := hx
    · exact .inl he
    · exact .inr rfl

/-- The first computation may depend on what the second one does not see. -/
theorem bind_eq {x y : Except Fault α} {f : α → Except Fault γ} {g : α → Except Fault δ}
    (hx : Leads Eq x y) (hf : ∀ x, Leads Q' (f x) (g x)) : Leads Q' (x >>= f) (y >>= g) :=
  hx.bind fun x _ h => h ▸ hf x

theorem map {x y : Except Fault α} (h : Leads Eq x y) (f : α → β) : Leads Eq (f <$> x) (f <$> y) := by
  cases x with
  | ok x =>
    cases y with
    | ok y => exact congrArg f h
    | error e => exact h.elim
  | error e =>
    obtain he | rfl := h
    · exact .inl he
    · exact .inr rfl

end Leads

namespace Mirrored

variable {a a' : Action α} {b b' : Action β} {f : α → Action γ} {g : β → Action δ}

theorem pure {x : α} {y : β} (h : Q x y) : Mirrored R Q (Pure.pure x) (Pure.pure y) :=
  fun _ _ hs => ⟨h, hs⟩

/-- A fault is mirrored by itself. -/
theorem throw (e : Fault) : Mirrored R Q (MonadExcept.throw e) (MonadExcept.throw e) :=
  fun _ t hs => .inr ⟨t, rfl, hs⟩

/-- A fault for good is mirrored by everything. -/
theorem fatal (hR : ∀ s t, R s t → s.Unharmed) {e : Fault} (he : e.isFatal = true) :
    Mirrored R Q (MonadExcept.throw e) b := fun s t hs => .inl ⟨he, hR s t hs⟩

theorem bind (ha : Mirrored R Q a b) (hf : ∀ x y, Q x y → Mirrored R Q' (f x) (g y)) :
    Mirrored R Q' (a >>= f) (b >>= g) := by
  intro s t hs
  have h := ha s t hs
  simp only [Bind.bind, EStateM.bind]
  cases hrun : a s with
  | ok x s₁ =>
    cases hrun' : b t <;> rw [hrun, hrun'] at h
    · exact hf _ _ h.1 _ _ h.2
    · exact h.elim
  | error e s₁ =>
    rw [hrun] at h
    obtain he | ⟨t₁, ht₁, hs₁⟩ := h
    · exact .inl he
    · rw [ht₁]
      exact .inr ⟨t₁, rfl, hs₁⟩

/-- The results are the same. -/
theorem bind_eq {b : Action α} {g : α → Action δ} (ha : Mirrored R Eq a b)
    (hf : ∀ x, Mirrored R Q' (f x) (g x)) : Mirrored R Q' (a >>= f) (b >>= g) :=
  ha.bind fun x _ h => h ▸ hf x

theorem discard {b : Action β} (ha : Mirrored R Q a b) :
    Mirrored R Eq (discard a) (discard b) := by
  show Mirrored R Eq ((fun _ => ()) <$> a) ((fun _ => ()) <$> b)
  rw [map_eq_pure_bind, map_eq_pure_bind]
  exact ha.bind fun _ _ _ => pure rfl

theorem lift (hR : ∀ s t, R s t → s.Unharmed) {x : Except Fault α} {y : Except Fault β}
    (h : Leads Q x y) : Mirrored R Q (Action.lift x) (Action.lift y) := by
  cases x with
  | ok x =>
    cases y with
    | ok y => exact pure h
    | error e => exact h.elim
  | error e =>
    obtain he | rfl := h
    · exact fatal hR he
    · exact throw e

/-- An action that leaves unharmed streams unharmed mirrors itself where nothing else is asked for. -/
theorem self {P : Fault → Prop} {a : Action α} (ha : a.Spares P) :
    Mirrored (fun s t => t = s ∧ s.Unharmed) Eq a a := by
  rintro s _ ⟨rfl, hs⟩
  have h := ha _ hs
  cases hrun : a _ <;> rw [hrun] at h
  · exact ⟨rfl, rfl, h⟩
  · exact .inr ⟨_, rfl, rfl, h.2⟩

/-! ## Blocks -/

variable {route route' : Route} {a b : Action Unit}

theorem leave_fault
    (hfinish : Mirrored R Eq (finish route) (finish route')) (e : Fault) :
    Mirrored R Eq (leave route true (some e)) (leave route' true (some e)) := by
  refine hfinish.bind_eq fun _ => ?_
  cases e with
  | exhausted => exact pure rfl
  | _ => exact throw _

/-- A fault for good comes out of the block, unless the end of the block is one, too. -/
theorem leave_fatal {e : Fault} (he : e.isFatal = true) {s : Stream} (hs : s.Unharmed)
    (r : EStateM.Result Fault Stream Unit) :
    Followed R Eq (leave route true (some e) s) r := by
  have h := @Spares.finish route s hs
  rw [leave_eq]
  cases hrun : finish route s <;> rw [hrun] at h
  · cases e <;> first | exact .inl ⟨rfl, h⟩ | cases he
  · exact .inl h

/-- **A block around mirrored actions.** -/
theorem within {level : Option Int}
    {opening perLine closing : Text}
    (henter : Mirrored R Eq (enter route level opening perLine closing)
      (enter route' level opening perLine closing))
    (hfinish : Mirrored R Eq (finish route) (finish route')) (hab : Mirrored R Eq a b) :
    Mirrored R Eq (within route level opening perLine closing a)
      (within route' level opening perLine closing b) := by
  refine henter.bind_eq fun begun => ?_
  cases begun with
  | false => exact pure rfl
  | true =>
    intro s t hs
    have h := hab s t hs
    show Followed R Eq (EStateM.bind (fault? a) (leave route true) s)
      (EStateM.bind (fault? b) (leave route' true) t)
    unfold EStateM.bind
    rw [fault?_eq, fault?_eq]
    cases hrun : a s with
    | ok _ s₁ =>
      cases hrun' : b t <;> rw [hrun, hrun'] at h
      · exact (hfinish.bind_eq fun _ => pure rfl) _ _ h.2
      · exact h.elim
    | error e s₁ =>
      rw [hrun] at h
      obtain ⟨he, hs₁⟩ | ⟨t₁, ht₁, hs₁⟩ := h
      · exact leave_fatal he hs₁ _
      · rw [ht₁]
        exact leave_fault hfinish e _ _ hs₁

end Mirrored

end Action

end Tilde
