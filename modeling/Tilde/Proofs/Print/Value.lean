import Tilde.Proofs.Print.Element
import Tilde.Proofs.Print.Numeral

/-!
# Plain values print elements

**`prints_print`**: a value made of integers, lists, tuples and dictionaries is printed by strokes
that print elements, or the printing fails.

* `prints_items`, `prints_tuple`, `prints_entries`: the insides of a container, if its elements print
  elements.
-/

namespace Tilde

/-- A value made of integers, lists, tuples and dictionaries. -/
inductive Value.Plain : Value → Prop
  | int (n : Int) : Plain (.int n)
  | list {vs : List Value} (hvs : ∀ v ∈ vs, Plain v) : Plain (.list vs)
  | tuple {vs : List Value} (hvs : ∀ v ∈ vs, Plain v) : Plain (.tuple vs)
  | dict {es : List (Value × Value)} (hkeys : ∀ e ∈ es, Plain e.1) (hvalues : ∀ e ∈ es, Plain e.2) :
    Plain (.dict es)

namespace Action

variable {route : Route} {o : Options} {vs : List Value} {es : List (Value × Value)}

/-- The value prints elements, along any route without folds. -/
def PrintsValue (o : Options) (v : Value) : Prop :=
  ∀ route : Route, route.folds = [] → Prints .element (print route o v) .element

theorem prints_solid {s : Text} (hr : route.folds = []) (hs : Solid s) :
    Prints .element (write route s) .element :=
  prints_write hr hs.newline_notMem (.solid hs)

theorem prints_separator (hr : route.folds = []) (hpretty : o.pretty = true) :
    Prints .element (printSeparator route o) .element := by
  unfold printSeparator
  rw [hpretty]
  exact prints_bind (prints_write hr (by decide) .comma) (prints_newline hr)

theorem prints_items (hr : route.folds = []) (hpretty : o.pretty = true) (i : Nat)
    (hvs : ∀ v ∈ vs, PrintsValue o v) : Prints .element (printItems route o i vs) .element := by
  induction vs generalizing i with
  | nil =>
    rw [printItems]
    exact prints_pure _
  | cons v vs ih =>
    obtain ⟨hv, hvs⟩ := List.forall_mem_cons.mp hvs
    rw [printItems]
    split_ifs with hlength hlast
    · exact prints_solid hr (by decide)
    · refine prints_bind (hv route hr) (prints_bind (prints_separator hr hpretty) ?_)
      exact ih (i + 1) hvs
    · exact prints_bind (hv route hr) (prints_pure _)

theorem prints_tuple (hr : route.folds = []) (hpretty : o.pretty = true)
    (hvs : ∀ v ∈ vs, PrintsValue o v) : Prints .element (printTuple route o vs) .element := by
  cases vs with
  | nil =>
    rw [printTuple]
    exact prints_pure _
  | cons v vs =>
    obtain ⟨hv, hvs⟩ := List.forall_mem_cons.mp hvs
    have hcomma : Prints .element (write route [',']) .element := prints_solid hr (by decide)
    have hgap : Prints .element (write route [' ']) .separator := prints_write hr (by decide) .gap
    rw [printTuple]
    simp only [hpretty, if_true]
    split_ifs with hlength hlast
    · exact prints_solid hr (by decide)
    · refine prints_bind (hv route hr) (prints_bind hcomma (prints_bind hgap ?_))
      exact prints_bind (prints_newline hr) (prints_items hr hpretty 1 hvs)
    · exact prints_bind (hv route hr) (prints_bind hcomma (prints_pure _))

theorem prints_entries (hr : route.folds = []) (hpretty : o.pretty = true) (i : Nat)
    (hkeys : ∀ e ∈ es, PrintsValue o e.1) (hvalues : ∀ e ∈ es, PrintsValue o e.2) :
    Prints .element (printEntries route o i es) .element := by
  induction es generalizing i with
  | nil =>
    rw [printEntries]
    exact prints_pure _
  | cons e es ih =>
    obtain ⟨hkey, hkeys⟩ := List.forall_mem_cons.mp hkeys
    obtain ⟨hvalue, hvalues⟩ := List.forall_mem_cons.mp hvalues
    have hcolon : Prints .element (write route [':', ' ']) .element :=
      prints_write hr (by decide) .colon
    rw [printEntries]
    split_ifs with hlength hlast
    · exact prints_solid hr (by decide)
    · refine prints_bind (hkey route hr) (prints_bind hcolon (prints_bind (hvalue route hr) ?_))
      exact prints_bind (prints_separator hr hpretty) (ih (i + 1) hkeys hvalues)
    · refine prints_bind (hkey route hr) (prints_bind hcolon ?_)
      exact prints_bind (hvalue route hr) (prints_pure _)

/-- **Plain values print elements.** -/
theorem prints_print (hpretty : o.pretty = true) {v : Value} (hv : v.Plain) : PrintsValue o v := by
  induction hv with
  | int n =>
    intro route hr
    rw [print]
    refine prints_descend hr _ fun route hr => prints_lift (fun e he => ?_) fun s hs => ?_
    · unfold integerText at he
      split at he <;> cases he
      rfl
    · exact prints_solid hr (solid_integerText hs)
  | list hvs ih =>
    intro route hr
    rw [print]
    exact prints_descend hr _ fun route hr =>
      prints_within hr _ (by decide) (by decide) (prints_items hr hpretty 0 ih)
  | tuple hvs ih =>
    intro route hr
    rw [print]
    exact prints_descend hr _ fun route hr =>
      prints_within hr _ (by decide) (by decide) (prints_tuple hr hpretty ih)
  | dict hkeys hvalues ihkeys ihvalues =>
    intro route hr
    rw [print]
    exact prints_descend hr _ fun route hr =>
      prints_within hr _ (by decide) (by decide) (prints_entries hr hpretty 0 ihkeys ihvalues)

end Action

end Tilde
