import Mathlib.Tactic.SplitIfs
import Tilde.Layout.Printer

/-!
# Faults of output

Output may go wrong, but what goes wrong then is none of the faults that are handled when values are
printed: that a list has run out, or that blocks are nested too deeply.

* `Fault.isFatal`: the other faults;
* `isFatal_indentation`, `isFatal_leadBelow`, `isFatal_plus`: those of texts that cannot be made and
  of indentations that are no sums.
-/

namespace Tilde

/-- The fault is not handled when values are printed. -/
def Fault.isFatal : Fault → Bool
  | exhausted | levelExceeded _ => false
  | _ => true

variable {e : Fault}

theorem isFatal_bounded {α : Type} {x : Except Excess α} (h : Fault.bounded x = .error e) :
    e.isFatal = true := by
  cases x with
  | ok x => cases h
  | error excess => cases excess <;> cases h <;> rfl

theorem isFatal_indentation {b : BlockState} (h : b.indentation = .error e) :
    e.isFatal = true := by
  unfold BlockState.indentation at h
  split at h
  · exact isFatal_bounded h
  · cases h
    rfl

theorem isFatal_leadBelow {parentLead perLine : Text} {column : Int}
    (h : Printer.leadBelow parentLead perLine column = .error e) : e.isFatal = true := by
  unfold Printer.leadBelow at h
  split_ifs at h
  cases hgap : Fault.bounded (Text.repeated [' '] (column - parentLead.length)) with
  | error e' =>
    rw [hgap] at h
    cases h
    exact isFatal_bounded hgap
  | ok gap =>
    rw [hgap] at h
    cases h

/-! ## Sums -/

theorem isFatal_fitted {negative : Bool} {c : Nat} {n : Int}
    (h : Decimal.fitted negative c n = .error e) : e.isFatal = true := by
  unfold Decimal.fitted at h
  dsimp only at h
  split_ifs at h <;> cases h <;> rfl

theorem isFatal_decimalPlus {d d' : Decimal} (h : d.plus d' = .error e) : e.isFatal = true := by
  unfold Decimal.plus at h
  split at h
  · rename_i r hnan
    unfold Decimal.withNaN? at hnan
    subst h
    split at hnan <;> cases hnan <;> rfl
  · split_ifs at h
    cases h
    rfl
  · cases h
  · cases h
  · split_ifs at h <;> exact isFatal_fitted h
  · cases h
    rfl

theorem isFatal_realPart {n : Number} (h : n.realPart = .error e) : e.isFatal = true := by
  have hbinary {q : Rat} (h : Number.binaryOf q = .error e) : e.isFatal = true := by
    unfold Number.binaryOf at h
    split at h <;> cases h
    rfl
  cases n with
  | integer n => exact hbinary h
  | ratio q => exact hbinary h
  | binary x => cases h
  | _ =>
    cases h
    rfl

theorem isFatal_pair {m n : Number} (h : Number.pair m n = .error e) : e.isFatal = true := by
  have hbind {α : Type} {n : Number} {f : Binary64 → Except Fault α}
      (hf : ∀ x, f x = .error e → e.isFatal = true) (h : n.realPart >>= f = .error e) :
      e.isFatal = true := by
    cases hn : n.realPart with
    | error e' =>
      rw [hn] at h
      cases h
      exact isFatal_realPart hn
    | ok x =>
      rw [hn] at h
      exact hf x h
  unfold Number.pair at h
  split at h
  case h_9 | h_10 => exact hbind (fun x h => by cases h) h
  case h_11 => exact hbind (fun x => hbind fun y h => by cases h) h
  all_goals cases h

theorem isFatal_plus {m n : Number} (h : m.plus n = .error e) : e.isFatal = true := by
  unfold Number.plus at h
  cases hpair : Number.pair m n with
  | error e' =>
    rw [hpair] at h
    cases h
    exact isFatal_pair hpair
  | ok pair =>
    rw [hpair] at h
    cases pair with
    | decimals d d' =>
      cases hplus : d.plus d' with
      | error e' =>
        simp only [hplus, bind, Except.bind] at h
        cases h
        exact isFatal_decimalPlus hplus
      | ok x =>
        simp only [hplus, bind, Except.bind] at h
        cases h
    | _ => cases h

end Tilde
