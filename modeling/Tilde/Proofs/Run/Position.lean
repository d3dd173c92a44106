import Mathlib.Algebra.Order.Group.Int
import Tilde.Cursor

/-!
# Whole positions

Cursors usually stand at whole numbers. From there, reading goes one place further, and no other
place is ever reached but one of the list, or its end.

* `Cursor.At`: the cursor stands at a whole number;
* `of_next`, `of_goto`: where the steps of a cursor lead to.
-/

namespace Tilde

theorem exists_of_bind_ok {ε α β : Type} {a : Except ε α} {k : α → Except ε β} {y : β}
    (h : a >>= k = .ok y) : ∃ x, a = .ok x ∧ k x = .ok y := by
  cases a with
  | error e => cases h
  | ok x => exact ⟨x, rfl, h⟩

variable {v w : Value} {n m : Int} {c c' : Cursor}

namespace Value

theorem int_or_bool (h : v.integer? = some n) : v = .int n ∨ ∃ b, v = .bool b := by
  cases v <;> simp_all [integer?]

theorem number_of_integer (h : v.integer? = some n) : v.number? = some (.integer n) := by
  cases v <;> simp_all [integer?, number?]

theorem plus_of_integer (h : v.integer? = some n) (m : Int) :
    v.plus (.int m) = .ok (.int (n + m)) := by
  cases v <;> simp only [integer?, Option.some.injEq, reduceCtorEq] at h <;> subst h <;> rfl

theorem less_of_integer (hv : v.integer? = some n) (hw : w.integer? = some m) :
    v.less w = .ok (decide (n < m)) := by
  have hcompare : (some (compare n m) == some .lt) = decide (n < m) := by
    rw [Bool.eq_iff_iff]
    simp [compare_lt_iff_lt]
  simp only [less, number_of_integer hv, number_of_integer hw, Number.below, Number.order?]
  exact congrArg Except.ok hcompare

theorem atMost_of_integer (hv : v.integer? = some n) (hw : w.integer? = some m) :
    v.numberAtMost w = .ok (decide (n ≤ m)) := by
  simp only [numberAtMost, asNumber, number_of_integer hv, number_of_integer hw, Number.atMost,
    Number.order?, bind, Except.bind]
  rcases lt_trichotomy n m with h | rfl | h
  · simp [compare_lt_iff_lt.mpr h, h.le, pure, Except.pure]
  · simp [pure, Except.pure]
  · simp [compare_gt_iff_gt.mpr h, h, pure, Except.pure]

theorem equal_of_integer (hv : v.integer? = some n) (hw : w.integer? = some m) :
    v.equal w = .ok (decide (n = m)) := by
  have hnumbers : v.equal w = (Number.integer n).equal (.integer m) := by
    obtain rfl | ⟨a, rfl⟩ := int_or_bool hv <;> obtain rfl | ⟨b, rfl⟩ := int_or_bool hw <;>
      simp only [equal, number_of_integer hv, number_of_integer hw]
  rw [hnumbers]
  rfl

end Value

namespace Cursor

/-- The cursor stands at the whole number. -/
def At (c : Cursor) (n : Int) : Prop := c.position.integer? = some n

theorem at_moved (c : Cursor) (n : Int) : (c.moved (.int n)).At n := rfl

theorem isEmpty_of_at (h : c.At n) : c.isEmpty = decide ((c.length : Int) ≤ n) := by
  unfold isEmpty
  split
  · rename_i m hm
    rw [At, hm] at h
    rw [Option.some.inj h]
  · rw [Value.atMost_of_integer rfl h]
    rfl

theorem of_next (h : c.next = .ok (v, c')) :
    ∃ n, c.At n ∧ n < c.length ∧ c' = c.moved (.int (n + 1)) := by
  unfold next at h
  split at h
  · cases h
  · rename_i hempty
    unfold Value.asInteger at h
    cases hn : c.position.integer? with
    | none => simp [hn, bind, Except.bind] at h
    | some n =>
      simp only [hn, bind, Except.bind] at h
      split at h
      · rw [Value.plus_of_integer hn] at h
        obtain ⟨-, rfl⟩ := by simpa [pure, Except.pure] using h
        exact ⟨n, hn, by simpa [isEmpty_of_at hn] using hempty, rfl⟩
      · cases h

theorem of_goto (h : c.goto v = .ok c') :
    c' = c.moved v ∧ ∀ n, v.integer? = some n → 0 ≤ n ∧ n ≤ c.length := by
  unfold goto at h
  obtain ⟨below, hbelow, h⟩ := exists_of_bind_ok h
  obtain ⟨beyond, hbeyond, h⟩ := exists_of_bind_ok h
  split at h
  · cases h
  · rename_i hinside
    cases h
    refine ⟨rfl, fun n hn => ?_⟩
    obtain rfl := Except.ok.inj ((Value.less_of_integer hn rfl).symm.trans hbelow)
    obtain rfl := Except.ok.inj ((Value.less_of_integer rfl hn).symm.trans hbeyond)
    simpa using hinside

theorem goto_int (h : 0 ≤ n) (hlength : n ≤ c.length) :
    c.goto (.int n) = .ok (c.moved (.int n)) := by
  have hlow : (Value.int n).isBelowZero = .ok false := by
    rw [Value.isBelowZero, Value.less_of_integer rfl rfl, decide_eq_false (by omega)]
  have hhigh : (Value.int c.length).less (.int n) = .ok false := by
    rw [Value.less_of_integer rfl rfl, decide_eq_false (by omega)]
  simp [goto, hlow, hhigh, bind, Except.bind, pure, Except.pure]

theorem goto_moved (h : 0 ≤ n) (hlength : n ≤ c.length) (v : Value) :
    (c.moved v).goto (.int n) = .ok (c.moved (.int n)) :=
  @goto_int n (c.moved v) h hlength

theorem remaining_of_at (h : c.At n) : c.remaining = .ok (.int (c.length - n)) := by
  unfold remaining Value.minus Value.numeric Value.asNumber
  rw [Value.number_of_integer h]
  rfl

end Cursor

end Tilde
