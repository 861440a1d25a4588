import CivilTime.Calculator.Operator

/-!
# Comparisons of values

Values of a kind that has an order compare as this order says, whatever the operator. An order
that is that of other values, such as of the numbers behind them, compares as those do.
-/

namespace CivilTime.Value

theorem compare_eq_ok {a b : Value} {o : Ordering} (op : Comparison) (h : order? a b = some o) :
    compare op a b = .ok (holds op o) := by
  rw [compare, h]
  -- Lists and tuples, which are compared by their parts, have no order of this kind.
  all_goals
    rintro as bs rfl rfl
    cases h

theorem compareBy_congr {α β : Type} [LT α] [DecidableRel (fun a b : α => a < b)] [LT β]
    [DecidableRel (fun a b : β => a < b)] {a b : α} {c d : β} (hlt : a < b ↔ c < d)
    (hgt : b < a ↔ d < c) : compareBy a b = compareBy c d := by
  simp only [compareBy, hlt, hgt]

theorem holds_lt_iff (m n : Int) : holds .lt (compareBy m n) = true ↔ m < n := by
  simp only [holds, compareBy]
  split
  · simpa
  · split <;> simp <;> omega

theorem holds_le_iff (m n : Int) : holds .le (compareBy m n) = true ↔ m ≤ n := by
  simp only [holds, compareBy]
  split
  · simp
    omega
  · split <;> simp <;> omega

end CivilTime.Value
