import DecisionTables.Scalar
import Mathlib.Data.String.Basic
import Mathlib.Order.Compare

/-!
# The order of scalars

Integers are ordered as numbers, decimals by value, false is below true, dates follow the calendar and texts the
dictionary (`Scalar.Below`). Two scalars of one kind are compared by this order, and equal scalars compare alike.
-/

namespace DecisionTables

namespace Date

private theorem compare_eq_lt_iff {a b : Date} :
    a.compare b = .lt ↔
      a.year < b.year ∨ a.year = b.year ∧ (a.month < b.month ∨ a.month = b.month ∧ a.day < b.day) := by
  simp only [compare, compareLex, compareOn, Ordering.then_eq_lt, compare_lt_iff_lt, compare_eq_iff_eq]

private theorem compare_eq_eq_iff {a b : Date} : a.compare b = .eq ↔ a = b := by
  simp only [compare, compareLex, compareOn, Ordering.then_eq_eq, compare_eq_iff_eq]
  constructor
  · rintro ⟨hyear, hmonth, hday⟩
    cases a
    cases b
    simp_all
  · rintro rfl
    exact ⟨rfl, rfl, rfl⟩

private theorem swap_compare (a b : Date) : (a.compare b).swap = b.compare a := by
  have horiented : Std.OrientedCmp compare :=
    inferInstanceAs (Std.OrientedCmp (compareLex (compareOn year) (compareLex (compareOn month) (compareOn day))))
  exact Std.OrientedCmp.eq_swap.symm

end Date

namespace Scalar

/-- The order of the scalars of one kind. -/
def Below : Scalar → Scalar → Prop
  | .text a, .text b => a < b
  | .integer a, .integer b => a < b
  | .boolean a, .boolean b => a = false ∧ b = true
  | .date a, .date b =>
    a.year < b.year ∨ a.year = b.year ∧ (a.month < b.month ∨ a.month = b.month ∧ a.day < b.day)
  | .decimal a, .decimal b => a.units < b.units
  | _, _ => False

variable {x y : Scalar}

theorem compare?_eq_lt_iff (hkind : x.kind = y.kind) : x.compare? y = some .lt ↔ x.Below y := by
  cases x <;> cases y <;> simp only [kind, reduceCtorEq] at hkind <;>
    simp only [compare?, Below, Option.some.injEq, reduceCtorEq]
  · exact compare_lt_iff_lt
  · rw [compare_lt_iff_lt, Int64.lt_iff_toInt_lt]
  · decide +revert
  · exact Date.compare_eq_lt_iff
  · exact compare_lt_iff_lt

theorem compare?_eq_eq_iff (hkind : x.kind = y.kind) : x.compare? y = some .eq ↔ x.equals y = true := by
  cases x <;> cases y <;> simp only [kind, reduceCtorEq] at hkind <;>
    simp only [compare?, equals, beq_iff_eq, Option.some.injEq, text.injEq, integer.injEq, boolean.injEq, date.injEq,
      beq_self_eq_true]
  · exact compare_eq_iff_eq
  · rw [compare_eq_iff_eq, Int64.toInt_inj]
  · decide +revert
  · exact Date.compare_eq_eq_iff
  · rw [Decimal.compare, compare_eq_iff_eq, Decimal.equals, beq_iff_eq]

theorem swap_compare? (x y : Scalar) : (x.compare? y).map Ordering.swap = y.compare? x := by
  cases x <;> cases y <;> simp only [compare?, Option.map_some, Option.map_none, Option.some.injEq] <;> try rfl
  · exact Std.OrientedOrd.eq_swap.symm
  · exact Std.OrientedOrd.eq_swap.symm
  · exact Std.OrientedOrd.eq_swap.symm
  · exact Date.swap_compare _ _
  · exact Std.OrientedOrd.eq_swap.symm

theorem compare?_eq_gt_iff (hkind : x.kind = y.kind) : x.compare? y = some .gt ↔ y.Below x := by
  rw [← compare?_eq_lt_iff hkind.symm, ← swap_compare? x y]
  cases x.compare? y with
  | none => simp
  | some order => cases order <;> simp

theorem equals_iff : x.equals y = true ↔ x = y ∨ ∃ a b, x = .decimal a ∧ y = .decimal b ∧ a.units = b.units := by
  cases x <;> cases y <;> simp [equals, Decimal.equals]
  rintro rfl
  rfl

theorem equals_comm (x y : Scalar) : x.equals y = y.equals x := by
  rw [Bool.eq_iff_iff, equals_iff, equals_iff]
  constructor <;> rintro (rfl | ⟨a, b, rfl, rfl, h⟩)
  all_goals first | exact .inl rfl | exact .inr ⟨_, _, rfl, rfl, h.symm⟩

theorem kind_eq_of_equals (h : x.equals y = true) : x.kind = y.kind := by
  rcases equals_iff.1 h with rfl | ⟨a, b, rfl, rfl, -⟩ <;> rfl

/-- Equal scalars compare alike. -/
theorem compare?_congr {x' y' : Scalar} (hx : x.equals x' = true) (hy : y.equals y' = true) :
    x.compare? y = x'.compare? y' := by
  rcases equals_iff.1 hx with rfl | ⟨a, a', rfl, rfl, ha⟩ <;>
    rcases equals_iff.1 hy with rfl | ⟨b, b', rfl, rfl, hb⟩
  · rfl
  · cases x <;> simp [compare?, Decimal.compare, hb]
  · cases y <;> simp [compare?, Decimal.compare, ha]
  · simp [compare?, Decimal.compare, ha, hb]

end Scalar

end DecisionTables
