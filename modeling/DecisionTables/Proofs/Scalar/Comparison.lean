import DecisionTables.Proofs.Scalar.Order
import DecisionTables.Proofs.Scalar.Views

/-!
# The comparison of scalars is a partial order

Two scalars are comparable exactly if they are of one kind or one of them is null. Null is below all others, and the
scalars of one kind are totally ordered up to equality (`Scalar.AtMost`). Decimals are equal, and ordered, as the
numbers that they stand for, so the comparison sees neither zeros at the end of a fraction nor the sign of zero
(`Decimal.value_eq_iff_rescales`). All of it together is `Scalar.compare?_consistent`.
-/

namespace DecisionTables

namespace Decimal

/-- Two decimals differ in nothing but zeros at the end of the fraction and, if they are zero, in the sign. -/
def Rescales (a b : Decimal) : Prop :=
  a.mantissa * 10 ^ b.scale = b.mantissa * 10 ^ a.scale ∧ (a.negative = b.negative ∨ a.mantissa = 0)

private theorem withSign_eq_iff {a b : Bool} {n m : ℕ} : withSign a n = withSign b m ↔ n = m ∧ (a = b ∨ n = 0) := by
  cases a <;> cases b <;>
    simp only [withSign, Bool.false_eq_true, if_false, if_true, reduceCtorEq, false_or, true_or, and_true] <;> omega

theorem value_eq_iff_rescales {a b : Decimal} : a.value = b.value ↔ a.Rescales b := by
  have ha : (10 : ℚ) ^ a.scale ≠ 0 := by positivity
  have hb : (10 : ℚ) ^ b.scale ≠ 0 := by positivity
  have hcross : a.value = b.value ↔
      withSign a.negative (a.mantissa * 10 ^ b.scale) = withSign b.negative (b.mantissa * 10 ^ a.scale) := by
    rw [value_eq_div, value_eq_div, div_eq_div_iff ha hb, withSign_mul, withSign_mul, ← Int.cast_inj (α := ℚ)]
    push_cast
    rfl
  have hpow : (10 : ℕ) ^ b.scale ≠ 0 := by positivity
  rw [hcross, withSign_eq_iff, Rescales, Nat.mul_eq_zero, or_iff_left hpow]

private theorem units_lt_iff {a b : Decimal} : a.units < b.units ↔ a.value < b.value := by
  have hpow : (0 : ℚ) < 10 ^ 28 := by positivity
  rw [← Int.cast_lt (R := ℚ), units_eq, units_eq, mul_lt_mul_iff_left₀ hpow]

end Decimal

namespace Scalar

/-- The comparison finds one scalar below the other, or equal to it. -/
def AtMost (x y : Scalar) : Prop :=
  x.compare? y = some .lt ∨ x.compare? y = some .eq

variable {x y z : Scalar}

private theorem isSome_compare?_iff : (x.compare? y).isSome = true ↔ x.kind = y.kind ∨ x = .null ∨ y = .null := by
  cases x <;> cases y <;> simp [compare?, kind]

private theorem null_compare? (hx : x ≠ .null) : Scalar.null.compare? x = some .lt := by
  cases x with
  | null => exact absurd rfl hx
  | _ => rfl

/-! ### Equality -/

private theorem equals_self (x : Scalar) : x.equals x = true :=
  equals_iff.2 (.inl rfl)

private theorem null_equals_iff : Scalar.null.equals x = true ↔ x = .null := by
  cases x <;> simp [equals]

private theorem equals_null_iff : x.equals .null = true ↔ x = .null := by
  rw [equals_comm, null_equals_iff]

/-- The comparison says equal exactly for equal scalars, of whatever kinds. -/
private theorem compare?_eq_some_eq_iff : x.compare? y = some .eq ↔ x.equals y = true := by
  by_cases hkind : x.kind = y.kind
  · exact compare?_eq_eq_iff hkind
  · constructor
    · intro h
      cases x <;> cases y <;> first | exact absurd rfl hkind | simp [compare?] at h
    · intro h
      exact absurd (kind_eq_of_equals h) hkind

/-! ### The order of one kind -/

namespace Below

private theorem kind_eq (h : x.Below y) : x.kind = y.kind := by
  cases x <;> cases y <;> first | rfl | exact h.elim

private theorem right_ne_null (h : x.Below y) : y ≠ .null := by
  rintro rfl
  cases x <;> exact h

theorem trans (hxy : x.Below y) (hyz : y.Below z) : x.Below z := by
  cases x <;> cases y <;> (try exact hxy.elim) <;> cases z <;> (try exact hyz.elim)
  case text.text.text a b c => exact lt_trans (α := String) hxy hyz
  case integer.integer.integer a b c => exact Int64.lt_trans hxy hyz
  case boolean.boolean.boolean a b c =>
    -- nothing lies between false and true
    have hfalse : b = false := hyz.1
    rw [hxy.2] at hfalse
    cases hfalse
  case date.date.date a b c =>
    simp only [Below] at hxy hyz ⊢
    omega
  case decimal.decimal.decimal a b c => exact Int.lt_trans hxy hyz

private theorem congr_right (h : x.Below y) (he : y.equals z = true) : x.Below z := by
  have hkind := h.kind_eq
  rw [← compare?_eq_lt_iff hkind, compare?_congr (equals_self x) he] at h
  exact (compare?_eq_lt_iff (hkind.trans (kind_eq_of_equals he))).1 h

theorem congr_left (he : x.equals y = true) (h : y.Below z) : x.Below z := by
  have hkind := h.kind_eq
  rw [← compare?_eq_lt_iff hkind, ← compare?_congr he (equals_self z)] at h
  exact (compare?_eq_lt_iff ((kind_eq_of_equals he).trans hkind)).1 h

end Below

private theorem equals_trans (hxy : x.equals y = true) (hyz : y.equals z = true) : x.equals z = true := by
  rw [← compare?_eq_some_eq_iff] at hyz ⊢
  rw [compare?_congr hxy (equals_self z), hyz]

/-- Of two scalars of one kind that are not equal one is below the other. -/
private theorem below_trichotomy (hkind : x.kind = y.kind) : x.Below y ∨ x.equals y = true ∨ y.Below x := by
  rw [← compare?_eq_lt_iff hkind, ← compare?_eq_eq_iff hkind, ← compare?_eq_gt_iff hkind]
  obtain ⟨order, horder⟩ := Option.isSome_iff_exists.1 (isSome_compare?_iff.2 (.inl hkind))
  rw [horder]
  cases order <;> simp

/-! ### The partial order -/

/-- Null is at most every scalar, and the others are compared within their kind. -/
private theorem atMost_iff : x.AtMost y ↔ x = .null ∨ x.Below y ∨ x.equals y = true := by
  rw [AtMost, compare?_eq_some_eq_iff]
  constructor
  · rintro (hlt | heq)
    · by_cases hx : x = .null
      · exact .inl hx
      · have hkind : x.kind = y.kind := by
          have hsome : (x.compare? y).isSome = true := by rw [hlt]; rfl
          rcases isSome_compare?_iff.1 hsome with hkind | hnull | rfl
          · exact hkind
          · exact absurd hnull hx
          · -- no scalar is below null
            cases x <;> simp [compare?] at hlt
        exact .inr (.inl ((compare?_eq_lt_iff hkind).1 hlt))
    · exact .inr (.inr heq)
  · rintro (rfl | hbelow | heq)
    · by_cases hy : y = .null
      · exact .inr (null_equals_iff.2 hy)
      · exact .inl (null_compare? hy)
    · exact .inl ((compare?_eq_lt_iff hbelow.kind_eq).2 hbelow)
    · exact .inr heq

theorem AtMost.trans (hxy : x.AtMost y) (hyz : y.AtMost z) : x.AtMost z := by
  rw [atMost_iff] at hxy hyz ⊢
  rcases hxy with hnull | hxy | hxy
  · exact .inl hnull
  · rcases hyz with rfl | hyz | hyz
    · exact absurd rfl hxy.right_ne_null
    · exact .inr (.inl (hxy.trans hyz))
    · exact .inr (.inl (hxy.congr_right hyz))
  · rcases hyz with rfl | hyz | hyz
    · exact .inl (equals_null_iff.1 hxy)
    · exact .inr (.inl (Below.congr_left hxy hyz))
    · exact .inr (.inr (equals_trans hxy hyz))

/-- Scalars that are at most each other are equal. -/
private theorem AtMost.antisymm (hxy : x.AtMost y) (hyx : y.AtMost x) : x.equals y = true := by
  rw [← compare?_eq_some_eq_iff]
  rcases hxy with hlt | heq
  · -- the other comparison is the reverse of this one
    have hgt : y.compare? x = some .gt := by rw [← swap_compare?, hlt]; rfl
    rcases hyx with h | h <;> rw [hgt] at h <;> cases h
  · exact heq

theorem AtMost.total (hkind : x.kind = y.kind) : x.AtMost y ∨ y.AtMost x := by
  rw [atMost_iff, atMost_iff]
  rcases below_trichotomy hkind with hbelow | heq | habove
  · exact .inl (.inr (.inl hbelow))
  · exact .inl (.inr (.inr heq))
  · exact .inr (.inr (.inl habove))

/-! ### Decimals -/

private theorem compare?_decimal_eq_lt_iff {a b : Decimal} :
    (decimal a).compare? (.decimal b) = some .lt ↔ a.value < b.value := by
  have hkind : (decimal a).kind = (decimal b).kind := rfl
  rw [compare?_eq_lt_iff hkind]
  exact Decimal.units_lt_iff

/-- Neither zeros at the end of the fraction nor the sign of zero can be told from comparisons. -/
private theorem compare?_decimal_congr {a b : Decimal} (h : a.Rescales b) (x : Scalar) :
    (decimal a).equals (.decimal b) = true ∧ (decimal a).compare? x = (decimal b).compare? x ∧
      x.compare? (.decimal a) = x.compare? (.decimal b) := by
  have hequals : (decimal a).equals (.decimal b) = true :=
    Decimal.equals_iff_value_eq.2 (Decimal.value_eq_iff_rescales.2 h)
  exact ⟨hequals, compare?_congr hequals (equals_self x), compare?_congr (equals_self x) hequals⟩

/-- Scalars are comparable if they are of one kind or one of them is null. Where they are, the comparison agrees with
equality, is reversed with its sides, is transitive, and total on each kind, and puts null below all others. Decimals
are compared as the numbers that they stand for, whatever their scale and the sign of a zero. -/
theorem compare?_consistent (x y z : Scalar) :
    ((x.compare? y).isSome = true ↔ x.kind = y.kind ∨ x = .null ∨ y = .null) ∧
    (x.compare? y = some .eq ↔ x.equals y = true) ∧
    y.compare? x = (x.compare? y).map Ordering.swap ∧
    (x.AtMost y → y.AtMost z → x.AtMost z) ∧
    (x ≠ .null → Scalar.null.compare? x = some .lt) ∧
    (x.kind = y.kind → (x.AtMost y ∨ y.AtMost x) ∧ (x.AtMost y → y.AtMost x → x.equals y = true)) ∧
    ∀ a b : Decimal,
      ((decimal a).equals (.decimal b) = true ↔ a.value = b.value) ∧
      ((decimal a).compare? (.decimal b) = some .lt ↔ a.value < b.value) ∧
      (a.Rescales b → (decimal a).equals (.decimal b) = true ∧ (decimal a).compare? x = (decimal b).compare? x ∧
        x.compare? (.decimal a) = x.compare? (.decimal b)) := by
  refine ⟨isSome_compare?_iff, compare?_eq_some_eq_iff, (swap_compare? x y).symm, AtMost.trans, null_compare?, ?_, ?_⟩
  · intro hkind
    exact ⟨AtMost.total hkind, AtMost.antisymm⟩
  · intro a b
    exact ⟨Decimal.equals_iff_value_eq, compare?_decimal_eq_lt_iff, fun h => compare?_decimal_congr h x⟩

/-- A zero with three decimal places and a minus sign. -/
def negativeZero : Decimal :=
  ⟨{ Magnitude.zero with scale := 3, scale_le := by decide }, true⟩

/-- It is above null, equal to the plain zero, which is above null therefore, and not comparable with a text. -/
theorem compare?_consistent_negativeZero :
    Scalar.null.AtMost (.decimal negativeZero) ∧ (decimal negativeZero).AtMost (.decimal ⟨.zero, false⟩) ∧
      Scalar.null.AtMost (.decimal ⟨.zero, false⟩) ∧
      (decimal negativeZero).equals (.decimal ⟨.zero, false⟩) = true ∧
      (decimal negativeZero).compare? (.text "0") = none := by
  obtain ⟨-, -, -, -, hnull, -, hdecimals⟩ :=
    compare?_consistent (.decimal negativeZero) (.decimal ⟨.zero, false⟩) .null
  obtain ⟨hequals, -, -⟩ := (hdecimals negativeZero ⟨.zero, false⟩).2.2 ⟨rfl, .inr rfl⟩
  obtain ⟨hcomparable, -⟩ := compare?_consistent (.decimal negativeZero) (.text "0") .null
  obtain ⟨-, -, -, hthrough, -⟩ :=
    compare?_consistent .null (.decimal negativeZero) (.decimal ⟨.zero, false⟩)
  have hleast : Scalar.null.AtMost (.decimal negativeZero) := .inl (hnull (by simp))
  have hequal : (decimal negativeZero).AtMost (.decimal ⟨.zero, false⟩) :=
    .inr (compare?_eq_some_eq_iff.2 hequals)
  refine ⟨hleast, hequal, hthrough hleast hequal, hequals, ?_⟩
  rw [← Option.isSome_eq_false_iff.trans Option.isNone_iff_eq_none]
  simpa [kind] using hcomparable

end Scalar

end DecisionTables
