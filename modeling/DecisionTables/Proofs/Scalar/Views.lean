import DecisionTables.Codec.Standard
import DecisionTables.Proofs.Number.Decimals
import Mathlib.Algebra.Order.Field.Rat
import Mathlib.Data.Rat.Cast.Defs
import Mathlib.Tactic.FieldSimp
import Mathlib.Tactic.Positivity

/-!
# Integers and decimals as each other

A decimal stands for a rational number (`Decimal.value`), of which its units are a count (`Decimal.units_eq`). It is
read as an integer, and converts to one, exactly if this number is an integer of 64 bits, whatever its scale and its
sign; otherwise it has a fraction or is out of range, and both fail. An integer is read as a decimal of the same value
and converts to it, up to both ends of the range, and is read back from it (`integer?_decimal_iff`).
-/

namespace DecisionTables

namespace Decimal

/-- The number that a decimal stands for. -/
def value (d : Decimal) : ℚ :=
  (if d.negative then -1 else 1) * d.mantissa / 10 ^ d.scale

/-- The number is no integer. -/
def IsFractional (d : Decimal) : Prop :=
  ∀ k : ℤ, d.value ≠ k

/-- The number is below or above all integers of 64 bits. -/
def IsBeyondIntegers (d : Decimal) : Prop :=
  d.value < -2 ^ 63 ∨ 2 ^ 63 ≤ d.value

private theorem cast_withSign (negative : Bool) (n : ℕ) :
    (withSign negative n : ℚ) = (if negative then -1 else 1) * n := by
  cases negative <;> simp [withSign]

theorem withSign_mul (negative : Bool) (n m : ℕ) : withSign negative (n * m) = withSign negative n * m := by
  cases negative <;> simp [withSign]

theorem value_eq_div (d : Decimal) : d.value = (withSign d.negative d.mantissa : ℚ) / 10 ^ d.scale := by
  rw [cast_withSign, value]

/-- The units count the number in steps of the last decimal place. -/
theorem units_eq (d : Decimal) : (d.units : ℚ) = d.value * 10 ^ 28 := by
  have hscale : (10 : ℚ) ^ 28 = 10 ^ d.scale * 10 ^ (28 - d.scale) := by
    rw [← pow_add, Nat.add_sub_cancel' d.scale_le]
  have hpow : (10 : ℚ) ^ d.scale ≠ 0 := by positivity
  rw [units, withSign_mul, value_eq_div, hscale, Nat.pow_eq]
  push_cast
  field_simp

/-- Decimals are equal exactly if they stand for the same number. -/
theorem equals_iff_value_eq {a b : Decimal} : a.equals b = true ↔ a.value = b.value := by
  have hpow : (10 : ℚ) ^ 28 ≠ 0 := by positivity
  rw [equals, beq_iff_eq, ← Int.cast_inj (α := ℚ), units_eq, units_eq, mul_left_inj' hpow]

/-- The number is an integer exactly if there is no fraction, and then it is what is left without one. -/
private theorem value_eq_intCast_iff {d : Decimal} {k : ℤ} : d.value = k ↔ d.isWhole = true ∧ d.truncate = k := by
  have hpos : 0 < 10 ^ d.scale := Nat.pow_pos (by decide)
  have hcross : d.value = k ↔ withSign d.negative d.mantissa = k * (10 ^ d.scale : ℕ) := by
    rw [value_eq_div, div_eq_iff (by positivity), ← Int.cast_inj (α := ℚ)]
    push_cast
    rfl
  rw [hcross, isWhole, beq_iff_eq, truncate, Nat.pow_eq]
  constructor
  · intro h
    have hmantissa : d.mantissa = k.natAbs * 10 ^ d.scale := by
      have habs := congrArg Int.natAbs h
      rwa [natAbs_withSign, Int.natAbs_mul, Int.natAbs_natCast] at habs
    have hwhole : d.mantissa % 10 ^ d.scale = 0 := by rw [hmantissa, Nat.mul_mod_left]
    refine ⟨hwhole, Int.eq_of_mul_eq_mul_right (Int.natCast_ne_zero.2 hpos.ne') ?_⟩
    rw [← withSign_mul, Nat.div_mul_cancel (Nat.dvd_of_mod_eq_zero hwhole), h]
  · rintro ⟨hwhole, rfl⟩
    rw [← withSign_mul, Nat.div_mul_cancel (Nat.dvd_of_mod_eq_zero hwhole)]

private theorem toInteger?_eq_some_iff {d : Decimal} {n : Int64} :
    d.toInteger? = some n ↔ d.value = (n.toInt : ℚ) := by
  rw [value_eq_intCast_iff, toInteger?]
  split
  next h => rw [Integer.ofInt?_eq_some, eq_comm, h, eq_self, true_and]
  next h => simp [h]

/-- Among the integers only those out of range have no integer of 64 bits of equal value. -/
private theorem toInteger?_eq_none_iff {d : Decimal} : d.toInteger? = none ↔ d.IsFractional ∨ d.IsBeyondIntegers := by
  constructor
  · intro h
    by_cases hfraction : d.IsFractional
    · exact .inl hfraction
    · right
      simp only [IsFractional, ne_eq, not_forall, not_not] at hfraction
      obtain ⟨k, hk⟩ := hfraction
      by_contra hinside
      rw [IsBeyondIntegers, hk, not_or, not_lt, not_le] at hinside
      have hlower : (-2 ^ 63 : ℤ) ≤ k := by exact_mod_cast hinside.1
      have hupper : k < (2 ^ 63 : ℤ) := by exact_mod_cast hinside.2
      have hsome : d.toInteger? = some (Int64.ofInt k) := by
        rw [toInteger?_eq_some_iff, hk, Int64.toInt_ofInt_of_le hlower hupper]
      rw [h] at hsome
      cases hsome
  · intro h
    rw [Option.eq_none_iff_forall_ne_some]
    intro n hn
    rw [toInteger?_eq_some_iff] at hn
    rcases h with hfraction | hbelow | habove
    · exact hfraction n.toInt hn
    · have hleast : (-2 ^ 63 : ℚ) ≤ n.toInt := by exact_mod_cast n.le_toInt
      rw [hn] at hbelow
      exact absurd hbelow (not_lt.2 hleast)
    · have hmost : (n.toInt : ℚ) < 2 ^ 63 := by exact_mod_cast n.toInt_lt
      rw [hn] at habove
      exact absurd habove (not_le.2 hmost)

private theorem value_ofInteger (n : Int64) : (ofInteger n).value = n.toInt := by
  have hsign : withSign (decide (n.toInt < 0)) n.toInt.natAbs = n.toInt := by
    rw [withSign]
    by_cases hn : n.toInt < 0
    · rw [if_pos (decide_eq_true hn)]
      omega
    · rw [if_neg (by simpa using hn)]
      omega
  rw [value_eq_div]
  simp only [ofInteger, hsign, pow_zero, div_one]

private theorem toInteger?_ofInteger (n : Int64) : (ofInteger n).toInteger? = some n :=
  toInteger?_eq_some_iff.2 (value_ofInteger n)

end Decimal

namespace Codec

private theorem convert_integer_decimal_eq_ok_iff {d : Decimal} {n : Int64} :
    integer.convert (.decimal d) = .ok (.integer n) ↔ d.toInteger? = some n := by
  show (if d.isWhole then _ else _) = _ ↔ _
  by_cases hwhole : d.isWhole = true
  · rw [if_pos hwhole]
    cases d.toInteger? <;> simp
  · simp [hwhole, unsupported, Decimal.toInteger?]

private theorem convert_integer_decimal_eq_error_iff {d : Decimal} :
    (∃ fault, integer.convert (.decimal d) = .error fault) ↔ d.toInteger? = none := by
  show (∃ fault, (if d.isWhole then _ else _) = _) ↔ _
  by_cases hwhole : d.isWhole = true
  · rw [if_pos hwhole]
    cases d.toInteger? <;> simp
  · simp [hwhole, unsupported, Decimal.toInteger?]

end Codec

namespace Scalar

private theorem integer?_decimal_eq_ok_iff {d : Decimal} {n : Int64} :
    (Scalar.decimal d).integer? = .ok (some n) ↔ d.toInteger? = some n := by
  rw [integer?]
  cases d.toInteger? <;> simp

private theorem integer?_decimal_eq_error_iff {d : Decimal} :
    (∃ fault, (Scalar.decimal d).integer? = .error fault) ↔ d.toInteger? = none := by
  rw [integer?]
  cases d.toInteger? <;> simp

/-- A decimal is read as an integer of 64 bits and converts to it exactly if it has its value, and both fail
exactly if it has a fraction or is out of range. An integer is read as a decimal of its value and converts to
it, and this decimal is read as the integer again and converts to it. -/
theorem integer?_decimal_iff (d : Decimal) (n : Int64) :
    ((Scalar.decimal d).integer? = .ok (some n) ↔ d.value = n.toInt) ∧
    (Codec.integer.convert (.decimal d) = .ok (.integer n) ↔ d.value = n.toInt) ∧
    ((∃ fault, (Scalar.decimal d).integer? = .error fault) ↔ d.IsFractional ∨ d.IsBeyondIntegers) ∧
    ((∃ fault, Codec.integer.convert (.decimal d) = .error fault) ↔ d.IsFractional ∨ d.IsBeyondIntegers) ∧
    ∃ widened, (Scalar.integer n).decimal? = .ok (some widened) ∧
      Codec.decimal.convert (.integer n) = .ok (.decimal widened) ∧ widened.value = n.toInt ∧
      (Scalar.decimal widened).integer? = .ok (some n) ∧
      Codec.integer.convert (.decimal widened) = .ok (.integer n) := by
  have hback := Decimal.toInteger?_ofInteger n
  refine ⟨?_, ?_, ?_, ?_, Decimal.ofInteger n, rfl, rfl, Decimal.value_ofInteger n,
    integer?_decimal_eq_ok_iff.2 hback, Codec.convert_integer_decimal_eq_ok_iff.2 hback⟩
  · rw [integer?_decimal_eq_ok_iff, Decimal.toInteger?_eq_some_iff]
  · rw [Codec.convert_integer_decimal_eq_ok_iff, Decimal.toInteger?_eq_some_iff]
  · rw [integer?_decimal_eq_error_iff, Decimal.toInteger?_eq_none_iff]
  · rw [Codec.convert_integer_decimal_eq_error_iff, Decimal.toInteger?_eq_none_iff]

end Scalar

end DecisionTables
