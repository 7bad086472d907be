import DecisionTables.Number.Integer

/-!
# Exact decimal numbers

A decimal is a sign, a mantissa below `2 ^ 96` and a scale of at most 28 decimal places. The scale is part of
the number as written: `1.5` and `1.50` are different decimals of equal value. Values are compared exactly,
through the count of units `10 ^ -28` (`units`), in which neither the scale nor the sign of zero is visible.
Dropping the zeros at the end of the fraction keeps the value (`units_normalize`).
-/

namespace DecisionTables

/-- Digits and decimal places of a number, without its sign. -/
structure Magnitude where
  mantissa : Nat
  scale : Nat
  mantissa_lt : mantissa < 0x1000000000000000000000000 := by decide
  scale_le : scale ≤ 28 := by decide
  deriving DecidableEq, Repr

/-- An exact decimal number. -/
structure Decimal extends Magnitude where
  negative : Bool
  deriving DecidableEq, Repr

/-- The zero without decimal places. -/
def Magnitude.zero : Magnitude := { mantissa := 0, scale := 0 }

namespace Decimal

/-- The decimal of a sign, a mantissa and a scale, where they are in range. -/
def ofParts? (negative : Bool) (mantissa scale : Nat) : Option Decimal :=
  if h : mantissa < 0x1000000000000000000000000 ∧ scale ≤ 28 then some ⟨⟨mantissa, scale, h.1, h.2⟩, negative⟩
  else none

/-- The decimal of a signed mantissa and a scale, where they are in range. Zero is not negative. -/
def ofInt? (mantissa : Int) (scale : Nat) : Option Decimal :=
  ofParts? (decide (mantissa < 0)) mantissa.natAbs scale

/-- A magnitude under a sign. Zero is not negative. -/
def signed (negative : Bool) (x : Magnitude) : Decimal :=
  ⟨x, negative && x.mantissa != 0⟩

/-- A number under a sign. -/
def withSign (negative : Bool) (n : Nat) : Int :=
  if negative then -n else n

/-- The number counted in units of the last of 28 decimal places. -/
def units (d : Decimal) : Int :=
  withSign d.negative (d.mantissa * Nat.pow 10 (28 - d.scale))

/-- Equality of values. -/
def equals (a b : Decimal) : Bool :=
  a.units == b.units

/-- The order of values. -/
def compare (a b : Decimal) : Ordering :=
  Ord.compare a.units b.units

/-- Without a fraction. -/
def isWhole (d : Decimal) : Bool :=
  d.mantissa % Nat.pow 10 d.scale == 0

/-- The number without its fraction. -/
def truncate (d : Decimal) : Int :=
  withSign d.negative (d.mantissa / Nat.pow 10 d.scale)

/-- The integer of equal value. -/
def toInteger? (d : Decimal) : Option Int64 :=
  if d.isWhole then Integer.ofInt? d.truncate else none

private theorem natAbs_toInt_lt (n : Int64) : n.toInt.natAbs < 0x1000000000000000000000000 := by
  have h1 := n.le_toInt
  have h2 := n.toInt_lt
  omega

/-- The decimal of an integer, without decimal places. -/
def ofInteger (n : Int64) : Decimal :=
  ⟨⟨n.toInt.natAbs, 0, natAbs_toInt_lt n, by decide⟩, decide (n.toInt < 0)⟩

end Decimal

/-- Drops zeros at the end of the fraction from a mantissa and its scale. -/
def Magnitude.dropZeros : Nat → Nat → Nat × Nat
  | m, 0 => (m, 0)
  | m, s + 1 => if m % 10 = 0 then dropZeros (m / 10) s else (m, s + 1)

private theorem Magnitude.dropZeros_scale_le (m s : Nat) : (dropZeros m s).2 ≤ s := by
  induction s generalizing m with
  | zero => simp [dropZeros]
  | succ s ih =>
    rw [dropZeros]
    split
    · exact Nat.le_succ_of_le (ih _)
    · exact Nat.le_refl _

theorem Magnitude.dropZeros_mul (m s : Nat) :
    (dropZeros m s).1 * Nat.pow 10 (s - (dropZeros m s).2) = m := by
  induction s generalizing m with
  | zero => simp [dropZeros]
  | succ s ih =>
    rw [dropZeros]
    split
    · have hs : s + 1 - (dropZeros (m / 10) s).2 = s - (dropZeros (m / 10) s).2 + 1 := by
        have := dropZeros_scale_le (m / 10) s
        omega
      have hp : Nat.pow 10 (s - (dropZeros (m / 10) s).2 + 1) = Nat.pow 10 (s - (dropZeros (m / 10) s).2) * 10 := rfl
      rw [hs, hp, ← Nat.mul_assoc, ih]
      omega
    · simp

private theorem Magnitude.dropZeros_mantissa_le (m s : Nat) : (dropZeros m s).1 ≤ m := by
  have h := dropZeros_mul m s
  have hp : 1 ≤ Nat.pow 10 (s - (dropZeros m s).2) := Nat.pow_pos (by decide)
  calc (dropZeros m s).1 = (dropZeros m s).1 * 1 := (Nat.mul_one _).symm
    _ ≤ (dropZeros m s).1 * Nat.pow 10 (s - (dropZeros m s).2) := Nat.mul_le_mul_left _ hp
    _ = m := h

/-- The magnitude without zeros at the end of its fraction. -/
def Magnitude.reduce (x : Magnitude) : Magnitude where
  mantissa := (dropZeros x.mantissa x.scale).1
  scale := (dropZeros x.mantissa x.scale).2
  mantissa_lt := Nat.lt_of_le_of_lt (dropZeros_mantissa_le _ _) x.mantissa_lt
  scale_le := Nat.le_trans (dropZeros_scale_le _ _) x.scale_le

namespace Decimal

/-- The decimal of equal value without zeros at the end of its fraction; zero is the plain zero. -/
def normalize (d : Decimal) : Decimal :=
  if d.mantissa = 0 then ⟨.zero, false⟩ else ⟨d.toMagnitude.reduce, d.negative⟩

theorem units_normalize (d : Decimal) : d.normalize.units = d.units := by
  rw [normalize]
  split
  next h => simp [units, withSign, Magnitude.zero, h]
  next h =>
    have hs := Magnitude.dropZeros_scale_le d.mantissa d.scale
    have hd := d.scale_le
    have key : (Magnitude.dropZeros d.mantissa d.scale).1 *
        Nat.pow 10 (28 - (Magnitude.dropZeros d.mantissa d.scale).2) = d.mantissa * Nat.pow 10 (28 - d.scale) := by
      have e : 28 - (Magnitude.dropZeros d.mantissa d.scale).2 =
          (d.scale - (Magnitude.dropZeros d.mantissa d.scale).2) + (28 - d.scale) := by omega
      have hm := Magnitude.dropZeros_mul d.mantissa d.scale
      simp only [Nat.pow_eq] at hm ⊢
      rw [e, Nat.pow_add, ← Nat.mul_assoc, hm]
    exact congrArg (withSign d.negative) key

end Decimal

end DecisionTables
