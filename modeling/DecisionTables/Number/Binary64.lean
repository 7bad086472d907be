/-!
# Binary floating-point numbers

The numbers of IEEE 754 `binary64`, as words of 64 bits: a sign, eleven bits of exponent and 52 bits of
fraction. A finite number is its significand times a power of two.
-/

namespace DecisionTables

/-- A number of IEEE 754 `binary64`. -/
structure Binary64 where
  bits : UInt64
  deriving DecidableEq, Repr

namespace Binary64

/-- What a word stands for. -/
inductive Meaning where
  | nan
  | infinite (negative : Bool)
  /-- The number `significand * 2 ^ exponent` under a sign. -/
  | finite (negative : Bool) (significand : Nat) (exponent : Int)
  deriving DecidableEq, Repr

def isNegative (x : Binary64) : Bool :=
  0x8000000000000000 ≤ x.bits.toNat

/-- The eleven bits of the exponent. -/
def exponentBits (x : Binary64) : Nat :=
  x.bits.toNat / 0x10000000000000 % 0x800

/-- The 52 bits of the fraction. -/
def fractionBits (x : Binary64) : Nat :=
  x.bits.toNat % 0x10000000000000

/-- Reads the fields of a word. The hidden bit is in front of the fraction unless the exponent bits are zero.
-/
def meaning (x : Binary64) : Meaning :=
  if x.exponentBits = 2047 then
    if x.fractionBits = 0 then .infinite x.isNegative else .nan
  else if x.exponentBits = 0 then .finite x.isNegative x.fractionBits (-1074)
  else .finite x.isNegative (0x10000000000000 + x.fractionBits) (x.exponentBits - 1075)

/-- Not a number, whatever its payload. -/
def isNaN (x : Binary64) : Bool :=
  x.exponentBits == 2047 && x.fractionBits != 0

end Binary64

end DecisionTables
