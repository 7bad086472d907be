import DecisionTables.Number.Decimal

/-!
# Printing decimals

A decimal is printed with a minus sign in front of a negative one, zero included, at least one digit before
the point, and exactly as many digits after it as its scale; a scale of zero prints no point.
-/

namespace DecisionTables

/-- The digits of `m / 10 ^ s` with exactly `s` of them after the point, and no point where `s` is zero. -/
def Text.pointed (m s : Nat) : List Char :=
  if s = 0 then Text.digits m else Text.digits (m / Nat.pow 10 s) ++ '.' :: Text.padded s (m % Nat.pow 10 s)

namespace Decimal

/-- The characters of a printed decimal. -/
def chars (d : Decimal) : List Char :=
  if d.negative then '-' :: Text.pointed d.mantissa d.scale else Text.pointed d.mantissa d.scale

/-- A decimal as printed. -/
def text (d : Decimal) : String :=
  String.ofList d.chars

end Decimal

end DecisionTables
