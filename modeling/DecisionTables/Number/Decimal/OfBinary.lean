import DecisionTables.Number.Binary64
import DecisionTables.Number.Decimal

/-!
# Decimals from binary numbers

A finite binary number becomes a decimal in words of 96 bits, keeping as many digits of its exact expansion as
fit and then giving up digits that the 52 bits of the number do not support. The number is held as `word * 2 ^
twos * 10 ^ tens` while the powers of two are traded for powers of ten; every step keeps the word in its
range.
-/

namespace DecisionTables.Decimal

/-- Trades `n` factors of a half for tenths: an even word is halved, an odd one takes the factor five, or is
halved with loss where five times the word does not fit. -/
def tradeHalves : Nat → Nat → Int → Nat × Int
  | 0, word, tens => (word, tens)
  | n + 1, word, tens =>
    if word % 2 = 0 then tradeHalves n (word / 2) (tens + 1)
    else if word * 5 < 0x1000000000000000000000000 then tradeHalves n (word * 5) tens
    else tradeHalves n (word / 2) (tens + 1)

/-- Trades `n` factors of two for tens: a word with room is doubled, another one divided by five with loss,
unless the powers of ten already exceed half of what is left. -/
def tradeTwos? : Nat → Nat → Int → Option (Nat × Int)
  | 0, word, tens => some (word, tens)
  | n + 1, word, tens =>
    if word < 0x800000000000000000000000 then tradeTwos? n (word * 2) (tens - 1)
    else if tens * 2 > n + 1 then none
    else tradeTwos? n (word / 5) tens

/-- Multiplies `n` powers of ten into the word. -/
def raise? : Nat → Nat → Option Nat
  | 0, word => some word
  | n + 1, word => if word * 10 < 0x1000000000000000000000000 then raise? n (word * 10) else none

/-- Drops the digits beyond the 28th decimal place one by one, each rounding the number in front of it. A
number that is used up has no decimal places. -/
def dropBeyond : Nat → Nat → Nat × Nat
  | word, 0 => (word, 0)
  | word, places + 1 =>
    if places + 1 ≤ 28 then (word, places + 1)
    else if word / 10 = 0 then (0, 0)
    else dropBeyond (if word % 10 < 5 then word / 10 else word / 10 + 1) places

/-- Drops the decimal places of a word that has more digits than 52 bits support, each rounding the number in
front of it. -/
def dropUnsupported : Nat → Nat → Nat × Nat
  | word, 0 => (word, 0)
  | word, places + 1 =>
    if word < 0x10000000000000 then (word, places + 1)
    else dropUnsupported (if word % 10 < 5 then word / 10 else word / 10 + 1) places

/-- The decimal of `significand * 2 ^ exponent`, where one is found. -/
def ofScaled? (negative : Bool) (significand : Nat) (exponent : Int) : Option Decimal := do
  let (word, tens) ←
    if exponent < 0 then some (tradeHalves exponent.natAbs significand exponent)
    else tradeTwos? exponent.toNat significand exponent
  let word ← raise? tens.toNat word
  let (word, places) := dropBeyond word (-tens).toNat
  let (word, places) := dropUnsupported word places
  let (word, places) := Magnitude.dropZeros word places
  ofParts? negative word places

/-- The decimal of a finite binary number. Zero keeps its sign. -/
def ofBinary? (x : Binary64) : Option Decimal :=
  match x.meaning with
  | .finite negative significand exponent =>
    if significand = 0 then some ⟨.zero, negative⟩ else ofScaled? negative significand exponent
  | _ => none

end DecisionTables.Decimal
