import DecisionTables.Number.Binary64
import DecisionTables.Number.Decimal.Printer

/-!
# The shortest decimal text of a binary number

Of all decimals that round to a given finite number, the text has the fewest digits, and of those the nearest;
a tie goes up. The search tries the two neighbours of the number on the grids of the multiples of `10 ^ 309`,
`10 ^ 308`, … and stops at the first grid with a hit: on a coarser grid a decimal has fewer digits, and if any
multiple of a power of ten rounds to the number, so does one of its two neighbours. All comparisons are exact,
with fractions over a common denominator. The text never has an exponent.
-/

namespace DecisionTables.Binary64

/-- A positive number and the ends of the interval of the reals that round to it, as fractions over one
denominator. The ends round to it as well if `closed`. -/
structure Rounding where
  value : Nat
  low : Nat
  high : Nat
  denominator : Nat
  closed : Bool

/-- The reals that round to `significand * 2 ^ exponent`: up to half way to the next number on either side.
The number below a power of two is nearer than the one above, except at the least exponent. -/
def rounding (significand : Nat) (exponent : Int) : Rounding :=
  let scale := Nat.pow 2 (exponent - 2).toNat
  let below := if significand = 0x10000000000000 ∧ exponent ≠ -1074 then 1 else 2
  { value := 4 * significand * scale
    low := (4 * significand - below) * scale
    high := (4 * significand + 2) * scale
    denominator := Nat.pow 2 (2 - exponent).toNat
    closed := significand % 2 == 0 }

/-- The numerator of `n * 10 ^ place` over the denominator, times `10 ^ (-place)` for a negative place. -/
def Rounding.contains (r : Rounding) (n : Nat) (place : Int) : Bool :=
  let x := n * Nat.pow 10 place.toNat * r.denominator
  let unit := Nat.pow 10 (-place).toNat
  if r.closed then r.low * unit ≤ x && x ≤ r.high * unit else r.low * unit < x && x < r.high * unit

/-- The multiple of `10 ^ place` that rounds to the number: the lower or the upper neighbour, of both the
nearer, and the upper one if they are equally near. -/
def Rounding.onGrid? (r : Rounding) (place : Int) : Option Nat :=
  let value := r.value * Nat.pow 10 (-place).toNat
  let unit := r.denominator * Nat.pow 10 place.toNat
  let n := value / unit
  match r.contains n place, r.contains (n + 1) place with
  | true, true => if 2 * (value % unit) < unit then some n else some (n + 1)
  | true, false => some n
  | false, true => some (n + 1)
  | false, false => none

/-- The first hit on the grids from a place downwards. -/
def Rounding.search (r : Rounding) : Nat → Int → Nat × Int
  | 0, place => (r.value / r.denominator, place)
  | n + 1, place =>
    match r.onGrid? place with
    | some digits => (digits, place)
    | none => search r n (place - 1)

/-- Digits and place of the shortest decimal that rounds to a positive finite number. Every number has a hit
on the grid of the place `-324` at the latest, which is the last of 634. -/
def shortest (significand : Nat) (exponent : Int) : Nat × Int :=
  (rounding significand exponent).search 634 309

/-- The characters of a non-negative finite number. -/
def magnitudeChars (significand : Nat) (exponent : Int) : List Char :=
  if significand = 0 then ['0']
  else
    let (n, place) := shortest significand exponent
    Text.pointed (n * Nat.pow 10 place.toNat) (-place).toNat

/-- The text of a number: `NaN`, `inf`, `-inf`, or the shortest digits without an exponent. -/
def text (x : Binary64) : String :=
  match x.meaning with
  | .nan => "NaN"
  | .infinite negative => if negative then "-inf" else "inf"
  | .finite negative significand exponent =>
    String.ofList (if negative then '-' :: magnitudeChars significand exponent
      else magnitudeChars significand exponent)

end DecisionTables.Binary64
