import DecisionTables.Number.Decimal

/-!
# Reading decimals

A decimal is read from an optional sign and digits with at most one point among them; underscores may follow
the first digit. Digits before the point must fit the mantissa. After the point the first digit that no longer
fits, either the mantissa or the 28 decimal places, rounds the number, a half away from zero, and what follows
it is only checked. An underscore right behind the last decimal place counts as the rounding digit zero,
unless the mantissa in front of that place had already left the range of one machine word.

A text that is no such decimal but holds an `e` is read as a decimal and a power of ten.
-/

namespace DecisionTables.Decimal

/-- Why a text is not a decimal. -/
inductive ReadError where
  | empty
  | noDigits
  | secondPoint
  | misplacedUnderscore
  | unknownCharacter
  | tooManyDigits
  | roundedBeyond
  | badExponent
  | exponentBeyond (exponent : Nat)
  | tooLarge
  deriving DecidableEq, Repr

def ReadError.message : ReadError → String
  | .empty => "Invalid decimal: empty"
  | .noDigits => "Invalid decimal: no digits found"
  | .secondPoint => "Invalid decimal: two decimal points"
  | .misplacedUnderscore => "Invalid decimal: must start lead with a number"
  | .unknownCharacter => "Invalid decimal: unknown character"
  | .tooManyDigits => "Invalid decimal: overflow from too many digits"
  | .roundedBeyond => "Invalid decimal: overflow from mantissa after rounding"
  | .badExponent => "Failed to parse"
  | .exponentBeyond n => "Scale exceeds the maximum precision allowed: " ++ toString n ++ " > 28"
  | .tooLarge => "Number exceeds maximum value that can be represented."

/-- Mantissas from here on have left the range of one machine word with the next digit. -/
def wideMantissa : Nat := 1844674407370954906

/-- The number with one more digit, after the point or before it, where it fits. -/
def push? (x : Magnitude) (point : Bool) (d : Nat) : Option Magnitude :=
  if h : x.mantissa * 10 + d < 0x1000000000000000000000000 ∧ x.scale + point.toNat ≤ 28 then
    some ⟨x.mantissa * 10 + d, x.scale + point.toNat, h.1, h.2⟩
  else none

/-- The number rounded by the first digit that is dropped, a half away from zero. A mantissa that rounds
beyond its range gives up a decimal place. -/
def round (x : Magnitude) (d : Nat) : Except ReadError Magnitude :=
  if d < 5 then .ok x
  else if h : x.mantissa + 1 < 0x1000000000000000000000000 then .ok ⟨x.mantissa + 1, x.scale, h, x.scale_le⟩
  else if x.scale = 0 then .error .roundedBeyond
  else .ok ⟨(x.mantissa + 5) / 10, x.scale - 1, by have := x.mantissa_lt; omega, by have := x.scale_le; omega⟩

/-- Checks the characters behind the rounding digit, which lies after the point. -/
def checkDropped : List Char → Except ReadError Unit
  | [] => .ok ()
  | c :: cs =>
    if c.isDigit || c == '_' then checkDropped cs
    else if c = '.' then .error .secondPoint
    else .error .unknownCharacter

/-- Reads on behind a number of which some characters are known: whether there was a digit, and whether there
was the point. -/
def readOn (x : Magnitude) (digit point : Bool) : List Char → Except ReadError Magnitude
  | [] => if digit then .ok x else .error .noDigits
  | c :: cs =>
    match Text.digit? c with
    | some d =>
      match push? x point d with
      | some y => readOn y true point cs
      | none => if point then do let y ← round x d; checkDropped cs; pure y else .error .tooManyDigits
    | none =>
      if c = '.' then
        if point then .error .secondPoint else readOn x digit true cs
      else if c = '_' then
        if !digit then .error .misplacedUnderscore
        else if point && x.scale == 28 && x.mantissa / 10 < wideMantissa then do checkDropped cs; pure x
        else readOn x digit point cs
      else .error .unknownCharacter

/-- Reads an optional sign and digits. -/
def readPlain : List Char → Except ReadError Decimal
  | [] => .error .empty
  | '-' :: cs => (readOn .zero false false cs).map (signed true)
  | '+' :: cs => (readOn .zero false false cs).map (signed false)
  | cs => (readOn .zero false false cs).map (signed false)

/-- The sign and the amount of a written exponent, which is below `2 ^ 32`. -/
def readExponent? (cs : List Char) : Option (Bool × Nat) :=
  let amount? (ds : List Char) : Option Nat :=
    if !ds.isEmpty && ds.all Char.isDigit && Text.ofDigits ds < 0x100000000 then some (Text.ofDigits ds) else none
  match cs with
  | '-' :: '+' :: ds => (amount? ds).map (true, ·)
  | '-' :: ds => (amount? ds).map (true, ·)
  | '+' :: ds => (amount? ds).map (false, ·)
  | ds => (amount? ds).map (false, ·)

private theorem half_up_lt {m k : Nat} (h : m < 0x1000000000000000000000000) :
    (m + 5 * Nat.pow 10 k) / Nat.pow 10 (k + 1) < 0x1000000000000000000000000 := by
  have hp : 0 < Nat.pow 10 k := Nat.pow_pos (by decide)
  have hs : Nat.pow 10 (k + 1) = Nat.pow 10 k * 10 := rfl
  have hm : m ≤ 0xffffffffffffffffffffffff * Nat.pow 10 k :=
    Nat.le_trans (by omega) (Nat.le_mul_of_pos_right 0xffffffffffffffffffffffff hp)
  rw [hs, Nat.div_lt_iff_lt_mul (by omega)]
  omega

/-- Moves the point `n` places to the left. Beyond 28 decimal places the number is rounded, a half away from
zero, and keeps its sign. -/
def shiftLeft (d : Decimal) (n : Nat) : Decimal :=
  if h : d.scale + n ≤ 28 then ⟨⟨d.mantissa, d.scale + n, d.mantissa_lt, h⟩, d.negative⟩
  else
    let k := d.scale + n - 29
    ⟨⟨(d.mantissa + 5 * Nat.pow 10 k) / Nat.pow 10 (k + 1), 28, half_up_lt d.mantissa_lt, by decide⟩, d.negative⟩

/-- Moves the point `n` places to the right. -/
def shiftRight (d : Decimal) (n : Nat) : Except ReadError Decimal :=
  if n ≤ d.scale then
    .ok ⟨⟨d.mantissa, d.scale - n, d.mantissa_lt, Nat.le_trans (Nat.sub_le _ _) d.scale_le⟩, d.negative⟩
  else if 28 < n then .error (.exponentBeyond n)
  else if h : d.mantissa * Nat.pow 10 (n - d.scale) < 0x1000000000000000000000000 then
    .ok ⟨⟨d.mantissa * Nat.pow 10 (n - d.scale), 0, h, Magnitude.zero.scale_le⟩, d.negative⟩
  else .error .tooLarge

/-- The mark of an exponent. -/
def isExponentMark (c : Char) : Bool :=
  c == 'e' || c == 'E'

/-- Reads a decimal, the mark of an exponent and the exponent. -/
def readScientific (cs : List Char) : Except ReadError Decimal := do
  let d ← readPlain (cs.takeWhile (!isExponentMark ·))
  match readExponent? ((cs.dropWhile (!isExponentMark ·)).drop 1) with
  | none => .error .badExponent
  | some (true, n) => if 28 < n then .error (.exponentBeyond n) else .ok (shiftLeft d n)
  | some (false, n) => shiftRight d n

/-- Reads a decimal, with or without an exponent. -/
def read (text : String) : Except ReadError Decimal :=
  let cs := text.toList
  match readPlain cs with
  | .ok d => .ok d
  | .error e => if cs.any isExponentMark then readScientific cs else .error e

end DecisionTables.Decimal
