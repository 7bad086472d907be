import DecisionTables.Text.Digits

/-!
# Integers

Integers are 64-bit words with a sign. They are written in decimal digits with a minus sign in front of the
negative ones. They are read with an optional sign and any number of leading zeros. Reading goes from left to
right and stops at the first character that is no digit or whose digit leaves the range, whichever comes
first; at one and the same character the missing digit is reported.
-/

namespace DecisionTables

namespace Integer

/-- Why a text is not an integer. -/
inductive ReadError where
  | invalidDigit
  | tooLarge
  | tooSmall
  deriving DecidableEq, Repr

def ReadError.message : ReadError → String
  | .invalidDigit => "invalid digit found in string"
  | .tooLarge => "number too large to fit in target type"
  | .tooSmall => "number too small to fit in target type"

/-- Reads on from a number of which some digits are known, up to a largest number. -/
def readDigits (limit : Nat) (beyond : ReadError) : Nat → List Char → Except ReadError Nat
  | n, [] => .ok n
  | n, c :: cs =>
    match Text.digit? c with
    | none => .error .invalidDigit
    | some d => if 10 * n + d ≤ limit then readDigits limit beyond (10 * n + d) cs else .error beyond

/-- Reads a run of at least one digit. -/
def readMagnitude (limit : Nat) (beyond : ReadError) (cs : List Char) : Except ReadError Nat :=
  if cs.isEmpty then .error .invalidDigit else readDigits limit beyond 0 cs

/-- Reads an integer: an optional sign, then digits. -/
def read (text : String) : Except ReadError Int64 :=
  match text.toList with
  | '-' :: cs => (readMagnitude 0x8000000000000000 .tooSmall cs).map fun n => Int64.ofInt (-n)
  | '+' :: cs => (readMagnitude 0x7fffffffffffffff .tooLarge cs).map fun n => Int64.ofInt n
  | cs => (readMagnitude 0x7fffffffffffffff .tooLarge cs).map fun n => Int64.ofInt n

/-- The characters of an integer in decimal digits. -/
def chars (n : Int) : List Char :=
  if n < 0 then '-' :: Text.digits n.natAbs else Text.digits n.natAbs

/-- An integer in decimal digits. -/
def text (n : Int64) : String :=
  String.ofList (chars n.toInt)

/-- The 64-bit integer of a number in range. -/
def ofInt? (n : Int) : Option Int64 :=
  if -0x8000000000000000 ≤ n ∧ n < 0x8000000000000000 then some (Int64.ofInt n) else none

theorem ofInt?_eq_some {n : Int} {i : Int64} : ofInt? n = some i ↔ i.toInt = n := by
  rw [ofInt?]
  constructor
  · intro h
    split at h
    · cases h
      exact Int64.toInt_ofInt_of_le (by omega) (by omega)
    · cases h
  · rintro rfl
    rw [if_pos ⟨i.le_toInt, i.toInt_lt⟩, Int64.ofInt_toInt]

end Integer

end DecisionTables
