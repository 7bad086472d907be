/-!
# Decimal digits

A number is written in decimal digits without leading zeros (`digits`), or with zeros in front up to a width
(`padded`). Digits are the ten of ASCII. Reading the written digits gives the number back (`ofDigits_digits`,
`ofDigits_padded`).
-/

namespace DecisionTables.Text

/-- The value of a digit, and nothing for another character. -/
def digit? (c : Char) : Option Nat :=
  if c.isDigit then some (c.toNat - '0'.toNat) else none

/-- The number written by a run of digits, most significant first. -/
def ofDigits (cs : List Char) : Nat :=
  Nat.ofDigitChars 10 cs 0

/-- The decimal digits of a number, `0` for zero. -/
def digits (n : Nat) : List Char :=
  Nat.toDigits 10 n

/-- The decimal digits with zeros in front up to the width; a longer number keeps all its digits. -/
def padded (width n : Nat) : List Char :=
  (digits n).leftpad width '0'

theorem digit?_eq_some {c : Char} {d : Nat} (h : digit? c = some d) : d < 10 := by
  simp only [digit?, Option.ite_none_right_eq_some, Option.some.injEq] at h
  obtain ⟨hc, rfl⟩ := h
  simp only [Char.isDigit, Bool.and_eq_true, decide_eq_true_eq, UInt32.le_iff_toNat_le] at hc
  have h1 : ('0'.toNat : Nat) = 48 := rfl
  have h2 : (c.toNat : Nat) = c.val.toNat := rfl
  have h3 : ('9'.val.toNat : Nat) = 57 := rfl
  omega

theorem isDigit_of_mem_digits {n : Nat} {c : Char} (h : c ∈ digits n) : c.isDigit = true :=
  Nat.isDigit_of_mem_toDigits (by decide) (by decide) h

theorem ofDigits_digits (n : Nat) : ofDigits (digits n) = n :=
  Nat.ofDigitChars_toDigits (by decide) (by decide)

private theorem ofDigitChars_zeros (k : Nat) (cs : List Char) :
    Nat.ofDigitChars 10 (List.replicate k '0' ++ cs) 0 = Nat.ofDigitChars 10 cs 0 := by
  induction k with
  | zero => rfl
  | succ k ih => simpa [List.replicate_succ, Nat.ofDigitChars_cons] using ih

theorem ofDigits_padded (width n : Nat) : ofDigits (padded width n) = n := by
  rw [padded, List.leftpad, ofDigits, ofDigitChars_zeros]
  exact ofDigits_digits n

theorem isDigit_of_mem_padded {width n : Nat} {c : Char} (h : c ∈ padded width n) : c.isDigit = true := by
  simp only [padded, List.leftpad, List.mem_append, List.mem_replicate] at h
  rcases h with ⟨-, rfl⟩ | h
  · rfl
  · exact isDigit_of_mem_digits h

end DecisionTables.Text
