import DecisionTables.Number.Integer

/-!
# Calendar days

Days of the proleptic Gregorian calendar, with a year zero and years before it. A `Date` exists: its day is
one of its month. Dates are ordered by year, month and day, and written `yyyy-mm-dd`; a year outside 0 to 9999
has a sign and at least four digits.
-/

namespace DecisionTables

/-- Leap years of the Gregorian calendar. -/
def isLeapYear (year : Int) : Bool :=
  year % 4 == 0 && (year % 100 != 0 || year % 400 == 0)

/-- The number of days in a month, zero where there is no such month. -/
def daysInMonth (year : Int) : Nat → Nat
  | 1 | 3 | 5 | 7 | 8 | 10 | 12 => 31
  | 4 | 6 | 9 | 11 => 30
  | 2 => if isLeapYear year then 29 else 28
  | _ => 0

/-- A day of the calendar. -/
structure Date where
  year : Int
  month : Nat
  day : Nat
  one_le_day : 1 ≤ day
  day_le : day ≤ daysInMonth year month
  deriving DecidableEq, Repr

namespace Date

/-- The day of a year, a month and a day in it, where it exists. -/
def ofFields? (year : Int) (month day : Nat) : Option Date :=
  if h : 1 ≤ day ∧ day ≤ daysInMonth year month then some ⟨year, month, day, h.1, h.2⟩ else none

/-- The order of the calendar. -/
def compare : Date → Date → Ordering :=
  compareLex (compareOn year) (compareLex (compareOn month) (compareOn day))

/-- The characters of a year: four digits in the years 0 to 9999, otherwise a sign and at least four digits.
-/
def yearChars (year : Int) : List Char :=
  if year < 0 then '-' :: Text.padded 4 year.natAbs
  else if year ≤ 9999 then Text.padded 4 year.natAbs
  else '+' :: Text.padded 4 year.natAbs

/-- The characters of a date, `yyyy-mm-dd`. -/
def chars (d : Date) : List Char :=
  yearChars d.year ++ '-' :: (Text.padded 2 d.month ++ '-' :: Text.padded 2 d.day)

/-- A date as `yyyy-mm-dd`. -/
def text (d : Date) : String :=
  String.ofList d.chars

end Date

end DecisionTables
