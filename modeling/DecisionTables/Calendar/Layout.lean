import DecisionTables.Calendar.Date
import DecisionTables.Text.Blank

/-!
# Layouts of dates

A date is read in one of two layouts, the year first or the day first, with `-`, `.` or `/` between its
fields, the same at both places. A year has exactly four digits, a month and a day have one or two. The white
space around a date does not count. A text in neither layout is reported with the place where reading stopped:
behind the date if only something follows it, and otherwise in front of the first field or separator that the
layout with the day first does not find.
-/

namespace DecisionTables

namespace Layout

/-- The fields of a date as written. -/
structure Fields where
  year : Nat
  month : Nat
  day : Nat
  deriving DecidableEq, Repr

/-- The characters that may stand between the fields. -/
def isSeparator (c : Char) : Bool :=
  c == '-' || c == '.' || c == '/'

/-- Reads a number of at most `most` digits from the front, and fails there with fewer than `least`. -/
def number (least most : Nat) (cs : List Char) : Except (List Char) (Nat × List Char) :=
  let ds := (cs.take most).takeWhile Char.isDigit
  if least ≤ ds.length then .ok (Text.ofDigits ds, cs.drop ds.length) else .error cs

/-- Reads a separator from the front. -/
def separator : List Char → Except (List Char) (Char × List Char)
  | c :: cs => if isSeparator c then .ok (c, cs) else .error (c :: cs)
  | [] => .error []

/-- Reads the given character from the front. -/
def again (sep : Char) : List Char → Except (List Char) (List Char)
  | c :: cs => if c = sep then .ok cs else .error (c :: cs)
  | [] => .error []

/-- Reads year, month and day from the front. -/
def yearFirst (cs : List Char) : Except (List Char) (Fields × List Char) := do
  let (year, cs) ← number 4 4 cs
  let (sep, cs) ← separator cs
  let (month, cs) ← number 1 2 cs
  let cs ← again sep cs
  let (day, cs) ← number 1 2 cs
  pure (⟨year, month, day⟩, cs)

/-- Reads day, month and year from the front. -/
def dayFirst (cs : List Char) : Except (List Char) (Fields × List Char) := do
  let (day, cs) ← number 1 2 cs
  let (sep, cs) ← separator cs
  let (month, cs) ← number 1 2 cs
  let cs ← again sep cs
  let (year, cs) ← number 4 4 cs
  pure (⟨year, month, day⟩, cs)

/-- What was read, if nothing is left. -/
def complete : Fields × List Char → Except (List Char) Fields
  | (fields, []) => .ok fields
  | (_, rest) => .error rest

/-- Reads a whole text in one of the two layouts; a failure holds the rest that was not read. -/
def read (cs : List Char) : Except (List Char) Fields :=
  match yearFirst cs with
  | .ok found => complete found
  | .error _ => dayFirst cs >>= complete

end Layout

namespace Date

/-- Why a text is not a date. -/
inductive ReadFault where
  /-- The text is in no layout; reading stopped behind so many characters. -/
  | unreadable (text : String) (stopped : Nat)
  | noSuchDay
  deriving DecidableEq, Repr

/-- A text that is not a date. -/
structure ReadError where
  input : String
  fault : ReadFault
  deriving DecidableEq, Repr

/-- Marks the place where reading stopped, under the text, or under its first line if it has several. -/
def ReadFault.message : ReadFault → String
  | .noSuchDay => "no such calendar day"
  | .unreadable text stopped =>
    let mark := String.ofList (List.replicate stopped ' ') ++ "^\n"
    if text.toList.contains '\n' then
      "parse error at line 1, column " ++ toString (stopped + 1) ++ "\n  |\n1 | " ++
        String.ofList (text.toList.takeWhile (· != '\n')) ++ "\n  | " ++ mark
    else text ++ "\n" ++ mark

def ReadError.message (e : ReadError) : String :=
  "invalid date '" ++ e.input ++ "': " ++ e.fault.message

/-- Reads a date in one of its layouts. -/
def read (text : String) : Except ReadError Date :=
  let cs := Text.strip text.toList
  match Layout.read cs with
  | .error rest => .error ⟨text, .unreadable (String.ofList cs) (cs.length - rest.length)⟩
  | .ok fields =>
    match ofFields? fields.year fields.month fields.day with
    | none => .error ⟨text, .noSuchDay⟩
    | some d => .ok d

end Date

end DecisionTables
