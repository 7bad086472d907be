import DecisionTables.Row

/-!
# Answers

The answer to a query has one row for each entry found, in the order of the table. A detailed answer shows the
entries themselves as well, one behind each row, with their patterns as stored.
-/

namespace DecisionTables

/-- The answer to a query: the rows found, in the order of the table. -/
structure Answer where
  table : String
  source : String
  identifiesEntries : Bool
  rows : List Row
  deriving DecidableEq, Repr

namespace Answer

/-- The row at a place. -/
def row (a : Answer) (place : Nat) : Except TableError Row :=
  match a.rows[place]? with
  | some r => .ok r
  | none => .error (.rowOutOfBounds place a.rows.length)

/-- The key of the entry behind a row, where the table identifies its entries. -/
def key (a : Answer) (place : Nat) : Except TableError (Option String) := do
  if !a.identifiesEntries then throw (.keysNotIdentified a.table)
  return (← a.row place).key

end Answer

/-- An entry found, as stored. -/
structure FoundEntry where
  patterns : List (Option String)
  key : Option String
  levels : List (Option String)
  deriving DecidableEq, Repr

/-- The pattern of a level, addressed by its place or its name among all levels. -/
def FoundEntry.pattern? (e : FoundEntry) (c : Column) : Option String :=
  (c.position? e.levels).bind fun i => e.patterns[i]?.join

/-- An answer together with the entries behind its rows. -/
structure DetailedAnswer where
  answer : Answer
  entries : List FoundEntry
  deriving DecidableEq, Repr

/-- The entry at a place. -/
def DetailedAnswer.entry (a : DetailedAnswer) (place : Nat) : Except TableError FoundEntry :=
  match a.entries[place]? with
  | some e => .ok e
  | none => .error (.rowOutOfBounds place a.entries.length)

end DecisionTables
