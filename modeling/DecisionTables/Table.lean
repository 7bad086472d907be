/-!
# Decision tables

A table has levels and entries. Its first levels are matched against a query, the others are its output
columns; every entry has one pattern per level. Levels are ordered by their number, not by the place where
they are listed.
-/

namespace DecisionTables

/-- One column of a table. -/
structure Level where
  order : Nat := 0
  name : Option String := none
  /-- The code of the level's codec. -/
  codec : String
  /-- The code of the level's matcher; without one the default matcher is used. -/
  matcher : Option String := none
  /-- The cells of the level hold several values. -/
  isArray : Bool := false
  /-- The creator that derives the level's query value from a context. -/
  creator : Option String := none
  deriving DecidableEq, Repr

namespace Level

/-- The name of a level, or its number behind a `#`. -/
def label (l : Level) : String :=
  l.name.getD ("#" ++ toString l.order)

/-- Levels numbered in the order in which they are listed. -/
def listed (levels : List Level) : List Level :=
  levels.mapIdx fun i l => { l with order := i }

end Level

/-- One row of a table. -/
structure Entry where
  /-- One pattern per level, nothing for null. -/
  patterns : List (Option String)
  key : Option String := none
  /-- The function whose result takes the place of the first output cell. -/
  function : Option String := none
  deriving DecidableEq, Repr

/-- The pattern at a level; a null pattern and a missing one have no text. -/
def Entry.pattern? (e : Entry) (level : Nat) : Option String :=
  e.patterns[level]?.join

/-- A named decision table. -/
structure Table where
  name : String
  levels : List Level
  /-- The number of levels that are matched against a query. -/
  inputs : Nat
  entries : List Entry
  /-- A query that finds nothing has an empty answer instead of an error. -/
  nullable : Bool := false
  /-- The entries are prepared together with the table and kept with it. -/
  cacheable : Bool := true
  /-- Answers show the keys of the entries. -/
  identifiesEntries : Bool := false
  /-- Stands between the values in a cell of an array level. -/
  separator : Char := ','
  deriving DecidableEq, Repr

/-- The number of output columns. -/
def Table.outputs (t : Table) : Nat :=
  t.levels.length - t.inputs

end DecisionTables
