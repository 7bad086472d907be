import DecisionTables.Pattern
import DecisionTables.Table
import Std.Data.TreeMap

/-!
# Repositories

A repository provides tables by name. A name may be an alias of the name of a table. Loading a name may set
off actions, which the repository carries out before it looks for the table: each load of the name takes the
next list of them. For a table whose entries are fetched for each query, a repository may leave out entries
that cannot match.
-/

namespace DecisionTables

open Std (TreeMap)

/-- What a repository does when a table is loaded. Engines are given by their number. -/
inductive Action where
  | invalidate (engine : Nat) (name : String)
  | clear (engine : Nat)
  | insert (table : Table)
  | remove (name : String)
  | prepare (engine : Nat) (name : String)
  deriving DecidableEq, Repr

/-- A source of tables. -/
structure Repository where
  tables : TreeMap String Table := ∅
  aliases : TreeMap String String := ∅
  /-- The entries of a table that are offered for a query. -/
  narrow : List (Option String) → List Entry → List Entry := fun _ entries => entries
  /-- For each name the lists of actions that its next loads set off. -/
  triggers : TreeMap String (List (List Action)) := ∅

namespace Repository

/-- The tables under their names, the later of two tables with one name. -/
def tablesOf (tables : List Table) : TreeMap String Table :=
  TreeMap.ofList (tables.map fun t => (t.name, t))

/-- The table under a name or an alias of its name. -/
def table? (r : Repository) (name : String) : Option Table :=
  r.tables.get? (r.aliases.getD name name)

/-- The repository with a table under its name. -/
def insert (r : Repository) (t : Table) : Repository :=
  { r with tables := r.tables.insert t.name t }

/-- The repository without a table under a name. -/
def remove (r : Repository) (name : String) : Repository :=
  { r with tables := r.tables.erase name }

/-- The names of all tables in order. -/
def names (r : Repository) : List String :=
  r.tables.keys

/-- The entries whose first pattern is the wildcard or equals the first value. -/
def byFirstPattern (query : List (Option String)) (entries : List Entry) : List Entry :=
  entries.filter fun e => e.pattern? 0 == some wildcard || e.pattern? 0 == query[0]?.join

/-- The entries of a table that are offered for a query. -/
def entriesFor (r : Repository) (name : String) (query : List (Option String)) : List Entry :=
  r.narrow query (((r.table? name).map Table.entries).getD [])

/-- The actions that the next load of a name sets off. -/
def nextActions (r : Repository) (name : String) : List Action :=
  (r.triggers.getD name []).headD []

/-- The repository after the actions of a load of a name have been taken. -/
def afterLoad (r : Repository) (name : String) : Repository :=
  { r with triggers := r.triggers.insert name ((r.triggers.getD name []).drop 1) }

/-- The number of loads that still set off actions. -/
def pending (r : Repository) : Nat :=
  r.triggers.values.foldr (fun lists n => lists.length + n) 0

end Repository

end DecisionTables
