import DecisionTables.Pattern

/-!
# Trees of entries

The entries of a table, divided level by level by their patterns. A tree of depth zero holds its entries in
the order of the table; a deeper tree has no members of its own, but one child for each pattern that occurs at
its level, in the order in which the patterns first occur.
-/

namespace DecisionTables

/-- Members divided by patterns. -/
structure Tree (α : Type) where
  members : List α := []
  /-- The trees of the members that are divided further, under their patterns. -/
  children : List (Pattern × Tree α) := []

namespace Tree

variable {α : Type}

/-- A member and the patterns that it is still to be divided by. -/
abbrev Filed (α : Type) := List Pattern × α

/-- The next pattern of a member, null where none is left. -/
def Filed.pattern (row : Filed α) : Pattern :=
  row.1.headD .null

/-- The member as filed under a pattern, with its further patterns. -/
def Filed.under? (p : Pattern) (row : Filed α) : Option (Filed α) :=
  if Filed.pattern row = p then some (row.1.tail, row.2) else none

/-- Divides members by so many of their patterns. -/
def build : Nat → List (Filed α) → Tree α
  | 0, rows => { members := rows.map Prod.snd }
  | n + 1, rows =>
    { children := (rows.map Filed.pattern).eraseDups.map fun p => (p, build n (rows.filterMap (Filed.under? p))) }

end Tree

end DecisionTables
