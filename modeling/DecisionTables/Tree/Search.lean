import DecisionTables.Matcher
import DecisionTables.Tree

/-!
# Searching a tree

A query asks for one value per level. At each level the children whose patterns the value satisfies are tried
in order, and after them the child of the wildcard. The first tree with members at the full depth ends
the search, so an entry that is more specific at an earlier level is found before one that is more specific at
a later level. `find` is this search as a recursion.
-/

namespace DecisionTables

/-- The value that a query asks for at a level, and how the level compares it. -/
structure Probe where
  codec : Codec
  matcher : Matcher
  value : Option String

namespace Probe

/-- Whether the value satisfies a pattern other than the wildcard. On an exact level a blank value satisfies
none. -/
def admits (p : Probe) : Pattern → Except ConversionError Bool
  | .null => .ok p.value.isNone
  | .any => .ok false
  | .text s =>
    match p.value with
    | none => .ok false
    | some v => if p.matcher.exact then .ok (!Text.isBlank v && s == v) else p.matcher.accepts p.codec (some v) s

end Probe

/-- The elements that pass a test, which is made in order and may fail. -/
def keepM {β ε : Type} (test : β → Except ε Bool) : List β → Except ε (List β)
  | [] => .ok []
  | b :: bs => do
    let keep ← test b
    let rest ← keepM test bs
    pure (if keep then b :: rest else rest)

/-- The first result among the elements, which are tried in order. -/
def firstFound {β γ ε : Type} (search : β → Except ε (Option γ)) : List β → Except ε (Option γ)
  | [] => .ok none
  | b :: bs => do
    match ← search b with
    | some found => pure (some found)
    | none => firstFound search bs

namespace Tree

variable {α : Type}

/-- The children to be tried for a value: those whose pattern it satisfies, then that of the wildcard. -/
def candidates (p : Probe) (t : Tree α) : Except ConversionError (List (Tree α)) := do
  let matched ← keepM (fun child => p.admits child.1) t.children
  pure ((matched ++ t.children.filter (·.1 == .any)).map Prod.snd)

/-- The members of a tree that has any. -/
def members? (t : Tree α) : Option (List α) :=
  if t.members.isEmpty then none else some t.members

/-- The members of the first tree with members that the values lead to. -/
def find : List Probe → Tree α → Except ConversionError (Option (List α))
  | [], t => .ok t.members?
  | p :: ps, t => do firstFound (find ps) (← t.candidates p)

end Tree

end DecisionTables
