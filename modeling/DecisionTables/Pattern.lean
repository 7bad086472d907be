/-!
# Patterns

An entry has one pattern per level: null, the wildcard `*`, or another text. On an input level null asks for
the absence of a value, the wildcard accepts whatever comes, and another text is left to the level's matcher.
-/

namespace DecisionTables

/-- The text of the wildcard. -/
def wildcard : String := "*"

/-- A pattern of an input level. -/
inductive Pattern where
  | null
  | any
  | text (s : String)
  deriving DecidableEq, Repr

namespace Pattern

/-- The pattern of a text or of its absence. -/
def ofText? : Option String → Pattern
  | none => .null
  | some s => if s = wildcard then .any else .text s

/-- The text of a pattern; null has none. -/
def text? : Pattern → Option String
  | .null => none
  | .any => some wildcard
  | .text s => some s

theorem text?_ofText? (t : Option String) : (ofText? t).text? = t := by
  cases t with
  | none => rfl
  | some s => by_cases h : s = wildcard <;> simp [ofText?, text?, h]

theorem ofText?_text? {x : Pattern} (h : x ≠ .text wildcard) : ofText? x.text? = x := by
  cases x with
  | null => rfl
  | any => rfl
  | text s =>
    have hs : s ≠ wildcard := fun hs => h (congrArg text hs)
    rw [text?, ofText?, if_neg hs]

end Pattern

end DecisionTables
