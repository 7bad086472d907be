import DecisionTables.Codec
import DecisionTables.Pattern

/-!
# Matchers

A matcher decides whether the value of a query, given as its text or as null, satisfies the text of a pattern.
The wildcard and null are never left to a matcher. An exact matcher accepts a text only for its equal; the
patterns of its levels are stored in the codec's canonical text.
-/

namespace DecisionTables

/-- A rule for patterns. -/
structure Matcher where
  /-- Accepts exactly the equal texts. -/
  exact : Bool
  /-- Whether a value satisfies a pattern, on a level of the given codec. -/
  accepts : Codec → Option String → String → Except ConversionError Bool
  /-- Rejects a pattern that can never be evaluated on a level of the given codec. -/
  validate : Codec → String → Except ConversionError Unit

namespace Matcher

/-- Equality of texts, where a blank or absent value equals the wildcard alone. -/
def sameText (value : Option String) (pattern : String) : Bool :=
  match value with
  | some v => if Text.isBlank v then pattern == wildcard else pattern == v
  | none => pattern == wildcard

/-- Equality of texts. -/
def strict : Matcher where
  exact := true
  accepts _ value pattern := .ok (sameText value pattern)
  validate _ _ := .ok ()

/-- The pattern is the beginning of the value. -/
def leading : Matcher where
  exact := false
  accepts _ value pattern := .ok (value.any fun v => pattern.toList.isPrefixOf v.toList)
  validate _ _ := .ok ()

end Matcher

end DecisionTables
