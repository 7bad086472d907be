import DecisionTables.Codec.Standard
import DecisionTables.Error
import DecisionTables.Matcher.Range
import Std.Data.TreeMap

/-!
# Registries

The codecs and the matchers that levels refer to by code. A later registration takes the place of an earlier
one of the same code, and codes are listed in order. A level that names no matcher gets the default one.
-/

namespace DecisionTables

open Std (TreeMap)

/-- Codecs by code. -/
abbrev CodecRegistry := TreeMap String Codec

namespace CodecRegistry

/-- The standard codecs under their names. -/
def standard : CodecRegistry :=
  TreeMap.ofList (Codec.standard.map fun c => (c.name, c))

/-- The codec of a code. -/
def resolve (r : CodecRegistry) (code : String) : Except TableError Codec :=
  match r.get? code with
  | some codec => .ok codec
  | none => .error (.unknownCodec code)

end CodecRegistry

/-- Matchers by code, and the matcher of levels that name none. -/
structure MatcherRegistry where
  matchers : TreeMap String Matcher := ∅
  default : Matcher := .strict

namespace MatcherRegistry

/-- Equality as `equals`, and ranges as `between/` with one letter for the lower and one for the upper bound,
`i` for a closed and `e` for an open one; `between` stands for `between/ie`. -/
def standard : MatcherRegistry where
  matchers := TreeMap.ofList [
    ("equals", .strict),
    ("between", Range.matcher {}),
    ("between/ie", Range.matcher { lowerClosed := true, upperClosed := false }),
    ("between/ei", Range.matcher { lowerClosed := false, upperClosed := true }),
    ("between/ii", Range.matcher { lowerClosed := true, upperClosed := true }),
    ("between/ee", Range.matcher { lowerClosed := false, upperClosed := false })]

/-- The registry with a matcher under a code. -/
def insert (r : MatcherRegistry) (code : String) (m : Matcher) : MatcherRegistry :=
  { r with matchers := r.matchers.insert code m }

/-- The registry with another matcher for levels that name none. -/
def withDefault (r : MatcherRegistry) (m : Matcher) : MatcherRegistry :=
  { r with default := m }

/-- The codes in order. -/
def codes (r : MatcherRegistry) : List String :=
  r.matchers.keys

/-- The matcher of a code. -/
def get (r : MatcherRegistry) (code : String) : Except TableError Matcher :=
  match r.matchers.get? code with
  | some m => .ok m
  | none => .error (.unknownMatcher code)

/-- The matcher of a level: of its code, or the default one where it names none. -/
def resolve (r : MatcherRegistry) : Option String → Except TableError Matcher
  | none => .ok r.default
  | some code => r.get code

end MatcherRegistry

end DecisionTables
