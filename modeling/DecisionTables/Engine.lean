import DecisionTables.Cache
import DecisionTables.Query
import DecisionTables.Text.Quoted

/-!
# Engines

An engine answers queries: it knows the repositories that it loads tables from, in the order in which they are
asked, and the codecs, matchers, functions and creators that tables refer to. Repositories and the cache are
given by their number in a workspace, since engines may share them.
-/

namespace DecisionTables

open Std (TreeMap)

/-- The means of answering queries. -/
structure Engine where
  /-- The names of the repositories and their numbers. -/
  sources : List (String × Nat) := []
  codecs : CodecRegistry := .standard
  matchers : MatcherRegistry := .standard
  functions : Option Functions := none
  creators : TreeMap String Creator := ∅
  /-- The number of the cache. -/
  cache : Nat := 0

/-- What an engine knows, by name. -/
structure Configuration where
  repositories : List String
  codecs : List String
  matchers : List String
  creators : List String
  hasFunctions : Bool
  cached : List String
  deriving DecidableEq, Repr

namespace Engine

/-- So many repositories under the names `r0`, `r1`, …. -/
def numberedSources (count : Nat) : List (String × Nat) :=
  (List.range count).map fun r => ("r" ++ toString r, r)

/-- What an engine knows, with the given cache. -/
def configuration (e : Engine) (c : Cache) : Configuration where
  repositories := e.sources.map Prod.fst
  codecs := e.codecs.keys
  matchers := e.matchers.codes
  creators := e.creators.keys
  hasFunctions := e.functions.isSome
  cached := c.names

/-- An engine with the given cache in one line. -/
def summary (e : Engine) (c : Cache) : String :=
  "ParamEngine \x7b repositories: " ++ Text.quoteList (e.sources.map Prod.fst) ++ ", cached: " ++
    toString c.names.length ++ ", .. \x7d"

/-- The settings of an engine in one line. -/
def settings (e : Engine) : String :=
  "ParamEngineBuilder \x7b repositories: " ++ Text.quoteList (e.sources.map Prod.fst) ++ ", types: " ++
    Text.quoteList e.codecs.keys ++ ", matchers: " ++ Text.quoteList e.matchers.codes ++ ", level_creators: " ++
    Text.quoteList e.creators.keys ++ ", .. \x7d"

end Engine

end DecisionTables
