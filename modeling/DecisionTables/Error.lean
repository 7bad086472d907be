import DecisionTables.Codec

/-!
# Errors

Everything that can go wrong when a table is prepared, queried or read, and the message for it.
-/

namespace DecisionTables

/-- Why a table does not fit its levels. -/
inductive Malformation where
  | tooManyInputs (declared defined : Nat)
  | patternCount (entry patterns expected : Nat)
  | functionWithoutOutput (entry : Nat)
  deriving DecidableEq, Repr

def Malformation.message : Malformation → String
  | .tooManyInputs declared defined =>
    toString declared ++ " input levels declared but only " ++ toString defined ++ " levels defined"
  | .patternCount entry patterns expected =>
    "entry " ++ toString entry ++ " has " ++ toString patterns ++ " patterns, expected " ++ toString expected
  | .functionWithoutOutput entry =>
    "entry " ++ toString entry ++ " names a function but the parameter has no output level"

/-- Why a function has no result. -/
inductive FunctionError where
  | unknown (name : String)
  | failed (name reason : String)
  deriving DecidableEq, Repr

def FunctionError.message : FunctionError → String
  | .unknown name => "unknown function '" ++ name ++ "'"
  | .failed name reason => "function '" ++ name ++ "' failed: " ++ reason

/-- What can go wrong with a table. -/
inductive TableError where
  | unknownTable (name : String)
  | arity (table : String) (expected actual : Nat)
  | noValueFound (table : String) (query : List (Option String))
  | keysNotIdentified (table : String)
  /-- A column was read as one value although it holds an array, or the other way round. -/
  | wrongShape (column : String) (holdsArray : Bool)
  | conversion (e : ConversionError)
  | unresolvedLevel (table level : String)
  | unknownCodec (code : String)
  | unknownMatcher (code : String)
  | malformed (table : String) (fault : Malformation)
  | unknownColumn (column : String)
  | rowOutOfBounds (row count : Nat)
  | wrongKind (e : WrongKind)
  | function (e : FunctionError)
  | noFunctions
  | notAFunction (table : String)
  deriving DecidableEq, Repr

def TableError.message : TableError → String
  | .unknownTable name => "parameter '" ++ name ++ "' not found in any repository"
  | .arity table expected actual =>
    "parameter '" ++ table ++ "' expects " ++ toString expected ++ " level values, got " ++ toString actual
  | .noValueFound table query =>
    "no value found for parameter '" ++ table ++ "' with levels [" ++
      ", ".intercalate (query.map (·.getD "null")) ++ "]"
  | .keysNotIdentified table => "parameter '" ++ table ++ "' does not identify its entries"
  | .wrongShape column holdsArray =>
    "column '" ++ column ++
      (if holdsArray then "' holds an array; use an array getter" else "' holds a single value; use a scalar getter")
  | .conversion e => e.message
  | .unresolvedLevel table level =>
    "no level creator yields a value for level '" ++ level ++ "' of parameter '" ++ table ++ "'"
  | .unknownCodec code => "unknown level type '" ++ code ++ "'"
  | .unknownMatcher code => "unknown matcher '" ++ code ++ "'"
  | .malformed table fault => "malformed parameter '" ++ table ++ "': " ++ fault.message
  | .unknownColumn column => "no output column '" ++ column ++ "'"
  | .rowOutOfBounds row count =>
    "row " ++ toString row ++ " out of bounds for value with " ++ toString count ++ " rows"
  | .wrongKind e => e.message
  | .function e => e.message
  | .noFunctions => "no function provider configured"
  | .notAFunction table => "parameter '" ++ table ++ "' does not evaluate to a function name"

end DecisionTables
