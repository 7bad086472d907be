import DecisionTables.Number.Binary64.Shortest
import DecisionTables.Scalar

/-!
# Values

A value is what a caller passes in or a function returns: a query value, an item of a context, an argument.
Every scalar is a value (`ofScalar`); beyond that, values may be binary floating-point numbers.
-/

namespace DecisionTables

/-- A value at run time. -/
inductive Value where
  | null
  | text (s : String)
  | integer (n : Int64)
  | binary (x : Binary64)
  | boolean (b : Bool)
  | date (d : Date)
  | decimal (d : Decimal)
  deriving DecidableEq, Repr

namespace Value

def isNull : Value → Bool
  | .null => true
  | _ => false

def kind : Value → Kind
  | .null => .null
  | .text _ => .text
  | .integer _ => .integer
  | .binary _ => .binary
  | .boolean _ => .boolean
  | .date _ => .date
  | .decimal _ => .decimal

/-- The text of a value; null has none. -/
def text? : Value → Option String
  | .null => none
  | .text s => some s
  | .integer n => some (Integer.text n)
  | .binary x => some x.text
  | .boolean b => some (booleanText b)
  | .date d => some d.text
  | .decimal d => some d.text

/-- The value as shown in messages: texts stand in quotes, as they are. -/
def display : Value → String
  | .text s => "\"" ++ s ++ "\""
  | x => x.text?.getD "null"

/-- The value of a text or of its absence. -/
def ofText? : Option String → Value
  | none => .null
  | some s => .text s

def ofScalar : Scalar → Value
  | .null => .null
  | .text s => .text s
  | .integer n => .integer n
  | .boolean b => .boolean b
  | .date d => .date d
  | .decimal d => .decimal d

end Value

end DecisionTables
