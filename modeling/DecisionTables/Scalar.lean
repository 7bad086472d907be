import DecisionTables.Calendar.Date
import DecisionTables.Number.Decimal.Printer

/-!
# Scalars

A scalar is what a level of a table holds once its text has been understood: null, a text, an integer, a
boolean, a date or a decimal. Scalars of one kind are totally ordered, null is below every other scalar, and
scalars of different kinds are not comparable (`compare?`). Decimals are equal, and ordered, by value
(`equals`).
-/

namespace DecisionTables

/-- The kinds of scalars and values. -/
inductive Kind where
  | null
  | text
  | integer
  | binary
  | boolean
  | date
  | decimal
  deriving DecidableEq, Repr

/-- The name of a kind in messages. -/
def Kind.name : Kind → String
  | .null => "null"
  | .text => "string"
  | .integer => "integer"
  | .binary => "float"
  | .boolean => "boolean"
  | .date => "date"
  | .decimal => "decimal"

/-- The literal of a boolean. -/
def booleanText (b : Bool) : String :=
  if b then "true" else "false"

/-- A typed value of a level. -/
inductive Scalar where
  | null
  | text (s : String)
  | integer (n : Int64)
  | boolean (b : Bool)
  | date (d : Date)
  | decimal (d : Decimal)
  deriving DecidableEq, Repr

/-- A scalar is not of the kind that was asked for. -/
structure WrongKind where
  expected : Kind
  found : Kind
  deriving DecidableEq, Repr

def WrongKind.message (e : WrongKind) : String :=
  "expected a " ++ e.expected.name ++ " value, found " ++ e.found.name

namespace Scalar

def isNull : Scalar → Bool
  | .null => true
  | _ => false

def kind : Scalar → Kind
  | .null => .null
  | .text _ => .text
  | .integer _ => .integer
  | .boolean _ => .boolean
  | .date _ => .date
  | .decimal _ => .decimal

/-- The text of a scalar; null has none. -/
def text? : Scalar → Option String
  | .null => none
  | .text s => some s
  | .integer n => some (Integer.text n)
  | .boolean b => some (booleanText b)
  | .date d => some d.text
  | .decimal d => some d.text

/-- The text of a scalar, `null` for null. -/
def display (x : Scalar) : String :=
  x.text?.getD "null"

/-- Equality, of decimals by value. -/
def equals : Scalar → Scalar → Bool
  | .decimal a, .decimal b => a.equals b
  | a, b => a == b

/-- The order of scalars, where two are comparable. -/
def compare? : Scalar → Scalar → Option Ordering
  | .null, .null => some .eq
  | .null, _ => some .lt
  | _, .null => some .gt
  | .text a, .text b => some (compare a b)
  | .integer a, .integer b => some (compare a.toInt b.toInt)
  | .boolean a, .boolean b => some (compare a b)
  | .date a, .date b => some (a.compare b)
  | .decimal a, .decimal b => some (a.compare b)
  | _, _ => none

/-- The integer in a scalar: an integer, or a decimal of equal value. -/
def integer? (x : Scalar) : Except WrongKind (Option Int64) :=
  match x with
  | .null => .ok none
  | .integer n => .ok (some n)
  | .decimal d =>
    match d.toInteger? with
    | some n => .ok (some n)
    | none => .error ⟨.integer, x.kind⟩
  | _ => .error ⟨.integer, x.kind⟩

/-- The decimal in a scalar: a decimal, or an integer as one. -/
def decimal? (x : Scalar) : Except WrongKind (Option Decimal) :=
  match x with
  | .null => .ok none
  | .decimal d => .ok (some d)
  | .integer n => .ok (some (Decimal.ofInteger n))
  | _ => .error ⟨.decimal, x.kind⟩

def boolean? (x : Scalar) : Except WrongKind (Option Bool) :=
  match x with
  | .null => .ok none
  | .boolean b => .ok (some b)
  | _ => .error ⟨.boolean, x.kind⟩

def date? (x : Scalar) : Except WrongKind (Option Date) :=
  match x with
  | .null => .ok none
  | .date d => .ok (some d)
  | _ => .error ⟨.date, x.kind⟩

end Scalar

end DecisionTables
