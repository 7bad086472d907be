import DecisionTables.Table.Prepared

/-!
# Rows

A row has one cell per output column. A column is addressed by its place or by the name of its level, of which
the first counts. Typed readers give the text, integer, decimal, boolean or date of a cell; those for array
cells leave out nulls and report the first value of a wrong kind.
-/

namespace DecisionTables

/-- An address of a column. -/
inductive Column where
  | at (place : Nat)
  | named (name : String)
  deriving DecidableEq, Repr

namespace Column

/-- The address as shown in messages. -/
def display : Column → String
  | .at place => toString place
  | .named name => name

/-- The place of the column among those of the given names. -/
def position? (names : List (Option String)) : Column → Option Nat
  | .at place => if place < names.length then some place else none
  | .named name => names.findIdx? (· == some name)

end Column

/-- The output cells of an entry found. -/
structure Row where
  cells : List Cell
  /-- The key of the entry, where the table identifies its entries. -/
  key : Option String
  columns : List (Option String)
  deriving DecidableEq, Repr

namespace Row

/-- The cell of a column. -/
def cell (r : Row) (c : Column) : Except TableError Cell :=
  match (c.position? r.columns).bind (r.cells[·]?) with
  | some cell => .ok cell
  | none => .error (.unknownColumn c.display)

/-- The single value of a column. -/
def get (r : Row) (c : Column) : Except TableError Scalar := do
  match ← r.cell c with
  | .single x => pure x
  | .array _ => throw (.wrongShape c.display true)

/-- The values of an array column. -/
def getArray (r : Row) (c : Column) : Except TableError (List Scalar) := do
  match ← r.cell c with
  | .array xs => pure xs
  | .single _ => throw (.wrongShape c.display false)

/-- The single value of a column as read by a typed reader. -/
def read {α : Type} (reader : Scalar → Except WrongKind α) (r : Row) (c : Column) : Except TableError α := do
  (reader (← r.get c)).mapError .wrongKind

/-- The values that are not null among scalars, as read by a typed reader. -/
def readAll {α : Type} (reader : Scalar → Except WrongKind (Option α)) : List Scalar → Except WrongKind (List α)
  | [] => .ok []
  | x :: xs => do
    let value ← reader x
    let values ← readAll reader xs
    pure (value.toList ++ values)

/-- The values of an array column as read by a typed reader, without nulls. -/
def readArray {α : Type} (reader : Scalar → Except WrongKind (Option α)) (r : Row) (c : Column) :
    Except TableError (List α) := do
  (readAll reader (← r.getArray c)).mapError .wrongKind

def getText (r : Row) (c : Column) : Except TableError (Option String) :=
  r.read (fun x => .ok x.text?) c

def getInteger (r : Row) (c : Column) : Except TableError (Option Int64) :=
  r.read Scalar.integer? c

def getDecimal (r : Row) (c : Column) : Except TableError (Option Decimal) :=
  r.read Scalar.decimal? c

def getBoolean (r : Row) (c : Column) : Except TableError (Option Bool) :=
  r.read Scalar.boolean? c

def getDate (r : Row) (c : Column) : Except TableError (Option Date) :=
  r.read Scalar.date? c

def getTexts (r : Row) (c : Column) : Except TableError (List String) :=
  r.readArray (fun x => .ok x.text?) c

def getIntegers (r : Row) (c : Column) : Except TableError (List Int64) :=
  r.readArray Scalar.integer? c

def getDecimals (r : Row) (c : Column) : Except TableError (List Decimal) :=
  r.readArray Scalar.decimal? c

def getBooleans (r : Row) (c : Column) : Except TableError (List Bool) :=
  r.readArray Scalar.boolean? c

def getDates (r : Row) (c : Column) : Except TableError (List Date) :=
  r.readArray Scalar.date? c

end Row

end DecisionTables
