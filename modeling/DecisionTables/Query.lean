import DecisionTables.Answer
import DecisionTables.Context

/-!
# Queries

A query gives a prepared table one value per input level. The values are normalized: each is converted by its
level's codec and encoded, so that it meets patterns in their canonical text; a blank text stays blank and
meets only the wildcard. The entries found become rows. The first output cell of an entry with a function
holds the function's result for the normalized values, converted by the column's codec; functions of other
entries are not called.
-/

namespace DecisionTables

/-- Functions by name. -/
abbrev Functions := String → List Value → Except FunctionError Value

/-- Calls a function, where functions are available. -/
def callFunction (functions : Option Functions) (name : String) (arguments : List Value) : Except TableError Value :=
  match functions with
  | none => .error .noFunctions
  | some f => (f name arguments).mapError .function

/-- Derives a query value from a context. -/
abbrev Creator := Context → Value

namespace ReadyLevel

/-- The text of a query value in the form that patterns are compared with. -/
def normalizeValue (l : ReadyLevel) (value : Value) : Except ConversionError (Option String) :=
  match value with
  | .text s => if Text.isBlank s then .ok (some "") else (l.codec.convert (.text s)).map l.codec.encode
  | value => (l.codec.convert value).map l.codec.encode

/-- What a query asks for at a level. -/
def probe (l : ReadyLevel) (value : Option String) : Probe :=
  ⟨l.codec, l.matcher, value⟩

end ReadyLevel

namespace PreparedTable

/-- Checks that there is one value per input level, and normalizes the values. -/
def normalize (t : PreparedTable) (values : List Value) : Except TableError (List (Option String)) :=
  if values.length ≠ t.inputs.length then .error (.arity t.name t.inputs.length values.length)
  else Except.mapError .conversion ((t.inputs.zip values).mapM fun pair => pair.1.normalizeValue pair.2)

/-- The probes of a normalized query. -/
def probes (t : PreparedTable) (query : List (Option String)) : List Probe :=
  List.zipWith ReadyLevel.probe t.inputs query

/-- The cells of an entry found. -/
def cellsOf (t : PreparedTable) (functions : Option Functions) (query : List (Option String)) (e : ReadyEntry) :
    Except TableError (List Cell) :=
  match e.stored.function with
  | none => .ok e.cells
  | some name => do
    let result ← callFunction functions name (query.map Value.ofText?)
    match t.outputs, e.cells with
    | level :: _, _ :: cells => do
      let x ← Except.mapError .conversion (level.codec.convert result)
      pure (level.resultCell x :: cells)
    | _, cells => pure cells

/-- The row of an entry found. -/
def rowOf (t : PreparedTable) (functions : Option Functions) (query : List (Option String)) (e : ReadyEntry) :
    Except TableError Row := do
  let cells ← t.cellsOf functions query e
  pure ⟨cells, if t.identifiesEntries then e.stored.key else none, t.columns⟩

/-- The entry behind a row. -/
def foundEntry (t : PreparedTable) (e : ReadyEntry) : FoundEntry :=
  ⟨e.stored.patterns, e.stored.key, t.levelNames⟩

/-- The entries that a normalized query finds. -/
def search (t : PreparedTable) (index : Index) (query : List (Option String)) :
    Except TableError (List ReadyEntry) := do
  let found ← Except.mapError .conversion (index.tree.search (t.probes query))
  let entries := found.getD []
  if entries.isEmpty && !t.nullable then throw (.noValueFound t.name query)
  pure entries

/-- The rows of entries found, and the entries behind them if they are asked for. -/
def rowsOf (t : PreparedTable) (functions : Option Functions) (query : List (Option String)) (detailed : Bool) :
    List ReadyEntry → Except TableError (List Row × List FoundEntry)
  | [] => .ok ([], [])
  | e :: es => do
    let row ← t.rowOf functions query e
    let (rows, entries) ← rowsOf t functions query detailed es
    pure (row :: rows, if detailed then t.foundEntry e :: entries else entries)

/-- The answer to a normalized query, with the entries behind the rows if they are asked for. -/
def answer (t : PreparedTable) (functions : Option Functions) (index : Index) (query : List (Option String))
    (detailed : Bool) : Except TableError DetailedAnswer := do
  let found ← t.search index query
  let (rows, entries) ← t.rowsOf functions query detailed found
  pure ⟨⟨t.name, t.source, t.identifiesEntries, rows⟩, entries⟩

/-- The query values of a context: its explicit ones, or those of the creators of the input levels. -/
def valuesIn (t : PreparedTable) (creator? : String → Option Creator) (context : Context) :
    Except TableError (List Value) :=
  match context.levelValues with
  | some values => .ok values
  | none => t.inputs.mapM fun level =>
    match level.creator.bind creator? with
    | some create => .ok (create context)
    | none => .error (.unresolvedLevel t.name level.label)

end PreparedTable

end DecisionTables
