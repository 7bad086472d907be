import DecisionTables.Workspace.Preparation

/-!
# Answering queries

A query to an engine prepares its table first. Then the number of values is checked, the values are
normalized, and the entries of a table that is not kept in the cache are fetched and prepared, from the first
repository of the engine that bears the name of the table's source.
-/

namespace DecisionTables.Workspace

/-- The repository of an engine that bears a name. -/
def source? (w : Workspace) (e : Nat) (source : String) : Option Nat :=
  (w.engine e).sources.lookup source

/-- Fetches the entries of a table for one query from the first repository that bears the name of the table's
source. -/
def findEntries (e : Nat) (t : PreparedTable) (query : List (Option String)) (w : Workspace) :
    List Entry × Workspace :=
  match w.source? e t.source with
  | none => ([], w)
  | some r => ((w.repository r).entriesFor t.name query, w.record (.searched r t.name query))

/-- The prepared entries of a table for one query. -/
def indexFor (e : Nat) (t : PreparedTable) (query : List (Option String)) (w : Workspace) :
    Except TableError Index × Workspace :=
  match t.index with
  | some index => (.ok index, w)
  | none =>
    let (entries, w) := w.findEntries e t query
    (t.indexOf entries, w)

/-- Answers a query to a prepared table, with the entries behind the rows if they are asked for. -/
def evaluate (e : Nat) (t : PreparedTable) (values : List Value) (detailed : Bool) (w : Workspace) :
    Except TableError DetailedAnswer × Workspace :=
  match t.normalize values with
  | .error fault => (.error fault, w)
  | .ok query =>
    match w.indexFor e t query with
    | (.error fault, w) => (.error fault, w)
    | (.ok index, w) => (t.answer (w.engine e).functions index query detailed, w)

/-- Answers a query to a table, with the entries behind the rows. -/
def getDetailed (e : Nat) (name : String) (values : List Value) (w : Workspace) :
    Except TableError DetailedAnswer × Workspace :=
  match w.prepared e name with
  | (.error fault, w) => (.error fault, w)
  | (.ok edition, w) => w.evaluate e edition.table values true

/-- Answers a query to a table. -/
def get (e : Nat) (name : String) (values : List Value) (w : Workspace) : Except TableError Answer × Workspace :=
  match w.prepared e name with
  | (.error fault, w) => (.error fault, w)
  | (.ok edition, w) =>
    let (result, w) := w.evaluate e edition.table values false
    (result.map (·.answer), w)

/-- Answers a query to a table with the values of a context. -/
def getInContext (e : Nat) (name : String) (context : Context) (w : Workspace) :
    Except TableError Answer × Workspace :=
  match w.prepared e name with
  | (.error fault, w) => (.error fault, w)
  | (.ok edition, w) =>
    match edition.table.valuesIn ((w.engine e).creators.get? ·) context with
    | .error fault => (.error fault, w)
    | .ok values =>
      let (result, w) := w.evaluate e edition.table values false
      (result.map (·.answer), w)

/-- Calls a function of an engine. -/
def call (w : Workspace) (e : Nat) (function : String) (arguments : List Value) : Except TableError Value :=
  callFunction (w.engine e).functions function arguments

/-- The name of a function in the first cell of an answer. -/
def functionIn (name : String) (answer : Answer) : Except TableError String := do
  match (← answer.row 0).cells with
  | .single (.text function) :: _ => pure function
  | _ => throw (.notAFunction name)

/-- Queries a table for the name of a function, and calls it. -/
def callFound (e : Nat) (name : String) (values arguments : List Value) (w : Workspace) :
    Except TableError Value × Workspace :=
  let (result, w) := w.get e name values
  (do w.call e (← functionIn name (← result)) arguments, w)

/-- Puts the edition of one name into the cache under another one. -/
def put (e : Nat) (name source : String) (w : Workspace) : Except TableError Unit × Workspace :=
  match w.prepared e source with
  | (.error fault, w) => (.error fault, w)
  | (.ok edition, w) => (.ok (), w.modifyCacheOf e (·.put name edition))

/-- The edition in the cache, or else an error. -/
def cachedOr (w : Workspace) (e : Nat) (name : String) (fault : TableError) : Except TableError Edition :=
  match (w.cacheOf e).get? name with
  | some edition => .ok edition
  | none => .error fault

/-- Prepares a name several times in a row. -/
def prepareTimes (e : Nat) (name : String) : Nat → Workspace → List (Except TableError Edition) × Workspace
  | 0, w => ([], w)
  | n + 1, w =>
    let (result, w) := w.prepared e name
    let (results, w) := prepareTimes e name n w
    (result :: results, w)

/-- Whether two preparations of a name in a row, perhaps with an invalidation in between, give the same
edition. Both take place, and of two failures the first is reported. -/
def sameEdition (e : Nat) (name : String) (invalidated : Bool) (w : Workspace) :
    Except TableError Bool × Workspace :=
  let (first, w) := w.prepared e name
  let w := if invalidated then w.invalidate e name else w
  let (second, w) := w.prepared e name
  (do return (← first).serial == (← second).serial, w)

end DecisionTables.Workspace
