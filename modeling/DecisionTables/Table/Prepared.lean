import DecisionTables.Registry
import DecisionTables.Table
import DecisionTables.Tree.Walk

/-!
# Prepared tables

Preparing a table resolves the codec and the matcher of each level, checks every entry against the levels and
divides the entries by their patterns. On a level with an exact matcher a pattern is stored in the codec's
canonical text, so that equal texts mean equal scalars; on another level the matcher validates it and it stays
as it is. Output cells are decoded once. The first fault is reported: the levels come before the entries, and
both go in order.
-/

namespace DecisionTables

/-- An output cell: one value, or the values of an array level. -/
inductive Cell where
  | single (x : Scalar)
  | array (xs : List Scalar)
  deriving DecidableEq, Repr

/-- A level with its codec and matcher. -/
structure ReadyLevel where
  label : String
  name : Option String
  codec : Codec
  matcher : Matcher
  isArray : Bool
  creator : Option String

/-- An entry with its patterns normalized and its cells decoded. -/
structure ReadyEntry where
  /-- The place of the entry in the table. -/
  position : Nat
  /-- The entry as stored. -/
  stored : Entry
  inputs : List Pattern
  cells : List Cell

/-- Prepared entries, and the same divided by their patterns. -/
structure Index where
  entries : List ReadyEntry
  tree : Tree ReadyEntry

/-- Divides prepared entries by so many patterns. -/
def Index.build (inputs : Nat) (entries : List ReadyEntry) : Index :=
  ⟨entries, Tree.build inputs (entries.map fun e => (e.inputs, e))⟩

/-- A table ready for queries. -/
structure PreparedTable where
  name : String
  /-- The repository that the table comes from. -/
  source : String
  inputs : List ReadyLevel
  outputs : List ReadyLevel
  nullable : Bool
  cacheable : Bool
  identifiesEntries : Bool
  separator : Char
  /-- The entries, unless they are fetched for each query. -/
  index : Option Index

namespace ReadyLevel

/-- The level with the codec and the matcher of its codes. -/
def resolve (codecs : CodecRegistry) (matchers : MatcherRegistry) (l : Level) : Except TableError ReadyLevel := do
  let codec ← codecs.resolve l.codec
  let matcher ← matchers.resolve l.matcher
  pure ⟨l.label, l.name, codec, matcher, l.isArray, l.creator⟩

/-- The pattern of an input level in the form that queries are matched with. -/
def normalizePattern (l : ReadyLevel) : Option String → Except ConversionError Pattern
  | none => .ok .null
  | some s =>
    if s = wildcard then .ok .any
    else if l.matcher.exact then (l.codec.decode (some s)).map fun x => .ofText? (l.codec.encode x)
    else (l.matcher.validate l.codec s).map fun _ => .text s

/-- Reads the values of an array cell, each without the white space around it. An absent or blank cell and the
wildcard hold no values. -/
def decodeArray (l : ReadyLevel) (separator : Char) : Option String → Except ConversionError (List Scalar)
  | none => .ok []
  | some s =>
    if s = wildcard || Text.isBlank s then .ok []
    else (s.toList.splitOn separator).mapM fun part => l.codec.decode (some (String.ofList (Text.strip part)))

/-- Reads an output cell. The wildcard is a null value. -/
def decodeCell (l : ReadyLevel) (separator : Char) (pattern : Option String) : Except ConversionError Cell :=
  if l.isArray then (l.decodeArray separator pattern).map .array
  else if pattern = some wildcard then .ok (.single .null)
  else (l.codec.decode pattern).map .single

end ReadyLevel

/-- A cell that holds the result of a function, as the only value of an array level. -/
def ReadyLevel.resultCell (l : ReadyLevel) (x : Scalar) : Cell :=
  if l.isArray then .array [x] else .single x

/-- Reads the output cells of an entry. The first cell of an entry with a function is left open. -/
def decodeCells (separator : Char) (hasFunction : Bool) (levels : List ReadyLevel) (patterns : List (Option String)) :
    Except ConversionError (List Cell) :=
  let decode (cells : List (ReadyLevel × Option String)) : Except ConversionError (List Cell) :=
    cells.mapM fun cell => cell.1.decodeCell separator cell.2
  match hasFunction, levels.zip patterns with
  | true, _ :: cells => (decode cells).map (.single .null :: ·)
  | _, cells => decode cells

namespace PreparedTable

/-- The number of levels. -/
def levelCount (t : PreparedTable) : Nat :=
  t.inputs.length + t.outputs.length

/-- The names of the output columns. -/
def columns (t : PreparedTable) : List (Option String) :=
  t.outputs.map (·.name)

/-- The names of all levels. -/
def levelNames (t : PreparedTable) : List (Option String) :=
  (t.inputs ++ t.outputs).map (·.name)

/-- Checks an entry against the levels and reads its patterns and cells. -/
def readyEntry (t : PreparedTable) (position : Nat) (e : Entry) : Except TableError ReadyEntry :=
  if e.patterns.length ≠ t.levelCount then
    .error (.malformed t.name (.patternCount position e.patterns.length t.levelCount))
  else if e.function.isSome && t.outputs.isEmpty then
    .error (.malformed t.name (.functionWithoutOutput position))
  else Except.mapError .conversion do
    let inputs ← (t.inputs.zip e.patterns).mapM fun pair => pair.1.normalizePattern pair.2
    let cells ← decodeCells t.separator e.function.isSome t.outputs (e.patterns.drop t.inputs.length)
    pure ⟨position, e, inputs, cells⟩

/-- Prepares entries and divides them by their patterns. -/
def indexOf (t : PreparedTable) (entries : List Entry) : Except TableError Index := do
  let ready ← entries.zipIdx.mapM fun e => t.readyEntry e.2 e.1
  pure (.build t.inputs.length ready)

/-- Prepares a table that a repository provides. -/
def prepare (codecs : CodecRegistry) (matchers : MatcherRegistry) (source : String) (table : Table) :
    Except TableError PreparedTable := do
  if table.levels.length < table.inputs then
    throw (.malformed table.name (.tooManyInputs table.inputs table.levels.length))
  let ordered := table.levels.mergeSort fun a b => a.order ≤ b.order
  let levels ← ordered.mapM (ReadyLevel.resolve codecs matchers)
  let prepared : PreparedTable :=
    { name := table.name
      source
      inputs := levels.take table.inputs
      outputs := levels.drop table.inputs
      nullable := table.nullable
      cacheable := table.cacheable
      identifiesEntries := table.identifiesEntries
      separator := table.separator
      index := none }
  if table.cacheable then
    let index ← prepared.indexOf table.entries
    pure { prepared with index := some index }
  else pure prepared

end PreparedTable

end DecisionTables
