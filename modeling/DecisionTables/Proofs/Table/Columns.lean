import DecisionTables.Proofs.Table.Rows
import DecisionTables.Proofs.Table.WellFormed

/-!
# The columns of a row

The rows of a table have the shape that its definition declares: one column for each output level, under the
name of the level, which holds an array exactly if the level is an array level (`Row.Follows`). So of the two
readers of a column one succeeds, and the other reports the shape of the column. A column that is addressed by
its name is the first one of this name, and reading it gives what its place gives, with the name in place of the
number in the message of an error (`Row.Alike`).
-/

namespace DecisionTables

/-- The same error of another address of the column. -/
def TableError.forColumn (c : Column) : TableError → TableError
  | .wrongShape _ holdsArray => .wrongShape c.display holdsArray
  | .unknownColumn _ => .unknownColumn c.display
  | e => e

namespace Row

/-- All readers report that there is no such column. -/
structure Lacks (row : Row) (c : Column) : Prop where
  cell : row.cell c = .error (.unknownColumn c.display)
  get : row.get c = .error (.unknownColumn c.display)
  getArray : row.getArray c = .error (.unknownColumn c.display)
  read : ∀ {α : Type} (reader : Scalar → Except WrongKind α), row.read reader c = .error (.unknownColumn c.display)
  readArray : ∀ {α : Type} (reader : Scalar → Except WrongKind (Option α)),
    row.readArray reader c = .error (.unknownColumn c.display)

/-- All readers give the same for two addresses, but that their errors name the address. -/
structure Alike (row : Row) (c c' : Column) : Prop where
  cell : row.cell c = (row.cell c').mapError (·.forColumn c)
  get : row.get c = (row.get c').mapError (·.forColumn c)
  getArray : row.getArray c = (row.getArray c').mapError (·.forColumn c)
  read : ∀ {α : Type} (reader : Scalar → Except WrongKind α),
    row.read reader c = (row.read reader c').mapError (·.forColumn c)
  readArray : ∀ {α : Type} (reader : Scalar → Except WrongKind (Option α)),
    row.readArray reader c = (row.readArray reader c').mapError (·.forColumn c)

/-- A row has the columns of some levels, in their order. -/
structure Follows (levels : List Level) (row : Row) : Prop where
  cells : row.cells.map Cell.isArray = levels.map (·.isArray)
  single : ∀ j l, levels[j]? = some l → l.isArray = false → ∃ x, row.cells[j]? = some (.single x) ∧
    row.get (.at j) = .ok x ∧ row.getArray (.at j) = .error (.wrongShape (toString j) false)
  array : ∀ j l, levels[j]? = some l → l.isArray = true → ∃ xs, row.cells[j]? = some (.array xs) ∧
    row.getArray (.at j) = .ok xs ∧ row.get (.at j) = .error (.wrongShape (toString j) true)
  beyond : ∀ j, levels.length ≤ j → row.Lacks (.at j)
  named : ∀ name j, levels.findIdx? (·.name == some name) = some j → row.Alike (.named name) (.at j)
  unnamed : ∀ name, (∀ l ∈ levels, l.name ≠ some name) → row.Lacks (.named name)

variable {row : Row} {c c' : Column}

private theorem lacks_of_position (h : c.position? row.columns = none) : row.Lacks c := by
  have hcell : row.cell c = .error (.unknownColumn c.display) := by
    rw [Row.cell, h]
    rfl
  have hget : row.get c = .error (.unknownColumn c.display) := by
    rw [Row.get, hcell]
    rfl
  have hgetArray : row.getArray c = .error (.unknownColumn c.display) := by
    rw [Row.getArray, hcell]
    rfl
  refine ⟨hcell, hget, hgetArray, fun reader => ?_, fun reader => ?_⟩
  · rw [Row.read, hget]
    rfl
  · rw [Row.readArray, hgetArray]
    rfl

/-- An error about what a cell holds does not name the column. -/
private theorem mapError_wrongKind {α : Type} (x : Except WrongKind α) (c : Column) :
    (x.mapError TableError.wrongKind).mapError (·.forColumn c) = x.mapError TableError.wrongKind := by
  cases x <;> rfl

/-- Two addresses of one place are alike. -/
private theorem alike_of_position (h : c.position? row.columns = c'.position? row.columns) : row.Alike c c' := by
  have hcell : row.cell c = (row.cell c').mapError (·.forColumn c) := by
    rw [Row.cell, Row.cell, h]
    cases (c'.position? row.columns).bind (row.cells[·]?) <;> rfl
  have hget : row.get c = (row.get c').mapError (·.forColumn c) := by
    rw [Row.get, Row.get, hcell]
    cases row.cell c' with
    | error fault => rfl
    | ok cell => cases cell <;> rfl
  have hgetArray : row.getArray c = (row.getArray c').mapError (·.forColumn c) := by
    rw [Row.getArray, Row.getArray, hcell]
    cases row.cell c' with
    | error fault => rfl
    | ok cell => cases cell <;> rfl
  refine ⟨hcell, hget, hgetArray, fun reader => ?_, fun reader => ?_⟩
  · rw [Row.read, Row.read, hget]
    cases row.get c' with
    | error fault => rfl
    | ok x => exact (mapError_wrongKind (reader x) c).symm
  · rw [Row.readArray, Row.readArray, hgetArray]
    cases row.getArray c' with
    | error fault => rfl
    | ok xs => exact (mapError_wrongKind (readAll reader xs) c).symm

private theorem cell_at {j : Nat} {cell : Cell} (hcolumn : j < row.columns.length)
    (hcell : row.cells[j]? = some cell) : row.cell (.at j) = .ok cell := by
  rw [Row.cell, Column.position?, if_pos hcolumn, Option.bind_some, hcell]

/-- A row whose cells and columns are those of some levels follows them. -/
private theorem follows_of_map {levels : List Level} (hcells : row.cells.map Cell.isArray = levels.map (·.isArray))
    (hcolumns : row.columns = levels.map (·.name)) : row.Follows levels := by
  have hcell : ∀ j l, levels[j]? = some l →
      ∃ cell, row.cells[j]? = some cell ∧ row.cell (.at j) = .ok cell ∧ cell.isArray = l.isArray := by
    intro j l hl
    obtain ⟨cell, hcell, harray⟩ : ∃ cell, row.cells[j]? = some cell ∧ cell.isArray = l.isArray := by
      rw [← Option.map_eq_some_iff, ← List.getElem?_map, hcells, List.getElem?_map, hl]
      rfl
    refine ⟨cell, hcell, cell_at ?_ hcell, harray⟩
    rw [hcolumns, List.length_map]
    exact (List.getElem?_eq_some_iff.1 hl).1
  refine ⟨hcells, fun j l hl hsingle => ?_, fun j l hl harray => ?_, fun j hj => ?_, fun name j hj => ?_,
    fun name hname => ?_⟩
  · obtain ⟨cell, hheld, hcell, hshape⟩ := hcell j l hl
    cases cell with
    | single x => exact ⟨x, hheld, by rw [Row.get, hcell]; rfl, by rw [Row.getArray, hcell]; rfl⟩
    | array xs => exact Bool.noConfusion (hshape.trans hsingle)
  · obtain ⟨cell, hheld, hcell, hshape⟩ := hcell j l hl
    cases cell with
    | single x => exact Bool.noConfusion (hshape.trans harray)
    | array xs => exact ⟨xs, hheld, by rw [Row.getArray, hcell]; rfl, by rw [Row.get, hcell]; rfl⟩
  · apply lacks_of_position
    rw [Column.position?, if_neg (by rw [hcolumns, List.length_map]; exact Nat.not_lt.2 hj)]
  · have hlt : j < levels.length := (List.findIdx?_eq_some_iff_getElem.1 hj).1
    apply alike_of_position
    rw [Column.position?, Column.position?, hcolumns, List.length_map, if_pos hlt, List.findIdx?_map]
    exact hj
  · apply lacks_of_position
    rw [Column.position?, hcolumns, List.findIdx?_map, List.findIdx?_eq_none_iff]
    exact fun l hl => by simpa using hname l hl

end Row

/-! ### The levels of a definition -/

/-- A prepared level is that of a definition. -/
structure ReadyLevel.Declared (r : ReadyLevel) (l : Level) : Prop where
  label : r.label = l.label
  name : r.name = l.name
  isArray : r.isArray = l.isArray
  creator : r.creator = l.creator

namespace PreparedTable

/-- A table was prepared from a definition, with some codecs and matchers. -/
def ComesFrom (t : PreparedTable) (definition : Table) : Prop :=
  ∃ codecs matchers source, prepare codecs matchers source definition = .ok t

namespace ComesFrom

variable {t : PreparedTable} {definition : Table}

theorem forall₂_declared (h : t.ComesFrom definition) :
    List.Forall₂ ReadyLevel.Declared t.inputs definition.inputLevels ∧
      List.Forall₂ ReadyLevel.Declared t.outputs definition.outputLevels := by
  obtain ⟨codecs, matchers, source, hprepare⟩ := h
  obtain ⟨levels, hlevels, ht⟩ := eq_header_of_prepare hprepare
  have hdeclared : List.Forall₂ ReadyLevel.Declared levels definition.ordered :=
    (forall₂_of_resolveLevels hlevels).imp fun r l hr => by
      obtain ⟨-, -, hlabel, hname, harray, hcreator⟩ := ReadyLevel.resolve_eq_ok.1 hr
      exact ⟨hlabel, hname, harray, hcreator⟩
  rw [ht]
  exact ⟨List.forall₂_take _ hdeclared, List.forall₂_drop _ hdeclared⟩

/-- A row that shows an entry has the columns that are declared. -/
theorem follows_of_shows (h : t.ComesFrom definition) {e : ReadyEntry} {row : Row} (hrow : t.Shows e row) :
    row.Follows definition.outputLevels := by
  obtain ⟨-, hdeclared⟩ := h.forall₂_declared
  apply Row.follows_of_map
  · rw [hrow.map_isArray]
    exact map_eq_map_of_forall₂ (fun _ _ hl => hl.isArray) hdeclared
  · rw [hrow.columns]
    exact map_eq_map_of_forall₂ (fun _ _ hl => hl.name) hdeclared

end ComesFrom

end PreparedTable

end DecisionTables
