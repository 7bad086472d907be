import DecisionTables.Proofs.Table.Rows

/-!
# Rows of entries with functions

The row of an entry keeps the cells that were read when the entry was prepared. Where the entry names a
function, the first cell is the result of the call, converted by the first output level; the call may fail, and
so may the conversion (`PreparedTable.errorOf?_rowOf`). A query calls the functions of the entries that it
finds, in their order, so it fails with the first of their errors (`PreparedTable.errorOf?_mapM_rowOf`), and no
other calls count (`PreparedTable.answer_congr`).
-/

namespace DecisionTables.PreparedTable

/-- What a function gives for a normalized query, as a level converts it. -/
def resultOf (functions : Option Functions) (query : List (Option String)) (level : ReadyLevel) (function : String) :
    Except TableError Scalar := do
  let value ← callFunction functions function (query.map Value.ofText?)
  Except.mapError .conversion (level.codec.convert value)

/-- What is wrong with the call for an entry: the function fails, or its value cannot be converted. -/
def callFault? (t : PreparedTable) (functions : Option Functions) (query : List (Option String)) (r : ReadyEntry) :
    Option TableError :=
  match r.stored.function, t.outputs with
  | some function, level :: _ => errorOf? (resultOf functions query level function)
  | _, _ => none

/-- Two collections of functions give the same where an entry calls its function. -/
def AgreeAt (query : List (Option String)) (functions functions' : Option Functions) (r : ReadyEntry) : Prop :=
  ∀ function, r.stored.function = some function →
    callFunction functions function (query.map Value.ofText?) =
      callFunction functions' function (query.map Value.ofText?)

/-- A row shows an entry and keeps its cells as they were read. In place of the first one it has the result of the
call, where the entry names a function. -/
structure Projects (t : PreparedTable) (functions : Option Functions) (query : List (Option String)) (r : ReadyEntry)
    (row : Row) : Prop extends t.Shows r row where
  kept : ∀ j, (r.stored.function.isSome = true → j ≠ 0) → row.cells[j]? = r.cells[j]?
  called : ∀ function, r.stored.function = some function → ∃ level value x, t.outputs[0]? = some level ∧
    callFunction functions function (query.map Value.ofText?) = .ok value ∧ level.codec.convert value = .ok x ∧
    row.cells[0]? = some (level.resultCell x)

variable {t : PreparedTable} {functions functions' : Option Functions} {index : Index} {query : List (Option String)}
  {r : ReadyEntry} {row : Row}

private theorem resultOf_eq_ok {level : ReadyLevel} {function : String} {x : Scalar} :
    resultOf functions query level function = .ok x ↔
      ∃ value, callFunction functions function (query.map Value.ofText?) = .ok value ∧
        level.codec.convert value = .ok x := by
  simp only [resultOf, bind_eq_ok, mapError_eq_ok]

/-! ### The row of an entry -/

/-- The cells of an entry with a function are complete once its result is put in front. -/
private theorem cellsOf_of_function (hready : t.readyEntry r.position r.stored = .ok r) {function : String}
    (hfunction : r.stored.function = some function) :
    ∃ level levels rest, t.outputs = level :: levels ∧ r.cells = .single .null :: rest ∧
      ∀ functions query, t.cellsOf functions query r =
        (resultOf functions query level function).map fun x => level.resultCell x :: rest := by
  obtain ⟨level, levels, -, -, rest, houtputs, -, -, -, hcells⟩ := exists_readFrom_of_function hready hfunction
  refine ⟨level, levels, rest, houtputs, hcells, fun functions query => ?_⟩
  rw [cellsOf, hfunction, houtputs, hcells, resultOf]
  dsimp only
  cases callFunction functions function (query.map Value.ofText?) with
  | error fault => rfl
  | ok value =>
    dsimp only [bind, Except.bind]
    cases level.codec.convert value <;> rfl

private theorem cellsOf_of_none (hnone : r.stored.function = none) : t.cellsOf functions query r = .ok r.cells := by
  rw [cellsOf, hnone]

private theorem rowOf_eq_map : t.rowOf functions query r =
    (t.cellsOf functions query r).map fun cells =>
      ⟨cells, if t.identifiesEntries then r.stored.key else none, t.columns⟩ := by
  rw [rowOf]
  cases t.cellsOf functions query r <;> rfl

/-- A row fails as the call of its entry does. -/
theorem errorOf?_rowOf (hready : t.readyEntry r.position r.stored = .ok r) :
    errorOf? (t.rowOf functions query r) = t.callFault? functions query r := by
  rw [rowOf_eq_map, errorOf?_map, callFault?]
  cases hfunction : r.stored.function with
  | none =>
    rw [cellsOf_of_none hfunction]
    rfl
  | some function =>
    obtain ⟨level, levels, rest, houtputs, -, hcells⟩ := cellsOf_of_function hready hfunction
    rw [hcells, houtputs, errorOf?_map]

/-- Nothing is wrong with a call exactly if the function gives a value that the first output level converts. -/
theorem callFault?_eq_none_iff (hready : t.readyEntry r.position r.stored = .ok r) :
    t.callFault? functions query r = none ↔ ∀ function, r.stored.function = some function →
      ∃ level value x, t.outputs[0]? = some level ∧
        callFunction functions function (query.map Value.ofText?) = .ok value ∧
        level.codec.convert value = .ok x := by
  cases hfunction : r.stored.function with
  | none => simp [callFault?, hfunction]
  | some function =>
    obtain ⟨level, levels, rest, houtputs, -, -⟩ := cellsOf_of_function hready hfunction
    simp only [callFault?, hfunction, houtputs, errorOf?_eq_none, resultOf_eq_ok, Option.some.injEq, forall_eq',
      List.getElem?_cons_zero]
    constructor
    · rintro ⟨x, value, hvalue, hconvert⟩
      exact ⟨level, value, x, rfl, hvalue, hconvert⟩
    · rintro ⟨_, value, x, rfl, hvalue, hconvert⟩
      exact ⟨x, value, hvalue, hconvert⟩

theorem projects_of_rowOf (hready : t.readyEntry r.position r.stored = .ok r)
    (h : t.rowOf functions query r = .ok row) : t.Projects functions query r row := by
  refine ⟨shows_of_rowOf hready h, ?_, ?_⟩
  · rw [rowOf_eq_map] at h
    obtain ⟨cells, hcells, rfl⟩ := map_eq_ok.1 h
    intro j hj
    cases hfunction : r.stored.function with
    | none =>
      rw [cellsOf_of_none hfunction] at hcells
      rw [Except.ok.inj hcells]
    | some function =>
      obtain ⟨level, levels, rest, -, hread, hresult⟩ := cellsOf_of_function hready hfunction
      rw [hresult] at hcells
      obtain ⟨x, -, rfl⟩ := map_eq_ok.1 hcells
      obtain ⟨j, rfl⟩ := Nat.exists_eq_succ_of_ne_zero (hj (by rw [hfunction]; rfl))
      rw [hread]
      rfl
  · rw [rowOf_eq_map] at h
    obtain ⟨cells, hcells, rfl⟩ := map_eq_ok.1 h
    intro function hfunction
    obtain ⟨level, levels, rest, houtputs, -, hresult⟩ := cellsOf_of_function hready hfunction
    rw [hresult] at hcells
    obtain ⟨x, hx, rfl⟩ := map_eq_ok.1 hcells
    obtain ⟨value, hvalue, hconvert⟩ := resultOf_eq_ok.1 hx
    exact ⟨level, value, x, by rw [houtputs]; rfl, hvalue, hconvert, rfl⟩

private theorem rowOf_congr (h : AgreeAt query functions functions' r) :
    t.rowOf functions query r = t.rowOf functions' query r := by
  rw [rowOf_eq_map, rowOf_eq_map, cellsOf, cellsOf]
  cases hfunction : r.stored.function with
  | none => rfl
  | some function =>
    dsimp only
    rw [h function hfunction]

/-! ### The rows of all entries found -/

section

variable {entries : List Entry} {found : List ReadyEntry}

theorem readyEntry_of_search (hindex : t.indexOf entries = .ok index) (hquery : query.length = t.inputs.length)
    (h : t.search index query = .ok found) : ∀ r ∈ found, t.readyEntry r.position r.stored = .ok r :=
  fun r hr => (indexOf_eq_ok.1 hindex).2.1 r (mem_of_search hindex hquery h r hr)

/-- The entries found stand in the order of the table. -/
theorem pairwise_position_of_search (hindex : t.indexOf entries = .ok index)
    (hquery : query.length = t.inputs.length) (h : t.search index query = .ok found) :
    (found.map (·.position)).Pairwise (· < ·) := by
  have hpositions : index.entries.map (·.position) = List.range' 0 entries.length := by
    have hsnd := congrArg (List.map Prod.snd) (indexOf_eq_ok.1 hindex).1
    rwa [List.map_map, List.zipIdx_map_snd] at hsnd
  refine List.Pairwise.sublist ((sublist_of_search hindex hquery h).map (·.position)) ?_
  rw [hpositions]
  exact List.pairwise_lt_range'

/-- The first call that fails counts. -/
theorem errorOf?_mapM_rowOf (hready : ∀ r ∈ found, t.readyEntry r.position r.stored = .ok r) :
    errorOf? (found.mapM (t.rowOf functions query)) = found.findSome? (t.callFault? functions query) := by
  have hfaults : List.Forall₂ (fun r r' => errorOf? (t.rowOf functions query r) =
      ((t.callFault? functions query r').toList).head?) found found :=
    List.forall₂_same.2 fun r hr => by rw [errorOf?_rowOf (hready r hr), Option.head?_toList]
  rw [errorOf?_mapM hfaults, List.head?_flatMap]
  simp only [Option.head?_toList]

/-- Functions that agree where the entries found call them give the same answer. -/
theorem answer_congr (hfound : t.search index query = .ok found)
    (h : ∀ r ∈ found, AgreeAt query functions functions' r) (detailed : Bool) :
    t.answer functions index query detailed = t.answer functions' index query detailed := by
  rw [answer_eq, answer_eq, hfound]
  dsimp only [bind, Except.bind]
  rw [mapM_congr fun r hr => rowOf_congr (h r hr)]

end

end DecisionTables.PreparedTable
