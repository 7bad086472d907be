import DecisionTables.Proofs.Table.Answering
import DecisionTables.Proofs.Table.Deciding
import DecisionTables.Proofs.Table.Searching

/-!
# Rows and the entries behind them

Each row of an answer shows one of the entries found, in their order: a cell of the row is what the level of its
column reads from the pattern of the entry, and the first cell of an entry with a function holds a value that
was computed (`PreparedTable.Shows`). Cells are read when a table is prepared, and the first one is put in place
by a query; in both cases a cell is an array exactly if its level is an array level
(`PreparedTable.Shows.map_isArray`).
-/

namespace DecisionTables

/-- Whether a cell holds several values. -/
def Cell.isArray : Cell → Bool
  | .single _ => false
  | .array _ => true

namespace ReadyLevel

variable {l : ReadyLevel} {separator : Char}

private theorem isArray_of_decodeCell {pattern : Option String} {cell : Cell}
    (h : l.decodeCell separator pattern = .ok cell) : cell.isArray = l.isArray := by
  rw [decodeCell] at h
  split at h
  next harray =>
    obtain ⟨xs, -, rfl⟩ := map_eq_ok.1 h
    exact harray.symm
  next harray =>
    have hsingle : l.isArray = false := by simpa using harray
    split at h
    · cases h
      exact hsingle.symm
    · obtain ⟨x, -, rfl⟩ := map_eq_ok.1 h
      exact hsingle.symm

private theorem isArray_resultCell (l : ReadyLevel) (x : Scalar) : (l.resultCell x).isArray = l.isArray := by
  rw [resultCell]
  split
  next harray => exact harray.symm
  next harray => exact (Bool.eq_false_iff.2 harray).symm

end ReadyLevel

/-! ### Cells that are read at preparation -/

/-- Cells, one for each level, are what the levels read from patterns. -/
def ReadFrom (separator : Char) (levels : List ReadyLevel) (patterns : List (Option String)) (cells : List Cell) :
    Prop :=
  List.Forall₂ (fun pair cell => pair.1.decodeCell separator pair.2 = .ok cell) (levels.zip patterns) cells

namespace ReadFrom

variable {separator : Char} {levels : List ReadyLevel} {patterns : List (Option String)} {cells : List Cell}

theorem length (h : ReadFrom separator levels patterns cells) (hpatterns : patterns.length = levels.length) :
    cells.length = levels.length := by
  rw [← List.Forall₂.length_eq h, List.length_zip, hpatterns, Nat.min_self]

private theorem decoded (h : ReadFrom separator levels patterns cells)
    (hpatterns : patterns.length = levels.length) {j : Nat} {l : ReadyLevel} (hl : levels[j]? = some l) :
    ∃ cell, cells[j]? = some cell ∧ l.decodeCell separator patterns[j]?.join = .ok cell := by
  have hlt : j < patterns.length := by
    rw [hpatterns]
    exact (List.getElem?_eq_some_iff.1 hl).1
  have hpair : (levels.zip patterns)[j]? = some (l, patterns[j]) :=
    List.getElem?_zip_eq_some.2 ⟨hl, List.getElem?_eq_getElem hlt⟩
  rw [List.getElem?_eq_getElem hlt]
  exact getElem?_of_forall₂ h hpair

end ReadFrom

private theorem decodeCells_false {separator : Char} {levels : List ReadyLevel} {patterns : List (Option String)}
    {cells : List Cell} :
    decodeCells separator false levels patterns = .ok cells ↔ ReadFrom separator levels patterns cells := by
  rw [ReadFrom, ← mapM_eq_ok]
  rfl

private theorem decodeCells_true_cons {separator : Char} {l : ReadyLevel} {levels : List ReadyLevel}
    {p : Option String} {patterns : List (Option String)} {cells : List Cell} :
    decodeCells separator true (l :: levels) (p :: patterns) = .ok cells ↔
      ∃ rest, ReadFrom separator levels patterns rest ∧ .single .null :: rest = cells := by
  simp only [ReadFrom, ← mapM_eq_ok]
  exact map_eq_ok

/-! ### Rows -/

namespace PreparedTable

/-- A row shows an entry as a detailed answer has it: its key, where the table identifies its entries, and in each
column what the level of the column reads from the pattern of the entry. The first cell of an entry with a function
holds a computed value instead. -/
structure Shows (t : PreparedTable) (e : ReadyEntry) (row : Row) : Prop where
  key : row.key = if t.identifiesEntries then (t.foundEntry e).key else none
  columns : row.columns = t.columns
  length : row.cells.length = t.outputs.length
  decoded : ∀ j l, t.outputs[j]? = some l → (e.stored.function.isSome = true → j ≠ 0) →
    ∃ cell, row.cells[j]? = some cell ∧
      l.decodeCell t.separator ((t.foundEntry e).pattern? (.at (t.inputs.length + j))) = .ok cell
  computed : e.stored.function.isSome = true → ∀ l, t.outputs[0]? = some l →
    ∃ x, row.cells[0]? = some (l.resultCell x)

variable {t : PreparedTable} {functions : Option Functions} {index : Index} {query : List (Option String)}

/-- The cells of a row are arrays at the array levels, and there alone. -/
theorem Shows.map_isArray {e : ReadyEntry} {row : Row} (h : t.Shows e row) :
    row.cells.map Cell.isArray = t.outputs.map (·.isArray) := by
  apply List.ext_getElem?
  intro j
  rw [List.getElem?_map, List.getElem?_map]
  cases hl : t.outputs[j]? with
  | none =>
    have hle : row.cells.length ≤ j := by
      rw [h.length]
      exact List.getElem?_eq_none_iff.1 hl
    rw [List.getElem?_eq_none hle]
    rfl
  | some l =>
    by_cases hopen : e.stored.function.isSome = true ∧ j = 0
    · obtain ⟨hfunction, rfl⟩ := hopen
      obtain ⟨x, hx⟩ := h.computed hfunction l hl
      rw [hx]
      exact congrArg some (ReadyLevel.isArray_resultCell l x)
    · obtain ⟨cell, hcell, hdecoded⟩ := h.decoded j l hl fun hfunction hj => hopen ⟨hfunction, hj⟩
      rw [hcell]
      exact congrArg some (ReadyLevel.isArray_of_decodeCell hdecoded)

/-- The patterns of an entry found are addressed over all levels. -/
private theorem pattern?_foundEntry (t : PreparedTable) (e : ReadyEntry) {i : Nat} (hi : i < t.levelCount) :
    (t.foundEntry e).pattern? (.at i) = e.stored.pattern? i := by
  have hnames : i < t.levelNames.length := by simpa [levelNames, levelCount] using hi
  simp [FoundEntry.pattern?, foundEntry, Column.position?, hnames, Entry.pattern?]

section

variable {r : ReadyEntry} {cells : List Cell}

private theorem length_outputPatterns (h : t.readyEntry r.position r.stored = .ok r) :
    (r.stored.patterns.drop t.inputs.length).length = t.outputs.length := by
  rw [List.length_drop, (readyEntry_eq_ok.1 h).1, levelCount, Nat.add_sub_cancel_left]

private theorem readFrom_of_cellsOf (hready : t.readyEntry r.position r.stored = .ok r)
    (hnone : r.stored.function = none) (h : t.cellsOf functions query r = .ok cells) :
    ReadFrom t.separator t.outputs (r.stored.patterns.drop t.inputs.length) cells := by
  obtain ⟨-, -, -, hread, -, -⟩ := readyEntry_eq_ok.1 hready
  rw [cellsOf, hnone] at h
  rw [hnone] at hread
  obtain rfl := Except.ok.inj h
  exact decodeCells_false.1 hread

/-- An entry with a function was prepared with an output level, whose cell is left open. The other cells are read as
they are for entries without one. -/
theorem exists_readFrom_of_function (hready : t.readyEntry r.position r.stored = .ok r) {name : String}
    (hname : r.stored.function = some name) :
    ∃ level levels pattern patterns rest, t.outputs = level :: levels ∧
      r.stored.patterns.drop t.inputs.length = pattern :: patterns ∧ patterns.length = levels.length ∧
      ReadFrom t.separator levels patterns rest ∧ r.cells = .single .null :: rest := by
  obtain ⟨-, hopen, -, hread, -, -⟩ := readyEntry_eq_ok.1 hready
  have hpatterns := length_outputPatterns hready
  rw [hname] at hread hopen
  obtain ⟨level, levels, houtputs⟩ : ∃ level levels, t.outputs = level :: levels :=
    List.exists_cons_of_ne_nil fun hnil => by simp [hnil] at hopen
  obtain ⟨pattern, patterns, hdrop⟩ : ∃ p ps, r.stored.patterns.drop t.inputs.length = p :: ps :=
    List.exists_cons_of_length_pos (by rw [hpatterns, houtputs]; exact Nat.succ_pos _)
  rw [houtputs, hdrop] at hread hpatterns
  obtain ⟨rest, hread, hplaced⟩ := decodeCells_true_cons.1 hread
  exact ⟨level, levels, pattern, patterns, rest, houtputs, hdrop, by simpa using hpatterns, hread, hplaced.symm⟩

/-- The result of the function is put into the open cell. -/
private theorem exists_readFrom_of_cellsOf (hready : t.readyEntry r.position r.stored = .ok r) {name : String}
    (hname : r.stored.function = some name) (h : t.cellsOf functions query r = .ok cells) :
    ∃ level levels pattern patterns x rest, t.outputs = level :: levels ∧
      r.stored.patterns.drop t.inputs.length = pattern :: patterns ∧ patterns.length = levels.length ∧
      ReadFrom t.separator levels patterns rest ∧ cells = level.resultCell x :: rest := by
  obtain ⟨level, levels, pattern, patterns, rest, houtputs, hdrop, hpatterns, hread, hplaced⟩ :=
    exists_readFrom_of_function hready hname
  rw [cellsOf, hname] at h
  obtain ⟨result, -, hcells⟩ := bind_eq_ok.1 h
  rw [houtputs, hplaced] at hcells
  obtain ⟨x, -, hcells⟩ := bind_eq_ok.1 hcells
  exact ⟨level, levels, pattern, patterns, x, rest, houtputs, hdrop, hpatterns, hread, (Except.ok.inj hcells).symm⟩

/-- The row of an entry that was prepared shows it. -/
theorem shows_of_rowOf {row : Row} (hready : t.readyEntry r.position r.stored = .ok r)
    (h : t.rowOf functions query r = .ok row) : t.Shows r row := by
  obtain ⟨cells, hcells, hrow⟩ := bind_eq_ok.1 h
  obtain rfl := Except.ok.inj hrow
  have hpattern : ∀ j l, t.outputs[j]? = some l → (t.foundEntry r).pattern? (.at (t.inputs.length + j)) =
      (r.stored.patterns.drop t.inputs.length)[j]?.join := fun j l hl => by
    have hj : j < t.outputs.length := (List.getElem?_eq_some_iff.1 hl).1
    rw [pattern?_foundEntry t r (Nat.add_lt_add_left hj _), Entry.pattern?, List.getElem?_drop]
  cases hname : r.stored.function with
  | none =>
    have hread := readFrom_of_cellsOf hready hname hcells
    have hpatterns := length_outputPatterns hready
    refine ⟨rfl, rfl, hread.length hpatterns, fun j l hl _ => ?_, fun hsome => by simp [hname] at hsome⟩
    rw [hpattern j l hl]
    exact hread.decoded hpatterns hl
  | some name =>
    obtain ⟨level, levels, pattern, patterns, x, rest, houtputs, hdrop, hpatterns, hread, rfl⟩ :=
      exists_readFrom_of_cellsOf hready hname hcells
    refine ⟨rfl, rfl, ?_, fun j l hl hj => ?_, fun _ l hl => ?_⟩
    · simp [houtputs, hread.length hpatterns]
    · rw [hpattern j l hl, hdrop]
      obtain ⟨j, rfl⟩ := Nat.exists_eq_succ_of_ne_zero (hj (by simp [hname]))
      rw [houtputs] at hl
      exact hread.decoded hpatterns hl
    · obtain rfl : level = l := by simpa [houtputs] using hl
      exact ⟨x, rfl⟩

end

/-! ### Answers -/

/-- The entries found stand in the order of the index. -/
theorem sublist_of_search {entries : List Entry} {found : List ReadyEntry} (hindex : t.indexOf entries = .ok index)
    (hquery : query.length = t.inputs.length) (h : t.search index query = .ok found) :
    found.Sublist index.entries := by
  obtain ⟨reached, hreached, hfound⟩ := bind_eq_ok.1 h
  have hfinds := finds_of_search hindex hquery (mapError_eq_ok.1 hreached)
  obtain rfl : reached.getD [] = found := by
    dsimp only at hfound
    split at hfound
    · cases hfound
    · exact Except.ok.inj hfound
  cases hfinds with
  | nothing => exact List.nil_sublist _
  | best =>
    simp only [List.filter_map, List.map_map, Function.comp_def, List.map_id', Option.getD_some]
    exact List.filter_sublist

/-- Only entries of the index are found. -/
theorem mem_of_search {entries : List Entry} {found : List ReadyEntry} (hindex : t.indexOf entries = .ok index)
    (hquery : query.length = t.inputs.length) (h : t.search index query = .ok found) :
    ∀ r ∈ found, r ∈ index.entries :=
  fun _ hr => (sublist_of_search hindex hquery h).subset hr

/-- An answer has a row for each entry found, and a detailed one has the entry as well. -/
theorem shows_of_answer {entries : List Entry} {d : DetailedAnswer} (hindex : t.indexOf entries = .ok index)
    (hquery : query.length = t.inputs.length) (h : t.answer functions index query true = .ok d) :
    ∃ found, t.search index query = .ok found ∧ d.entries = found.map t.foundEntry ∧
      List.Forall₂ t.Shows found d.answer.rows := by
  rw [answer_eq] at h
  obtain ⟨found, hfound, hanswer⟩ := bind_eq_ok.1 h
  obtain ⟨rows, hrows, hd⟩ := bind_eq_ok.1 hanswer
  obtain rfl := Except.ok.inj hd
  have hready : ∀ r ∈ found, t.readyEntry r.position r.stored = .ok r := fun r hr =>
    (indexOf_eq_ok.1 hindex).2.1 r (mem_of_search hindex hquery hfound r hr)
  refine ⟨found, hfound, rfl, ?_⟩
  exact ((List.forall₂_and_left found rows).2 ⟨hready, mapM_eq_ok.1 hrows⟩).imp fun r row h =>
    shows_of_rowOf h.1 h.2

end PreparedTable

end DecisionTables
