import DecisionTables.Proofs.Table.Faults

/-!
# Well-formed tables

All faults of a table stand in one list, in the order in which they count: too many input levels, then the faults of
each level in the order of the levels, then those of each entry, which are a wrong number of patterns, a function
without an output level, and the patterns and cells that cannot be read (`Table.faults`). A table without faults is
well-formed (`Table.faults_eq_nil_iff`), and preparing a cacheable table fails with the first of its faults
(`PreparedTable.errorOf?_prepare`).
-/

namespace DecisionTables

namespace Table

/-- The levels in their order; levels of one number stay as they are listed. -/
def ordered (t : Table) : List Level :=
  t.levels.mergeSort fun a b => a.order ≤ b.order

/-- The levels that are matched against a query. -/
def inputLevels (t : Table) : List Level :=
  t.ordered.take t.inputs

/-- The levels of the columns. -/
def outputLevels (t : Table) : List Level :=
  t.ordered.drop t.inputs

/-- The input levels with the patterns of an entry. -/
def inputCells (t : Table) (e : Entry) : List (Level × Option String) :=
  t.inputLevels.zip e.patterns

/-- The output levels with the patterns of an entry, but for the first one if a function gives its cell. -/
def outputCells (t : Table) (e : Entry) : List (Level × Option String) :=
  (t.outputLevels.zip (e.patterns.drop t.inputs)).drop (if e.function.isSome then 1 else 0)

/-- An entry has a pattern for each level, names no function without an output level, and has patterns and cells that
its levels read. -/
structure FitsEntry (codecs : CodecRegistry) (matchers : MatcherRegistry) (t : Table) (e : Entry) : Prop where
  patterns : e.patterns.length = t.levels.length
  function : e.function.isSome = true → t.inputs < t.levels.length
  input : ∀ cell ∈ t.inputCells e, ∀ codec matcher, codecs.get? cell.1.codec = some codec →
    matchers.find? cell.1.matcher = some matcher → InputFits codec matcher cell.2
  output : ∀ cell ∈ t.outputCells e, ∀ codec, codecs.get? cell.1.codec = some codec →
    OutputFits codec cell.1.isArray t.separator cell.2

/-- There are as many levels as input levels at least, all codes are known, and the levels fit each entry. -/
structure WellFormed (codecs : CodecRegistry) (matchers : MatcherRegistry) (t : Table) : Prop where
  inputs_le : t.inputs ≤ t.levels.length
  codec : ∀ l ∈ t.levels, (codecs.get? l.codec).isSome = true
  matcher : ∀ l ∈ t.levels, (matchers.find? l.matcher).isSome = true
  entry : ∀ e ∈ t.entries, t.FitsEntry codecs matchers e

/-- What is wrong with an entry. -/
def entryFaults (codecs : CodecRegistry) (matchers : MatcherRegistry) (t : Table) (position : Nat) (e : Entry) :
    List TableError :=
  (if e.patterns.length = t.levels.length then []
    else [.malformed t.name (.patternCount position e.patterns.length t.levels.length)]) ++
  (if e.function.isSome ∧ t.levels.length ≤ t.inputs then [.malformed t.name (.functionWithoutOutput position)]
    else []) ++
  ((t.inputCells e).flatMap (fun cell => cell.1.inputFaults codecs matchers cell.2) ++
    (t.outputCells e).flatMap (fun cell => cell.1.outputFaults codecs t.separator cell.2)).map .conversion

/-- What is wrong with a table, in the order in which it is reported. -/
def faults (codecs : CodecRegistry) (matchers : MatcherRegistry) (t : Table) : List TableError :=
  (if t.inputs ≤ t.levels.length then [] else [.malformed t.name (.tooManyInputs t.inputs t.levels.length)]) ++
  (t.ordered.flatMap (·.faults codecs matchers) ++
    t.entries.zipIdx.flatMap fun e => t.entryFaults codecs matchers e.2 e.1)

variable {codecs : CodecRegistry} {matchers : MatcherRegistry} {t : Table}

private theorem mem_ordered {l : Level} : l ∈ t.ordered ↔ l ∈ t.levels :=
  List.mem_mergeSort

theorem length_ordered (t : Table) : t.ordered.length = t.levels.length :=
  List.length_mergeSort _

private theorem entryFaults_eq_nil_iff {position : Nat} {e : Entry} :
    t.entryFaults codecs matchers position e = [] ↔ t.FitsEntry codecs matchers e := by
  simp only [entryFaults, List.append_eq_nil_iff, List.map_eq_nil_iff, List.flatMap_eq_nil_iff,
    Level.inputFaults_eq_nil_iff, Level.outputFaults_eq_nil_iff, ite_eq_left_iff, ite_eq_right_iff, List.cons_ne_nil,
    imp_false, not_not, not_and, Nat.not_le, and_assoc]
  exact ⟨fun ⟨hpatterns, hfunction, hinput, houtput⟩ => ⟨hpatterns, hfunction, hinput, houtput⟩,
    fun h => ⟨h.patterns, h.function, h.input, h.output⟩⟩

/-- A table has no faults exactly if it is well-formed. -/
theorem faults_eq_nil_iff : t.faults codecs matchers = [] ↔ t.WellFormed codecs matchers := by
  simp only [faults, List.append_eq_nil_iff, List.flatMap_eq_nil_iff, Level.faults_eq_nil_iff, mem_ordered,
    entryFaults_eq_nil_iff, ite_eq_left_iff, List.cons_ne_nil, imp_false, not_not]
  constructor
  · rintro ⟨hinputs, hlevels, hentries⟩
    refine ⟨hinputs, fun l hl => (hlevels l hl).1, fun l hl => (hlevels l hl).2, fun e he => ?_⟩
    obtain ⟨i, hi⟩ := List.getElem?_of_mem he
    exact hentries (e, i) (List.mem_zipIdx_iff_getElem?.2 hi)
  · intro h
    exact ⟨h.inputs_le, fun l hl => ⟨h.codec l hl, h.matcher l hl⟩,
      fun e he => h.entry e.1 (List.fst_mem_of_mem_zipIdx he)⟩

end Table

/-! ### The error of a preparation -/

private theorem errorOf?_decodeCells (separator : Char) (hasFunction : Bool) (levels : List ReadyLevel)
    (patterns : List (Option String)) :
    errorOf? (decodeCells separator hasFunction levels patterns) =
      errorOf? (((levels.zip patterns).drop (if hasFunction then 1 else 0)).mapM
        fun cell => cell.1.decodeCell separator cell.2) := by
  unfold decodeCells
  cases hasFunction with
  | false => simp
  | true => cases levels.zip patterns <;> simp

namespace PreparedTable

variable {codecs : CodecRegistry} {matchers : MatcherRegistry} {source : String} {table : Table}
  {levels : List ReadyLevel}

theorem forall₂_of_resolveLevels (h : resolveLevels codecs matchers table = .ok levels) :
    List.Forall₂ (fun r l => ReadyLevel.resolve codecs matchers l = .ok r) levels table.ordered :=
  (mapM_eq_ok.1 h).flip

private theorem length_of_resolveLevels (h : resolveLevels codecs matchers table = .ok levels) :
    levels.length = table.levels.length := by
  rw [(forall₂_of_resolveLevels h).length_eq, Table.length_ordered]

private theorem levelCount_header (source : String) (table : Table) (levels : List ReadyLevel) :
    (header source table levels).levelCount = levels.length := by
  simp [levelCount, header]
  omega

private theorem errorOf?_readyEntry (hlevels : resolveLevels codecs matchers table = .ok levels)
    (hinputs : table.inputs ≤ table.levels.length) (position : Nat) (e : Entry) :
    errorOf? ((header source table levels).readyEntry position e) =
      (table.entryFaults codecs matchers position e).head? := by
  have hlength := length_of_resolveLevels hlevels
  have hcount : (header source table levels).levelCount = table.levels.length := by
    rw [levelCount_header, hlength]
  have hresolved := forall₂_of_resolveLevels hlevels
  have htake : (header source table levels).inputs.length = table.inputs := by
    simp [header, hlength, hinputs]
  rw [readyEntry, hcount, Table.entryFaults]
  by_cases hpatterns : e.patterns.length = table.levels.length
  · have houtputs : (header source table levels).outputs.isEmpty = true ↔ table.levels.length ≤ table.inputs := by
      simp [header, List.isEmpty_iff, hlength]
    by_cases hfunction : e.function.isSome = true ∧ table.levels.length ≤ table.inputs
    · have hopen : (e.function.isSome && (header source table levels).outputs.isEmpty) = true := by
        rw [Bool.and_eq_true]
        exact ⟨hfunction.1, houtputs.2 hfunction.2⟩
      rw [if_neg (not_not.2 hpatterns), if_pos hopen, if_pos hpatterns, if_pos hfunction]
      rfl
    · have hopen : ¬ (e.function.isSome && (header source table levels).outputs.isEmpty) = true := by
        rw [Bool.and_eq_true]
        exact fun h => hfunction ⟨h.1, houtputs.1 h.2⟩
      rw [if_neg (not_not.2 hpatterns), if_neg hopen, if_pos hpatterns, if_neg hfunction, errorOf?_mapError,
        List.nil_append, List.nil_append, List.head?_map]
      refine congrArg _ (errorOf?_bind ?_ fun inputs _ => ?_)
      · refine errorOf?_mapM ?_
        refine (forall₂_zip (List.forall₂_take table.inputs hresolved) e.patterns).imp ?_
        rintro ⟨r, pattern⟩ ⟨l, -⟩ ⟨hr, rfl⟩
        exact ReadyLevel.errorOf?_normalizePattern_of_resolve hr pattern
      · rw [← List.append_nil (List.flatMap _ _)]
        refine errorOf?_bind ?_ fun cells _ => rfl
        rw [htake, errorOf?_decodeCells]
        refine errorOf?_mapM (List.forall₂_drop _ ?_)
        refine (forall₂_zip (List.forall₂_drop table.inputs hresolved) (e.patterns.drop table.inputs)).imp ?_
        rintro ⟨r, pattern⟩ ⟨l, -⟩ ⟨hr, rfl⟩
        exact ReadyLevel.errorOf?_decodeCell_of_resolve hr table.separator pattern
  · rw [if_pos hpatterns, if_neg hpatterns]
    rfl

private theorem errorOf?_indexOf (hlevels : resolveLevels codecs matchers table = .ok levels)
    (hinputs : table.inputs ≤ table.levels.length) (entries : List Entry) :
    errorOf? ((header source table levels).indexOf entries) =
      (entries.zipIdx.flatMap fun e => table.entryFaults codecs matchers e.2 e.1).head? := by
  rw [indexOf, ← List.append_nil (List.flatMap _ _)]
  refine errorOf?_bind (errorOf?_mapM (List.forall₂_same.2 fun e _ => ?_)) fun _ _ => rfl
  exact errorOf?_readyEntry hlevels hinputs e.2 e.1

/-- A preparation of a cacheable table fails with the first fault of the table, and succeeds if there is none. -/
theorem errorOf?_prepare (source : String) (hcacheable : table.cacheable = true) :
    errorOf? (prepare codecs matchers source table) = (table.faults codecs matchers).head? := by
  rw [prepare_eq, Table.faults]
  by_cases hinputs : table.inputs ≤ table.levels.length
  · rw [if_neg (Nat.not_lt.2 hinputs), if_pos hinputs, List.nil_append]
    refine errorOf?_bind ?_ fun levels hlevels => ?_
    · exact errorOf?_mapM (List.forall₂_same.2 fun l _ => ReadyLevel.errorOf?_resolve l)
    · rw [if_pos hcacheable, ← List.append_nil (List.flatMap _ _)]
      exact errorOf?_bind (errorOf?_indexOf hlevels hinputs table.entries) fun _ _ => rfl
  · rw [if_pos (Nat.lt_of_not_le hinputs), if_neg hinputs]
    rfl

end PreparedTable

end DecisionTables
