import DecisionTables.Proofs.Table.Preparing
import DecisionTables.Proofs.Tree.Ranking
import DecisionTables.Query

/-!
# What a query finds in a prepared table

The search of a prepared table, against the list of its entries. An entry is accepted if the query satisfies
the normalized pattern at each input level: the wildcard always, null if the value is absent, and a text by
the level's matcher, which is the equality of texts on an exact level (`Probe.Satisfies`). Of the accepted
entries those with the best patterns are found (`search_prepare`), and nothing only if no entry is accepted.
-/

namespace DecisionTables

/-- The value of a query satisfies a pattern. -/
def Probe.Satisfies (p : Probe) : Pattern → Prop
  | .any => True
  | .null => p.value = none
  | .text s => ∃ v, p.value = some v ∧
      (if p.matcher.exact then Matcher.strict else p.matcher).accepts p.codec (some v) s = .ok true

private theorem Probe.meets_iff_satisfies {p : Probe} {x : Pattern} (h : x ≠ .text wildcard) :
    p.Meets x ↔ p.Satisfies x := by
  cases x with
  | null => cases hv : p.value <;> simp [Meets, Satisfies, admits, hv]
  | any => simp [Meets, Satisfies]
  | text s =>
    have hs : s ≠ wildcard := fun hs => h (by rw [hs])
    cases hv : p.value with
    | none => simp [Meets, Satisfies, admits, hv]
    | some v =>
      cases he : p.matcher.exact with
      | false => simp [Meets, Satisfies, admits, hv, he]
      | true =>
        by_cases hb : Text.isBlank v = true
        · simp [Meets, Satisfies, admits, hv, he, Matcher.strict, Matcher.sameText, hb, hs]
        · simp [Meets, Satisfies, admits, hv, he, Matcher.strict, Matcher.sameText, hb]

namespace PreparedTable

/-- A query satisfies the patterns of an entry at all input levels. -/
def Accepts (t : PreparedTable) (query : List (Option String)) (e : ReadyEntry) : Prop :=
  List.Forall₂ Probe.Satisfies (t.probes query) e.inputs

theorem length_probes {t : PreparedTable} {query : List (Option String)} (h : query.length = t.inputs.length) :
    (t.probes query).length = t.inputs.length := by
  simp [probes, h]

theorem accepts_iff {t : PreparedTable} {query : List (Option String)} {position : Nat} {e : Entry}
    {r : ReadyEntry} (h : t.readyEntry position e = .ok r) :
    t.Accepts query r ↔ DecisionTables.Accepts (t.probes query) r.inputs := by
  obtain ⟨-, -, hinputs, -⟩ := readyEntry_eq_ok.1 h
  refine (forall₂_congr_right fun x hx p => Probe.meets_iff_satisfies ?_).symm
  exact forall_right_of_forall₂ (P := (· ≠ .text wildcard))
    (fun _ _ => ReadyLevel.normalizePattern_ne_text_wildcard) hinputs x hx

/-- The search of an index is that of the tree of its entries, which have as many patterns as the query. -/
private theorem search_eq_find_build {t : PreparedTable} {entries : List Entry} {index : Index}
    {query : List (Option String)} (hindex : t.indexOf entries = .ok index)
    (hquery : query.length = t.inputs.length) :
    index.tree.search (t.probes query) =
        (Tree.build (t.probes query).length (index.entries.map fun r => (r.inputs, r))).find (t.probes query) ∧
      ∀ row ∈ index.entries.map (fun r => (r.inputs, r)), row.1.length = (t.probes query).length := by
  obtain ⟨-, hready, hbuild⟩ := indexOf_eq_ok.1 hindex
  rw [length_probes hquery, Tree.search_eq_find]
  refine ⟨congrArg (Tree.find _ ∘ Index.tree) hbuild, fun row hrow => ?_⟩
  obtain ⟨r, hr, rfl⟩ := List.mem_map.1 hrow
  exact length_inputs_of_readyEntry (hready r hr)

/-- What the search of an index finds, where it does not fail, is what the query finds among its entries. -/
theorem finds_of_search {t : PreparedTable} {entries : List Entry} {index : Index} {query : List (Option String)}
    {found : Option (List ReadyEntry)} (hindex : t.indexOf entries = .ok index)
    (hquery : query.length = t.inputs.length) (hfound : index.tree.search (t.probes query) = .ok found) :
    Tree.Finds (t.probes query) (index.entries.map fun r => (r.inputs, r)) found := by
  obtain ⟨hsearch, hrows⟩ := search_eq_find_build hindex hquery
  exact Tree.finds_of_find hrows (hsearch.symm.trans hfound)

/-- The search of an index finds what the query finds among its entries. -/
theorem search_indexOf {t : PreparedTable} {entries : List Entry} {index : Index} {query : List (Option String)}
    (hindex : t.indexOf entries = .ok index) (hquery : query.length = t.inputs.length)
    (hdecides : ∀ r ∈ index.entries, List.Forall₂ Probe.Decides (t.probes query) r.inputs) :
    ∃ found, index.tree.search (t.probes query) = .ok found ∧
      Tree.Finds (t.probes query) (index.entries.map fun r => (r.inputs, r)) found := by
  obtain ⟨hsearch, hrows⟩ := search_eq_find_build hindex hquery
  rw [hsearch]
  refine Tree.find_build hrows fun row hrow => ?_
  obtain ⟨r, hr, rfl⟩ := List.mem_map.1 hrow
  exact hdecides r hr

/-- The search of a cacheable table that is prepared, for a normalized query for which no matcher fails, finds
exactly the entries with the patterns of a best one among the accepted entries, in the order of the table; it
finds nothing only if no entry is accepted. -/
theorem search_prepare {codecs : CodecRegistry} {matchers : MatcherRegistry} {source : String} {table : Table}
    {t : PreparedTable} (query : List (Option String)) (hcacheable : table.cacheable = true)
    (hprepare : prepare codecs matchers source table = .ok t) (hquery : query.length = t.inputs.length)
    (hdecides : ∀ index, t.index = some index →
      ∀ r ∈ index.entries, List.Forall₂ Probe.Decides (t.probes query) r.inputs) :
    ∃ index found, t.index = some index ∧
      index.entries.map (fun r => (r.stored, r.position)) = table.entries.zipIdx ∧
      (∀ r ∈ index.entries, List.Forall₂ (fun pair x => pair.1.normalizePattern pair.2 = .ok x)
        (t.inputs.zip r.stored.patterns) r.inputs) ∧
      index.tree.search (t.probes query) = .ok found ∧
      (found = none ↔ ∀ r ∈ index.entries, ¬ t.Accepts query r) ∧
      ∀ rows, found = some rows → ∃ top ∈ index.entries, t.Accepts query top ∧
        (∀ r ∈ index.entries, t.Accepts query r → r.inputs ≠ top.inputs →
          Outranks (index.entries.map (·.inputs)) top.inputs r.inputs ∧
          ¬ Outranks (index.entries.map (·.inputs)) r.inputs top.inputs) ∧
        rows = index.entries.filter (·.inputs = top.inputs) := by
  obtain ⟨-, levels, -, hindexed⟩ := prepare_eq_ok.1 hprepare
  rw [if_pos hcacheable] at hindexed
  obtain ⟨index, hindex, rfl⟩ := hindexed
  obtain ⟨hentries, hready, -⟩ := indexOf_eq_ok.1 hindex
  obtain ⟨found, hsearch, hfinds⟩ := search_indexOf hindex hquery (hdecides index rfl)
  have haccepts : ∀ r ∈ index.entries,
      PreparedTable.Accepts _ query r ↔ DecisionTables.Accepts (PreparedTable.probes _ query) r.inputs :=
    fun r hr => accepts_iff (hready r hr)
  refine ⟨index, found, rfl, hentries, fun r hr => (readyEntry_eq_ok.1 (hready r hr)).2.2.1, hsearch, ?_, ?_⟩
  · constructor
    · rintro rfl r hr
      cases hfinds with
      | nothing h => exact fun ha => h _ (List.mem_map_of_mem hr) ((haccepts r hr).1 ha)
    · intro hnone
      cases hfinds with
      | nothing h => rfl
      | best htop hacc _ =>
        obtain ⟨top, hmem, rfl⟩ := List.mem_map.1 htop
        exact absurd ((haccepts top hmem).2 hacc) (hnone top hmem)
  · rintro rows rfl
    cases hfinds with
    | best htop hacc hbest =>
      obtain ⟨top, hmem, rfl⟩ := List.mem_map.1 htop
      refine ⟨top, hmem, (haccepts top hmem).2 hacc, ?_, ?_⟩
      · intro r hr ha hne
        have hahead := (hbest (r.inputs, r) (List.mem_map_of_mem hr) ((haccepts r hr).1 ha)).resolve_left hne
        rw [List.map_map] at hahead
        exact ⟨hahead, hahead.asymm⟩
      · simp only [List.filter_map, List.map_map, Function.comp_def, List.map_id']

/-! ### Overlapping ranges -/

/-- A table of closed ranges that overlap. -/
def overlapping : Table where
  name := "fees"
  levels := Level.listed
    [{ codec := "integer", matcher := some "between/ii" }, { codec := "string" }, { codec := "integer" }]
  inputs := 2
  entries := [⟨[some "1~10", some "X", some "1"], none, none⟩, ⟨[some "1~5", some "Y", some "2"], none, none⟩,
    ⟨[some "1~10", some "Y", some "3"], none, none⟩, ⟨[some "*", some "Y", some "4"], none, none⟩]

def overlappingLevels : List ReadyLevel :=
  [⟨"#0", none, .integer, Range.matcher { lowerClosed := true, upperClosed := true }, false, none⟩,
    ⟨"#1", none, .text, .strict, false, none⟩, ⟨"#2", none, .integer, .strict, false, none⟩]

def overlappingEntries : List ReadyEntry :=
  [⟨0, ⟨[some "1~10", some "X", some "1"], none, none⟩, [.text "1~10", .text "X"], [.single (.integer 1)]⟩,
    ⟨1, ⟨[some "1~5", some "Y", some "2"], none, none⟩, [.text "1~5", .text "Y"], [.single (.integer 2)]⟩,
    ⟨2, ⟨[some "1~10", some "Y", some "3"], none, none⟩, [.text "1~10", .text "Y"], [.single (.integer 3)]⟩,
    ⟨3, ⟨[some "*", some "Y", some "4"], none, none⟩, [.any, .text "Y"], [.single (.integer 4)]⟩]

def overlappingPrepared : PreparedTable :=
  { header "r0" overlapping overlappingLevels with index := some (.build 2 overlappingEntries) }

theorem resolveLevels_overlapping {table : Table} (h : table.levels = overlapping.levels) :
    resolveLevels .standard .standard table = .ok overlappingLevels :=
  resolveLevels_of_perm overlapping.levels (.of_eq h) (by decide)

theorem prepare_overlapping : prepare .standard .standard "r0" overlapping = .ok overlappingPrepared :=
  prepare_eq_ok.2 ⟨by decide, overlappingLevels, resolveLevels_overlapping rfl, _, rfl, rfl⟩

/-- The range that is declared first is tried first, also for the entry behind the other range. -/
theorem search_prepare_overlapping :
    overlapping.cacheable = true ∧ prepare .standard .standard "r0" overlapping = .ok overlappingPrepared ∧
    (∀ r ∈ overlappingEntries,
      List.Forall₂ Probe.Decides (overlappingPrepared.probes [some "3", some "Y"]) r.inputs) ∧
    ∃ top ∈ overlappingEntries, overlappingPrepared.Accepts [some "3", some "Y"] top ∧
      (∀ r ∈ overlappingEntries, overlappingPrepared.Accepts [some "3", some "Y"] r → r.inputs ≠ top.inputs →
        Outranks (overlappingEntries.map (·.inputs)) top.inputs r.inputs) ∧
      overlappingEntries.filter (·.inputs = top.inputs) = (overlappingEntries.drop 2).take 1 := by
  have hdecides : ∀ r ∈ overlappingEntries,
      List.Forall₂ Probe.Decides (overlappingPrepared.probes [some "3", some "Y"]) r.inputs := by
    simp only [overlappingEntries, List.forall_mem_cons]
    refine ⟨?_, ?_, ?_, ?_, by simp⟩ <;> exact .cons ⟨_, rfl⟩ (.cons ⟨_, rfl⟩ .nil)
  have hsearch : (Index.build 2 overlappingEntries).tree.search
      (overlappingPrepared.probes [some "3", some "Y"]) = .ok (some ((overlappingEntries.drop 2).take 1)) := rfl
  obtain ⟨index, found, hindex, -, -, hfound, -, hbest⟩ :=
    search_prepare [some "3", some "Y"] rfl prepare_overlapping rfl
      fun index hindex => by cases hindex; exact hdecides
  cases hindex
  obtain rfl : found = _ := Except.ok.inj (hfound.symm.trans hsearch)
  obtain ⟨top, htop, haccepts, hahead, hrows⟩ := hbest _ rfl
  exact ⟨rfl, prepare_overlapping, hdecides, top, htop, haccepts, fun r hr ha hne => (hahead r hr ha hne).1,
    hrows.symm⟩

end PreparedTable

end DecisionTables
