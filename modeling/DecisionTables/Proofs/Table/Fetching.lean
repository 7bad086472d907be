import DecisionTables.Proofs.Table.Answering
import DecisionTables.Proofs.Table.Searching
import DecisionTables.Proofs.Tree.Selecting

/-!
# What a query finds in a selection of the entries

The entries of a table that is not kept in the cache are fetched for each query and prepared on their own, so
an entry has another position there. But for that the selection has the same prepared entries
(`indexOf_selection`), and if it suffices for the query (`Fetches`), the query finds the same entries in it as
among all of them (`search_selection`) and gets the same rows (`rows_answer_congr`).
-/

namespace DecisionTables

/-- The entries at some of the positions of a table. -/
def Table.selection (table : Table) (kept : Nat → Bool) : List Entry :=
  (table.entries.zipIdx.filter fun e => kept e.2).map Prod.fst

/-- A prepared entry without its position. -/
def ReadyEntry.unplaced (r : ReadyEntry) : ReadyEntry :=
  { r with position := 0 }

namespace PreparedTable

variable {t : PreparedTable} {query : List (Option String)}

/-- A selection of the entries has every entry that the query accepts, and of two accepted entries whose
patterns compete at a level the first entry with the patterns of either of them up to that level. -/
structure Fetches (t : PreparedTable) (query : List (Option String)) (entries : List ReadyEntry)
    (kept : Nat → Bool) : Prop where
  accepted : ∀ r ∈ entries, t.Accepts query r → kept r.position = true
  first : ∀ a ∈ entries, ∀ b ∈ entries, t.Accepts query a → t.Accepts query b → ∀ shared x y,
    Tree.Compete a.inputs b.inputs shared x y →
      ∀ r, entries.find? (fun r => (shared ++ [x]).isPrefixOf r.inputs || (shared ++ [y]).isPrefixOf r.inputs) =
        some r → kept r.position = true

private theorem head?_eq_of_shared {shared as bs : List Pattern} {x : Pattern} (ha : shared ++ [x] <+: as)
    (hb : shared ++ [x] <+: bs) : as.head? = bs.head? := by
  obtain ⟨as', rfl⟩ := ha
  obtain ⟨bs', rfl⟩ := hb
  cases shared <;> rfl

/-- A selection suffices if the entries that it leaves out share their first pattern with no accepted entry. -/
theorem Fetches.of_heads {entries : List ReadyEntry} {kept : Nat → Bool}
    (h : ∀ r ∈ entries, kept r.position = false → ∀ a ∈ entries, t.Accepts query a →
      r.inputs.head? ≠ a.inputs.head?) : t.Fetches query entries kept := by
  constructor
  · intro r hr haccepts
    by_contra hdropped
    exact h r hr (eq_false_of_ne_true hdropped) r hr haccepts rfl
  · rintro a ha b hb hacca haccb shared x y ⟨-, -, -, hax, hby⟩ r hfirst
    have hr : r ∈ entries := List.mem_of_find?_eq_some hfirst
    by_contra hdropped
    have hleft := h r hr (eq_false_of_ne_true hdropped)
    have hprefix := List.find?_some hfirst
    rw [Bool.or_eq_true, List.isPrefixOf_iff_prefix, List.isPrefixOf_iff_prefix] at hprefix
    rcases hprefix with hrx | hry
    · exact hleft a ha hacca (head?_eq_of_shared hrx hax)
    · exact hleft b hb haccb (head?_eq_of_shared hry hby)

/-! ### Preparing a selection -/

private theorem readyEntry_replace {position position' : Nat} {e : Entry} {r : ReadyEntry}
    (h : t.readyEntry position e = .ok r) :
    t.readyEntry position' e = .ok { r with position := position' } := by
  rw [readyEntry_eq_ok] at h ⊢
  obtain ⟨hlength, hfunction, hinputs, hcells, -, hstored⟩ := h
  exact ⟨hlength, hfunction, hinputs, hcells, rfl, hstored⟩

theorem indexOf_selection {table : Table} {index : Index} (h : t.indexOf table.entries = .ok index)
    (kept : Nat → Bool) :
    ∃ index', t.indexOf (table.selection kept) = .ok index' ∧
      index'.entries.map ReadyEntry.unplaced =
        (index.entries.filter fun r => kept r.position).map ReadyEntry.unplaced := by
  obtain ⟨hentries, hready, -⟩ := indexOf_eq_ok.1 h
  let selected := index.entries.filter fun r => kept r.position
  let placed := selected.mapIdx fun i r => { r with position := i }
  have hstored : table.selection kept = selected.map (·.stored) := by
    rw [Table.selection, ← hentries, List.filter_map, List.map_map]
    rfl
  refine ⟨.build t.inputs.length placed, indexOf_eq_ok.2 ⟨?_, ?_, rfl⟩, ?_⟩
  · show placed.map (fun r => (r.stored, r.position)) = _
    rw [hstored]
    apply List.ext_getElem?
    intro i
    simp [placed, List.getElem?_zipIdx, Function.comp_def]
  · intro r hr
    obtain ⟨i, hi, rfl⟩ := List.mem_mapIdx.1 hr
    have hmem : selected[i] ∈ index.entries := (List.mem_filter.1 (List.getElem_mem hi)).1
    exact readyEntry_replace (hready _ hmem)
  · show placed.map ReadyEntry.unplaced = _
    apply List.ext_getElem?
    intro i
    simp only [placed, List.getElem?_map, List.getElem?_mapIdx, Option.map_map]
    rfl

/-! ### Searching a selection -/

theorem Fetches.suffices {entries : List ReadyEntry} {kept : Nat → Bool} (h : Fetches t query entries kept)
    (haccepts : ∀ r ∈ entries, t.Accepts query r ↔ DecisionTables.Accepts (t.probes query) r.inputs) :
    Tree.Suffices (t.probes query) (entries.map fun r => (r.inputs, r)) fun row => kept row.2.position := by
  constructor
  · intro row hrow hacc
    obtain ⟨r, hr, rfl⟩ := List.mem_map.1 hrow
    exact h.accepted r hr ((haccepts r hr).2 hacc)
  · intro a ha b hb hacca haccb shared x y hcompete row hfirst
    obtain ⟨a', ha', rfl⟩ := List.mem_map.1 ha
    obtain ⟨b', hb', rfl⟩ := List.mem_map.1 hb
    rw [List.find?_map] at hfirst
    obtain ⟨r, hr, rfl⟩ := Option.map_eq_some_iff.1 hfirst
    exact h.first a' ha' b' hb' ((haccepts a' ha').2 hacca) ((haccepts b' hb').2 haccb) shared x y hcompete r hr

theorem search_selection {entries entries' : List Entry} {index index' : Index} {kept : Nat → Bool}
    (hindex : t.indexOf entries = .ok index) (hindex' : t.indexOf entries' = .ok index')
    (hselected : index'.entries.map ReadyEntry.unplaced =
      (index.entries.filter fun r => kept r.position).map ReadyEntry.unplaced)
    (hquery : query.length = t.inputs.length)
    (hdecides : ∀ r ∈ index.entries, List.Forall₂ Probe.Decides (t.probes query) r.inputs)
    (hfetches : Fetches t query index.entries kept) :
    ∃ found found', index.tree.search (t.probes query) = .ok found ∧
      index'.tree.search (t.probes query) = .ok found' ∧
      found'.map (List.map ReadyEntry.unplaced) = found.map (List.map ReadyEntry.unplaced) := by
  have hready := (indexOf_eq_ok.1 hindex).2.1
  have hdecides' : ∀ r ∈ index'.entries, List.Forall₂ Probe.Decides (t.probes query) r.inputs := by
    intro r hr
    have hmem : r.unplaced ∈ index'.entries.map ReadyEntry.unplaced := List.mem_map_of_mem hr
    rw [hselected] at hmem
    obtain ⟨r', hr', heq⟩ := List.mem_map.1 hmem
    have hinputs : r'.inputs = r.inputs := congrArg (·.inputs) heq
    rw [← hinputs]
    exact hdecides r' (List.mem_filter.1 hr').1
  obtain ⟨found, hfound, hfinds⟩ := search_indexOf hindex hquery hdecides
  obtain ⟨found', hfound', hfinds'⟩ := search_indexOf hindex' hquery hdecides'
  refine ⟨found, found', hfound, hfound', ?_⟩
  -- without positions the rows of the selection are some of the rows of the table
  let rows : List (Tree.Filed ReadyEntry) := index.entries.map fun r => (r.inputs, r)
  let keep : Tree.Filed ReadyEntry → Bool := fun row => kept row.2.position
  have hrows : (index'.entries.map fun r => (r.inputs, r)).map (fun row => (row.1, row.2.unplaced)) =
      (rows.filter keep).map fun row => (row.1, row.2.unplaced) := by
    have hinputs := congrArg (List.map fun r : ReadyEntry => (r.inputs, r)) hselected
    simp only [List.map_map] at hinputs
    simp only [rows, keep, List.filter_map, List.map_map]
    exact hinputs
  have hsuffices : Tree.Suffices (t.probes query) rows keep :=
    hfetches.suffices fun r hr => accepts_iff (hready r hr)
  have hmapped := (Tree.finds_map_iff (g := ReadyEntry.unplaced)).2 ⟨found', rfl, hfinds'⟩
  rw [hrows] at hmapped
  obtain ⟨selected, hsame, hfinds''⟩ := Tree.finds_map_iff.1 hmapped
  rw [hsame, Tree.Finds.of_filter hsuffices hfinds hfinds'']

/-! ### Rows -/

theorem rows_answer (functions : Option Functions) (index : Index) {found : Option (List ReadyEntry)}
    (h : index.tree.search (t.probes query) = .ok found) :
    (t.answer functions index query true).map (·.answer.rows) =
      if (found.getD []).isEmpty && !t.nullable then .error (.noValueFound t.name query)
      else ((found.getD []).map ReadyEntry.unplaced).mapM (t.rowOf functions query) := by
  have hrows : ((found.getD []).map ReadyEntry.unplaced).mapM (t.rowOf functions query) =
      (found.getD []).mapM (t.rowOf functions query) := by
    rw [List.mapM_map]
    rfl
  rw [hrows, answer_eq, search, h]
  simp only [Except.mapError, bind, Except.bind]
  by_cases hnone : ((found.getD []).isEmpty && !t.nullable) = true
  · rw [if_pos hnone, if_pos hnone]
    rfl
  · rw [if_neg hnone, if_neg hnone]
    simp only [pure, Except.pure]
    cases (found.getD []).mapM (t.rowOf functions query) <;> rfl

/-- Two tables that differ in their source and in what they keep give the same rows for what they find, but
for the positions of the entries. -/
theorem rows_answer_congr {t' : PreparedTable} {source : String} {cacheable : Bool} {kept : Option Index}
    (ht' : t' = { t with source, cacheable, index := kept }) (functions : Option Functions) {index index' : Index}
    {found found' : Option (List ReadyEntry)} (h : index.tree.search (t.probes query) = .ok found)
    (h' : index'.tree.search (t.probes query) = .ok found')
    (hsame : found'.map (List.map ReadyEntry.unplaced) = found.map (List.map ReadyEntry.unplaced)) :
    (t.answer functions index' query true).map (·.answer.rows) =
      (t'.answer functions index query true).map (·.answer.rows) := by
  have hlists : (found'.getD []).map ReadyEntry.unplaced = (found.getD []).map ReadyEntry.unplaced := by
    cases found <;> cases found' <;> simp_all
  have hempty : (found'.getD []).isEmpty = (found.getD []).isEmpty := by
    simpa using congrArg List.isEmpty hlists
  have hsearch : index.tree.search (t'.probes query) = .ok found := by
    rw [ht']
    exact h
  rw [rows_answer functions index' h', rows_answer functions index hsearch, hlists, hempty, ht']
  rfl

end PreparedTable

end DecisionTables
