import DecisionTables.Proofs.Table.SearchFaults
import DecisionTables.Proofs.Tree.Appending

/-!
# Appending an entry to a table

An entry that is appended to a table leaves the prepared entries of the table as they are (`indexOf_concat`), and it
matters only to the queries that it accepts. For these it joins the answer if it has the patterns of the answer;
otherwise the answer stays, or the new entry is found alone (`search_concat`). An entry of wildcards takes the place
of no answer: it is found alone exactly where nothing was found.
-/

namespace DecisionTables.PreparedTable

variable {t : PreparedTable} {query : List (Option String)} {entries : List Entry} {entry : Entry}
  {index index' : Index} {added : ReadyEntry} {found found' : Option (List ReadyEntry)}

private theorem entries_of_indexOf (h : t.indexOf entries = .ok index) :
    entries.zipIdx.mapM (fun e => t.readyEntry e.2 e.1) = .ok index.entries := by
  obtain ⟨ready, hready, hindex⟩ := bind_eq_ok.1 h
  cases hindex
  exact hready

/-- The prepared entries stay, and the new one comes after them. -/
theorem indexOf_concat (hindex : t.indexOf entries = .ok index)
    (hindex' : t.indexOf (entries ++ [entry]) = .ok index') :
    ∃ added, index'.entries = index.entries ++ [added] ∧ t.readyEntry entries.length entry = .ok added := by
  have hready := entries_of_indexOf hindex'
  have hlast : (entries ++ [entry]).zipIdx = entries.zipIdx ++ [(entry, entries.length)] := by
    simp [List.zipIdx_append]
  rw [hlast, List.mapM_append, bind_eq_ok] at hready
  obtain ⟨front, hfront, hready⟩ := hready
  obtain ⟨back, hback, hentries⟩ := bind_eq_ok.1 hready
  obtain rfl : index.entries = front := Except.ok.inj ((entries_of_indexOf hindex).symm.trans hfront)
  obtain _ | ⟨hadded, _ | _⟩ := mapM_eq_ok.1 hback
  exact ⟨_, (Except.ok.inj hentries).symm, hadded⟩

private theorem not_mem_of_readyEntry (hindex : t.indexOf entries = .ok index)
    (hadded : t.readyEntry entries.length entry = .ok added) : added ∉ index.entries := by
  intro hmem
  have hplace := getElem?_position hindex hmem
  rw [(readyEntry_eq_ok.1 hadded).2.2.2.2.1, List.getElem?_length] at hplace
  cases hplace

/-- A query accepts an entry of wildcards, whatever it asks for. -/
private theorem accepts_of_wildcards {position : Nat} (hadded : t.readyEntry position entry = .ok added)
    (hquery : query.length = t.inputs.length) (hany : ∀ x ∈ added.inputs, x = .any) : t.Accepts query added := by
  have hlength : (t.probes query).length = added.inputs.length := by
    rw [length_probes hquery, length_inputs_of_readyEntry hadded]
  refine List.forall₂_iff_get.2 ⟨hlength, fun i hi hi' => ?_⟩
  rw [hany _ (List.get_mem ..)]
  trivial

/-! ### The answer with the new entry -/

private theorem membersWith_eq_filter (rows : List ReadyEntry) (patterns : List Pattern) :
    Tree.membersWith (rows.map fun r => (r.inputs, r)) patterns = rows.filter (·.inputs = patterns) := by
  rw [Tree.membersWith, List.filter_map, List.map_map]
  exact List.map_id _

/-- What is found with a new entry, where it is accepted: the entries with the patterns of `top` were found before. -/
private theorem found_concat (hindex : t.indexOf entries = .ok index)
    (hindex' : t.indexOf (entries ++ [entry]) = .ok index') (hentries : index'.entries = index.entries ++ [added])
    (hadded : t.readyEntry entries.length entry = .ok added) (hquery : query.length = t.inputs.length)
    (hfound : index.tree.search (t.probes query) = .ok found)
    (hfound' : index'.tree.search (t.probes query) = .ok found') :
    (¬ t.Accepts query added → found' = found) ∧
    (t.Accepts query added →
      (found = none ∧ found' = some [added]) ∨
      ∃ top ∈ index.entries, found = some (index.entries.filter (·.inputs = top.inputs)) ∧
        ((added.inputs = top.inputs ∧ found' = some (index.entries.filter (·.inputs = top.inputs) ++ [added])) ∨
          (added.inputs ≠ top.inputs ∧ found' = found) ∨
          (added.inputs ≠ top.inputs ∧ Outranks (index'.entries.map (·.inputs)) added.inputs top.inputs ∧
            found' = some [added]))) := by
  have hfinds' := finds_of_search hindex' hquery hfound'
  rw [hentries, List.map_append, List.map_cons, List.map_nil] at hfinds'
  obtain ⟨hrejected, haccepted⟩ := (finds_of_search hindex hquery hfound).concat hfinds'
  rw [← accepts_iff hadded] at hrejected haccepted
  refine ⟨hrejected, fun haccepts => (haccepted haccepts).imp_right ?_⟩
  rintro ⟨patterns, hbest, hfound, hcases⟩
  obtain ⟨row, hrow, rfl⟩ := hbest.mem
  obtain ⟨top, htop, rfl⟩ := List.mem_map.1 hrow
  rw [membersWith_eq_filter] at hfound hcases
  have htable : ((index.entries.map fun r => (r.inputs, r)) ++ [(added.inputs, added)]).map Prod.fst =
      index'.entries.map (·.inputs) := by
    rw [hentries]
    simp
  rw [htable] at hcases
  exact ⟨top, htop, hfound, hcases⟩

/-- What is found with a new entry at the end of a table, against what is found without it. -/
structure Appended (t : PreparedTable) (query : List (Option String)) (added : ReadyEntry)
    (found found' : Option (List ReadyEntry)) : Prop where
  rejected : ¬ t.Accepts query added → found' = found
  /-- The answer stays, or the new entry joins it, or the new entry is found alone. -/
  accepted : t.Accepts query added →
    (∃ rows, found = some rows ∧ (∀ r ∈ rows, r.inputs ≠ added.inputs) ∧ found' = some rows) ∨
    (∃ rows, found = some rows ∧ (∀ r ∈ rows, r.inputs = added.inputs) ∧ found' = some (rows ++ [added])) ∨
    ((∀ rows, found = some rows → ∀ r ∈ rows, r.inputs ≠ added.inputs) ∧ found' = some [added])
  wildcards : (∀ x ∈ added.inputs, x = .any) →
    (∀ rows, found = some rows → found' = some rows ∨
      ((∀ r ∈ rows, ∀ x ∈ r.inputs, x = .any) ∧ found' = some (rows ++ [added]))) ∧
    (found' = some [added] ↔ found = none)

private theorem inputs_of_mem_filter {rows : List ReadyEntry} {patterns : List Pattern} {r : ReadyEntry}
    (hr : r ∈ rows.filter (·.inputs = patterns)) : r.inputs = patterns := by
  simpa using (List.mem_filter.1 hr).2

private theorem appended_of_search (hindex : t.indexOf entries = .ok index)
    (hindex' : t.indexOf (entries ++ [entry]) = .ok index') (hentries : index'.entries = index.entries ++ [added])
    (hadded : t.readyEntry entries.length entry = .ok added) (hquery : query.length = t.inputs.length)
    (hfound : index.tree.search (t.probes query) = .ok found)
    (hfound' : index'.tree.search (t.probes query) = .ok found') : Appended t query added found found' := by
  obtain ⟨hrejected, haccepted⟩ := found_concat hindex hindex' hentries hadded hquery hfound hfound'
  refine ⟨hrejected, fun haccepts => ?_, fun hany => ?_⟩
  · rcases haccepted haccepts with ⟨rfl, rfl⟩ | ⟨top, -, rfl, ⟨heq, rfl⟩ | ⟨hne, rfl⟩ | ⟨hne, -, rfl⟩⟩
    · exact .inr (.inr ⟨by simp, rfl⟩)
    · exact .inr (.inl ⟨_, rfl, fun r hr => (inputs_of_mem_filter hr).trans heq.symm, rfl⟩)
    · exact .inl ⟨_, rfl, fun r hr h => hne (h.symm.trans (inputs_of_mem_filter hr)), rfl⟩
    · refine .inr (.inr ⟨fun rows hrows r hr h => ?_, rfl⟩)
      cases hrows
      exact hne (h.symm.trans (inputs_of_mem_filter hr))
  · rcases haccepted (accepts_of_wildcards hadded hquery hany) with
      ⟨rfl, rfl⟩ | ⟨top, htop, rfl, ⟨heq, rfl⟩ | ⟨hne, rfl⟩ | ⟨hne, hahead, -⟩⟩
    · exact ⟨by simp, by simp⟩
    · have hmem : top ∈ index.entries.filter (·.inputs = top.inputs) := List.mem_filter.2 ⟨htop, by simp⟩
      refine ⟨fun rows hrows => ?_, by simp [List.ne_nil_of_mem hmem]⟩
      cases hrows
      refine .inr ⟨fun r hr => ?_, rfl⟩
      rw [inputs_of_mem_filter hr, ← heq]
      exact hany
    · refine ⟨fun rows hrows => .inl hrows, fun hsome => ?_, fun hnone => nomatch hnone⟩
      -- what was found before cannot be the new entry
      have hmem : added ∈ index.entries.filter (·.inputs = top.inputs) := by
        rw [Option.some.inj hsome]
        exact List.mem_singleton_self _
      exact absurd (List.mem_filter.1 hmem).1 (not_mem_of_readyEntry hindex hadded)
    · exact absurd hahead (not_outranks_of_wildcards hany)

/-- A table and the same table with one more entry at its end: where no matcher fails both are searched, and as far
as both are searched the new entry changes only answers to queries that it accepts. -/
theorem search_concat {codecs : CodecRegistry} {matchers : MatcherRegistry} {source : String} {table : Table}
    {t t' : PreparedTable} (ht : prepare codecs matchers source table = .ok t)
    (ht' : prepare codecs matchers source { table with entries := table.entries ++ [entry] } = .ok t')
    (hindex : t.index = some index ∨ t.index = none ∧ t.indexOf table.entries = .ok index)
    (hindex' : t'.index = some index' ∨ t'.index = none ∧ t'.indexOf (table.entries ++ [entry]) = .ok index')
    (hquery : query.length = t.inputs.length) :
    ∃ added, index'.entries = index.entries ++ [added] ∧ added.stored = entry ∧
      List.Forall₂ (fun pair x => pair.1.normalizePattern pair.2 = .ok x) (t.inputs.zip entry.patterns)
        added.inputs ∧
      ((∀ r ∈ index'.entries, List.Forall₂ Probe.Decides (t.probes query) r.inputs) →
        ∃ found found', index.tree.search (t.probes query) = .ok found ∧
          index'.tree.search (t'.probes query) = .ok found') ∧
      ∀ found found', index.tree.search (t.probes query) = .ok found →
        index'.tree.search (t'.probes query) = .ok found' → Appended t query added found found' := by
  have hprepared : t.indexOf table.entries = .ok index := hindex.elim (indexOf_of_prepare ht) And.right
  have hprepared' : t'.indexOf (table.entries ++ [entry]) = .ok index' :=
    hindex'.elim (indexOf_of_prepare ht') And.right
  -- the two have the same levels, so they prepare entries and queries alike
  obtain ⟨hindexOf, hprobes⟩ : t'.indexOf = t.indexOf ∧ t'.probes query = t.probes query := by
    obtain ⟨levels, hlevels, heq⟩ := eq_header_of_prepare ht
    obtain ⟨levels', hlevels', heq'⟩ := eq_header_of_prepare ht'
    obtain rfl : levels = levels' := Except.ok.inj (hlevels.symm.trans hlevels')
    rw [heq, heq']
    exact ⟨rfl, rfl⟩
  rw [hindexOf] at hprepared'
  rw [hprobes]
  obtain ⟨added, hentries, hadded⟩ := indexOf_concat hprepared hprepared'
  obtain ⟨-, -, hinputs, -, -, hstored⟩ := readyEntry_eq_ok.1 hadded
  refine ⟨added, hentries, hstored, hinputs, fun hdecides => ?_, fun found found' hfound hfound' =>
    appended_of_search hprepared hprepared' hentries hadded hquery hfound hfound'⟩
  obtain ⟨found', hfound', -⟩ := search_indexOf hprepared' hquery hdecides
  obtain ⟨found, hfound, -⟩ := search_indexOf hprepared hquery fun r hr =>
    hdecides r (by rw [hentries]; exact List.mem_append_left _ hr)
  exact ⟨found, found', hfound, hfound'⟩

/-- An entry with the patterns of another one that is found from behind an overlapping range. -/
def overlappingAppended : Entry :=
  ⟨[some "1~10", some "Y", some "5"], none, none⟩

def overlappingAdded : ReadyEntry :=
  ⟨4, overlappingAppended, [.text "1~10", .text "Y"], [.single (.integer 5)]⟩

def overlappingExtended : PreparedTable :=
  { overlappingPrepared with index := some (.build 2 (overlappingEntries ++ [overlappingAdded])) }

/-- The new entry joins the one that has its patterns. -/
theorem search_concat_overlapping :
    prepare .standard .standard "r0" overlapping = .ok overlappingPrepared ∧
    prepare .standard .standard "r0" { overlapping with entries := overlapping.entries ++ [overlappingAppended] } =
      .ok overlappingExtended ∧
    (∀ r ∈ overlappingEntries ++ [overlappingAdded],
      List.Forall₂ Probe.Decides (overlappingPrepared.probes [some "3", some "Y"]) r.inputs) ∧
    (∃ found found', (Index.build 2 overlappingEntries).tree.search
        (overlappingPrepared.probes [some "3", some "Y"]) = .ok found ∧
      (Index.build 2 (overlappingEntries ++ [overlappingAdded])).tree.search
        (overlappingExtended.probes [some "3", some "Y"]) = .ok found') ∧
    Appended overlappingPrepared [some "3", some "Y"] overlappingAdded (some ((overlappingEntries.drop 2).take 1))
      (some ((overlappingEntries.drop 2).take 1 ++ [overlappingAdded])) := by
  have hprepare : prepare .standard .standard "r0"
      { overlapping with entries := overlapping.entries ++ [overlappingAppended] } = .ok overlappingExtended :=
    prepare_eq_ok.2 ⟨by decide, overlappingLevels, resolveLevels_overlapping rfl, _, rfl, rfl⟩
  have hdecides : ∀ r ∈ overlappingEntries ++ [overlappingAdded],
      List.Forall₂ Probe.Decides (overlappingPrepared.probes [some "3", some "Y"]) r.inputs := by
    simp only [overlappingEntries, overlappingAdded, List.cons_append, List.nil_append, List.forall_mem_cons]
    refine ⟨?_, ?_, ?_, ?_, ?_, by simp⟩ <;> exact .cons ⟨_, rfl⟩ (.cons ⟨_, rfl⟩ .nil)
  have hquery : [some "3", some "Y"].length = overlappingPrepared.inputs.length := rfl
  obtain ⟨added, hentries, -, -, hsearches, happended⟩ :=
    search_concat prepare_overlapping hprepare (.inl rfl) (.inl rfl) hquery
  obtain rfl : overlappingAdded = added := List.cons.inj (List.append_cancel_left hentries) |>.1
  exact ⟨prepare_overlapping, hprepare, hdecides, hsearches hdecides, happended _ _ rfl rfl⟩

end DecisionTables.PreparedTable
