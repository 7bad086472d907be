import DecisionTables.Proofs.Table.Deciding
import DecisionTables.Proofs.Table.Fetching
import DecisionTables.Proofs.Workspace.Detail
import DecisionTables.Proofs.Workspace.Publication

/-!
# Entries that are fetched for each query

A table that is not cacheable is answered from the entries that its repository offers for the query. The rows
are those of the same table with all its entries kept, as long as the offer suffices for the query: it has
every accepted entry and, of accepted entries whose patterns compete at a level, the first entry with the
patterns of either (`rows_get_fetched`). Without the latter the two may differ (`rows_get_fetched_ne`).
-/

namespace DecisionTables

open PreparedTable (prepare header prepare_eq_ok indexOf_eq_ok overlapping overlappingLevels overlappingEntries
  overlappingPrepared resolveLevels_overlapping prepare_overlapping)

namespace Workspace

theorem get_of_prepared {e : Nat} {name : String} {w w₁ : Workspace} {edition : Edition}
    (h : prepared e name w = (.ok edition, w₁)) (values : List Value) :
    (w.get e name values).1 = (w₁.evaluate e edition.table values true).1.map (·.answer) := by
  rw [get_eq, getDetailed, h]

/-- The rows of an answer are those that the prepared table gives. -/
private theorem rows_get_of_prepared {e : Nat} {name : String} {w w₁ : Workspace} {edition : Edition}
    (h : prepared e name w = (.ok edition, w₁)) (values : List Value) :
    (w.get e name values).1.map (·.rows) = (w₁.evaluate e edition.table values true).1.map (·.answer.rows) := by
  rw [get_of_prepared h]
  cases (w₁.evaluate e edition.table values true).1 <;> rfl

theorem evaluate_of_index {e : Nat} {t : PreparedTable} {index : Index} {values : List Value}
    {query : List (Option String)} (hindex : t.index = some index) (hquery : t.normalize values = .ok query)
    (w : Workspace) : (w.evaluate e t values true).1 = t.answer (w.engine e).functions index query true := by
  simp only [evaluate, hquery, indexFor, hindex]

theorem evaluate_of_fetched {e : Nat} {t : PreparedTable} {index : Index} {values : List Value}
    {query : List (Option String)} {w : Workspace} (hnone : t.index = none)
    (hquery : t.normalize values = .ok query) (hindex : t.indexOf (w.findEntries e t query).1 = .ok index) :
    (w.evaluate e t values true).1 = t.answer (w.engine e).functions index query true := by
  have hengine : ((w.findEntries e t query).2).engine e = w.engine e := by
    rw [findEntries]
    split <;> rfl
  simp only [evaluate, hquery, indexFor, hnone, hindex, hengine]

theorem functions_of_prepared {e e' : Nat} {name : String} {w w₁ : Workspace} {result : Except TableError Edition}
    (h : prepared e name w = (result, w₁)) : (w₁.engine e').functions = (w.engine e').functions := by
  have hengine := engine_prepared e' e name w
  rw [h] at hengine
  rw [hengine]

/-- A table that is not cacheable gives the same rows as the same table with all its entries kept, if the
entries that are fetched for the query suffice. -/
theorem rows_get_fetched {codecs : CodecRegistry} {matchers : MatcherRegistry} {table : Table}
    {source source' : String} {t t' : PreparedTable}
    (ht : prepare codecs matchers source { table with cacheable := false } = .ok t)
    (ht' : prepare codecs matchers source' { table with cacheable := true } = .ok t')
    (hstandard : ∀ l ∈ t.inputs, l.codec ∈ Codec.standard ∧ l.matcher.IsStandard)
    {e e' serial serial' : Nat} {name name' : String} {w w' w₁ w₁' : Workspace}
    (hlive : prepared e name w = (.ok ⟨serial, t⟩, w₁))
    (hindexed : prepared e' name' w' = (.ok ⟨serial', t'⟩, w₁'))
    (hfunctions : (w.engine e).functions = (w'.engine e').functions)
    {values : List Value} {query : List (Option String)} (hquery : t.normalize values = .ok query)
    (hreadable : ∀ v ∈ values, v.Readable) {kept : Nat → Bool}
    (hfetched : (w₁.findEntries e t query).1 = table.selection kept)
    (hkept : ∀ index, t'.index = some index → t'.Fetches query index.entries kept) :
    (w.get e name values).1.map (·.rows) = (w'.get e' name' values).1.map (·.rows) := by
  obtain ⟨-, levels, hlevels, rfl⟩ := prepare_eq_ok.1 ht
  obtain ⟨-, levels', hlevels', index, hindex, rfl⟩ := prepare_eq_ok.1 ht'
  obtain rfl : levels = levels' := Except.ok.inj (hlevels.symm.trans hlevels')
  -- neither the source nor what is kept has a part in preparing entries
  let t := header source { table with cacheable := false } levels
  have hall : t.indexOf table.entries = .ok index := hindex
  obtain ⟨index', hindex', hselected⟩ := PreparedTable.indexOf_selection hall kept
  have hdecides : ∀ r ∈ index.entries, List.Forall₂ Probe.Decides (t.probes query) r.inputs := fun r hr =>
    PreparedTable.decides_of_standard hstandard hreadable hquery ((indexOf_eq_ok.1 hall).2.1 r hr)
  have hsuffices : t.Fetches query index.entries kept := ⟨(hkept index rfl).accepted, (hkept index rfl).first⟩
  obtain ⟨found, found', hfound, hfound', hsame⟩ := PreparedTable.search_selection hall hindex' hselected
    (PreparedTable.length_of_normalize hquery) hdecides hsuffices
  let t' : PreparedTable := { header source' { table with cacheable := true } levels with index := some index }
  have hanswer : (w₁.evaluate e t values true).1 = t.answer (w₁.engine e).functions index' query true :=
    evaluate_of_fetched rfl hquery (by rw [hfetched]; exact hindex')
  have hanswer' : (w₁'.evaluate e' t' values true).1 = t'.answer (w₁'.engine e').functions index query true :=
    evaluate_of_index (t := t') rfl hquery w₁'
  rw [rows_get_of_prepared hlive, rows_get_of_prepared hindexed, hanswer, hanswer', functions_of_prepared hlive,
    functions_of_prepared hindexed, hfunctions]
  exact PreparedTable.rows_answer_congr rfl _ hfound hfound' hsame

/-! ### Offers of some of the entries -/

/-- The overlapping ranges with one more range above them. -/
def extended : Table :=
  { overlapping with entries := overlapping.entries ++ [⟨[some "20~30", some "Y", some "5"], none, none⟩] }

def extendedEntries : List ReadyEntry :=
  overlappingEntries ++
    [⟨4, ⟨[some "20~30", some "Y", some "5"], none, none⟩, [.text "20~30", .text "Y"], [.single (.integer 5)]⟩]

def extendedPrepared : PreparedTable :=
  { header "r0" extended overlappingLevels with index := some (.build 2 extendedEntries) }

def extendedFetched : PreparedTable :=
  header "r0" { extended with cacheable := false } overlappingLevels

/-- Two engines for one table: for the first all entries are kept, and for the second they are fetched, without
the range above. -/
def offeringBelow : Workspace :=
  assemble
    [{ tables := Repository.tablesOf [extended] },
      { tables := Repository.tablesOf [{ extended with cacheable := false }]
        narrow := fun _ entries => entries.dropLast }]
    [({ sources := [("r0", 0)] }, false), ({ sources := [("r0", 1)] }, false)]

private theorem standard_overlapping :
    ∀ l ∈ overlappingLevels.take 2, l.codec ∈ Codec.standard ∧ l.matcher.IsStandard := by
  simp only [overlappingLevels, List.take, List.forall_mem_cons]
  refine ⟨⟨by simp [Codec.standard], .inr ⟨_, rfl⟩⟩, ⟨by simp [Codec.standard], .inl rfl⟩, by simp⟩

private theorem position_ne_zero_of_accepts {first : Option String} {r : ReadyEntry} (hr : r ∈ overlappingEntries)
    (h : overlappingPrepared.Accepts [first, some "Y"] r) : r.position ≠ 0 := by
  intro hposition
  obtain rfl : r = _ := by
    simp only [overlappingEntries, List.mem_cons, List.not_mem_nil, or_false] at hr
    rcases hr with rfl | rfl | rfl | rfl
    · rfl
    all_goals cases hposition
  obtain _ | ⟨-, _ | ⟨⟨v, hv, hstrict⟩, -⟩⟩ := h
  obtain rfl : "Y" = v := Option.some.inj hv
  exact absurd hstrict (by decide)

/-- The range above has another first pattern than the entries that accept the query. -/
private theorem fetches_below :
    extendedPrepared.Fetches [some "3", some "Y"] extendedEntries (· != 4) := by
  refine .of_heads fun r hr hdropped a ha haccepts => ?_
  have habove : r.inputs.head? = some (.text "20~30") := by
    revert r
    decide
  rw [habove]
  simp only [extendedEntries, overlappingEntries, List.mem_append, List.mem_cons, List.not_mem_nil, or_false] at ha
  rcases ha with (rfl | rfl | rfl | rfl) | rfl
  iterate 4 decide
  obtain _ | ⟨⟨v, hv, hrange⟩, -⟩ := haccepts
  obtain rfl : "3" = v := Option.some.inj hv
  exact absurd hrange (by decide)

/-- Two ranges compete for the query. The first entry with either of them decides, and it is offered although it does
not accept the query itself. Only the range above is left out. -/
theorem rows_get_fetched_offering :
    (prepared 1 "fees" offeringBelow).1 = .ok ⟨0, extendedFetched⟩ ∧
    (prepared 0 "fees" offeringBelow).1 = .ok ⟨0, extendedPrepared⟩ ∧
    ((prepared 1 "fees" offeringBelow).2.findEntries 1 extendedFetched [some "3", some "Y"]).1 =
      extended.selection (· != 4) ∧
    extendedPrepared.Fetches [some "3", some "Y"] extendedEntries (· != 4) ∧
    (∃ a ∈ extendedEntries, ∃ b ∈ extendedEntries, ∃ x y r,
      extendedPrepared.Accepts [some "3", some "Y"] a ∧ extendedPrepared.Accepts [some "3", some "Y"] b ∧
      Tree.Compete a.inputs b.inputs [] x y ∧
      extendedEntries.find? (fun r => [x].isPrefixOf r.inputs || [y].isPrefixOf r.inputs) = some r ∧
      ¬ extendedPrepared.Accepts [some "3", some "Y"] r ∧ (r.position != 4) = true) ∧
    (offeringBelow.get 1 "fees" [.integer 3, .text "Y"]).1.map (·.rows) =
      (offeringBelow.get 0 "fees" [.integer 3, .text "Y"]).1.map (·.rows) := by
  have hlive : (prepared 1 "fees" offeringBelow).1 = .ok ⟨0, extendedFetched⟩ := by cbv
  have hindexed : (prepared 0 "fees" offeringBelow).1 = .ok ⟨0, extendedPrepared⟩ := by cbv
  have hselected : ((prepared 1 "fees" offeringBelow).2.findEntries 1 extendedFetched [some "3", some "Y"]).1 =
      extended.selection (· != 4) := by cbv
  have hfetched : prepare .standard .standard "r0" { extended with cacheable := false } = .ok extendedFetched :=
    prepare_eq_ok.2 ⟨by decide, overlappingLevels, resolveLevels_overlapping rfl, rfl⟩
  have hcached : prepare .standard .standard "r0" extended = .ok extendedPrepared :=
    prepare_eq_ok.2 ⟨by decide, overlappingLevels, resolveLevels_overlapping rfl, _, rfl, rfl⟩
  have hfetches : ∀ index, extendedPrepared.index = some index →
      extendedPrepared.Fetches [some "3", some "Y"] index.entries (· != 4) := by
    intro index hindex
    cases hindex
    exact fetches_below
  refine ⟨hlive, hindexed, hselected, fetches_below, ?_, ?_⟩
  · let narrow : ReadyEntry :=
      ⟨1, ⟨[some "1~5", some "Y", some "2"], none, none⟩, [.text "1~5", .text "Y"], [.single (.integer 2)]⟩
    let wide : ReadyEntry :=
      ⟨2, ⟨[some "1~10", some "Y", some "3"], none, none⟩, [.text "1~10", .text "Y"], [.single (.integer 3)]⟩
    have hmem : narrow ∈ extendedEntries ∧ wide ∈ extendedEntries := by
      simp [narrow, wide, extendedEntries, overlappingEntries]
    have hcompete : Tree.Compete narrow.inputs wide.inputs [] (.text "1~5") (.text "1~10") :=
      ⟨by decide, by decide, by decide, ⟨[.text "Y"], rfl⟩, ⟨[.text "Y"], rfl⟩⟩
    refine ⟨narrow, hmem.1, wide, hmem.2, _, _, _, ?_, ?_, hcompete, rfl, fun hfirst => ?_, rfl⟩
    · exact .cons ⟨"3", rfl, by decide⟩ (.cons ⟨"Y", rfl, by decide⟩ .nil)
    · exact .cons ⟨"3", rfl, by decide⟩ (.cons ⟨"Y", rfl, by decide⟩ .nil)
    · exact position_ne_zero_of_accepts (List.mem_cons_self ..) hfirst rfl
  · exact rows_get_fetched hfetched hcached standard_overlapping (Prod.ext hlive rfl) (Prod.ext hindexed rfl) rfl rfl
      (by simp [Value.Readable]) hselected hfetches

/-! ### An offer without the entry that is declared first -/

/-- Two engines for one table: for the first all entries are kept, and for the second they are fetched, without
the one that is declared first. -/
def offering : Workspace :=
  assemble
    [{ tables := Repository.tablesOf [overlapping] },
      { tables := Repository.tablesOf [{ overlapping with cacheable := false }]
        narrow := fun _ entries => entries.drop 1 }]
    [({ sources := [("r0", 0)] }, false), ({ sources := [("r0", 1)] }, false)]

/-- The table of the second engine. -/
def offeringFetched : PreparedTable :=
  header "r0" { overlapping with cacheable := false } overlappingLevels

private theorem prepare_overlapping_fetched :
    prepare .standard .standard "r0" { overlapping with cacheable := false } = .ok offeringFetched :=
  prepare_eq_ok.2 ⟨by decide, overlappingLevels, resolveLevels_overlapping rfl, rfl⟩

private theorem prepared_offering : (prepared 0 "fees" offering).1 = .ok ⟨0, overlappingPrepared⟩ := by cbv

private theorem prepared_offering_fetched : (prepared 1 "fees" offering).1 = .ok ⟨0, offeringFetched⟩ := by cbv

/-- The entry that is declared first does not accept the query, but without it the narrower of two ranges comes
first. -/
theorem rows_get_fetched_ne :
    prepare .standard .standard "r0" { overlapping with cacheable := false } = .ok offeringFetched ∧
    prepare .standard .standard "r0" overlapping = .ok overlappingPrepared ∧
    (∀ l ∈ offeringFetched.inputs, l.codec ∈ Codec.standard ∧ l.matcher.IsStandard) ∧
    (prepared 1 "fees" offering).1 = .ok ⟨0, offeringFetched⟩ ∧
    (prepared 0 "fees" offering).1 = .ok ⟨0, overlappingPrepared⟩ ∧
    (offering.engine 1).functions = (offering.engine 0).functions ∧
    offeringFetched.normalize [.integer 3, .text "Y"] = .ok [some "3", some "Y"] ∧
    (∀ v ∈ [Value.integer 3, .text "Y"], v.Readable) ∧
    ((prepared 1 "fees" offering).2.findEntries 1 offeringFetched [some "3", some "Y"]).1 =
      overlapping.selection (· != 0) ∧
    (∀ r ∈ overlappingEntries, overlappingPrepared.Accepts [some "3", some "Y"] r → r.position ≠ 0) ∧
    (offering.get 1 "fees" [.integer 3, .text "Y"]).1.map (·.rows) ≠
      (offering.get 0 "fees" [.integer 3, .text "Y"]).1.map (·.rows) := by
  have hfetched : (offering.get 1 "fees" [.integer 3, .text "Y"]).1.map (·.rows) =
      .ok [⟨[.single (.integer 2)], none, [none]⟩] := by cbv
  have hindexed : (offering.get 0 "fees" [.integer 3, .text "Y"]).1.map (·.rows) =
      .ok [⟨[.single (.integer 3)], none, [none]⟩] := by cbv
  refine ⟨prepare_overlapping_fetched, prepare_overlapping, standard_overlapping, prepared_offering_fetched,
    prepared_offering, rfl, rfl, by simp [Value.Readable], by cbv, ?_, ?_⟩
  · exact fun r hr h => position_ne_zero_of_accepts hr h
  · rw [hfetched, hindexed]
    decide

end Workspace

end DecisionTables
