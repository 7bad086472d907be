import DecisionTables.Proofs.Table.Tiling
import DecisionTables.Proofs.Workspace.Definitions
import DecisionTables.Proofs.Workspace.LiveEntries

/-!
# Answers from bands

Where an engine prepares a table of bands, it answers a query for an integer between the first and the last bound with
one row, that of the band which the integer lies in, and fails for every other integer (`get_banded`). It makes no
difference whether the entries are kept with the table or fetched for the query.
-/

namespace DecisionTables

namespace PreparedTable

variable {t : PreparedTable} {index : Index} {query : List (Option String)} {r : ReadyEntry}

/-- The answer to a query that finds one entry. -/
def rowAnswer (t : PreparedTable) (functions : Option Functions) (query : List (Option String)) (r : ReadyEntry) :
    Except TableError Answer :=
  (t.rowOf functions query r).map fun row => ⟨t.name, t.source, t.identifiesEntries, [row]⟩

private theorem rowAnswer_of_function_none (functions : Option Functions) (h : r.stored.function = none) :
    t.rowAnswer functions query r =
      .ok ⟨t.name, t.source, t.identifiesEntries,
        [⟨r.cells, if t.identifiesEntries then r.stored.key else none, t.columns⟩]⟩ := by
  rw [rowAnswer, rowOf, cellsOf, h]
  rfl

private theorem answer_of_search_none (functions : Option Functions)
    (hsearch : index.tree.search (t.probes query) = .ok none) (hnullable : t.nullable = false) :
    t.answer functions index query true = .error (.noValueFound t.name query) := by
  rw [answer, search, hsearch]
  simp [Except.mapError, hnullable, bind, Except.bind, throw, throwThe, MonadExceptOf.throw]

private theorem answer_of_search_singleton (functions : Option Functions)
    (hsearch : index.tree.search (t.probes query) = .ok (some [r])) :
    (t.answer functions index query true).map (·.answer) = t.rowAnswer functions query r := by
  rw [map_answer, search, hsearch, rowAnswer]
  simp only [Except.mapError, bind, Except.bind, pure, Except.pure, Option.getD_some, List.isEmpty_cons,
    Bool.false_and, Bool.false_eq_true, if_false, List.mapM_cons, List.mapM_nil]
  cases t.rowOf functions query r <;> rfl

end PreparedTable

namespace Workspace

variable {w : Workspace} {e : Nat} {name source : String} {table : Table} {codecs : CodecRegistry}
  {matchers : MatcherRegistry} {lowerClosed : Bool} {bounds : List Int64} {outputs : List ReadyLevel}

/-- A static workspace without an older edition prepares a name from its definition. -/
private theorem prepared_of_definition? (hw : w.IsStatic) (hdefinition : w.definition? e name = some (source, table))
    (hheld : w.held? e name = none) :
    (prepared e name w).1.map (·.table) =
      PreparedTable.prepare (w.engine e).codecs (w.engine e).matchers source table := by
  rw [(prepared_of_isStatic hw e name).1, hheld, current, hdefinition]
  rfl

/-- A query for an integer is answered from the prepared entries of a table of bands, kept or fetched. -/
private theorem get_integer_of_banded (h : table.Banded codecs matchers lowerClosed bounds outputs)
    (hprepared : (prepared e name w).1.map (·.table) = PreparedTable.prepare codecs matchers source table) (v : Int64)
    (hfetched : table.cacheable = false → ∀ t, PreparedTable.prepare codecs matchers source table = .ok t →
      ((prepared e name w).2.findEntries e t [some (Integer.text v)]).1 = table.entries) :
    ∃ level index t, level.IsBanded lowerClosed ∧
      (PreparedTable.header source table (level :: outputs)).indexOf table.entries = .ok index ∧
      t = { PreparedTable.header source table (level :: outputs) with index := t.index } ∧
      PreparedTable.prepare codecs matchers source table = .ok t ∧
      (w.get e name [.integer v]).1 =
        (t.answer (w.engine e).functions index [some (Integer.text v)] true).map (·.answer) := by
  obtain ⟨level, index, t, hlevel, hindex, ht, hheader, hkept⟩ := h.exists_prepare source
  refine ⟨level, index, t, hlevel, hindex, hheader, ht, ?_⟩
  obtain ⟨edition, hcall, rfl⟩ : ∃ edition, prepared e name w = (.ok edition, (prepared e name w).2) ∧
      edition.table = t := by
    rw [ht] at hprepared
    obtain ⟨edition, hedition, htable⟩ := map_eq_ok.1 hprepared
    exact ⟨edition, Prod.ext hedition rfl, htable⟩
  have hnormalize : edition.table.normalize [.integer v] = .ok [some (Integer.text v)] := by
    rw [hheader]
    exact h.normalize_integer hlevel source v
  rw [get_of_prepared hcall, ← functions_of_prepared hcall]
  by_cases hcacheable : table.cacheable = true
  · rw [if_pos hcacheable] at hkept
    rw [evaluate_of_index hkept hnormalize]
  · rw [if_neg hcacheable] at hkept
    have hindexed : edition.table.indexOf
        ((prepared e name w).2.findEntries e edition.table [some (Integer.text v)]).1 = .ok index := by
      rw [hfetched (by simpa using hcacheable) _ ht, hheader]
      exact hindex
    rw [evaluate_of_fetched hkept hnormalize hindexed]

/-- Where an engine prepares a table of bands for a name: an integer between the first and the last bound lies in one
band, and the answer is the row of its entry; any other integer has no answer. -/
theorem get_banded (h : table.Banded codecs matchers lowerClosed bounds outputs) {first last : Int64}
    (hfirst : bounds.head? = some first) (hlast : bounds.getLast? = some last)
    (hprepared : (prepared e name w).1.map (·.table) = PreparedTable.prepare codecs matchers source table) (v : Int64)
    (hfetched : table.cacheable = false → ∀ t, PreparedTable.prepare codecs matchers source table = .ok t →
      ((prepared e name w).2.findEntries e t [some (Integer.text v)]).1 = table.entries) :
    (InBand lowerClosed (first, last) v →
      ∃ (i : Nat) (band : Int64 × Int64) (r : ReadyEntry),
        (bands bounds)[i]? = some band ∧ InBand lowerClosed band v ∧
        (∀ (j : Nat) band', (bands bounds)[j]? = some band' → InBand lowerClosed band' v → j = i) ∧
        table.entries[r.position]? = some r.stored ∧ r.stored.pattern? 0 = some (bandText band) ∧
        decodeCells table.separator r.stored.function.isSome outputs (r.stored.patterns.drop 1) = .ok r.cells ∧
        (∃ t, PreparedTable.prepare codecs matchers source table = .ok t ∧
          (w.get e name [.integer v]).1 = t.rowAnswer (w.engine e).functions [some (Integer.text v)] r) ∧
        (r.stored.function = none → (w.get e name [.integer v]).1 =
          .ok ⟨table.name, source, table.identifiesEntries,
            [⟨r.cells, if table.identifiesEntries then r.stored.key else none, outputs.map (·.name)⟩]⟩)) ∧
    (¬ InBand lowerClosed (first, last) v →
      (w.get e name [.integer v]).1 = .error (.noValueFound table.name [some (Integer.text v)])) := by
  obtain ⟨level, index, t, hlevel, hindex, hheader, ht, hget⟩ := get_integer_of_banded h hprepared v hfetched
  obtain ⟨found, hsearch, hnone, hfound⟩ := h.search hlevel hindex v
  have hsearch' : index.tree.search (t.probes [some (Integer.text v)]) = .ok found := by
    rw [hheader]
    exact hsearch
  have hname : t.name = table.name := (PreparedTable.header_of_prepare ht).1
  refine ⟨fun hv => ?_, fun hv => ?_⟩
  · obtain ⟨band, hband, hin⟩ := (exists_inBand_iff h.increasing hfirst hlast).2 hv
    obtain ⟨i, hi⟩ := List.mem_iff_getElem?.1 hband
    obtain ⟨r, hr, hinputs, rfl⟩ := hfound band hband hin
    obtain ⟨band', -, hinputs', hplace, hpattern, hcells⟩ := h.of_mem_index hlevel hindex hr
    obtain rfl : band' = band := bandText_injective (by simpa using hinputs'.symm.trans hinputs)
    rw [PreparedTable.answer_of_search_singleton _ hsearch'] at hget
    refine ⟨i, band', r, hi, hin, fun j band'' hj hin' => place_eq_of_inBand h.increasing hi hj hin hin', hplace,
      hpattern, hcells, ⟨t, ht, hget⟩, fun hfunction => ?_⟩
    have hcolumns : t.columns = outputs.map (·.name) := by
      rw [hheader]
      exact congrArg (List.map (·.name)) (h.outputs_header source)
    rw [hget, PreparedTable.rowAnswer_of_function_none _ hfunction, hname, hcolumns, hheader]
    rfl
  · have hnoBand : ∀ band ∈ bands bounds, ¬ InBand lowerClosed band v := fun band hband hin =>
      hv ((exists_inBand_iff h.increasing hfirst hlast).1 ⟨band, hband, hin⟩)
    obtain rfl := hnone hnoBand
    have hnullable : t.nullable = false := by
      rw [hheader]
      exact h.nullable
    rw [hget, PreparedTable.answer_of_search_none _ hsearch' hnullable, hname]
    rfl

/-- A tariff of two bands, the later one declared first, whose entries are fetched for each query. -/
def tariff : Table :=
  ⟨"tariff", Level.listed [{ codec := "integer", matcher := some "between/ie" }, { codec := "string" }], 1,
    [⟨[some "0 ~ 10", some "full"], none, none⟩, ⟨[some "-5 ~ 0", some "reduced"], none, none⟩], false, false, false,
    ','⟩

def tolled : Workspace :=
  assemble [{ tables := Repository.tablesOf [tariff] }] [({ sources := [("r0", 0)] }, false)]

private theorem banded_tariff :
    tariff.Banded .standard .standard true [-5, 0, 10] [⟨"#1", none, .text, .strict, false, none⟩] where
  codec := by cbv
  matcher := by cbv
  increasing := by decide
  nullable := rfl
  inputs := rfl
  levels := ⟨{ codec := "integer", matcher := some "between/ie" }, [{ order := 1, codec := "string" }], by cbv, rfl,
    rfl, by cbv⟩
  patterns := by
    have hbands : (bands [-5, 0, 10]).map (fun band => some (bandText band)) = [some "-5 ~ 0", some "0 ~ 10"] := by
      cbv
    rw [hbands]
    exact .swap _ _ _
  cells e he := by
    simp only [tariff, List.mem_cons, List.not_mem_nil, or_false] at he
    rcases he with rfl | rfl
    · exact ⟨rfl, rfl, [.single (.text "full")], by cbv⟩
    · exact ⟨rfl, rfl, [.single (.text "reduced")], by cbv⟩

private theorem prepared_tolled :
    (prepared 0 "tariff" tolled).1.map (·.table) = PreparedTable.prepare .standard .standard "r0" tariff :=
  prepared_of_definition? (isStatic_assemble [[tariff]] _) (by cbv) (by cbv)

/-- The bound between two bands belongs to the later one, and the last bound to none. -/
theorem get_banded_tariff :
    tariff.Banded .standard .standard true [-5, 0, 10] [⟨"#1", none, .text, .strict, false, none⟩] ∧
    (prepared 0 "tariff" tolled).1.map (·.table) = PreparedTable.prepare .standard .standard "r0" tariff ∧
    (tolled.get 0 "tariff" [.integer 0]).1 =
      .ok ⟨"tariff", "r0", false, [⟨[.single (.text "full")], none, [none]⟩]⟩ ∧
    (tolled.get 0 "tariff" [.integer 10]).1 = .error (.noValueFound "tariff" [some "10"]) := by
  have hfetched : ∀ (t : PreparedTable) query, PreparedTable.prepare .standard .standard "r0" tariff = .ok t →
      ((prepared 0 "tariff" tolled).2.findEntries 0 t query).1 = tariff.entries := by
    intro t query ht
    obtain ⟨hname, hsource⟩ := PreparedTable.header_of_prepare ht
    have hfound : (prepared 0 "tariff" tolled).2.source? 0 "r0" = some 0 := by cbv
    have hentries : ((prepared 0 "tariff" tolled).2.repository 0).entriesFor "tariff" query = tariff.entries := by
      cbv
    rw [findEntries, hsource, hfound, hname]
    exact hentries
  have hlast : [-5, 0, 10].getLast? = some (10 : Int64) := rfl
  obtain ⟨hin, -⟩ := get_banded banded_tariff rfl hlast prepared_tolled 0 fun _ t => hfetched t _
  obtain ⟨-, hout⟩ := get_banded banded_tariff rfl hlast prepared_tolled 10 fun _ t => hfetched t _
  refine ⟨banded_tariff, prepared_tolled, ?_, hout (by decide)⟩
  obtain ⟨i, band, r, hi, hband, -, hplace, hpattern, hcells, -, hget⟩ := hin (by decide)
  have hlater : bandText band = "0 ~ 10" := by
    have hmem : band ∈ [((-5, 0) : Int64 × Int64), (0, 10)] := List.mem_of_getElem? hi
    simp only [List.mem_cons, List.not_mem_nil, or_false] at hmem
    rcases hmem with rfl | rfl
    · exact absurd hband (by decide)
    · cbv
  have hstored : r.stored = ⟨[some "0 ~ 10", some "full"], none, none⟩ := by
    have hmem := List.mem_of_getElem? hplace
    simp only [tariff, List.mem_cons, List.not_mem_nil, or_false] at hmem
    rcases hmem with heq | heq
    · exact heq
    · rw [heq, hlater] at hpattern
      exact absurd hpattern (by decide)
  rw [hstored] at hcells hget
  have hfull : r.cells = [.single (.text "full")] := Except.ok.inj (hcells.symm.trans (by cbv))
  rw [hfull] at hget
  exact hget rfl

end Workspace

end DecisionTables
