import DecisionTables.Proofs.Table.Deciding
import DecisionTables.Proofs.Table.Searching

/-!
# When a search fails

A search fails only if a comparison on its way does. Preparation has read the bounds of all ranges, and
normalization has converted the values of the query, so with standard codecs and matchers the search for a
normalized query succeeds, unless a date outside the years 0 to 9999 meets ranges of dates
(`PreparedTable.exists_search_of_normalize`). Such a date converts, but the text it is encoded as is in no layout
of dates, and the search fails with that text (`PreparedTable.search_farDate`).
-/

namespace DecisionTables

/-! ### Values that can be read back -/

private theorem Scalar.readable_of_kind_ne_date {x : Scalar} (h : x.kind ≠ .date) : x.Readable := by
  cases x with
  | date d => exact absurd rfl h
  | _ => trivial

private theorem Codec.readable_of_convert_of_ne_date {c : Codec} (hc : c ∈ standard) (hne : c ≠ date) {v : Value}
    {x : Scalar} (h : c.convert v = .ok x) : x.Readable := by
  have hkind : ∀ {kind : Kind}, Lawful c kind → kind ≠ .date → x.Readable := by
    intro kind hlaws hdate
    rcases hlaws.kind_of_convert h with rfl | hx
    · trivial
    · exact Scalar.readable_of_kind_ne_date (hx ▸ hdate)
  simp only [standard, List.mem_cons, List.not_mem_nil, or_false] at hc
  rcases hc with rfl | rfl | rfl | rfl | rfl
  · exact hkind lawful_text (by decide)
  · exact hkind lawful_integer (by decide)
  · exact hkind lawful_boolean (by decide)
  · exact absurd rfl hne
  · exact hkind lawful_decimal (by decide)

/-- Only dates outside the years 0 to 9999 cannot be read back, and only ranges of dates have to read them. -/
private theorem ReadyLevel.legible_of_dates {l : ReadyLevel} (hcodec : l.codec ∈ Codec.standard) {v : Value}
    (hv : l.codec = .date → l.matcher ≠ .strict → v.Readable) : l.Legible v := by
  intro hranges x hx
  by_cases hdate : l.codec = .date
  · exact legible_of_readable hcodec (hv hdate hranges) hranges x hx
  · exact Codec.readable_of_convert_of_ne_date hcodec hdate hx

namespace PreparedTable

/-! ### Searches for normalized queries -/

/-- With standard codecs and matchers the search for a normalized query succeeds, in the entries that are kept
or in those that are fetched, if the dates for ranges of dates are of the years 0 to 9999. -/
theorem exists_search_of_normalize {codecs : CodecRegistry} {matchers : MatcherRegistry} {source : String}
    {table : Table} {t : PreparedTable} (ht : prepare codecs matchers source table = .ok t)
    (hstandard : ∀ l ∈ t.inputs, l.codec ∈ Codec.standard ∧ l.matcher.IsStandard) {index : Index}
    (hindex : t.index = some index ∨ t.index = none ∧ ∃ entries, t.indexOf entries = .ok index)
    {values : List Value} {query : List (Option String)} (hquery : t.normalize values = .ok query)
    (hdates : ∀ pair ∈ t.inputs.zip values, pair.1.codec = .date → pair.1.matcher ≠ .strict → pair.2.Readable) :
    ∃ found, index.tree.search (t.probes query) = .ok found := by
  obtain ⟨entries, hentries⟩ : ∃ entries, t.indexOf entries = .ok index := by
    rcases hindex with hkept | ⟨-, hfetched⟩
    · exact ⟨_, indexOf_of_prepare ht hkept⟩
    · exact hfetched
  have hlegible : ∀ pair ∈ t.inputs.zip values, pair.1.Legible pair.2 := fun pair hpair =>
    ReadyLevel.legible_of_dates (hstandard _ (List.of_mem_zip hpair).1).1 (hdates pair hpair)
  obtain ⟨found, hfound, -⟩ := search_indexOf hentries (length_of_normalize hquery) fun r hr =>
    decides_of_legible hstandard hlegible hquery ((indexOf_eq_ok.1 hentries).2.1 r hr)
  exact ⟨found, hfound⟩

/-! ### Dates far away -/

/-- A table with a range of dates and a date that is compared by its text. -/
def terms : Table where
  name := "terms"
  levels := Level.listed
    [{ codec := "date", matcher := some "between/ii" }, { codec := "date" }, { codec := "integer" }]
  inputs := 2
  entries := [⟨[some "2013-01-01~*", some "*", some "3"], none, none⟩]

def termsLevels : List ReadyLevel :=
  [⟨"#0", none, .date, Range.matcher { lowerClosed := true, upperClosed := true }, false, none⟩,
    ⟨"#1", none, .date, .strict, false, none⟩, ⟨"#2", none, .integer, .strict, false, none⟩]

def termsEntries : List ReadyEntry :=
  [⟨0, ⟨[some "2013-01-01~*", some "*", some "3"], none, none⟩, [.text "2013-01-01~*", .any],
    [.single (.integer 3)]⟩]

def termsPrepared : PreparedTable :=
  { header "r0" terms termsLevels with index := some (.build 2 termsEntries) }

/-- The last day that has a text in a layout of dates. -/
def lastDay : Date := ⟨9999, 12, 31, by decide, by decide⟩

/-- The day after the last one. -/
def dayAfter : Date := ⟨10000, 1, 1, by decide, by decide⟩

private theorem prepare_terms : prepare .standard .standard "r0" terms = .ok termsPrepared := by
  have hlevels : resolveLevels .standard .standard terms = .ok termsLevels :=
    resolveLevels_of_perm terms.levels (.refl _) (by decide)
  have hready : ∀ r ∈ termsEntries, (header "r0" terms termsLevels).readyEntry r.position r.stored = .ok r := by
    simp only [termsEntries, List.forall_mem_cons]
    exact ⟨rfl, by simp⟩
  have hindex : (header "r0" terms termsLevels).indexOf terms.entries = .ok (.build 2 termsEntries) :=
    indexOf_eq_ok.2 ⟨rfl, hready, rfl⟩
  exact prepare_eq_ok.2 ⟨by decide, termsLevels, hlevels, _, hindex, rfl⟩

private theorem standard_terms :
    ∀ l ∈ termsPrepared.inputs, l.codec ∈ Codec.standard ∧ l.matcher.IsStandard := by
  show ∀ l ∈ termsLevels.take 2, _
  simp only [termsLevels, List.take, List.forall_mem_cons]
  refine ⟨⟨by simp [Codec.standard], .inr ⟨_, rfl⟩⟩, ⟨by simp [Codec.standard], .inl rfl⟩, by simp⟩

/-- The ranges meet the last day, and a date beyond it is only looked up. -/
theorem exists_search_of_normalize_terms :
    prepare .standard .standard "r0" terms = .ok termsPrepared ∧
    (∀ l ∈ termsPrepared.inputs, l.codec ∈ Codec.standard ∧ l.matcher.IsStandard) ∧
    termsPrepared.normalize [.date lastDay, .date dayAfter] = .ok [some "9999-12-31", some "+10000-01-01"] ∧
    ∃ found, (Index.build 2 termsEntries).tree.search
      (termsPrepared.probes [some "9999-12-31", some "+10000-01-01"]) = .ok found := by
  have hquery : termsPrepared.normalize [.date lastDay, .date dayAfter] =
      .ok [some "9999-12-31", some "+10000-01-01"] := rfl
  refine ⟨prepare_terms, standard_terms, hquery, ?_⟩
  refine exists_search_of_normalize prepare_terms standard_terms (.inl rfl) hquery ?_
  show ∀ pair ∈ (termsLevels.take 2).zip [Value.date lastDay, .date dayAfter], _
  simp only [termsLevels, List.take, List.zip_cons_cons, List.forall_mem_cons]
  refine ⟨fun _ _ => ?_, fun _ hne => absurd rfl hne, by simp⟩
  show 0 ≤ lastDay.year ∧ lastDay.year ≤ 9999
  decide

/-- The day after the last one converts, but the search cannot read its text. -/
theorem search_farDate :
    prepare .standard .standard "r0" terms = .ok termsPrepared ∧
    (∀ l ∈ termsPrepared.inputs, l.codec ∈ Codec.standard ∧ l.matcher.IsStandard) ∧
    termsPrepared.index = some (.build 2 termsEntries) ∧
    termsPrepared.normalize [.date dayAfter, .null] = .ok [some "+10000-01-01", none] ∧
    ∃ fault, (Index.build 2 termsEntries).tree.search (termsPrepared.probes [some "+10000-01-01", none]) =
      .error ⟨"date", "+10000-01-01", fault⟩ := by
  exact ⟨prepare_terms, standard_terms, rfl, rfl, _, rfl⟩

end PreparedTable

end DecisionTables
