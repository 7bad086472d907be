import DecisionTables.Proofs.Sequencing
import DecisionTables.Table.Prepared
import Mathlib.Data.List.Nodup

/-!
# What preparation makes of a table

A table that is prepared has its levels resolved in the order of their numbers, however they are listed
(`resolveLevels_of_perm`); if it is cacheable, its entries are kept as well, one prepared entry for each, in the
order of the table (`prepare_eq_ok`). A prepared entry has one normalized pattern per input level and the decoded
cells of its outputs (`readyEntry_eq_ok`).
-/

namespace DecisionTables

namespace Level

theorem order_trans (a b c : Level) (hab : decide (a.order ≤ b.order) = true)
    (hbc : decide (b.order ≤ c.order) = true) : decide (a.order ≤ c.order) = true :=
  decide_eq_true (Nat.le_trans (of_decide_eq_true hab) (of_decide_eq_true hbc))

theorem order_total (a b : Level) : (decide (a.order ≤ b.order) || decide (b.order ≤ a.order)) = true := by
  simp [Nat.le_total]

theorem pairwise_mergeSort (levels : List Level) :
    (levels.mergeSort fun a b => a.order ≤ b.order).Pairwise (·.order ≤ ·.order) :=
  (List.pairwise_mergeSort order_trans order_total levels).imp of_decide_eq_true

/-- Levels with distinct numbers have one order, however they are listed. -/
theorem mergeSort_eq_of_perm {levels levels' : List Level} (hperm : levels.Perm levels')
    (hdistinct : (levels'.map (·.order)).Nodup) :
    (levels.mergeSort fun a b => a.order ≤ b.order) = levels'.mergeSort fun a b => a.order ≤ b.order := by
  refine List.Perm.eq_of_pairwise (fun a b ha hb hab hba => ?_) (pairwise_mergeSort levels)
    (pairwise_mergeSort levels') ((List.mergeSort_perm _ _).trans (hperm.trans (List.mergeSort_perm _ _).symm))
  exact List.inj_on_of_nodup_map hdistinct (hperm.mem_iff.1 (List.mem_mergeSort.1 ha)) (List.mem_mergeSort.1 hb)
    (Nat.le_antisymm hab hba)

end Level

namespace ReadyLevel

/-- The wildcard is not among the texts of normalized patterns. -/
theorem normalizePattern_ne_text_wildcard {l : ReadyLevel} {pattern : Option String} {x : Pattern}
    (h : l.normalizePattern pattern = .ok x) : x ≠ .text wildcard := by
  rintro rfl
  cases pattern with
  | none => simp [normalizePattern] at h
  | some s =>
    simp only [normalizePattern] at h
    split at h
    · simp at h
    · next hs =>
      split at h
      · obtain ⟨y, -, hy⟩ := map_eq_ok.1 h
        cases he : l.codec.encode y with
        | none => simp [he, Pattern.ofText?] at hy
        | some e => by_cases hw : e = wildcard <;> simp [he, Pattern.ofText?, hw] at hy
      · obtain ⟨-, -, hy⟩ := map_eq_ok.1 h
        exact hs (Pattern.text.inj hy)

end ReadyLevel

namespace PreparedTable

/-- A table with resolved levels and without its entries. -/
def header (source : String) (table : Table) (levels : List ReadyLevel) : PreparedTable where
  name := table.name
  source
  inputs := levels.take table.inputs
  outputs := levels.drop table.inputs
  nullable := table.nullable
  cacheable := table.cacheable
  identifiesEntries := table.identifiesEntries
  separator := table.separator
  index := none

/-- Resolves the levels of a table in their order. -/
def resolveLevels (codecs : CodecRegistry) (matchers : MatcherRegistry) (table : Table) :
    Except TableError (List ReadyLevel) :=
  (table.levels.mergeSort fun a b => a.order ≤ b.order).mapM (ReadyLevel.resolve codecs matchers)

/-- Levels with different numbers are resolved in the order of these. -/
theorem resolveLevels_of_perm {codecs : CodecRegistry} {matchers : MatcherRegistry} {table : Table}
    (levels : List Level) (hperm : table.levels.Perm levels) (hsorted : levels.Pairwise (·.order < ·.order)) :
    resolveLevels codecs matchers table = levels.mapM (ReadyLevel.resolve codecs matchers) := by
  have hdistinct : (levels.map (·.order)).Nodup := List.pairwise_map.2 (hsorted.imp Nat.ne_of_lt)
  have hkept := List.mergeSort_of_pairwise (hsorted.imp fun h => decide_eq_true (Nat.le_of_lt h))
  rw [resolveLevels, Level.mergeSort_eq_of_perm hperm hdistinct, hkept]

theorem readyEntry_eq_ok {t : PreparedTable} {position : Nat} {e : Entry} {r : ReadyEntry} :
    t.readyEntry position e = .ok r ↔
      e.patterns.length = t.levelCount ∧ (e.function.isSome && t.outputs.isEmpty) = false ∧
      List.Forall₂ (fun pair x => pair.1.normalizePattern pair.2 = .ok x) (t.inputs.zip e.patterns) r.inputs ∧
      decodeCells t.separator e.function.isSome t.outputs (e.patterns.drop t.inputs.length) = .ok r.cells ∧
      r.position = position ∧ r.stored = e := by
  rw [readyEntry]
  split
  next h => simp [h]
  next h =>
    split
    next hf => simp [hf]
    next hf =>
      simp only [mapError_eq_ok, bind_eq_ok, mapM_eq_ok, pure, Except.pure, Except.ok.injEq]
      constructor
      · rintro ⟨inputs, hinputs, cells, hcells, rfl⟩
        exact ⟨not_not.1 h, by simpa using hf, hinputs, hcells, rfl, rfl⟩
      · rintro ⟨-, -, hinputs, hcells, rfl, rfl⟩
        exact ⟨_, hinputs, _, hcells, rfl⟩

theorem length_inputs_of_readyEntry {t : PreparedTable} {position : Nat} {e : Entry} {r : ReadyEntry}
    (h : t.readyEntry position e = .ok r) : r.inputs.length = t.inputs.length := by
  obtain ⟨hlen, -, hinputs, -⟩ := readyEntry_eq_ok.1 h
  have := hinputs.length_eq
  rw [List.length_zip, hlen, levelCount] at this
  omega

/-- An index has one prepared entry for each entry of the table, in the order of the table. -/
theorem indexOf_eq_ok {t : PreparedTable} {entries : List Entry} {index : Index} :
    t.indexOf entries = .ok index ↔
      index.entries.map (fun r => (r.stored, r.position)) = entries.zipIdx ∧
      (∀ r ∈ index.entries, t.readyEntry r.position r.stored = .ok r) ∧
      index = .build t.inputs.length index.entries := by
  have hinverse : ∀ (e : Entry × Nat) r, t.readyEntry e.2 e.1 = .ok r → (r.stored, r.position) = e := by
    intro e r hr
    obtain ⟨-, -, -, -, hposition, hstored⟩ := readyEntry_eq_ok.1 hr
    rw [hposition, hstored]
  simp only [indexOf, bind_eq_ok, mapM_eq_ok_of_inverse hinverse, pure, Except.pure, Except.ok.injEq]
  constructor
  · rintro ⟨ready, ⟨hentries, hready⟩, rfl⟩
    exact ⟨hentries, hready, rfl⟩
  · rintro ⟨hentries, hready, hindex⟩
    exact ⟨_, ⟨hentries, hready⟩, hindex.symm⟩

section

variable {t : PreparedTable} {entries : List Entry} {index : Index}

theorem map_stored_of_indexOf (h : t.indexOf entries = .ok index) : index.entries.map (·.stored) = entries := by
  have hfst := congrArg (List.map Prod.fst) (indexOf_eq_ok.1 h).1
  rwa [List.map_map, List.zipIdx_map_fst] at hfst

/-- A prepared entry has the position of its entry in the table. -/
theorem getElem?_position (h : t.indexOf entries = .ok index) {r : ReadyEntry} (hr : r ∈ index.entries) :
    entries[r.position]? = some r.stored := by
  have hplaced : (r.stored, r.position) ∈ entries.zipIdx := by
    rw [← (indexOf_eq_ok.1 h).1]
    exact List.mem_map_of_mem hr
  exact List.mem_zipIdx_iff_getElem?.1 hplaced

end

theorem prepare_eq (codecs : CodecRegistry) (matchers : MatcherRegistry) (source : String) (table : Table) :
    prepare codecs matchers source table =
      if table.levels.length < table.inputs then
        .error (.malformed table.name (.tooManyInputs table.inputs table.levels.length))
      else resolveLevels codecs matchers table >>= fun levels =>
        if table.cacheable then (header source table levels).indexOf table.entries >>= fun index =>
          .ok { header source table levels with index := some index }
        else .ok (header source table levels) := by
  unfold prepare
  split <;> rfl

theorem prepare_eq_ok {codecs : CodecRegistry} {matchers : MatcherRegistry} {source : String} {table : Table}
    {t : PreparedTable} :
    prepare codecs matchers source table = .ok t ↔
      table.inputs ≤ table.levels.length ∧
      ∃ levels, resolveLevels codecs matchers table = .ok levels ∧
        if table.cacheable then
          ∃ index, (header source table levels).indexOf table.entries = .ok index ∧
            t = { header source table levels with index := some index }
        else t = header source table levels := by
  rw [prepare_eq]
  by_cases hinputs : table.levels.length < table.inputs
  · simp [hinputs, Nat.not_le.2 hinputs]
  · rw [if_neg hinputs, bind_eq_ok]
    simp only [Nat.not_lt.1 hinputs, true_and]
    refine exists_congr fun levels => and_congr_right fun _ => ?_
    by_cases hc : table.cacheable = true
    · rw [if_pos hc, if_pos hc, bind_eq_ok]
      refine exists_congr fun index => and_congr_right fun _ => ?_
      rw [Except.ok.injEq, eq_comm]
    · rw [if_neg hc, if_neg hc, Except.ok.injEq, eq_comm]

/-- The entries that are kept with a table were prepared with it. -/
theorem indexOf_of_prepare {codecs : CodecRegistry} {matchers : MatcherRegistry} {source : String} {table : Table}
    {t : PreparedTable} {index : Index} (ht : prepare codecs matchers source table = .ok t)
    (h : t.index = some index) : t.indexOf table.entries = .ok index := by
  obtain ⟨-, levels, -, hkept⟩ := prepare_eq_ok.1 ht
  split at hkept
  · obtain ⟨index', hindex', rfl⟩ := hkept
    obtain rfl : index' = index := Option.some.inj h
    exact hindex'
  · subst hkept
    cases h

/-- Beside its resolved levels a prepared table has only its index. -/
theorem eq_header_of_prepare {codecs : CodecRegistry} {matchers : MatcherRegistry} {source : String} {table : Table}
    {t : PreparedTable} (h : prepare codecs matchers source table = .ok t) :
    ∃ levels, resolveLevels codecs matchers table = .ok levels ∧
      t = { header source table levels with index := t.index } := by
  obtain ⟨-, levels, hlevels, hkept⟩ := prepare_eq_ok.1 h
  refine ⟨levels, hlevels, ?_⟩
  split at hkept
  · obtain ⟨index, -, rfl⟩ := hkept
    rfl
  · rw [hkept]

/-- A prepared table bears the name of the table and that of its source. -/
theorem header_of_prepare {codecs : CodecRegistry} {matchers : MatcherRegistry} {source : String} {table : Table}
    {t : PreparedTable} (h : prepare codecs matchers source table = .ok t) :
    t.name = table.name ∧ t.source = source := by
  obtain ⟨levels, -, ht⟩ := eq_header_of_prepare h
  rw [ht]
  exact ⟨rfl, rfl⟩

/-- A table that is not cacheable keeps no entries. -/
theorem index_of_prepare {codecs : CodecRegistry} {matchers : MatcherRegistry} {source : String} {table : Table}
    {t : PreparedTable} (h : prepare codecs matchers source table = .ok t) (hcacheable : t.cacheable = false) :
    t.index = none := by
  obtain ⟨-, levels, -, hkept⟩ := prepare_eq_ok.1 h
  split at hkept
  next hcached =>
    obtain ⟨index, -, rfl⟩ := hkept
    exact absurd (hcached.symm.trans hcacheable) (by decide)
  next =>
    rw [hkept]
    rfl

end PreparedTable

end DecisionTables
