import DecisionTables.Proofs.Table.WellFormed
import DecisionTables.Proofs.Workspace.Definitions

/-!
# Tables that are refused

A cacheable table is prepared exactly if it is well-formed, with one prepared entry for each of its entries, in
their order and with the entry itself kept; otherwise the error is its first fault (`prepare_iff_wellFormed`).
An engine that loads a table with a fault reports this fault and publishes nothing: its cache is left as the
load left it.
-/

namespace DecisionTables.Workspace

variable {w loaded : Workspace} {e : Nat} {name source : String} {table : Table} {fault : TableError}

/-- A preparation that fails only lets go of the slot that it held. -/
private theorem Loads.prepared_of_error (h : w.Loads e name source table loaded)
    (hfault : PreparedTable.prepare (w.engine e).codecs (w.engine e).matchers source table = .error fault) :
    prepared e name w = (.error fault, loaded.modifyCacheOf e (·.release name)) := by
  refine prepared_of_buildHeld_error h.1 ?_
  rw [h.buildHeld_eq, hfault]

private theorem get?_modifyCacheOf_release (w : Workspace) (e : Nat) (name : String) (c : Nat) (n : String) :
    ((w.modifyCacheOf e (·.release name)).cache c).get? n = (w.cache c).get? n := by
  rw [cache_modifyCacheOf]
  split
  next hc => rw [← hc]; rfl
  next => rfl

/-- In a static workspace a load changes no edition. -/
private theorem Loads.get?_of_isStatic (h : w.Loads e name source table loaded) (hw : w.IsStatic) (c : Nat)
    (n : String) : (loaded.cache c).get? n = (w.cache c).get? n := by
  have hacquired : (w.modifyCacheOf e (·.acquire name)).IsStatic := hw
  obtain ⟨-, hafter⟩ := load_of_isStatic hacquired prepared name (w.engine e).sources
  rw [h.2] at hafter
  rw [cache, hafter.caches]
  show ((w.modifyCacheOf e (·.acquire name)).cache c).get? n = _
  rw [cache_modifyCacheOf]
  split
  next hc => rw [← hc]; rfl
  next => rfl

/-- A cacheable table is prepared exactly if it is well-formed; then one prepared entry is kept for each entry,
in order and with the entry as it is. Otherwise the error is the first fault of the table, in the order of
`Table.faults`: levels before entries. An engine that loads such a table reports this error and leaves all
caches as the load left them, with nothing under the name unless the load itself prepared that name. -/
theorem prepare_iff_wellFormed (codecs : CodecRegistry) (matchers : MatcherRegistry) (source : String) (table : Table)
    (hcacheable : table.cacheable = true) :
    ((∃ t, PreparedTable.prepare codecs matchers source table = .ok t) ↔ table.WellFormed codecs matchers) ∧
    (∀ t, PreparedTable.prepare codecs matchers source table = .ok t → ∃ index, t.index = some index ∧
      index.entries.map (fun r => (r.stored, r.position)) = table.entries.zipIdx) ∧
    (∀ fault, PreparedTable.prepare codecs matchers source table = .error fault ↔
      (table.faults codecs matchers).head? = some fault) ∧
    ∀ (w : Workspace) (e : Nat) (name : String) (loaded : Workspace) (fault : TableError),
      w.Loads e name source table loaded → (w.engine e).codecs = codecs → (w.engine e).matchers = matchers →
      (table.faults codecs matchers).head? = some fault →
        (prepared e name w).1 = .error fault ∧
        (∀ c n, ((prepared e name w).2.cache c).get? n = (loaded.cache c).get? n) ∧
        ((∀ event ∈ preparationEvents e name w,
          event.prepares w.cacheNumber (w.cacheNumber e) name = false) →
          ((prepared e name w).2.cacheOf e).get? name = none) ∧
        (w.IsStatic → ∀ c n, ((prepared e name w).2.cache c).get? n = (w.cache c).get? n) := by
  have herror : errorOf? (PreparedTable.prepare codecs matchers source table) =
      (table.faults codecs matchers).head? := PreparedTable.errorOf?_prepare source hcacheable
  have hfails : ∀ fault, PreparedTable.prepare codecs matchers source table = .error fault ↔
      (table.faults codecs matchers).head? = some fault := fun fault => by
    rw [← herror, errorOf?_eq_some]
  refine ⟨?_, fun t ht => ?_, hfails, ?_⟩
  · rw [← errorOf?_eq_none, herror, List.head?_eq_none_iff, Table.faults_eq_nil_iff]
  · obtain ⟨-, levels, -, hkept⟩ := PreparedTable.prepare_eq_ok.1 ht
    rw [if_pos hcacheable] at hkept
    obtain ⟨index, hindex, rfl⟩ := hkept
    exact ⟨index, rfl, (PreparedTable.indexOf_eq_ok.1 hindex).1⟩
  · rintro w e name loaded fault hloads rfl rfl hfault
    rw [hloads.prepared_of_error ((hfails fault).2 hfault)]
    refine ⟨rfl, get?_modifyCacheOf_release loaded e name, fun hnested => ?_, fun hw c n => ?_⟩
    · have hempty := get?_buildHeld_self hloads.1 hnested
      rw [hloads.buildHeld_eq] at hempty
      rw [cacheOf_modifyCacheOf, Cache.get?_release]
      exact hempty
    · rw [get?_modifyCacheOf_release, hloads.get?_of_isStatic hw]

/-- Grades, listed with the output level first. -/
def grades (entries : List (List (Option String))) : Table where
  name := "grades"
  levels := [{ order := 1, codec := "integer", isArray := true }, { order := 0, codec := "string" }]
  inputs := 1
  entries := entries.map fun patterns => ⟨patterns, none, none⟩

/-- An engine whose only repository has such grades. -/
def graded (entries : List (List (Option String))) : Workspace :=
  assemble [{ tables := Repository.tablesOf [grades entries] }] [({ sources := [("r0", 0)] }, false)]

/-- In the second entry the second of three grades is no integer; that the third entry has too few patterns is not
reported. Without the two the grades are prepared. -/
theorem prepare_iff_wellFormed_grades :
    let kept := [[some "A", some "1, 2"]]
    let ragged := kept ++ [[some "B", some "3,x,4"], [some "C"]]
    let fault := TableError.conversion ⟨"integer", "x", .integer .invalidDigit⟩
    (grades ragged).cacheable = true ∧ (grades kept).cacheable = true ∧
    (∃ loaded, (graded ragged).Loads 0 "grades" "r0" (grades ragged) loaded) ∧ (graded ragged).IsStatic ∧
    ¬ (grades ragged).WellFormed .standard .standard ∧
    PreparedTable.prepare .standard .standard "r0" (grades ragged) = .error fault ∧
    (prepared 0 "grades" (graded ragged)).1 = .error fault ∧
    (∀ c n, ((prepared 0 "grades" (graded ragged)).2.cache c).get? n = ((graded ragged).cache c).get? n) ∧
    (grades kept).WellFormed .standard .standard := by
  intro kept ragged fault
  have hfault : ((grades ragged).faults .standard .standard).head? = some fault := by cbv
  have hstatic : (graded ragged).IsStatic := isStatic_assemble [[grades ragged]] _
  obtain ⟨loaded, hloads⟩ : ∃ loaded, (graded ragged).Loads 0 "grades" "r0" (grades ragged) loaded :=
    ⟨_, by cbv, Prod.ext (by cbv) rfl⟩
  obtain ⟨hformed, -, hfails, hrefused⟩ := prepare_iff_wellFormed .standard .standard "r0" (grades ragged) rfl
  obtain ⟨hkept, -⟩ := prepare_iff_wellFormed .standard .standard "r0" (grades kept) rfl
  have herror := (hfails fault).2 hfault
  obtain ⟨hresult, -, -, hcaches⟩ := hrefused _ 0 "grades" loaded fault hloads rfl rfl hfault
  refine ⟨rfl, rfl, ⟨loaded, hloads⟩, hstatic, fun h => ?_, herror, hresult, hcaches hstatic, hkept.1 ⟨_, by cbv⟩⟩
  obtain ⟨t, ht⟩ := hformed.2 h
  rw [herror] at ht
  cases ht

end DecisionTables.Workspace
