import DecisionTables.Proofs.Table.Preparing
import DecisionTables.Proofs.Workspace.Publication

/-!
# Definitions in static repositories

A static repository keeps tables under their own names, offers all entries of a table, and does nothing when a
table is loaded. Among static repositories an engine loads what its sources define at that moment: the table of
the first source that has the name (`definition?`). To prepare a name edits nothing; it gives the edition of the
cache or else the prepared definition, which is in the cache afterwards (`prepared_of_isStatic`).
-/

namespace DecisionTables

/-- Tables under their own names, all of whose entries are offered, and whose loads set nothing off. -/
structure Repository.IsStatic (r : Repository) : Prop where
  name_eq : ∀ name t, r.tables.get? name = some t → t.name = name
  aliases : ∀ name, r.aliases.getD name name = name
  narrow : ∀ query entries, r.narrow query entries = entries
  triggers : ∀ name, r.triggers.getD name [] = []

namespace Repository

theorem isStatic_tablesOf (tables : List Table) : IsStatic { tables := tablesOf tables } where
  name_eq name t h := by
    -- of several tables with one name the last is found, and it has this name as they all do
    have hfind : (tablesOf tables)[name]? = some t := h
    rw [tablesOf, Std.TreeMap.ofList_eq_insertMany_empty, Std.TreeMap.getElem?_insertMany_list,
      Std.TreeMap.getElem?_emptyc, Option.or_none, List.findSomeRev?_eq_findSome?_reverse] at hfind
    obtain ⟨pair, hpair, hname⟩ := List.exists_of_findSome?_eq_some hfind
    obtain ⟨t', -, rfl⟩ := List.mem_map.1 (List.mem_reverse.1 hpair)
    dsimp only at hname
    split at hname
    next heq =>
      rw [← Option.some.inj hname]
      exact Std.LawfulEqCmp.eq_of_compare heq
    next => cases hname
  aliases name := by simp
  narrow _ _ := rfl
  triggers name := by simp

variable {r : Repository}

theorem IsStatic.insert (h : r.IsStatic) (t : Table) : (r.insert t).IsStatic where
  name_eq name t' ht' := by
    simp only [Repository.insert, Std.TreeMap.get?_eq_getElem?, Std.TreeMap.getElem?_insert] at ht'
    split at ht'
    next heq =>
      rw [← Option.some.inj ht']
      exact Std.LawfulEqCmp.eq_of_compare heq
    next => exact h.name_eq name t' ht'
  aliases := h.aliases
  narrow := h.narrow
  triggers := h.triggers

theorem IsStatic.remove (h : r.IsStatic) (name : String) : (r.remove name).IsStatic where
  name_eq name' t ht := by
    simp only [Repository.remove, Std.TreeMap.get?_eq_getElem?, Std.TreeMap.getElem?_erase] at ht
    split at ht
    next => cases ht
    next => exact h.name_eq name' t ht
  aliases := h.aliases
  narrow := h.narrow
  triggers := h.triggers

theorem IsStatic.afterLoad (h : r.IsStatic) (name : String) : (r.afterLoad name).IsStatic where
  name_eq := h.name_eq
  aliases := h.aliases
  narrow := h.narrow
  triggers name' := by
    rw [Repository.afterLoad, h.triggers name, Std.TreeMap.getD_insert]
    split
    next => rfl
    next => exact h.triggers name'

private theorem IsStatic.table?_eq (h : r.IsStatic) (name : String) : r.table? name = r.tables.get? name := by
  rw [table?, h.aliases]

private theorem IsStatic.nextActions_eq (h : r.IsStatic) (name : String) : r.nextActions name = [] := by
  rw [nextActions, h.triggers]
  rfl

theorem IsStatic.entriesFor_eq (h : r.IsStatic) (name : String) (query : List (Option String)) :
    r.entriesFor name query = ((r.tables.get? name).map Table.entries).getD [] := by
  rw [entriesFor, h.narrow, h.table?_eq]

theorem get?_insert_of_ne {t : Table} {name : String} (h : t.name ≠ name) :
    (r.insert t).tables.get? name = r.tables.get? name := by
  simp [Repository.insert, Std.TreeMap.getElem?_insert, h]

theorem get?_remove_of_ne {name name' : String} (h : name ≠ name') :
    (r.remove name).tables.get? name' = r.tables.get? name' := by
  simp [Repository.remove, Std.TreeMap.getElem?_erase, h]

end Repository

/-- Nothing is being prepared. -/
def Cache.IsIdle (c : Cache) : Prop :=
  ∀ name : String, c.slots[name]? = none

/-- A slot goes away with its only holder. -/
theorem Cache.IsIdle.release_acquire {c : Cache} (h : c.IsIdle) (name : String) :
    ((c.acquire name).release name).IsIdle := by
  have hslot : (c.acquire name).slot name = { c.slot name with holders := (c.slot name).holders + 1 } :=
    slot_eq_of_getElem? (by rw [slots_acquire, if_pos rfl])
  have hholders : (c.slot name).holders = 0 := by simp [slot, h name]
  intro n
  rw [slots_release, hslot]
  by_cases hn : name = n
  · rw [if_pos hn, if_pos (by simp [hholders])]
  · rw [if_neg hn, slots_acquire, if_neg hn, h n]

namespace Workspace

/-- All repositories are static. -/
def IsStatic (w : Workspace) : Prop :=
  ∀ r, (w.repository r).IsStatic

/-- The first source of an engine that has a table of this name, with the table. -/
def definition? (w : Workspace) (e : Nat) (name : String) : Option (String × Table) :=
  (w.engine e).sources.findSome? fun s => ((w.repository s.2).tables.get? name).map (Prod.mk s.1)

/-- What the definition of a name gives when it is prepared. -/
def current (w : Workspace) (e : Nat) (name : String) : Except TableError PreparedTable :=
  match w.definition? e name with
  | none => .error (.unknownTable name)
  | some (source, table) => PreparedTable.prepare (w.engine e).codecs (w.engine e).matchers source table

/-- The table of the edition that an engine has in its cache. -/
def held? (w : Workspace) (e : Nat) (name : String) : Option PreparedTable :=
  ((w.cacheOf e).get? name).map Edition.table

variable {w w' w'' : Workspace} {e : Nat} {name : String}

private theorem isStatic_of_forall_mem (h : ∀ r ∈ w.repositories, r.IsStatic) : w.IsStatic := by
  intro r
  rw [repository, List.getD_eq_getElem?_getD]
  cases hr : w.repositories[r]? with
  | none => exact Repository.isStatic_tablesOf []
  | some s => exact h s (List.mem_of_getElem? hr)

/-- Repositories that are set up with tables and nothing else are static. -/
theorem isStatic_assemble (repositories : List (List Table)) (engines : List (Engine × Bool)) :
    (assemble (repositories.map fun tables => { tables := Repository.tablesOf tables }) engines).IsStatic := by
  refine isStatic_of_forall_mem fun r hr => ?_
  obtain ⟨tables, -, rfl⟩ := List.mem_map.1 hr
  exact Repository.isStatic_tablesOf tables

/-- One repository is changed, or none if there is none of this number. -/
theorem repository_modifyRepository (w : Workspace) (r r' : Nat) (f : Repository → Repository) :
    (w.modifyRepository r f).repository r' = w.repository r' ∨
      (w.modifyRepository r f).repository r' = f (w.repository r') := by
  simp only [repository, modifyRepository, List.getD_eq_getElem?_getD, List.getElem?_modify]
  cases w.repositories[r']? with
  | none => exact .inl rfl
  | some s =>
    by_cases h : r = r'
    · exact .inr (by simp [h])
    · exact .inl (by simp [h])

theorem IsStatic.modifyRepository (h : w.IsStatic) (r : Nat) {f : Repository → Repository}
    (hf : ∀ s : Repository, s.IsStatic → (f s).IsStatic) : (w.modifyRepository r f).IsStatic := by
  intro r'
  rcases repository_modifyRepository w r r' f with hr' | hr'
  · rw [hr']
    exact h r'
  · rw [hr']
    exact hf _ (h r')

/-- The definition of a name depends on what the repositories have under this name. -/
private theorem definition?_congr (hengine : w'.engine e = w.engine e)
    (htables : ∀ r, (w'.repository r).tables.get? name = (w.repository r).tables.get? name) :
    w'.definition? e name = w.definition? e name := by
  simp only [definition?, hengine, htables]

theorem current_congr (hengine : w'.engine e = w.engine e)
    (htables : ∀ r, (w'.repository r).tables.get? name = (w.repository r).tables.get? name) :
    w'.current e name = w.current e name := by
  rw [current, current, definition?_congr hengine htables, hengine]

private theorem definition?_name (hw : w.IsStatic) {source : String} {table : Table}
    (h : w.definition? e name = some (source, table)) : table.name = name := by
  obtain ⟨s, -, hs⟩ := List.exists_of_findSome?_eq_some h
  obtain ⟨table', htable', hpair⟩ := Option.map_eq_some_iff.1 hs
  obtain rfl : table' = table := congrArg Prod.snd hpair
  exact (hw s.2).name_eq name table' htable'

theorem current_name (hw : w.IsStatic) {t : PreparedTable} (h : w.current e name = .ok t) : t.name = name := by
  rw [current] at h
  split at h
  next => cases h
  next source table hdefinition =>
    rw [← definition?_name hw hdefinition]
    exact (PreparedTable.header_of_prepare h).1

/-! ### Loads -/

/-- Another static workspace with the same engines and tables. -/
structure Unedited (w w' : Workspace) : Prop where
  engines : w'.engines = w.engines
  tables : ∀ r, (w'.repository r).tables = (w.repository r).tables
  isStatic : w'.IsStatic

theorem Unedited.refl (hw : w.IsStatic) : Unedited w w :=
  ⟨rfl, fun _ => rfl, hw⟩

theorem Unedited.trans (h : Unedited w w') (h' : Unedited w' w'') : Unedited w w'' :=
  ⟨h'.engines.trans h.engines, fun r => (h'.tables r).trans (h.tables r), h'.isStatic⟩

theorem Unedited.engine_eq (h : Unedited w w') (e : Nat) : w'.engine e = w.engine e := by
  rw [engine, engine, h.engines]

theorem Unedited.current_eq (h : Unedited w w') : w'.current e name = w.current e name :=
  current_congr (h.engine_eq e) fun r => by rw [h.tables r]

/-- Another static workspace with the same engines, tables and caches. -/
structure Undisturbed (w w' : Workspace) : Prop extends Unedited w w' where
  caches : w'.caches = w.caches

theorem Undisturbed.refl (hw : w.IsStatic) : Undisturbed w w :=
  ⟨.refl hw, rfl⟩

theorem Undisturbed.trans (h : Undisturbed w w') (h' : Undisturbed w' w'') : Undisturbed w w'' :=
  ⟨h.toUnedited.trans h'.toUnedited, h'.caches.trans h.caches⟩

theorem Undisturbed.record (h : Undisturbed w w') (event : Event) : Undisturbed w (w'.record event) :=
  ⟨⟨h.engines, h.tables, h.isStatic⟩, h.caches⟩

theorem Undisturbed.cacheOf_eq (h : Undisturbed w w') (e : Nat) : w'.cacheOf e = w.cacheOf e := by
  rw [cacheOf, cacheOf, h.engine_eq, cache, cache, h.caches]

theorem Undisturbed.held?_eq (h : Undisturbed w w') (e : Nat) (name : String) :
    w'.held? e name = w.held? e name := by
  rw [held?, held?, h.cacheOf_eq]

private theorem loadFrom_of_isStatic (hw : w.IsStatic) (prepare : Preparation) (r : Nat) (name : String) :
    (loadFrom prepare r name w).1 = (w.repository r).tables.get? name ∧
      Undisturbed w (loadFrom prepare r name w).2 := by
  have hafter : Undisturbed w ((w.record (.loaded r name)).modifyRepository r (·.afterLoad name)) := by
    refine ⟨⟨rfl, fun r' => ?_, ?_⟩, rfl⟩
    · rcases repository_modifyRepository (w.record (.loaded r name)) r r' (·.afterLoad name) with h | h
      · exact congrArg Repository.tables h
      · rw [h]
        rfl
    · exact IsStatic.modifyRepository (w := w.record (.loaded r name)) hw r fun s hs => hs.afterLoad name
  rw [loadFrom, (hw r).nextActions_eq]
  dsimp only [performAll]
  rw [(hafter.isStatic r).table?_eq, hafter.tables]
  exact ⟨rfl, hafter⟩

theorem load_of_isStatic (hw : w.IsStatic) (prepare : Preparation) (name : String)
    (sources : List (String × Nat)) :
    (load prepare name sources w).1 =
        sources.findSome? (fun s => ((w.repository s.2).tables.get? name).map (Prod.mk s.1)) ∧
      Undisturbed w (load prepare name sources w).2 := by
  induction sources generalizing w with
  | nil => exact ⟨rfl, .refl hw⟩
  | cons s sources ih =>
    obtain ⟨source, r⟩ := s
    obtain ⟨hfound, hafter⟩ := loadFrom_of_isStatic hw prepare r name
    rw [load, List.findSome?_cons]
    cases hload : loadFrom prepare r name w with
    | mk found w' =>
      rw [hload] at hfound hafter
      dsimp only at hfound hafter
      rw [← hfound]
      cases found with
      | some table => exact ⟨rfl, hafter⟩
      | none =>
        -- the first load has left the tables of the other sources as they were
        obtain ⟨hrest, hlast⟩ := ih hafter.isStatic
        refine ⟨?_, hafter.trans hlast⟩
        simp only [hafter.tables] at hrest
        exact hrest

/-- To build a table is to prepare the definition of its name. -/
private theorem build_of_isStatic (hw : w.IsStatic) (prepare : Preparation) (e : Nat) (name : String) :
    (build prepare e name w).1 = w.current e name ∧ Undisturbed w (build prepare e name w).2 := by
  obtain ⟨hfound, hafter⟩ := load_of_isStatic hw prepare name (w.engine e).sources
  rw [build, current, definition?, ← hfound]
  cases hload : load prepare name (w.engine e).sources w with
  | mk found w' =>
    rw [hload] at hafter
    cases found with
    | none => exact ⟨rfl, hafter⟩
    | some pair => exact ⟨rfl, hafter⟩

/-! ### Preparations -/

theorem Unedited.modifyCacheOf (h : Unedited w w') (e : Nat) (f : Cache → Cache) :
    Unedited w (w'.modifyCacheOf e f) :=
  ⟨h.engines, h.tables, h.isStatic⟩

private theorem prepared_of_held {t : PreparedTable} (h : w.held? e name = some t) :
    (prepared e name w).1.map (·.table) = .ok t ∧ (prepared e name w).2 = w := by
  obtain ⟨edition, hedition, rfl⟩ := Option.map_eq_some_iff.1 h
  rw [prepared_eq, prepareWith_of_some hedition]
  exact ⟨rfl, rfl⟩

private theorem buildHeld_of_isStatic (hw : w.IsStatic) (e : Nat) (name : String) :
    (buildHeld e name w).1 = w.current e name ∧ Unedited w (buildHeld e name w).2 ∧
      (buildHeld e name w).2.cacheOf e = (w.cacheOf e).acquire name := by
  have hacquired : Unedited w (w.modifyCacheOf e (·.acquire name)) := (Unedited.refl hw).modifyCacheOf e _
  obtain ⟨houtcome, hbuilt⟩ := build_of_isStatic hacquired.isStatic prepared e name
  refine ⟨houtcome.trans hacquired.current_eq, hacquired.trans hbuilt.toUnedited, ?_⟩
  exact (hbuilt.cacheOf_eq e).trans (cacheOf_modifyCacheOf w e _)

theorem prepared_of_current_error (hw : w.IsStatic) (hnone : w.held? e name = none) {fault : TableError}
    (h : w.current e name = .error fault) :
    (prepared e name w).1 = .error fault ∧ Unedited w (prepared e name w).2 ∧
      (prepared e name w).2.cacheOf e = ((w.cacheOf e).acquire name).release name := by
  obtain ⟨houtcome, hbuilt, hcache⟩ := buildHeld_of_isStatic hw e name
  have hbuild : buildHeld e name w = (.error fault, (buildHeld e name w).2) := Prod.ext (houtcome.trans h) rfl
  rw [prepared_of_buildHeld_error (Option.map_eq_none_iff.1 hnone) hbuild, cacheOf_modifyCacheOf, hcache]
  exact ⟨rfl, hbuilt.modifyCacheOf e (·.release name), rfl⟩

/-- Nothing overtakes a preparation in a static workspace, so what it gives is published. -/
private theorem prepared_of_current_ok (hw : w.IsStatic) (hnone : w.held? e name = none) {t : PreparedTable}
    (h : w.current e name = .ok t) :
    ∃ serial, (prepared e name w).1 = .ok ⟨serial, t⟩ ∧ Unedited w (prepared e name w).2 ∧
      (prepared e name w).2.cacheOf e = (((w.cacheOf e).acquire name).put name ⟨serial, t⟩).release name := by
  obtain ⟨houtcome, hbuilt, hcache⟩ := buildHeld_of_isStatic hw e name
  have hbuild : buildHeld e name w = (.ok t, (buildHeld e name w).2) := Prod.ext (houtcome.trans h) rfl
  have hserial : ∀ serial, ({ (buildHeld e name w).2 with serial } : Workspace).cacheOf e =
      (w.cacheOf e).acquire name := fun _ => hcache
  rw [prepared_of_buildHeld_ok (Option.map_eq_none_iff.1 hnone) hbuild, cacheOf_modifyCacheOf, hserial,
    Cache.publish, if_pos rfl]
  exact ⟨_, rfl, ⟨hbuilt.engines, hbuilt.tables, hbuilt.isStatic⟩, rfl⟩

/-- A preparation gives what the cache has or else what the definition gives, which the cache has afterwards. -/
theorem prepared_of_isStatic (hw : w.IsStatic) (e : Nat) (name : String) :
    (prepared e name w).1.map (·.table) = ((w.held? e name).map .ok).getD (w.current e name) ∧
      Unedited w (prepared e name w).2 ∧
      (∀ n, (prepared e name w).2.held? e n =
        (w.held? e n).or (if n = name then (w.current e name).toOption else none)) ∧
      ((w.cacheOf e).IsIdle → ((prepared e name w).2.cacheOf e).IsIdle) := by
  cases hheld : w.held? e name with
  | some t =>
    -- what the cache has already has precedence over the present definition
    obtain ⟨hresult, hafter⟩ := prepared_of_held hheld
    rw [hafter]
    refine ⟨hresult, .refl hw, fun n => ?_, id⟩
    split
    next hn => rw [hn, hheld, Option.some_or]
    next => rw [Option.or_none]
  | none =>
    cases hcurrent : w.current e name with
    | error fault =>
      obtain ⟨hresult, hafter, hcache⟩ := prepared_of_current_error hw hheld hcurrent
      refine ⟨by rw [hresult]; rfl, hafter, fun n => ?_, fun hidle => ?_⟩
      · rw [held?, hcache]
        simp [held?, Except.toOption]
      · rw [hcache]
        exact hidle.release_acquire name
    | ok t =>
      obtain ⟨serial, hresult, hafter, hcache⟩ := prepared_of_current_ok hw hheld hcurrent
      refine ⟨by rw [hresult]; rfl, hafter, fun n => ?_, fun hidle => ?_⟩
      · rw [held?, hcache, Cache.get?_release, Cache.get?_put]
        by_cases hn : name = n
        · subst hn
          rw [if_pos rfl, if_pos rfl, hheld, Option.none_or]
          rfl
        · rw [if_neg hn, if_neg (Ne.symm hn), Option.or_none]
          rfl
      · rw [hcache]
        intro n
        have hslots : ((((w.cacheOf e).acquire name).put name ⟨serial, t⟩).release name).slots =
            (((w.cacheOf e).acquire name).release name).slots := Cache.slots_release_congr name rfl
        rw [hslots]
        exact hidle.release_acquire name n

end Workspace

end DecisionTables
