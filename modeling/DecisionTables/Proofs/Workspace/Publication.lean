import DecisionTables.Proofs.Workspace.Nesting
import Mathlib

/-!
# When an edition is published

Where the cache of an engine does not have a name, the engine builds the table: it loads it, with all that the
loads set off, and prepares it. The call has the outcome of that build. Its edition is in the cache afterwards
if and only if there is one and, while it was being built, the name was not invalidated and the cache not
cleared, by whatever load at whatever depth and through whatever engine that shares the cache. In all other
places the call leaves what its build left (`prepared_of_miss`).
-/

namespace DecisionTables.Workspace

/-- The events that a preparation adds to the journal. -/
def preparationEvents (e : Nat) (name : String) (w : Workspace) : List Event :=
  (prepared e name w).2.journal.drop w.journal.length

/-- What an engine does for a name that its cache does not have: it holds the slot of the name, and builds the
table meanwhile. -/
def buildHeld (e : Nat) (name : String) (w : Workspace) : Except TableError PreparedTable × Workspace :=
  build prepared e name (w.modifyCacheOf e (·.acquire name))

/-- An engine prepares a name that its cache does not have, and loads this table for it; after the load, with all that
it set off, the workspace is the one given last. -/
def Loads (w : Workspace) (e : Nat) (name source : String) (table : Table) (loaded : Workspace) : Prop :=
  (w.cacheOf e).get? name = none ∧
    load prepared name (w.engine e).sources (w.modifyCacheOf e (·.acquire name)) = (some (source, table), loaded)

variable {e : Nat} {name : String} {w : Workspace}

theorem prepared_of_buildHeld_error {fault : TableError} {built : Workspace}
    (hmiss : (w.cacheOf e).get? name = none) (h : buildHeld e name w = (.error fault, built)) :
    prepared e name w = (.error fault, built.modifyCacheOf e (·.release name)) := by
  rw [prepared_eq]
  exact prepareWith_of_error hmiss h

theorem prepared_of_buildHeld_ok {table : PreparedTable} {built : Workspace}
    (hmiss : (w.cacheOf e).get? name = none) (h : buildHeld e name w = (.ok table, built)) :
    prepared e name w = (.ok ⟨built.serial, table⟩,
      { built with serial := built.serial + 1 }.modifyCacheOf e fun c =>
        (c.publish name (((w.cacheOf e).acquire name).stamp name) ⟨built.serial, table⟩).release name) := by
  rw [prepared_eq]
  exact prepareWith_of_ok hmiss h

theorem Loads.buildHeld_eq {source : String} {table : Table} {loaded : Workspace}
    (h : w.Loads e name source table loaded) :
    buildHeld e name w =
      (PreparedTable.prepare (w.engine e).codecs (w.engine e).matchers source table, loaded) := by
  have hload : load prepared name ((w.modifyCacheOf e (·.acquire name)).engine e).sources
      (w.modifyCacheOf e (·.acquire name)) = (some (source, table), loaded) := h.2
  unfold buildHeld build
  dsimp only
  rw [hload]
  rfl

/-- An edition that a preparation gives is the one in the cache, or holds the table that has been built. -/
theorem held_or_built_of_prepared {edition : Edition} (hok : (prepared e name w).1 = .ok edition) :
    (w.cacheOf e).get? name = some edition ∨
      ∃ t built, buildHeld e name w = (.ok t, built) ∧ edition = ⟨built.serial, t⟩ := by
  cases hheld : (w.cacheOf e).get? name with
  | some edition' =>
    rw [prepared_eq, prepareWith_of_some hheld] at hok
    exact .inl (congrArg some (Except.ok.inj hok))
  | none =>
    right
    cases hbuild : buildHeld e name w with
    | mk outcome built =>
      cases outcome with
      | error fault =>
        rw [prepared_of_buildHeld_error hheld hbuild] at hok
        cases hok
      | ok t =>
        rw [prepared_of_buildHeld_ok hheld hbuild] at hok
        exact ⟨t, built, rfl, (Except.ok.inj hok).symm⟩

/-! ### The run of a build -/

theorem exists_run_buildHeld (hmiss : (w.cacheOf e).get? name = none) :
    Run none (w.modifyCacheOf e (·.acquire name)) (preparationEvents e name w) (buildHeld e name w).2 ∧
      (preparationEvents e name w).head? = (w.engine e).sources.head?.map fun s => .loaded s.2 name := by
  obtain ⟨events, h, hhead⟩ := exists_run_build sound_prepared e name (w.modifyCacheOf e (·.acquire name))
  have hjournal : (prepared e name w).2.journal = (buildHeld e name w).2.journal := by
    cases hbuild : buildHeld e name w with
    | mk outcome built =>
      cases outcome with
      | error fault => rw [prepared_of_buildHeld_error hmiss hbuild]; rfl
      | ok table => rw [prepared_of_buildHeld_ok hmiss hbuild]; rfl
  have hevents : preparationEvents e name w = events := by
    rw [preparationEvents, hjournal]
    show (build prepared e name (w.modifyCacheOf e (·.acquire name))).2.journal.drop _ = _
    rw [h.journal]
    exact List.drop_left
  rw [hevents]
  exact ⟨h, hhead⟩

/-- Unless a load prepares the name itself, the build leaves nothing under the name. -/
theorem get?_buildHeld_self (hmiss : (w.cacheOf e).get? name = none)
    (hnested : ∀ event ∈ preparationEvents e name w,
      event.prepares w.cacheNumber (w.cacheNumber e) name = false) :
    ((buildHeld e name w).2.cacheOf e).get? name = none := by
  obtain ⟨hrun, -⟩ := exists_run_buildHeld hmiss
  have hedition := hrun.edition (w.cacheNumber e) name (by simp) (by simpa [List.all_eq_true] using hnested)
  have hbuilt : (buildHeld e name w).2.cacheOf e = (buildHeld e name w).2.cache (w.cacheNumber e) :=
    cacheOf_eq hrun.engines e
  rw [hbuilt, hedition, cache_modifyCacheOf, if_pos rfl, Cache.get?_acquire]
  split
  · rfl
  · exact hmiss

/-- While the slot of a name is held, its stamp stays the same just as long as nothing overtakes it. -/
private theorem Run.stamp_eq_iff {events : List Event} {built : Workspace}
    (h : Run none (w.modifyCacheOf e (·.acquire name)) events built) :
    (built.cacheOf e).stamp name = ((w.cacheOf e).acquire name).stamp name ↔
      ∀ event ∈ events, event.overtakes w.cacheNumber (w.cacheNumber e) name = false := by
  have hcache : (w.modifyCacheOf e (·.acquire name)).cache (w.cacheNumber e) = (w.cacheOf e).acquire name :=
    cacheOf_modifyCacheOf w e _
  have hbuilt : built.cacheOf e = built.cache (w.cacheNumber e) := cacheOf_eq h.engines e
  obtain ⟨s, hheld, hpos⟩ : ∃ s : Slot, ((w.cacheOf e).acquire name).slots[name]? = some s ∧ 0 < s.holders :=
    ⟨_, by rw [Cache.slots_acquire, if_pos rfl], Nat.succ_pos _⟩
  have hslot := h.slot (w.cacheNumber e) name
  have hgeneration := h.generation (w.cacheNumber e)
  rw [hcache, cacheNumber_modifyCacheOf] at hslot hgeneration
  have hepoch := Cache.slot_eq_of_getElem? (hslot s hheld hpos)
  rw [hbuilt, Cache.stamp, Cache.stamp, hepoch, hgeneration, Cache.slot_eq_of_getElem? hheld]
  simp only [Stamp.mk.injEq, Nat.add_eq_left, List.countP_eq_zero, Event.overtakes, Bool.or_eq_false_iff]
  constructor
  · rintro ⟨hclears, hinvalidates⟩ event hevent
    exact ⟨by simpa using hinvalidates event hevent, by simpa using hclears event hevent⟩
  · intro hquiet
    exact ⟨fun event hevent => by simp [(hquiet event hevent).2],
      fun event hevent => by simp [(hquiet event hevent).1]⟩

/-! ### The rule of publication -/

/-- The places of a cache other than that of the name are as the build left them. -/
private theorem get?_prepared_of_ne (hmiss : (w.cacheOf e).get? name = none) {c : Nat} {n : String}
    (hne : (c, n) ≠ (w.cacheNumber e, name)) :
    ((prepared e name w).2.cache c).get? n = ((buildHeld e name w).2.cache c).get? n := by
  have hnumber := cacheNumber_eq (exists_run_buildHeld hmiss).1.engines
  rw [cacheNumber_modifyCacheOf] at hnumber
  cases hbuild : buildHeld e name w with
  | mk outcome built =>
    rw [hbuild] at hnumber
    cases outcome with
    | error fault =>
      rw [prepared_of_buildHeld_error hmiss hbuild, cache_modifyCacheOf]
      split <;> rfl
    | ok table =>
      rw [prepared_of_buildHeld_ok hmiss hbuild, cache_modifyCacheOf]
      have hn : w.cacheNumber e = c → name ≠ n := by
        rintro rfl rfl
        exact hne rfl
      split
      · rename_i hc
        rw [Cache.get?_release, Cache.get?_publish, if_neg fun h => hn (by rw [← hnumber]; exact hc) h.2]
        rfl
      · rfl

/-- Where the build left nothing under its name, there is its edition now if its stamp is still the same. -/
private theorem get?_prepared_self (hmiss : (w.cacheOf e).get? name = none)
    (hempty : ((buildHeld e name w).2.cacheOf e).get? name = none) (edition : Edition) :
    ((prepared e name w).2.cacheOf e).get? name = some edition ↔
      (prepared e name w).1 = .ok edition ∧
        ((buildHeld e name w).2.cacheOf e).stamp name = ((w.cacheOf e).acquire name).stamp name := by
  cases hbuild : buildHeld e name w with
  | mk outcome built =>
    rw [hbuild] at hempty
    cases outcome with
    | error fault =>
      rw [prepared_of_buildHeld_error hmiss hbuild, cacheOf_modifyCacheOf, Cache.get?_release, hempty]
      simp
    | ok table =>
      have hserial : ({ built with serial := built.serial + 1 } : Workspace).cacheOf e = built.cacheOf e := rfl
      rw [prepared_of_buildHeld_ok hmiss hbuild, cacheOf_modifyCacheOf, hserial, Cache.get?_release,
        Cache.get?_publish]
      by_cases hstamp : (built.cacheOf e).stamp name = ((w.cacheOf e).acquire name).stamp name
      · simp [hstamp]
      · simp [hstamp, hempty]

/-- A call on a name that the cache does not have, and that nothing the call sets off prepares, has the outcome of its
build. The edition is in the cache afterwards exactly if nothing overtook the name while it was being built. Any other
place is as the build left it, and as it was before unless it was overtaken or prepared. Where the edition is not in
the cache, the next call loads the table again. -/
theorem prepared_of_miss (e : Nat) (name : String) (w : Workspace) (hmiss : (w.cacheOf e).get? name = none)
    (hnested : ∀ event ∈ preparationEvents e name w,
      event.prepares w.cacheNumber (w.cacheNumber e) name = false) :
    let result := (prepared e name w).1
    let after := (prepared e name w).2
    let built := (buildHeld e name w).2
    result = (buildHeld e name w).1.map (Edition.mk built.serial) ∧
    (∀ edition, (after.cacheOf e).get? name = some edition ↔
      result = .ok edition ∧
        ∀ event ∈ preparationEvents e name w, event.overtakes w.cacheNumber (w.cacheNumber e) name = false) ∧
    (∀ c n, (c, n) ≠ (w.cacheNumber e, name) →
      (after.cache c).get? n = (built.cache c).get? n ∧
      ((∀ event ∈ preparationEvents e name w, event.prepares w.cacheNumber c n = false) →
        (after.cache c).get? n =
          if (preparationEvents e name w).any (·.overtakes w.cacheNumber c n) then none
          else (w.cache c).get? n)) ∧
    after.journal = w.journal ++ preparationEvents e name w ∧
    ((after.cacheOf e).get? name = none → ∀ e', w.cacheNumber e' = w.cacheNumber e →
      (preparationEvents e' name after).head? = (w.engine e').sources.head?.map fun s => .loaded s.2 name) := by
  obtain ⟨hrun, -⟩ := exists_run_buildHeld hmiss
  obtain ⟨events, hcall⟩ := sound_prepared e name w
  have hevents : preparationEvents e name w = events := by
    rw [preparationEvents, hcall.journal, List.drop_left]
  refine ⟨?_, fun edition => ?_, fun c n hne => ⟨get?_prepared_of_ne hmiss hne, fun hprepares => ?_⟩, ?_,
    fun hnone e' he' => ?_⟩
  · cases hbuild : buildHeld e name w with
    | mk outcome built =>
      cases outcome with
      | error fault => rw [prepared_of_buildHeld_error hmiss hbuild]; rfl
      | ok table => rw [prepared_of_buildHeld_ok hmiss hbuild]; rfl
  · rw [get?_prepared_self hmiss (get?_buildHeld_self hmiss hnested), hrun.stamp_eq_iff]
  · rw [hevents] at hprepares ⊢
    exact hcall.edition c n (fun h => hne (Option.some.inj h).symm) (by simpa [List.all_eq_true] using hprepares)
  · rw [hevents]
    exact hcall.journal
  · rw [cacheOf_eq hcall.engines, ← he', ← cacheOf_eq hcall.engines] at hnone
    rw [(exists_run_buildHeld hnone).2, engine, engine, hcall.engines]

/-- Loading rates prepares units through another engine with the same cache, and loading those invalidates
rates. -/
def entwined : Workspace :=
  assemble
    [{ tables := Repository.tablesOf
        [⟨"rates", Level.listed [{ codec := "integer" }], 0, [⟨[some "7"], none, none⟩], false, true, false, ','⟩,
          ⟨"units", Level.listed [{ codec := "string" }], 0, [⟨[some "kg"], none, none⟩], false, true, false, ','⟩]
       triggers := .ofList [("rates", [[Action.prepare 1 "units"]]), ("units", [[Action.invalidate 1 "rates"]])] }]
    [({ sources := [("r0", 0)] }, true), ({ sources := [("r0", 0)] }, true)]

/-- Rates are prepared, and yet the cache has only the units. -/
theorem prepared_of_miss_entwined :
    (entwined.cacheOf 0).get? "rates" = none ∧
    (∀ event ∈ preparationEvents 0 "rates" entwined,
      event.prepares entwined.cacheNumber (entwined.cacheNumber 0) "rates" = false) ∧
    (∃ edition, (prepared 0 "rates" entwined).1 = .ok edition) ∧
    (∀ edition, ((prepared 0 "rates" entwined).2.cacheOf 0).get? "rates" ≠ some edition) ∧
    (((prepared 0 "rates" entwined).2.cache 0).get? "units").isSome := by
  have hmiss : (entwined.cacheOf 0).get? "rates" = none := by cbv
  have hprepares : (preparationEvents 0 "rates" entwined).all
      (!·.prepares entwined.cacheNumber (entwined.cacheNumber 0) "rates") = true := by cbv
  have hovertakes : (preparationEvents 0 "rates" entwined).all
      (!·.overtakes entwined.cacheNumber (entwined.cacheNumber 0) "rates") = false := by cbv
  have hresult : (prepared 0 "rates" entwined).1.isOk = true := by cbv
  have hunits : (((buildHeld 0 "rates" entwined).2.cache 0).get? "units").isSome = true := by cbv
  have hnested : ∀ event ∈ preparationEvents 0 "rates" entwined,
      event.prepares entwined.cacheNumber (entwined.cacheNumber 0) "rates" = false := by
    simpa [List.all_eq_true] using hprepares
  obtain ⟨-, hpublished, hother, -, -⟩ := prepared_of_miss 0 "rates" entwined hmiss hnested
  refine ⟨hmiss, hnested, ?_, fun edition hedition => ?_, ?_⟩
  · cases hcall : (prepared 0 "rates" entwined).1 with
    | error fault => rw [hcall] at hresult; cases hresult
    | ok edition => exact ⟨edition, rfl⟩
  · obtain ⟨-, hquiet⟩ := (hpublished edition).1 hedition
    have hall : (preparationEvents 0 "rates" entwined).all
        (!·.overtakes entwined.cacheNumber (entwined.cacheNumber 0) "rates") = true := by
      simpa [List.all_eq_true] using hquiet
    rw [hall] at hovertakes
    cases hovertakes
  · rw [(hother 0 "units" (by decide)).1]
    exact hunits

end DecisionTables.Workspace
