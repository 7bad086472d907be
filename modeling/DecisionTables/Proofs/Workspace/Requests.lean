import DecisionTables.Proofs.Table.Preparing
import DecisionTables.Proofs.Workspace.Publication
import DecisionTables.Session

/-!
# The preparations of a session

Engines are asked to prepare names by the steps of a session, and by the actions that the loads of these preparations
set off. A request has the workspace in which it is made, so the requests of a session (`Made`) show all preparations
that take place in it, however deep they are nested. Where the cache does not have the name, the engine asks its
sources in order, and the first one that provides a table supplies what comes of the request (`Request.supplier?`,
`Request.source_of_supplier?`).
-/

namespace DecisionTables

/-- A request to an engine to prepare a name, in the workspace in which it is made. -/
structure Request where
  engine : Nat
  name : String
  before : Workspace

/-- The request that an action makes. -/
def Action.requests (w : Workspace) : Action → List Request
  | .prepare e name => [⟨e, name, w⟩]
  | _ => []

namespace Workspace

/-- The workspace in which a repository carries out the actions that a load sets off. -/
def beginLoad (w : Workspace) (r : Nat) (name : String) : Workspace :=
  (w.record (.loaded r name)).modifyRepository r (·.afterLoad name)

/-- The requests among the actions of a repository. -/
def requestsOfActions (r : Nat) : List Action → Workspace → List Request
  | [], _ => []
  | action :: actions, w =>
    action.requests w ++ requestsOfActions r actions
      ((perform prepared r action w).2.record (.acted r action (perform prepared r action w).1))

/-- The requests that loads of a name set off while sources are asked for it in order. -/
def requestsOfLoad (name : String) : List (String × Nat) → Workspace → List Request
  | [], _ => []
  | (_, r) :: sources, w =>
    requestsOfActions r ((w.repository r).nextActions name) (w.beginLoad r name) ++
      match loadFrom prepared r name w with
      | (some _, _) => []
      | (none, after) => requestsOfLoad name sources after

/-- The place of the first source that provides a table. -/
def supplier? (name : String) : List (String × Nat) → Workspace → Option Nat
  | [], _ => none
  | (_, r) :: sources, w =>
    match loadFrom prepared r name w with
    | (some _, _) => some 0
    | (none, after) => (supplier? name sources after).map (· + 1)

/-- The requests that are made to prepare a name several times in a row. -/
def requestsOfTimes (e : Nat) (name : String) : Nat → Workspace → List Request
  | 0, _ => []
  | n + 1, w => ⟨e, name, w⟩ :: requestsOfTimes e name n (w.prepared e name).2

end Workspace

open Workspace

namespace Request

/-- The edition that the cache has. -/
def cached? (q : Request) : Option Edition :=
  (q.before.cacheOf q.engine).get? q.name

/-- The workspace in which the sources are asked: the engine holds the slot of the name. -/
def held (q : Request) : Workspace :=
  q.before.modifyCacheOf q.engine (·.acquire q.name)

/-- The sources that are asked. -/
def sources (q : Request) : List (String × Nat) :=
  (q.before.engine q.engine).sources

/-- What comes of a request. -/
def outcome (q : Request) : Except TableError Edition :=
  (q.before.prepared q.engine q.name).1

/-- The requests that the loads for a request set off. -/
def setOff (q : Request) : List Request :=
  match q.cached? with
  | some _ => []
  | none => requestsOfLoad q.name q.sources q.held

/-- The place of the source that supplies the table, if it has to be loaded. -/
def supplier? (q : Request) : Option Nat :=
  match q.cached? with
  | some _ => none
  | none => Workspace.supplier? q.name q.sources q.held

end Request

/-- The requests that a step makes itself. -/
def Step.requests (w : Workspace) : Step → List Request
  | .get e name _ | .getDetailed e name _ | .getInContext e name _ | .callFound e name _ _ | .prepare e name =>
    [⟨e, name, w⟩]
  | .prepareTimes e name count => requestsOfTimes e name count { w with journal := [] }
  | .put e _ source => [⟨e, source, w⟩]
  | .same e name invalidated =>
    let after := (w.prepared e name).2
    [⟨e, name, w⟩, ⟨e, name, if invalidated then after.invalidate e name else after⟩]
  | _ => []

/-- The requests of a session: those that its steps make, and those that are set off by others. -/
inductive Made (steps : List Step) (start : Workspace) : Request → Prop
  | step (done : List Step) {rest : List Step} {step : Step} {q : Request} (hsteps : steps = done ++ step :: rest)
      (hq : q ∈ step.requests (Step.runAll done start).2) : Made steps start q
  | setOff {q q' : Request} (h : Made steps start q) (hq' : q' ∈ q.setOff) : Made steps start q'

namespace Workspace

variable {name source : String} {sources : List (String × Nat)} {w w' : Workspace} {e : Nat} {t : PreparedTable}

theorem build_snd (prepare : Preparation) (e : Nat) (name : String) (w : Workspace) :
    (build prepare e name w).2 = (load prepare name (w.engine e).sources w).2 := by
  rw [build]
  rcases load prepare name (w.engine e).sources w with ⟨_ | ⟨source, table⟩, after⟩ <;> rfl

theorem build_eq_ok {prepare : Preparation} (h : build prepare e name w = (.ok t, w')) :
    ∃ source definition, load prepare name (w.engine e).sources w = (some (source, definition), w') ∧
      PreparedTable.prepare (w.engine e).codecs (w.engine e).matchers source definition = .ok t := by
  rw [build] at h
  rcases hload : load prepare name (w.engine e).sources w with ⟨_ | ⟨source, definition⟩, after⟩
  · rw [hload] at h
    cases h
  · rw [hload] at h
    obtain ⟨hprepare, rfl⟩ := Prod.mk.inj h
    exact ⟨source, definition, rfl, hprepare⟩

/-- A load names the source that supplies the table. -/
private theorem source_of_load (name : String) (sources : List (String × Nat)) (w : Workspace) :
    (load prepared name sources w).1.map Prod.fst =
      (supplier? name sources w).bind fun place => sources[place]?.map Prod.fst := by
  induction sources generalizing w with
  | nil => rfl
  | cons s sources ih =>
    obtain ⟨source, r⟩ := s
    rw [load, supplier?]
    rcases loadFrom prepared r name w with ⟨_ | table, after⟩
    · rw [Option.bind_map]
      exact ih after
    · rfl

/-! ### Requests leave the engines alone -/

private theorem engines_of_mem_actions {r : Nat} {actions : List Action} {q : Request}
    (h : q ∈ requestsOfActions r actions w) : q.before.engines = w.engines := by
  induction actions generalizing w with
  | nil => cases h
  | cons action actions ih =>
    rcases List.mem_append.1 h with hfirst | hrest
    · cases action with
      | prepare e name => rw [List.mem_singleton.1 hfirst]
      | _ => cases hfirst
    · obtain ⟨events, hrun⟩ := exists_run_perform sound_prepared r action w
      exact (ih hrest).trans hrun.engines

private theorem engines_of_mem_load {q : Request} (h : q ∈ requestsOfLoad name sources w) :
    q.before.engines = w.engines := by
  induction sources generalizing w with
  | nil => cases h
  | cons s sources ih =>
    obtain ⟨source, r⟩ := s
    rcases List.mem_append.1 h with hfirst | hrest
    · exact (engines_of_mem_actions hfirst).trans rfl
    · obtain ⟨events, hrun⟩ := exists_run_loadFrom sound_prepared r name w
      rcases hload : loadFrom prepared r name w with ⟨_ | table, after⟩
      · rw [hload] at hrest hrun
        exact (ih hrest).trans hrun.engines
      · rw [hload] at hrest
        cases hrest

private theorem engines_of_mem_times {n : Nat} {q : Request} (h : q ∈ requestsOfTimes e name n w) :
    q.before.engines = w.engines := by
  induction n generalizing w with
  | zero => cases h
  | succ n ih =>
    rcases List.mem_cons.1 h with rfl | hrest
    · rfl
    · obtain ⟨events, hrun⟩ := sound_prepared e name w
      exact (ih hrest).trans hrun.engines

end Workspace

theorem Step.engines_of_mem_requests {w : Workspace} {step : Step} {q : Request} (h : q ∈ step.requests w) :
    q.before.engines = w.engines := by
  cases step with
  | prepareTimes e name count => exact (engines_of_mem_times h).trans rfl
  | same e name invalidated =>
    obtain ⟨events, hrun⟩ := sound_prepared e name w
    rcases List.mem_cons.1 h with rfl | hsecond
    · rfl
    · rw [List.mem_singleton.1 hsecond]
      dsimp only
      split <;> exact hrun.engines
  | get | getDetailed | getInContext | callFound | prepare | put => rw [List.mem_singleton.1 h]
  | _ => cases h

namespace Request

variable {q : Request} {edition : Edition} {place : Nat}

theorem engines_of_mem_setOff {q' : Request} (h : q' ∈ q.setOff) : q'.before.engines = q.before.engines := by
  rw [setOff] at h
  cases hcached : q.cached? with
  | some edition =>
    rw [hcached] at h
    cases h
  | none =>
    rw [hcached] at h
    exact (engines_of_mem_load h).trans rfl

/-! ### What comes of a request -/

private theorem supplier?_of_miss (hmiss : q.cached? = none) :
    q.supplier? = Workspace.supplier? q.name q.sources q.held := by
  rw [supplier?, hmiss]

theorem cached?_of_supplier? (h : q.supplier? = some place) : q.cached? = none := by
  rw [supplier?] at h
  cases hcached : q.cached? with
  | some edition =>
    rw [hcached] at h
    cases h
  | none => rfl

theorem outcome_of_cached? (h : q.cached? = some edition) : q.outcome = .ok edition := by
  rw [outcome, prepared_eq, prepareWith_of_some h]

theorem outcome_of_buildHeld {t : PreparedTable} {built : Workspace} (hmiss : q.cached? = none)
    (h : buildHeld q.engine q.name q.before = (.ok t, built)) : q.outcome = .ok ⟨built.serial, t⟩ :=
  congrArg Prod.fst (prepared_of_buildHeld_ok hmiss h)

/-- What comes of a request that has to be loaded was prepared from a definition, under the name of its source. -/
theorem exists_loads_of_outcome (hmiss : q.cached? = none) (h : q.outcome = .ok edition) :
    ∃ source definition loaded, q.before.Loads q.engine q.name source definition loaded ∧
      PreparedTable.prepare (q.before.engine q.engine).codecs (q.before.engine q.engine).matchers source definition =
        .ok edition.table := by
  rcases held_or_built_of_prepared h with hheld | ⟨t, built, hbuild, rfl⟩
  · cases hmiss.symm.trans hheld
  · obtain ⟨source, definition, hload, hprepare⟩ := build_eq_ok hbuild
    exact ⟨source, definition, built, ⟨hmiss, hload⟩, hprepare⟩

/-- A load for a request names the source that supplies the table. -/
private theorem source_of_loads {source : String} {definition : Table} {loaded : Workspace}
    (h : q.before.Loads q.engine q.name source definition loaded) :
    (q.supplier?.bind fun place => q.sources[place]?.map Prod.fst) = some source := by
  have hload : load prepared q.name q.sources q.held = (some (source, definition), loaded) := h.2
  rw [supplier?_of_miss h.1, ← source_of_load, hload]
  rfl

/-- The table that comes of a request bears the name of the source that supplies it. -/
theorem source_of_supplier? (h : q.outcome = .ok edition) (hplace : q.supplier? = some place) :
    ∃ r, q.sources[place]? = some (edition.table.source, r) := by
  obtain ⟨source, definition, loaded, hloads, hprepare⟩ := exists_loads_of_outcome (cached?_of_supplier? hplace) h
  have hsource := source_of_loads hloads
  rw [hplace] at hsource
  obtain ⟨⟨_, r⟩, hr, rfl⟩ := Option.map_eq_some_iff.1 hsource
  exact ⟨r, by rw [hr, (PreparedTable.header_of_prepare hprepare).2]⟩

theorem exists_supplier? (hmiss : q.cached? = none) (h : q.outcome = .ok edition) :
    ∃ place, q.supplier? = some place := by
  obtain ⟨source, definition, loaded, hloads, -⟩ := exists_loads_of_outcome hmiss h
  obtain ⟨place, hplace, -⟩ := Option.bind_eq_some_iff.1 (source_of_loads hloads)
  exact ⟨place, hplace⟩

end Request

namespace Made

variable {step : Step} {steps : List Step} {w : Workspace} {q : Request}

theorem of_head (hq : q ∈ step.requests w) : Made (step :: steps) w q :=
  .step [] rfl hq

theorem of_tail (h : Made steps (step.run w).2 q) : Made (step :: steps) w q := by
  induction h with
  | step done hsteps hq => exact .step (step :: done) (congrArg (step :: ·) hsteps) hq
  | setOff _ hq' ih => exact .setOff ih hq'

theorem append (h : Made steps w q) (later : List Step) : Made (steps ++ later) w q := by
  induction h with
  | step done hsteps hq => exact .step done (by rw [hsteps, List.append_assoc, List.cons_append]) hq
  | setOff _ hq' ih => exact .setOff ih hq'

end Made

end DecisionTables
