import DecisionTables.Proofs.Workspace.Alike
import DecisionTables.Proofs.Workspace.Invariants

/-!
# Workspaces that no session tells apart

Queries in alike workspaces fetch the same entries, and they have the same answers if the functions of the
engines give the same rows (`Alike.evaluate`). Alike workspaces with the same engines are twins: every step of a
session has the same reply in both and leaves them twins (`Twins.run`), so that all replies of a session are the
same (`Twins.runAll`).
-/

namespace DecisionTables.Workspace

variable {w w' : Workspace}

/-! ### Queries in alike workspaces -/

theorem engine_indexFor (w : Workspace) (e e' : Nat) (t : PreparedTable) (query : List (Option String)) :
    (w.indexFor e t query).2.engine e' = w.engine e' := by
  rw [indexFor_snd]
  split <;> rfl

/-- The functions of an engine give the same rows in both workspaces for what a query to a name finds. -/
def FunctionsAgree (w w' : Workspace) (e : Nat) (name : String) (values : List Value) : Prop :=
  ∀ edition query index, (prepared e name w).1 = .ok edition → edition.table.normalize values = .ok query →
    ((prepared e name w).2.indexFor e edition.table query).1 = .ok index →
    edition.table.answer (w.engine e).functions index query true =
      edition.table.answer (w'.engine e).functions index query true

namespace Alike

theorem findEntries (h : w.Alike w') (e : Nat) (t : PreparedTable) (query : List (Option String)) :
    AlikeAfter Eq (w.findEntries e t query) (w'.findEntries e t query) := by
  rw [Workspace.findEntries, Workspace.findEntries, Workspace.source?, Workspace.source?, (h.engine e).sources]
  cases (w'.engine e).sources.lookup t.source with
  | none => exact ⟨rfl, h⟩
  | some r => exact ⟨(h.repository r).entriesFor t.name query, h.record _⟩

theorem indexFor (h : w.Alike w') (e : Nat) (t : PreparedTable) (query : List (Option String)) :
    AlikeAfter Eq (w.indexFor e t query) (w'.indexFor e t query) := by
  rw [Workspace.indexFor, Workspace.indexFor]
  cases t.index with
  | some index => exact ⟨rfl, h⟩
  | none =>
    obtain ⟨hentries, hafter⟩ := h.findEntries e t query
    exact ⟨congrArg t.indexOf hentries, hafter⟩

/-- The functions of the engines count only where the query finds entries. -/
theorem evaluate (h : w.Alike w') (e : Nat) (t : PreparedTable) (values : List Value) (detailed : Bool)
    (hfunctions : ∀ query index, t.normalize values = .ok query → (w.indexFor e t query).1 = .ok index →
      t.answer (w.engine e).functions index query detailed = t.answer (w'.engine e).functions index query detailed) :
    AlikeAfter Eq (w.evaluate e t values detailed) (w'.evaluate e t values detailed) := by
  rw [Workspace.evaluate, Workspace.evaluate]
  cases hquery : t.normalize values with
  | error fault => exact ⟨rfl, h⟩
  | ok query =>
    obtain ⟨outcome, after, after', hindexed, hindexed', hafter⟩ := (h.indexFor e t query).exists_split_eq
    have hengine := engine_indexFor w e e t query
    have hengine' := engine_indexFor w' e e t query
    rw [hindexed] at hengine
    rw [hindexed'] at hengine'
    simp only [hindexed, hindexed']
    cases outcome with
    | error fault => exact ⟨rfl, hafter⟩
    | ok index =>
      refine ⟨?_, hafter⟩
      dsimp only at hengine hengine' ⊢
      rw [hengine, hengine']
      exact hfunctions query index hquery (congrArg Prod.fst hindexed)

theorem getDetailed (h : w.Alike w') (e : Nat) (name : String) (values : List Value)
    (hfunctions : w.FunctionsAgree w' e name values) :
    AlikeAfter Eq (w.getDetailed e name values) (w'.getDetailed e name values) := by
  obtain ⟨outcome, after, after', hcall, hcall', hafter⟩ := (h.prepared e name).exists_split_eq
  have hengine := engine_prepared e e name w
  have hengine' := engine_prepared e e name w'
  rw [hcall] at hengine
  rw [hcall'] at hengine'
  rw [Workspace.getDetailed, Workspace.getDetailed, hcall, hcall']
  cases outcome with
  | error fault => exact ⟨rfl, hafter⟩
  | ok edition =>
    refine hafter.evaluate e edition.table values true fun query index hquery hindex => ?_
    rw [hengine, hengine']
    refine hfunctions edition query index (congrArg Prod.fst hcall) hquery ?_
    rwa [hcall]

/-- A query is the same in alike workspaces, as far as the functions of the engines agree. -/
theorem get (h : w.Alike w') (e : Nat) (name : String) (values : List Value)
    (hfunctions : w.FunctionsAgree w' e name values) :
    AlikeAfter Eq (w.get e name values) (w'.get e name values) := by
  obtain ⟨hresult, hafter⟩ := h.getDetailed e name values hfunctions
  rw [get_eq, get_eq]
  exact ⟨congrArg (Except.map (·.answer)) hresult, hafter⟩

end Alike

/-! ### Twins -/

/-- Alike workspaces with the same engines. -/
structure Twins (w w' : Workspace) : Prop extends Alike w w' where
  engines : w.engines = w'.engines

namespace Twins

theorem engine_eq (h : Twins w w') (e : Nat) : w.engine e = w'.engine e := by
  rw [Workspace.engine, Workspace.engine, h.engines]

private theorem functionsAgree (h : Twins w w') (e : Nat) (name : String) (values : List Value) :
    w.FunctionsAgree w' e name values :=
  fun _ _ _ _ _ _ => by rw [h.engine_eq]

theorem prepared (h : Twins w w') (e : Nat) (name : String) :
    ∃ outcome after after', Workspace.prepared e name w = (outcome, after) ∧
      Workspace.prepared e name w' = (outcome, after') ∧ Twins after after' := by
  obtain ⟨outcome, after, after', hcall, hcall', hafter⟩ := (h.toAlike.prepared e name).exists_split_eq
  have hengines : (Workspace.prepared e name w).2.engines = w.engines := Step.engines_run (.prepare e name) w
  have hengines' : (Workspace.prepared e name w').2.engines = w'.engines := Step.engines_run (.prepare e name) w'
  rw [hcall] at hengines
  rw [hcall'] at hengines'
  exact ⟨outcome, after, after', hcall, hcall', hafter, hengines.trans (h.engines.trans hengines'.symm)⟩

theorem evaluate (h : Twins w w') (e : Nat) (t : PreparedTable) (values : List Value) (detailed : Bool) :
    AlikeAfter Eq (w.evaluate e t values detailed) (w'.evaluate e t values detailed) :=
  h.toAlike.evaluate e t values detailed fun _ _ _ _ => by rw [h.engine_eq]

theorem getDetailed (h : Twins w w') (e : Nat) (name : String) (values : List Value) :
    AlikeAfter Eq (w.getDetailed e name values) (w'.getDetailed e name values) :=
  h.toAlike.getDetailed e name values (h.functionsAgree e name values)

theorem get (h : Twins w w') (e : Nat) (name : String) (values : List Value) :
    AlikeAfter Eq (w.get e name values) (w'.get e name values) :=
  h.toAlike.get e name values (h.functionsAgree e name values)

theorem getInContext (h : Twins w w') (e : Nat) (name : String) (context : Context) :
    AlikeAfter Eq (w.getInContext e name context) (w'.getInContext e name context) := by
  obtain ⟨outcome, after, after', hcall, hcall', hafter⟩ := h.prepared e name
  rw [Workspace.getInContext, Workspace.getInContext, hcall, hcall']
  cases outcome with
  | error fault => exact ⟨rfl, hafter.toAlike⟩
  | ok edition =>
    dsimp only
    rw [hafter.engine_eq e]
    cases edition.table.valuesIn ((after'.engine e).creators.get? ·) context with
    | error fault => exact ⟨rfl, hafter.toAlike⟩
    | ok values =>
      obtain ⟨hanswer, hlast⟩ := hafter.evaluate e edition.table values false
      exact ⟨congrArg (Except.map (·.answer)) hanswer, hlast⟩

theorem put (h : Twins w w') (e : Nat) (name source : String) :
    AlikeAfter Eq (Workspace.put e name source w) (Workspace.put e name source w') := by
  obtain ⟨outcome, after, after', hcall, hcall', hafter⟩ := h.prepared e source
  rw [Workspace.put, Workspace.put, hcall, hcall']
  cases outcome with
  | error fault => exact ⟨rfl, hafter.toAlike⟩
  | ok edition => exact ⟨rfl, hafter.toAlike.modifyCacheOf e (·.put name edition)⟩

theorem callFound (h : Twins w w') (e : Nat) (name : String) (values arguments : List Value) :
    AlikeAfter Eq (w.callFound e name values arguments) (w'.callFound e name values arguments) := by
  obtain ⟨hresult, hafter⟩ := h.get e name values
  have hengines : (w.get e name values).2.engines = (w'.get e name values).2.engines :=
    (Step.engines_run (.get e name values) w).trans (h.engines.trans (Step.engines_run (.get e name values) w').symm)
  refine ⟨?_, hafter⟩
  simp only [Workspace.callFound, Workspace.call, hresult, (Twins.mk hafter hengines).engine_eq e]

theorem prepareTimes (h : Twins w w') (e : Nat) (name : String) (count : Nat) :
    AlikeAfter Eq (w.prepareTimes e name count) (w'.prepareTimes e name count) := by
  induction count generalizing w w' with
  | zero => exact ⟨rfl, h.toAlike⟩
  | succ count ih =>
    obtain ⟨outcome, after, after', hcall, hcall', hafter⟩ := h.prepared e name
    obtain ⟨hresults, hlast⟩ := ih hafter
    rw [Workspace.prepareTimes, Workspace.prepareTimes, hcall, hcall']
    exact ⟨congrArg (outcome :: ·) hresults, hlast⟩

theorem sameEdition (h : Twins w w') (e : Nat) (name : String) (invalidated : Bool) :
    AlikeAfter Eq (w.sameEdition e name invalidated) (w'.sameEdition e name invalidated) := by
  obtain ⟨first, after, after', hcall, hcall', hafter⟩ := h.prepared e name
  have hbetween : Twins (if invalidated then after.invalidate e name else after)
      (if invalidated then after'.invalidate e name else after') := by
    split
    · exact ⟨hafter.toAlike.invalidate e name, hafter.engines⟩
    · exact hafter
  obtain ⟨second, last, last', hagain, hagain', hlast⟩ := hbetween.prepared e name
  simp only [Workspace.sameEdition, hcall, hcall', hagain, hagain']
  exact ⟨rfl, hlast.toAlike⟩

/-! ### Sessions -/

/-- A step has the same reply in twins. -/
theorem run (h : Twins w w') (step : Step) : AlikeAfter Eq (step.run w) (step.run w') := by
  cases step with
  | get e name values =>
    obtain ⟨hresult, hafter⟩ := h.get e name values
    exact ⟨congrArg Reply.answer hresult, hafter⟩
  | getDetailed e name values =>
    obtain ⟨hresult, hafter⟩ := h.getDetailed e name values
    exact ⟨congrArg Reply.detailed hresult, hafter⟩
  | getInContext e name context =>
    obtain ⟨hresult, hafter⟩ := h.getInContext e name context
    exact ⟨congrArg Reply.answer hresult, hafter⟩
  | call e function arguments =>
    refine ⟨?_, h.toAlike⟩
    simp only [Step.run, Workspace.call, h.engine_eq]
  | callFound e name values arguments =>
    obtain ⟨hresult, hafter⟩ := h.callFound e name values arguments
    exact ⟨congrArg Reply.value hresult, hafter⟩
  | prepare e name =>
    obtain ⟨outcome, after, after', hcall, hcall', hafter⟩ := h.prepared e name
    simp only [Step.run, hcall, hcall']
    exact ⟨rfl, hafter.toAlike⟩
  | prepareTimes e name count =>
    have hempty : Twins { w with journal := [] } { w' with journal := [] } :=
      ⟨⟨h.repositories, h.toAlike.engine, h.caches, rfl, h.serial⟩, h.engines⟩
    obtain ⟨hresults, hafter⟩ := hempty.prepareTimes e name count
    refine ⟨?_, hafter.repositories, hafter.engine, hafter.caches, rfl, hafter.serial⟩
    simp only [Step.run, hresults, hafter.journal]
  | invalidate e name =>
    refine ⟨?_, h.toAlike.invalidate e name⟩
    simp only [Step.run, h.toAlike.cacheOf]
  | clear e => exact ⟨rfl, h.toAlike.clear e⟩
  | cached e =>
    refine ⟨?_, h.toAlike⟩
    simp only [Step.run, h.toAlike.cacheOf]
  | cachedEdition e name =>
    refine ⟨?_, h.toAlike⟩
    simp only [Step.run, h.toAlike.cacheOf]
  | put e name source =>
    obtain ⟨hresult, hafter⟩ := h.put e name source
    exact ⟨congrArg Reply.done hresult, hafter⟩
  | tryCached e name fault =>
    refine ⟨?_, h.toAlike⟩
    simp only [Step.run, Workspace.cachedOr, h.toAlike.cacheOf]
  | same e name invalidated =>
    obtain ⟨hresult, hafter⟩ := h.sameEdition e name invalidated
    exact ⟨congrArg Reply.flag hresult, hafter⟩
  | configuration e =>
    refine ⟨?_, h.toAlike⟩
    simp only [Step.run, h.toAlike.cacheOf, h.engine_eq]
  | summary e =>
    refine ⟨?_, h.toAlike⟩
    simp only [Step.run, h.toAlike.cacheOf, h.engine_eq]
  | settings e =>
    refine ⟨?_, h.toAlike⟩
    simp only [Step.run, h.engine_eq]
  | insertTable r t =>
    refine ⟨?_, h.toAlike.insert r t⟩
    simp only [Step.run]
    rw [map_eq_of_rel ((h.toAlike.repository r).tables t.name) fun _ _ ht => by rw [ht.entries]]
  | removeTable r name =>
    refine ⟨?_, h.toAlike.remove r name⟩
    simp only [Step.run]
    rw [map_eq_of_rel ((h.toAlike.repository r).tables name) fun _ _ ht => by rw [ht.entries]]
  | tableNames r =>
    exact ⟨congrArg Reply.names (h.toAlike.repository r).names, h.toAlike⟩
  | takeJournal r =>
    refine ⟨?_, h.repositories, h.toAlike.engine, h.caches, ?_, h.serial⟩
    · simp only [Step.run, h.journal]
    · simp only [Step.run, h.journal]

/-- All replies of a session are the same in twins. -/
theorem runAll (h : Twins w w') (steps : List Step) : (Step.runAll steps w).1 = (Step.runAll steps w').1 := by
  induction steps generalizing w w' with
  | nil => rfl
  | cons step steps ih =>
    obtain ⟨hreply, hafter⟩ := h.run step
    have hengines : (step.run w).2.engines = (step.run w').2.engines := by
      rw [step.engines_run, step.engines_run, h.engines]
    exact congrArg₂ List.cons hreply (ih ⟨hafter, hengines⟩)

end Twins

end DecisionTables.Workspace
