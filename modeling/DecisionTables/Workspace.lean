import DecisionTables.Engine
import DecisionTables.Repository

/-!
# Workspaces

A workspace holds repositories, engines and their caches, and a journal of what the repositories were asked
for and did. Engines may share a cache, and repositories may belong to several engines, so all of them are
given by number.
-/

namespace DecisionTables

open Std (TreeMap)

/-- What came of an action. -/
inductive Outcome where
  | flag (b : Bool)
  | done
  | prepared (result : Except TableError String)

/-- What a repository was asked for, or did. Repositories are given by their number. -/
inductive Event where
  | loaded (repository : Nat) (name : String)
  | searched (repository : Nat) (name : String) (query : List (Option String))
  | acted (repository : Nat) (action : Action) (outcome : Outcome)

/-- The number of the repository of an event. -/
def Event.repository : Event → Nat
  | .loaded r _ => r
  | .searched r _ _ => r
  | .acted r _ _ => r

/-- A repository was asked to load a table. -/
def Event.isLoad : Event → Bool
  | .loaded _ _ => true
  | _ => false

/-- Repositories, engines, caches, and the journal in the order of events. -/
structure Workspace where
  repositories : List Repository := []
  engines : List Engine := []
  caches : TreeMap Nat Cache := ∅
  journal : List Event := []
  /-- The serial number of the next edition. -/
  serial : Nat := 0

namespace Workspace

/-- A workspace of repositories and engines. Each engine has a cache of its own, except for those that share
one. -/
def assemble (repositories : List Repository) (engines : List (Engine × Bool)) : Workspace where
  repositories
  engines := engines.mapIdx fun place e => { e.1 with cache := if e.2 then 0 else place + 1 }

/-- The repository of a number, an empty one where there is none. -/
def repository (w : Workspace) (r : Nat) : Repository :=
  w.repositories.getD r {}

/-- The engine of a number, one without repositories where there is none. -/
def engine (w : Workspace) (e : Nat) : Engine :=
  w.engines.getD e {}

/-- The cache of a number, which is empty at first. -/
def cache (w : Workspace) (c : Nat) : Cache :=
  w.caches.getD c {}

/-- The cache of an engine. -/
def cacheOf (w : Workspace) (e : Nat) : Cache :=
  w.cache (w.engine e).cache

/-- The workspace with one repository changed. -/
def modifyRepository (w : Workspace) (r : Nat) (f : Repository → Repository) : Workspace :=
  { w with repositories := w.repositories.modify r f }

/-- The workspace with the cache of an engine changed. -/
def modifyCacheOf (w : Workspace) (e : Nat) (f : Cache → Cache) : Workspace :=
  { w with caches := w.caches.insert (w.engine e).cache (f (w.cacheOf e)) }

/-- The workspace with an event at the end of its journal. -/
def record (w : Workspace) (event : Event) : Workspace :=
  { w with journal := w.journal ++ [event] }

/-- Drops the edition of a name from the cache of an engine. -/
def invalidate (w : Workspace) (e : Nat) (name : String) : Workspace :=
  w.modifyCacheOf e (·.invalidate name)

/-- Drops all editions from the cache of an engine. -/
def clear (w : Workspace) (e : Nat) : Workspace :=
  w.modifyCacheOf e Cache.clear

end Workspace

end DecisionTables
