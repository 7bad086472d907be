import DecisionTables.Workspace

/-!
# Preparing tables

To load a table an engine asks its repositories in order until one provides it. A load may set off actions of
the repository, which come before the table is looked up; they may invalidate editions, change the repository,
or prepare other tables and so load those in turn. An edition is published only if its name has not been
invalidated since its preparation began. Since each load takes a list of actions away, so many levels of
preparations inside one another suffice as there are lists left (`prepared`).
-/

namespace DecisionTables.Workspace

/-- How an engine prepares a name. -/
abbrev Preparation := Nat → String → Workspace → Except TableError Edition × Workspace

/-- Carries out an action of a repository. -/
def perform (prepare : Preparation) (r : Nat) (action : Action) (w : Workspace) : Outcome × Workspace :=
  match action with
  | .invalidate e name => (.flag ((w.cacheOf e).get? name).isSome, w.invalidate e name)
  | .clear e => (.done, w.clear e)
  | .insert t => (.flag (((w.repository r).tables.get? t.name).isSome), w.modifyRepository r (·.insert t))
  | .remove name => (.flag (((w.repository r).tables.get? name).isSome), w.modifyRepository r (·.remove name))
  | .prepare e name =>
    let (result, w) := prepare e name w
    (.prepared (result.map (·.table.name)), w)

/-- Carries out actions of a repository in order, with an event after each. -/
def performAll (prepare : Preparation) (r : Nat) : List Action → Workspace → Workspace
  | [], w => w
  | action :: actions, w =>
    let (outcome, w) := perform prepare r action w
    performAll prepare r actions (w.record (.acted r action outcome))

/-- Asks a repository for a table. The actions that this sets off come before the table is looked up. -/
def loadFrom (prepare : Preparation) (r : Nat) (name : String) (w : Workspace) : Option Table × Workspace :=
  let actions := (w.repository r).nextActions name
  let w := (w.record (.loaded r name)).modifyRepository r (·.afterLoad name)
  let w := performAll prepare r actions w
  ((w.repository r).table? name, w)

/-- Asks repositories in order for a table, up to the first that provides it. -/
def load (prepare : Preparation) (name : String) :
    List (String × Nat) → Workspace → Option (String × Table) × Workspace
  | [], w => (none, w)
  | (source, r) :: sources, w =>
    match loadFrom prepare r name w with
    | (some table, w) => (some (source, table), w)
    | (none, w) => load prepare name sources w

/-- Loads a table and prepares it. -/
def build (prepare : Preparation) (e : Nat) (name : String) (w : Workspace) :
    Except TableError PreparedTable × Workspace :=
  let engine := w.engine e
  match load prepare name engine.sources w with
  | (none, w) => (.error (.unknownTable name), w)
  | (some (source, table), w) => (PreparedTable.prepare engine.codecs engine.matchers source table, w)

/-- The edition of a name in the cache of an engine, or else a new one. A new edition is published unless its
name was invalidated in the meantime; where preparation fails nothing is. -/
def prepareWith (prepare : Preparation) : Preparation := fun e name w =>
  match (w.cacheOf e).get? name with
  | some edition => (.ok edition, w)
  | none =>
    let w := w.modifyCacheOf e (·.acquire name)
    let stamp := (w.cacheOf e).stamp name
    match build prepare e name w with
    | (.error fault, w) => (.error fault, w.modifyCacheOf e (·.release name))
    | (.ok table, w) =>
      let edition : Edition := ⟨w.serial, table⟩
      (.ok edition,
        { w with serial := w.serial + 1 }.modifyCacheOf e fun c => (c.publish name stamp edition).release name)

/-- Preparation with so many levels of preparations inside one another. -/
def prepareWithin : Nat → Preparation
  | 0 => prepareWith fun _ name w => (.error (.unknownTable name), w)
  | depth + 1 => prepareWith (prepareWithin depth)

/-- The number of loads that still set off actions. -/
def pending (w : Workspace) : Nat :=
  w.repositories.foldr (fun r n => r.pending + n) 0

/-- The edition of a name, prepared by an engine unless its cache has one. -/
def prepared : Preparation := fun e name w =>
  prepareWithin w.pending e name w

end DecisionTables.Workspace
