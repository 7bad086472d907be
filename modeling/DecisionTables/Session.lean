import DecisionTables.Workspace.Answering

/-!
# Sessions

A session is a sequence of steps in a workspace, each with a reply. A step queries an engine, looks at or
changes its cache, or changes a repository or reads its part of the journal.
-/

namespace DecisionTables

/-- One step of a session. Engines and repositories are given by their numbers. -/
inductive Step where
  | get (engine : Nat) (name : String) (values : List Value)
  | getDetailed (engine : Nat) (name : String) (values : List Value)
  | getInContext (engine : Nat) (name : String) (context : Context)
  | call (engine : Nat) (function : String) (arguments : List Value)
  | callFound (engine : Nat) (name : String) (values arguments : List Value)
  | prepare (engine : Nat) (name : String)
  | prepareTimes (engine : Nat) (name : String) (count : Nat)
  | invalidate (engine : Nat) (name : String)
  | clear (engine : Nat)
  | cached (engine : Nat)
  | cachedEdition (engine : Nat) (name : String)
  | put (engine : Nat) (name source : String)
  /-- Takes the edition from the cache, or fails as given. -/
  | tryCached (engine : Nat) (name : String) (fault : TableError)
  | same (engine : Nat) (name : String) (invalidated : Bool)
  | configuration (engine : Nat)
  | summary (engine : Nat)
  | settings (engine : Nat)
  | insertTable (repository : Nat) (table : Table)
  | removeTable (repository : Nat) (name : String)
  | tableNames (repository : Nat)
  | takeJournal (repository : Nat)

/-- What came of several preparations of one name. -/
structure Tally where
  succeeded : Nat
  loads : Nat
  /-- All editions are the same. -/
  same : Bool
  deriving DecidableEq, Repr

/-- The reply to a step. -/
inductive Reply where
  | answer (result : Except TableError Answer)
  | detailed (result : Except TableError DetailedAnswer)
  | value (result : Except TableError Value)
  | edition (result : Except TableError Edition)
  | cached (edition : Option Edition)
  | tally (t : Tally)
  | flag (result : Except TableError Bool)
  | done (result : Except TableError Unit)
  | names (names : List String)
  | cachedNames (names : List String)
  | configuration (c : Configuration)
  | line (text : String)
  | entryCount (n : Option Nat)
  | journal (events : List Event)

namespace Step

/-- The tally of results, with the loads among some events. -/
def tally (results : List (Except TableError Edition)) (events : List Event) : Tally :=
  let serials := results.filterMap fun result => result.toOption.map Edition.serial
  { succeeded := serials.length
    loads := events.countP Event.isLoad
    same := serials.all fun serial => serials.head? == some serial }

/-- Takes one step. -/
def run (step : Step) (w : Workspace) : Reply × Workspace :=
  match step with
  | .get e name values => let (result, w) := w.get e name values; (.answer result, w)
  | .getDetailed e name values => let (result, w) := w.getDetailed e name values; (.detailed result, w)
  | .getInContext e name context => let (result, w) := w.getInContext e name context; (.answer result, w)
  | .call e function arguments => (.value (w.call e function arguments), w)
  | .callFound e name values arguments => let (result, w) := w.callFound e name values arguments; (.value result, w)
  | .prepare e name => let (result, w) := w.prepared e name; (.edition result, w)
  | .prepareTimes e name count =>
    let (results, w) := { w with journal := [] }.prepareTimes e name count
    (.tally (tally results w.journal), { w with journal := [] })
  | .invalidate e name => (.flag (.ok ((w.cacheOf e).get? name).isSome), w.invalidate e name)
  | .clear e => (.done (.ok ()), w.clear e)
  | .cached e => (.cachedNames (w.cacheOf e).names, w)
  | .cachedEdition e name => (.cached ((w.cacheOf e).get? name), w)
  | .put e name source => let (result, w) := w.put e name source; (.done result, w)
  | .tryCached e name fault => (.edition (w.cachedOr e name fault), w)
  | .same e name invalidated => let (result, w) := w.sameEdition e name invalidated; (.flag result, w)
  | .configuration e => (.configuration ((w.engine e).configuration (w.cacheOf e)), w)
  | .summary e => (.line ((w.engine e).summary (w.cacheOf e)), w)
  | .settings e => (.line (w.engine e).settings, w)
  | .insertTable r t =>
    (.entryCount (((w.repository r).tables.get? t.name).map (·.entries.length)), w.modifyRepository r (·.insert t))
  | .removeTable r name =>
    (.entryCount (((w.repository r).tables.get? name).map (·.entries.length)), w.modifyRepository r (·.remove name))
  | .tableNames r => (.names (w.repository r).names, w)
  | .takeJournal r =>
    (.journal (w.journal.filter (·.repository == r)),
      { w with journal := w.journal.filter (·.repository != r) })

/-- Takes steps in order. -/
def runAll : List Step → Workspace → List Reply × Workspace
  | [], w => ([], w)
  | step :: steps, w =>
    let (reply, w) := step.run w
    let (replies, w) := runAll steps w
    (reply :: replies, w)

end Step

end DecisionTables
