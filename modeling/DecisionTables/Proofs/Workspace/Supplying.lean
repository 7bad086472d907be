import DecisionTables.Proofs.Workspace.InForce
import DecisionTables.Proofs.Workspace.Invariants

/-!
# Where the entries of a table are fetched

An engine keeps the name of the source that supplied the definition of a table, and fetches entries from the first
source of that name. Whatever came before, the tables in a cache of its own come from its own sources (`Provided`),
so a query to a table that does not keep its entries searches the repository that supplied the definition, and no
other, provided that no source in front of it bears its name (`searchesOnly_of_supplied`). A source in front that
does bear its name is searched instead (`searches_of_repeated_names`).
-/

namespace DecisionTables

/-- The search of a repository for the values of a query, where the table accepts them. -/
def PreparedTable.searchesAt (t : PreparedTable) (r : Nat) (values : List Value) : List Event :=
  match t.normalize values with
  | .ok query => [.searched r t.name query]
  | .error _ => []

namespace Workspace

/-- The searches in the journal. -/
def searches (w : Workspace) : List Event :=
  w.journal.filter Event.isSearch

/-- Among the requests made, an engine prepared an edition for one of them, and its source at a place was the first to
provide the table when it was loaded for that request. -/
def Supplied (made : Request → Prop) (e place : Nat) (edition : Edition) : Prop :=
  ∃ q, made q ∧ q.engine = e ∧ q.outcome = .ok edition ∧ q.supplier? = some place

/-- Each call on a name searches one repository for the values of its query, and no other. -/
structure SearchesOnly (w : Workspace) (e : Nat) (name : String) (t : PreparedTable) (r : Nat) : Prop where
  getDetailed : ∀ values, (w.getDetailed e name values).2.searches = w.searches ++ t.searchesAt r values
  get : ∀ values, (w.get e name values).2.searches = w.searches ++ t.searchesAt r values
  getInContext : ∀ context, (w.getInContext e name context).2.searches = w.searches ++
    (((t.valuesIn ((w.engine e).creators.get? ·) context).toOption.map (t.searchesAt r)).getD [])
  callFound : ∀ values arguments,
    (w.callFound e name values arguments).2.searches = w.searches ++ t.searchesAt r values

variable {w : Workspace} {e place : Nat} {name : String} {engines : List Engine} {t : PreparedTable}
  {made : Request → Prop}

private theorem searches_record_of_isSearch {event : Event} (h : event.isSearch = true) :
    (w.record event).searches = w.searches ++ [event] := by
  simp [searches, Workspace.record, h]

/-- Preparations load tables but search for no entries. -/
private theorem searches_prepared (e : Nat) (name : String) (w : Workspace) :
    (prepared e name w).2.searches = w.searches := by
  have hinvariant : Invariant (fun _ => True) fun w' => w'.searches = w.searches :=
    { record := fun w' event hevent hw' => by
        rw [← hw']
        simp [searches, Workspace.record, hevent]
      modifyRepository := fun _ _ _ hw' => hw'
      modifyCacheOf := fun _ _ _ _ hw' => hw'
      setOff := fun _ _ _ _ => trivial
      publish := fun _ _ _ _ _ _ _ hbuilt => hbuilt }
  exact hinvariant.prepared trivial rfl

/-! ### Where a table comes from -/

/-- The cache of an engine is its own, and the editions in it were supplied by the sources of the engine. -/
structure Provided (made : Request → Prop) (engines : List Engine) (e : Nat) (w : Workspace) : Prop where
  engines_eq : w.engines = engines
  own : ∀ e', w.cacheNumber e' = w.cacheNumber e → e' = e ∨ (w.engine e').sources = []
  supplied : ∀ name edition, (w.cacheOf e).get? name = some edition → ∃ place, Supplied made e place edition

namespace Provided

/-- What comes of a request to an engine with this cache was supplied by a source of the engine itself. -/
private theorem supplied_of_miss {q : Request} {edition : Edition} (h : Provided made engines e w) (hq : made q)
    (hengines : q.before.engines = engines) (hcache : w.cacheNumber q.engine = w.cacheNumber e)
    (hmiss : q.cached? = none) (hok : q.outcome = .ok edition) : ∃ place, Supplied made e place edition := by
  obtain ⟨place, hplace⟩ := Request.exists_supplier? hmiss hok
  rcases h.own q.engine hcache with he | hnone
  · exact ⟨place, q, hq, he, hok, hplace⟩
  · -- another engine with this cache has no sources, so it prepares nothing
    obtain ⟨r, hr⟩ := Request.source_of_supplier? hok hplace
    rw [engine, h.engines_eq, ← hengines] at hnone
    rw [Request.sources, engine, hnone] at hr
    cases hr

theorem modifyCacheOf {e' : Nat} {f : Cache → Cache} (h : Provided made engines e w)
    (hf : w.cacheNumber e' = w.cacheNumber e → ∀ name edition, (f (w.cacheOf e)).get? name = some edition →
      ∃ place, Supplied made e place edition) : Provided made engines e (w.modifyCacheOf e' f) where
  engines_eq := h.engines_eq
  own := h.own
  supplied name edition hedition := by
    change ((w.modifyCacheOf e' f).cache (w.cacheNumber e)).get? name = some edition at hedition
    rw [cache_modifyCacheOf] at hedition
    split at hedition
    next hshared => exact hf hshared name edition hedition
    next => exact h.supplied name edition hedition

/-- What comes of a request to an engine with this cache was supplied, be it for this request or for an earlier
one. -/
private theorem supplied_of_outcome {q : Request} {edition : Edition} (h : Provided made engines e q.before)
    (hq : made q)
    (hcache : q.before.cacheNumber q.engine = q.before.cacheNumber e) (hok : q.outcome = .ok edition) :
    ∃ place, Supplied made e place edition := by
  cases hcached : q.cached? with
  | none => exact h.supplied_of_miss hq h.engines_eq hcache hcached hok
  | some held =>
    obtain rfl := Except.ok.inj (hok.symm.trans (Request.outcome_of_cached? hcached))
    have hsame : q.before.cacheOf q.engine = q.before.cacheOf e := congrArg q.before.cache hcache
    rw [Request.cached?, hsame] at hcached
    exact h.supplied q.name edition hcached

end Provided

/-- Only editions that were supplied are published. -/
private theorem invariant_provided (hclosed : ∀ q q', made q → q' ∈ q.setOff → made q') (engines : List Engine)
    (e : Nat) : Invariant made (Provided made engines e) where
  record _ _ _ h := ⟨h.engines_eq, h.own, h.supplied⟩
  modifyRepository _ _ _ h := ⟨h.engines_eq, h.own, h.supplied⟩
  modifyCacheOf _ _ _ hf h :=
    h.modifyCacheOf fun _ n edition hedition => h.supplied n edition (hf _ n edition hedition)
  setOff := hclosed
  publish q t built stamp hq hmiss hbuild h := by
    have hserial : Provided made engines e { built with serial := built.serial + 1 } :=
      ⟨h.engines_eq, h.own, h.supplied⟩
    refine hserial.modifyCacheOf fun hshared n edition hedition => ?_
    rw [Cache.get?_release, Cache.get?_publish] at hedition
    split at hedition
    · obtain rfl := Option.some.inj hedition
      obtain ⟨hrun, -⟩ := exists_run_buildHeld hmiss
      rw [hbuild] at hrun
      have hengines : q.before.engines = engines := hrun.engines.symm.trans h.engines_eq
      exact h.supplied_of_miss hq hengines hshared hmiss (Request.outcome_of_buildHeld hmiss hbuild)
    · exact h.supplied n edition hedition

/-! ### Queries -/

private theorem searches_evaluate {r : Nat} (hindex : t.index = none) (hsource : w.source? e t.source = some r)
    (values : List Value) (detailed : Bool) :
    (w.evaluate e t values detailed).2.searches = w.searches ++ t.searchesAt r values := by
  rw [evaluate_snd, PreparedTable.searchesAt]
  cases t.normalize values with
  | error fault => exact (List.append_nil _).symm
  | ok query =>
    dsimp only
    rw [indexFor_snd, hindex, hsource]
    exact searches_record_of_isSearch rfl

private theorem searchesOnly_of_prepared {edition : Edition} {r : Nat} (h : (prepared e name w).1 = .ok edition)
    (hindex : edition.table.index = none) (hsource : w.source? e edition.table.source = some r) :
    w.SearchesOnly e name edition.table r := by
  obtain ⟨after, hcall⟩ : ∃ after, prepared e name w = (.ok edition, after) := ⟨_, Prod.ext h rfl⟩
  have hsearches := searches_prepared e name w
  have hengine : (prepared e name w).2.engine e = w.engine e := engine_prepared e e name w
  rw [hcall] at hsearches hengine
  have hafter : after.source? e edition.table.source = some r := by rw [source?, hengine]; exact hsource
  have hdetailed : ∀ values, (w.getDetailed e name values).2.searches =
      w.searches ++ edition.table.searchesAt r values := by
    intro values
    rw [getDetailed, hcall, ← hsearches]
    exact searches_evaluate hindex hafter values true
  have hget : ∀ values, (w.get e name values).2.searches = w.searches ++ edition.table.searchesAt r values := by
    intro values
    rw [get_eq]
    exact hdetailed values
  refine ⟨hdetailed, hget, fun context => ?_, fun values _ => hget values⟩
  rw [getInContext, hcall, ← hsearches, ← hengine]
  dsimp only
  cases edition.table.valuesIn ((after.engine e).creators.get? ·) context with
  | error fault => exact (List.append_nil _).symm
  | ok values => exact searches_evaluate hindex hafter values false

/-! ### Sessions -/

private theorem sessionInvariant_provided (hclosed : ∀ q q', made q → q' ∈ q.setOff → made q') (engines : List Engine)
    (e : Nat) : SessionInvariant made (Provided made engines e) where
  toInvariant := invariant_provided hclosed engines e
  journal _ _ h := ⟨h.engines_eq, h.own, h.supplied⟩
  put q name edition after hq h hcall hafter := by
    obtain ⟨events, hrun⟩ := sound_prepared q.engine q.name q.before
    rw [hcall] at hrun
    refine hafter.modifyCacheOf fun hshared n edition' hedition => ?_
    rw [Cache.get?_put] at hedition
    split at hedition
    · obtain rfl := Option.some.inj hedition
      rw [cacheNumber_eq hrun.engines] at hshared
      exact h.supplied_of_outcome hq hshared (congrArg Prod.fst hcall)
    · exact hafter.supplied n edition' hedition

private theorem provided_of_new (hown : ∀ e' < w.engines.length, w.cacheNumber e' = w.cacheNumber e → e' = e)
    (hnew : w.cacheOf e = {}) : Provided made w.engines e w where
  engines_eq := rfl
  own e' he' := by
    by_cases hlt : e' < w.engines.length
    · exact .inl (hown e' hlt he')
    · refine .inr ?_
      rw [engine, List.getD_eq_getElem?_getD, List.getElem?_eq_none (Nat.le_of_not_lt hlt)]
      rfl
  supplied name edition hedition := by
    rw [hnew] at hedition
    simp [Cache.get?] at hedition

/-- The table of an edition that was supplied bears the name of the source at this place, and keeps its entries
only if it is cacheable. -/
theorem Supplied.header {steps : List Step} {start : Workspace} {edition : Edition}
    (h : Supplied (Made steps start) e place edition) :
    ∃ r, (start.engine e).sources[place]? = some (edition.table.source, r) ∧
      (edition.table.cacheable = false → edition.table.index = none) := by
  obtain ⟨q, hq, rfl, hok, hplace⟩ := h
  obtain ⟨r, hr⟩ := Request.source_of_supplier? hok hplace
  obtain ⟨_, _, _, -, hprepare⟩ := Request.exists_loads_of_outcome (Request.cached?_of_supplier? hplace) hok
  refine ⟨r, ?_, PreparedTable.index_of_prepare hprepare⟩
  rw [engine, ← hq.engines_eq]
  exact hr

/-- The repository at a place is found by its name unless a source in front bears this name. -/
private theorem source?_of_getElem? {source : String} {r : Nat}
    (hplace : (w.engine e).sources[place]? = some (source, r))
    (hfront : ∀ s ∈ (w.engine e).sources.take place, s.1 ≠ source) : w.source? e source = some r := by
  obtain ⟨hlt, hget⟩ := List.getElem?_eq_some_iff.1 hplace
  rw [source?, List.lookup_eq_some_iff]
  refine ⟨(w.engine e).sources.take place, (w.engine e).sources.drop (place + 1), ?_, fun s hs => ?_⟩
  · rw [← hget, ← List.drop_eq_getElem_cons hlt, List.take_append_drop]
  · simpa using (hfront s hs).symm

/-- Some repository is found by the name of the source at a place. -/
private theorem exists_source? {source : String} {r : Nat}
    (hplace : (w.engine e).sources[place]? = some (source, r)) : ∃ r', w.source? e source = some r' := by
  rw [← Option.isSome_iff_exists, ← Option.ne_none_iff_isSome]
  intro hnone
  have hne := List.lookup_eq_none_iff.1 hnone _ (List.mem_of_getElem? hplace)
  simp at hne

/-- After any session in which an engine has a cache of its own, what a query is answered from was supplied by
one of the sources of the engine, when the table was loaded for a request of this session. Unless the table
keeps its entries, each call searches one repository and no other: the first one under the name of the source
that supplied the table. It is that source itself, if no source in front of it bears its name. -/
theorem searchesOnly_of_supplied {start : Workspace}
    (hown : ∀ e' < start.engines.length, start.cacheNumber e' = start.cacheNumber e → e' = e)
    (hnew : start.cacheOf e = {}) (steps : List Step) {edition : Edition} :
    let now := (Step.runAll steps start).2
    let made := Made (steps ++ [.prepare e name]) start
    (prepared e name now).1 = .ok edition → edition.table.cacheable = false →
      (∃ place, Supplied made e place edition) ∧
      ∀ place, Supplied made e place edition →
        ∃ source r, (now.engine e).sources[place]? = some (source, r) ∧
          (∃ r', now.source? e source = some r' ∧ now.SearchesOnly e name edition.table r') ∧
          ((∀ s ∈ (now.engine e).sources.take place, s.1 ≠ source) → now.SearchesOnly e name edition.table r) := by
  intro now made hprepared hcacheable
  have hprovided : Provided made start.engines e now :=
    (sessionInvariant_provided (fun _ _ => Made.setOff) start.engines e).runAll (fun q hq => hq.append _)
      (provided_of_new hown hnew)
  have hrequest : made ⟨e, name, now⟩ := .step steps rfl (List.mem_singleton.2 rfl)
  refine ⟨hprovided.supplied_of_outcome hrequest rfl hprepared, fun place hsupplied => ?_⟩
  obtain ⟨r, hplace, hindex⟩ := hsupplied.header
  have hengine : now.engine e = start.engine e := by rw [engine, engine, hprovided.engines_eq]
  rw [← hengine] at hplace
  obtain ⟨r', hfirst⟩ := exists_source? hplace
  refine ⟨edition.table.source, r, hplace, ⟨r', hfirst, ?_⟩, fun hfront => ?_⟩
  · exact searchesOnly_of_prepared hprepared (hindex hcacheable) hfirst
  · exact searchesOnly_of_prepared hprepared (hindex hcacheable) (source?_of_getElem? hplace hfront)

/-- The second of two repositories has rates, whose entries are fetched for each query, and units. The load of
the units prepares the rates. -/
def linkedRates : Workspace :=
  assemble
    [{}, { tables := Repository.tablesOf [ratesOf "rates" "integer" "7" false, ratesOf "units" "string" "kg" true]
           triggers := .ofList [("units", [[Action.prepare 0 "rates"]])] }]
    [({ sources := [("r0", 0), ("r1", 1)] }, false)]

/-- The units are read, and then the first repository gets other rates. -/
def overtaking : List Step :=
  [.get 0 "units" [], .insertTable 0 (ratesOf "rates" "string" "9" true)]

def secondRates (source : String) : PreparedTable :=
  ⟨"rates", source, [], [⟨"#0", none, .integer, .strict, false, none⟩], false, false, false, ',', none⟩

/-- The request for the units set off the one for the rates. -/
private theorem supplied_linkedRates :
    Supplied (Made (overtaking ++ [.prepare 0 "rates"]) linkedRates) 0 1 ⟨0, secondRates "r1"⟩ := by
  let units : Request := ⟨0, "units", linkedRates⟩
  have hunits : Made (overtaking ++ [.prepare 0 "rates"]) linkedRates units := .of_head (List.mem_singleton.2 rfl)
  have hsetOff : units.setOff.map (fun q => (q.engine, q.outcome, q.supplier?)) =
      [(0, .ok ⟨0, secondRates "r1"⟩, some 1)] := by cbv
  obtain ⟨q, hq, hrates⟩ := List.mem_map.1 (hsetOff ▸ List.mem_singleton.2 rfl)
  obtain ⟨he, hrates⟩ := Prod.mk.inj hrates
  obtain ⟨hok, hplace⟩ := Prod.mk.inj hrates
  exact ⟨q, hunits.setOff hq, he, hok, hplace⟩

/-- The second repository is still searched for the rates that it supplied. -/
theorem searchesOnly_of_supplied_second :
    (∀ e' < linkedRates.engines.length, linkedRates.cacheNumber e' = linkedRates.cacheNumber 0 → e' = 0) ∧
    linkedRates.cacheOf 0 = {} ∧
    (prepared 0 "rates" (Step.runAll overtaking linkedRates).2).1 = .ok ⟨0, secondRates "r1"⟩ ∧
    (secondRates "r1").cacheable = false ∧
    Supplied (Made (overtaking ++ [.prepare 0 "rates"]) linkedRates) 0 1 ⟨0, secondRates "r1"⟩ ∧
    ((Step.runAll overtaking linkedRates).2.get 0 "rates" []).2.searches = [.searched 1 "rates" []] := by
  have hown : ∀ e' < linkedRates.engines.length, linkedRates.cacheNumber e' = linkedRates.cacheNumber 0 → e' = 0 :=
    fun e' he' _ => Nat.lt_one_iff.1 he'
  have hnew : linkedRates.cacheOf 0 = {} := by cbv
  have hprepared : (prepared 0 "rates" (Step.runAll overtaking linkedRates).2).1 = .ok ⟨0, secondRates "r1"⟩ := by cbv
  have hsources : ((Step.runAll overtaking linkedRates).2.engine 0).sources = [("r0", 0), ("r1", 1)] := by cbv
  obtain ⟨-, hsupplied⟩ := searchesOnly_of_supplied hown hnew overtaking hprepared rfl
  obtain ⟨source, r, hplace, -, honly⟩ := hsupplied 1 supplied_linkedRates
  rw [hsources] at hplace honly
  obtain ⟨rfl, rfl⟩ : source = "r1" ∧ r = 1 := by simpa using hplace.symm
  refine ⟨hown, hnew, hprepared, rfl, supplied_linkedRates, ?_⟩
  rw [(honly (by decide)).get []]
  cbv

/-- Two repositories of one name, of which the second one has the rates. -/
def namesakes : Workspace :=
  assemble [{}, { tables := Repository.tablesOf [ratesOf "rates" "integer" "7" false] }]
    [({ sources := [("r0", 0), ("r0", 1)] }, false)]

/-- The second repository supplies the rates, and no other one does, but the first one bears the same name and is
searched. -/
theorem searches_of_repeated_names :
    let made := Made [.prepare 0 "rates"] namesakes
    namesakes.cacheOf 0 = {} ∧ (prepared 0 "rates" namesakes).1 = .ok ⟨0, secondRates "r0"⟩ ∧
      (secondRates "r0").cacheable = false ∧
      (∀ place, Supplied made 0 place ⟨0, secondRates "r0"⟩ ↔ place = 1) ∧
      (namesakes.engine 0).sources[1]? = some ("r0", 1) ∧
      (namesakes.get 0 "rates" []).2.searches = [.searched 0 "rates" []] ∧
      (namesakes.get 0 "rates" []).1 = .error (.noValueFound "rates" []) ∧
      ¬ namesakes.SearchesOnly 0 "rates" (secondRates "r0") 1 := by
  intro made
  let rates : Request := ⟨0, "rates", namesakes⟩
  have hplace : rates.supplier? = some 1 := by cbv
  have hsetOff : rates.setOff = [] := by cbv
  have honly : ∀ q, made q → q = rates := by
    intro q hq
    induction hq with
    | step done hsteps hq =>
      obtain ⟨rfl, hstep⟩ := List.append_eq_singleton_iff.1 hsteps.symm |>.resolve_right (by simp)
      obtain ⟨rfl, -⟩ := List.cons.inj hstep
      exact List.mem_singleton.1 hq
    | setOff _ hq' ih =>
      rw [ih, hsetOff] at hq'
      cases hq'
  have hprepared : (prepared 0 "rates" namesakes).1 = .ok ⟨0, secondRates "r0"⟩ := by cbv
  have hsearches : (namesakes.get 0 "rates" []).2.searches = [.searched 0 "rates" []] := by cbv
  refine ⟨by cbv, hprepared, rfl, fun place => ⟨?_, ?_⟩, rfl, hsearches, by cbv, fun hsecond => ?_⟩
  · rintro ⟨q, hq, -, -, hsupplier⟩
    rw [honly q hq, hplace] at hsupplier
    exact (Option.some.inj hsupplier).symm
  · rintro rfl
    exact ⟨rates, .of_head (List.mem_singleton.2 rfl), rfl, hprepared, hplace⟩
  · have hlast := hsecond.get []
    rw [hsearches] at hlast
    have hrepository : 0 = 1 := congrArg (fun events : List Event => (events.map Event.repository).headD 0) hlast
    cases hrepository

end Workspace

end DecisionTables
