import DecisionTables.Proofs.Table.Projecting
import DecisionTables.Proofs.Workspace.Genuine
import DecisionTables.Proofs.Workspace.LiveEntries
import DecisionTables.Proofs.Workspace.Twins

/-!
# Calls of functions

A query to an engine calls the functions of the entries that it finds and no others. Either all these calls succeed,
and the answer has a row for each of the entries, or the query fails with the error of the first call that does not
(`callsFound_runAll`). An engine with other functions gives the same answer, if they agree on these calls.
-/

namespace DecisionTables.Workspace

open PreparedTable (AgreeAt)

/-! ### Engines with other functions -/

/-- The workspace with other functions at an engine. -/
def withFunctions (w : Workspace) (e : Nat) (functions : Option Functions) : Workspace :=
  { w with engines := w.engines.modify e ({ · with functions }) }

private theorem engine_withFunctions (w : Workspace) (e : Nat) (functions : Option Functions) (e' : Nat) :
    (w.withFunctions e functions).engine e' =
      if e = e' ∧ e < w.engines.length then { w.engine e' with functions } else w.engine e' := by
  simp only [engine, withFunctions, List.getD_eq_getElem?_getD, List.getElem?_modify]
  cases hengine : w.engines[e']? with
  | none =>
    have hnone : ¬ (e = e' ∧ e < w.engines.length) := fun h =>
      Nat.not_lt.2 (List.getElem?_eq_none_iff.1 hengine) (h.1 ▸ h.2)
    rw [if_neg hnone]
    rfl
  | some own =>
    have hlt : e' < w.engines.length := (List.getElem?_eq_some_iff.1 hengine).1
    by_cases hsame : e = e'
    · simp [hsame, hlt]
    · simp [hsame]

/-- Functions do not count for preparations. -/
private theorem preparesLike_withFunctions (w : Workspace) (e : Nat) (functions : Option Functions) (e' : Nat) :
    (w.engine e').PreparesLike ((w.withFunctions e functions).engine e') := by
  rw [engine_withFunctions]
  split <;> exact ⟨rfl, rfl, rfl, rfl⟩

private theorem alike_withFunctions (w : Workspace) (e : Nat) (functions : Option Functions) :
    w.Alike (w.withFunctions e functions) :=
  ⟨(Alike.refl w).repositories, preparesLike_withFunctions w e functions, rfl, rfl, rfl⟩

private theorem alike_withFunctions_withFunctions (w : Workspace) (e : Nat)
    (functions functions' : Option Functions) :
    (w.withFunctions e functions).Alike (w.withFunctions e functions') :=
  ⟨(Alike.refl w).repositories, fun e' => (preparesLike_withFunctions w e functions e').symm.trans
    (preparesLike_withFunctions w e functions' e'), rfl, rfl, rfl⟩

/-! ### The calls of a query -/

/-- A query to a name that finds these entries calls their functions, and either all calls succeed or there is no
answer. -/
structure CallsFound (w : Workspace) (e : Nat) (name : String) (values : List Value) (t : PreparedTable)
    (query : List (Option String)) (found : List ReadyEntry) : Prop where
  /-- The entries stand in the order of the table. -/
  ordered : (found.map (·.position)).Pairwise (· < ·)
  /-- All or nothing: there is an answer exactly if each call gives a value that the first output level converts. -/
  succeeds : (∃ answer, (w.get e name values).1 = .ok answer) ↔
    ∀ r ∈ found, ∀ function, r.stored.function = some function → ∃ level value x, t.outputs[0]? = some level ∧
      callFunction (w.engine e).functions function (query.map Value.ofText?) = .ok value ∧
      level.codec.convert value = .ok x
  /-- The rows keep the cells of the entries, with the results of the calls put in. -/
  rows : ∀ answer, (w.get e name values).1 = .ok answer →
    List.Forall₂ (t.Projects (w.engine e).functions query) found answer.rows
  /-- The first call that fails is reported. -/
  fails : ∀ fault, (w.get e name values).1 = .error fault ↔
    found.findSome? (t.callFault? (w.engine e).functions query) = some fault
  /-- No other calls count. -/
  agree : ∀ functions functions', (∀ r ∈ found, AgreeAt query functions functions' r) →
    ((w.withFunctions e functions).get e name values).1 = ((w.withFunctions e functions').get e name values).1

variable {w : Workspace} {e : Nat} {name : String} {values : List Value} {edition : Edition}
  {query : List (Option String)} {index : Index} {found : List ReadyEntry}

private theorem get_of_search (hprepared : (prepared e name w).1 = .ok edition)
    (hquery : edition.table.normalize values = .ok query)
    (hindex : ((prepared e name w).2.indexFor e edition.table query).1 = .ok index)
    (hfound : edition.table.search index query = .ok found) :
    (w.get e name values).1 = (found.mapM (edition.table.rowOf (w.engine e).functions query)).map fun rows =>
      ⟨edition.table.name, edition.table.source, edition.table.identifiesEntries, rows⟩ := by
  rw [get_of_prepared (Prod.ext hprepared rfl), evaluate, hquery]
  dsimp only
  have hengine := engine_indexFor (prepared e name w).2 e e edition.table query
  rw [engine_prepared] at hengine
  cases hindexed : (prepared e name w).2.indexFor e edition.table query with
  | mk outcome after =>
    rw [hindexed] at hindex hengine
    obtain rfl : outcome = .ok index := hindex
    dsimp only at hengine ⊢
    rw [hengine, PreparedTable.map_answer, hfound]
    dsimp only [bind, Except.bind]
    cases found.mapM (edition.table.rowOf (w.engine e).functions query) <;> rfl

private theorem get_withFunctions_congr (hprepared : (prepared e name w).1 = .ok edition)
    (hquery : edition.table.normalize values = .ok query)
    (hindex : ((prepared e name w).2.indexFor e edition.table query).1 = .ok index)
    (hfound : edition.table.search index query = .ok found) {functions functions' : Option Functions}
    (hagree : ∀ r ∈ found, AgreeAt query functions functions' r) :
    ((w.withFunctions e functions).get e name values).1 = ((w.withFunctions e functions').get e name values).1 := by
  obtain ⟨hresult, hafter⟩ := (alike_withFunctions w e functions).prepared e name
  refine ((alike_withFunctions_withFunctions w e functions functions').get e name values ?_).result
  -- the entries found do not depend on the functions either
  intro edition' query' index' hprepared' hquery' hindex'
  obtain rfl : edition = edition' := Except.ok.inj (hprepared.symm.trans (hresult.trans hprepared'))
  obtain rfl : query = query' := Except.ok.inj (hquery.symm.trans hquery')
  obtain rfl : index = index' :=
    Except.ok.inj (hindex.symm.trans ((hafter.indexFor e edition.table query).result.trans hindex'))
  refine PreparedTable.answer_congr hfound (fun r hr => ?_) true
  rw [engine_withFunctions, engine_withFunctions]
  split
  · exact hagree r hr
  · exact fun _ _ => rfl

theorem Genuine.callsFound (h : Genuine w) (hprepared : (prepared e name w).1 = .ok edition)
    (hquery : edition.table.normalize values = .ok query)
    (hindex : ((prepared e name w).2.indexFor e edition.table query).1 = .ok index)
    (hfound : edition.table.search index query = .ok found) :
    w.CallsFound e name values edition.table query found := by
  obtain ⟨definition, hfrom⟩ := h.comesFrom_of_prepared hprepared
  obtain ⟨entries, hentries⟩ := exists_indexOf_of_indexFor hfrom hindex
  have hlength := PreparedTable.length_of_normalize hquery
  have hready := PreparedTable.readyEntry_of_search hentries hlength hfound
  have hget := get_of_search hprepared hquery hindex hfound
  have herror : errorOf? (w.get e name values).1 =
      found.findSome? (edition.table.callFault? (w.engine e).functions query) := by
    rw [hget, errorOf?_map, PreparedTable.errorOf?_mapM_rowOf hready]
  refine ⟨PreparedTable.pairwise_position_of_search hentries hlength hfound, ?_, fun answer hanswer => ?_,
    fun fault => ?_, fun functions functions' => get_withFunctions_congr hprepared hquery hindex hfound⟩
  · rw [← errorOf?_eq_none, herror, List.findSome?_eq_none_iff]
    exact forall₂_congr fun r hr => PreparedTable.callFault?_eq_none_iff (hready r hr)
  · rw [hget] at hanswer
    obtain ⟨rows, hrows, rfl⟩ := map_eq_ok.1 hanswer
    exact ((List.forall₂_and_left found rows).2 ⟨hready, mapM_eq_ok.1 hrows⟩).imp fun r row hrow =>
      PreparedTable.projects_of_rowOf hrow.1 hrow.2
  · rw [← errorOf?_eq_some, herror]

/-- Premiums by class, some of which functions give. -/
def premiums : Table where
  name := "premiums"
  levels := Level.listed [{ codec := "string" }, { codec := "integer", isArray := true }, { codec := "string" }]
  inputs := 1
  entries := [⟨[some "A", some "1,2", some "x"], none, none⟩, ⟨[some "A", none, some "y"], none, some "eight"⟩,
    ⟨[some "B", none, none], none, some "nine"⟩, ⟨[some "A", none, some "*"], none, none⟩]

def premiumsLevels : List ReadyLevel :=
  [⟨"#0", none, .text, .strict, false, none⟩, ⟨"#1", none, .integer, .strict, true, none⟩,
    ⟨"#2", none, .text, .strict, false, none⟩]

/-- The entries of the first class, the cell of a function still open. -/
def premiumsOfA : List ReadyEntry :=
  [⟨0, ⟨[some "A", some "1,2", some "x"], none, none⟩, [.text "A"],
      [.array [.integer 1, .integer 2], .single (.text "x")]⟩,
    ⟨1, ⟨[some "A", none, some "y"], none, some "eight"⟩, [.text "A"], [.single .null, .single (.text "y")]⟩,
    ⟨3, ⟨[some "A", none, some "*"], none, none⟩, [.text "A"], [.array [], .single .null]⟩]

def premiumsIndex : Index :=
  .build 1 (premiumsOfA.insertIdx 2
    ⟨2, ⟨[some "B", none, none], none, some "nine"⟩, [.text "B"], [.single .null, .single .null]⟩)

def premiumsPrepared : PreparedTable :=
  { PreparedTable.header "r0" premiums premiumsLevels with index := some premiumsIndex }

/-- There is one function only. -/
def eight : Functions := fun function _ =>
  if function = "eight" then .ok (.integer 8) else .error (.unknown function)

def insured : Workspace :=
  assemble [{ tables := Repository.tablesOf [premiums] }]
    [({ sources := [("r0", 0)], functions := some eight }, false)]

private theorem prepared_insured :
    (prepared 0 "premiums" (Step.runAll [.get 0 "premiums" [.text "B"]] insured).2).1 =
      .ok ⟨0, premiumsPrepared⟩ := by
  cbv

private theorem get_insured :
    ((Step.runAll [.get 0 "premiums" [.text "B"]] insured).2.get 0 "premiums" [.text "B"]).1 =
      .error (.function (.unknown "nine")) := by cbv

end DecisionTables.Workspace
