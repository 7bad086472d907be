import DecisionTables.Proofs.Workspace.Definitions
import DecisionTables.Proofs.Workspace.Detail

/-!
# What an answer is given from

In a static workspace a query is answered from the prepared table and, unless the table keeps its entries, from
the entries that the first repository with the name of its source has at that moment: nothing else of the
workspace takes part (`evaluate_of_isStatic`). So the table and these entries decide the replies of all calls on
a name (`AnsweredFrom`).
-/

namespace DecisionTables

/-- The answer to a query, with the given entries unless the table keeps its own. -/
def PreparedTable.answerFrom (t : PreparedTable) (functions : Option Functions) (fetched : List Entry)
    (values : List Value) : Except TableError DetailedAnswer := do
  let query ← t.normalize values
  let index ← (t.index.map .ok).getD (t.indexOf fetched)
  t.answer functions index query true

namespace Workspace

/-- The entries under a name in the first repository of an engine that bears the name of a source. -/
def entriesUnder (w : Workspace) (e : Nat) (source name : String) : List Entry :=
  (((w.source? e source).bind fun r => (w.repository r).tables.get? name).map Table.entries).getD []

/-- The entries of the definition of a name. -/
def definedEntries (w : Workspace) (e : Nat) (name : String) : List Entry :=
  ((w.definition? e name).map (·.2.entries)).getD []

/-- The replies of all calls on a name, where this is its table, or the fault of its preparation, and these are
the entries that are fetched for a table. -/
structure AnsweredFrom (w : Workspace) (e : Nat) (name : String) (table : Except TableError PreparedTable)
    (fetched : PreparedTable → List Entry) : Prop where
  prepared : (prepared e name w).1.map (·.table) = table
  getDetailed : ∀ values, (w.getDetailed e name values).1 = do
    let t ← table
    t.answerFrom (w.engine e).functions (fetched t) values
  get : ∀ values, (w.get e name values).1 = do
    let t ← table
    (t.answerFrom (w.engine e).functions (fetched t) values).map (·.answer)
  getInContext : ∀ context, (w.getInContext e name context).1 = do
    let t ← table
    let values ← t.valuesIn ((w.engine e).creators.get? ·) context
    (t.answerFrom (w.engine e).functions (fetched t) values).map (·.answer)
  callFound : ∀ values arguments, (w.callFound e name values arguments).1 = do
    let t ← table
    let detailed ← t.answerFrom (w.engine e).functions (fetched t) values
    let function ← functionIn name detailed.answer
    w.call e function arguments

variable {w w' : Workspace} {e : Nat} {name : String}

/-- With distinct names of the sources the entries under the source of a definition are its own. -/
private theorem entriesUnder_of_definition? (hnodup : ((w.engine e).sources.map Prod.fst).Nodup) {source : String}
    {table : Table} (h : w.definition? e name = some (source, table)) :
    w.entriesUnder e source name = table.entries := by
  obtain ⟨s, hs, hfound⟩ := List.exists_of_findSome?_eq_some h
  obtain ⟨table', htable, hpair⟩ := Option.map_eq_some_iff.1 hfound
  obtain ⟨rfl, rfl⟩ := Prod.mk.inj hpair
  -- no source in front of this one has its name
  have hlookup : w.source? e s.1 = some s.2 := by
    obtain ⟨front, back, hsources⟩ := List.append_of_mem hs
    rw [source?, List.lookup_eq_some_iff]
    refine ⟨front, back, hsources, fun p hp => ?_⟩
    rw [hsources, List.map_append, List.nodup_append] at hnodup
    simpa using (hnodup.2.2 p.1 (List.mem_map_of_mem hp) s.1 (by simp)).symm
  simp only [entriesUnder, hlookup, Option.bind_some, htable, Option.map_some, Option.getD_some]

private theorem Unedited.entriesUnder_eq (h : Unedited w w') (source : String) :
    w'.entriesUnder e source name = w.entriesUnder e source name := by
  simp only [entriesUnder, source?, h.engine_eq, h.tables]

private theorem findEntries_of_isStatic (hw : w.IsStatic) (e : Nat) (t : PreparedTable)
    (query : List (Option String)) : (w.findEntries e t query).1 = w.entriesUnder e t.source t.name ∧
      Undisturbed w (w.findEntries e t query).2 := by
  rw [findEntries, entriesUnder]
  cases hsource : w.source? e t.source with
  | none => exact ⟨rfl, .refl hw⟩
  | some r => exact ⟨(hw r).entriesFor_eq t.name query, (Undisturbed.refl hw).record _⟩

private theorem indexFor_of_isStatic (hw : w.IsStatic) (e : Nat) (t : PreparedTable) (query : List (Option String)) :
    (w.indexFor e t query).1 = (t.index.map .ok).getD (t.indexOf (w.entriesUnder e t.source t.name)) ∧
      Undisturbed w (w.indexFor e t query).2 := by
  obtain ⟨hentries, hafter⟩ := findEntries_of_isStatic hw e t query
  rw [indexFor]
  cases t.index with
  | some index => exact ⟨rfl, .refl hw⟩
  | none =>
    rw [← hentries]
    exact ⟨rfl, hafter⟩

theorem evaluate_of_isStatic (hw : w.IsStatic) (e : Nat) (t : PreparedTable) (values : List Value) :
    (w.evaluate e t values true).1 =
        t.answerFrom (w.engine e).functions (w.entriesUnder e t.source t.name) values ∧
      Undisturbed w (w.evaluate e t values true).2 := by
  rw [evaluate, PreparedTable.answerFrom]
  cases hquery : t.normalize values with
  | error fault => exact ⟨rfl, .refl hw⟩
  | ok query =>
    obtain ⟨hindex, hafter⟩ := indexFor_of_isStatic hw e t query
    simp only [bind, Except.bind]
    rw [← hindex]
    cases hindexed : w.indexFor e t query with
    | mk outcome w' =>
      rw [hindexed] at hafter
      cases outcome with
      | error fault => exact ⟨rfl, hafter⟩
      | ok index =>
        refine ⟨?_, hafter⟩
        show t.answer (w'.engine e).functions index query true = t.answer (w.engine e).functions index query true
        rw [hafter.engine_eq]

/-! ### The calls on a name -/

/-- The table that a preparation gives is the one that a query is answered from. -/
theorem getDetailed_of_isStatic (hw : w.IsStatic) (e : Nat) (name : String) (values : List Value) :
    ((w.getDetailed e name values).1 = do
      let t ← (prepared e name w).1.map (·.table)
      t.answerFrom (w.engine e).functions (w.entriesUnder e t.source t.name) values) ∧
      Undisturbed (prepared e name w).2 (w.getDetailed e name values).2 := by
  obtain ⟨-, hprepared, -⟩ := prepared_of_isStatic hw e name
  rw [getDetailed]
  cases hcall : prepared e name w with
  | mk outcome w' =>
    rw [hcall] at hprepared
    cases outcome with
    | error fault => exact ⟨rfl, .refl hprepared.isStatic⟩
    | ok edition =>
      obtain ⟨hanswer, hafter⟩ := evaluate_of_isStatic hprepared.isStatic e edition.table values
      rw [hprepared.engine_eq, hprepared.entriesUnder_eq] at hanswer
      exact ⟨hanswer, hafter⟩

theorem get_of_isStatic (hw : w.IsStatic) (e : Nat) (name : String) (values : List Value) :
    ((w.get e name values).1 = do
      let t ← (prepared e name w).1.map (·.table)
      (t.answerFrom (w.engine e).functions (w.entriesUnder e t.source t.name) values).map (·.answer)) ∧
      Undisturbed (prepared e name w).2 (w.get e name values).2 := by
  obtain ⟨hanswer, hafter⟩ := getDetailed_of_isStatic hw e name values
  rw [get_eq]
  refine ⟨?_, hafter⟩
  rw [hanswer]
  cases (prepared e name w).1 <;> rfl

theorem getInContext_of_isStatic (hw : w.IsStatic) (e : Nat) (name : String) (context : Context) :
    ((w.getInContext e name context).1 = do
      let t ← (prepared e name w).1.map (·.table)
      let values ← t.valuesIn ((w.engine e).creators.get? ·) context
      (t.answerFrom (w.engine e).functions (w.entriesUnder e t.source t.name) values).map (·.answer)) ∧
      Undisturbed (prepared e name w).2 (w.getInContext e name context).2 := by
  obtain ⟨-, hprepared, -⟩ := prepared_of_isStatic hw e name
  rw [getInContext]
  cases hcall : prepared e name w with
  | mk outcome w' =>
    rw [hcall] at hprepared
    cases outcome with
    | error fault => exact ⟨rfl, .refl hprepared.isStatic⟩
    | ok edition =>
      dsimp only [Except.map, bind, Except.bind]
      rw [hprepared.engine_eq]
      cases edition.table.valuesIn ((w.engine e).creators.get? ·) context with
      | error fault => exact ⟨rfl, .refl hprepared.isStatic⟩
      | ok values =>
        obtain ⟨hanswer, hafter⟩ := evaluate_of_isStatic hprepared.isStatic e edition.table values
        rw [hprepared.engine_eq, hprepared.entriesUnder_eq] at hanswer
        have hplain := map_answer_evaluate e edition.table values false w'
        rw [hanswer] at hplain
        refine ⟨hplain, ?_⟩
        show Undisturbed w' (w'.evaluate e edition.table values false).2
        rw [evaluate_snd, ← evaluate_snd e edition.table values true]
        exact hafter

theorem callFound_of_isStatic (hw : w.IsStatic) (e : Nat) (name : String) (values arguments : List Value) :
    ((w.callFound e name values arguments).1 = do
      let t ← (prepared e name w).1.map (·.table)
      let detailed ← t.answerFrom (w.engine e).functions (w.entriesUnder e t.source t.name) values
      let function ← functionIn name detailed.answer
      w.call e function arguments) ∧
      Undisturbed (prepared e name w).2 (w.callFound e name values arguments).2 := by
  obtain ⟨-, hprepared, -⟩ := prepared_of_isStatic hw e name
  obtain ⟨hanswer, hafter⟩ := get_of_isStatic hw e name values
  refine ⟨?_, hafter⟩
  -- the call comes last, from an engine that is still the same
  show (do
    let answer ← (w.get e name values).1
    let function ← functionIn name answer
    (w.get e name values).2.call e function arguments) = _
  have hcall : (w.get e name values).2.call e = w.call e := by
    funext function arguments
    rw [call, call, hafter.engine_eq, hprepared.engine_eq]
  rw [hanswer, hcall]
  cases (prepared e name w).1 with
  | error fault => rfl
  | ok edition =>
    dsimp only [Except.map, bind, Except.bind]
    cases edition.table.answerFrom (w.engine e).functions
      (w.entriesUnder e edition.table.source edition.table.name) values <;> rfl

private theorem answeredFrom_prepared (hw : w.IsStatic) (e : Nat) (name : String) :
    w.AnsweredFrom e name ((prepared e name w).1.map (·.table)) fun t => w.entriesUnder e t.source t.name where
  prepared := rfl
  getDetailed values := (getDetailed_of_isStatic hw e name values).1
  get values := (get_of_isStatic hw e name values).1
  getInContext context := (getInContext_of_isStatic hw e name context).1
  callFound values arguments := (callFound_of_isStatic hw e name values arguments).1

/-- Only the entries that are fetched for the table itself matter. -/
theorem AnsweredFrom.congr {table : Except TableError PreparedTable} {fetched fetched' : PreparedTable → List Entry}
    (h : w.AnsweredFrom e name table fetched) (hfetched : ∀ t, table = .ok t → fetched t = fetched' t) :
    w.AnsweredFrom e name table fetched' := by
  obtain ⟨hprepared, hdetailed, hget, hcontext, hcall⟩ := h
  cases table with
  | error fault => exact ⟨hprepared, hdetailed, hget, hcontext, hcall⟩
  | ok t =>
    have ht := hfetched t rfl
    simp only [bind, Except.bind, ht] at hdetailed hget hcontext hcall
    exact ⟨hprepared, hdetailed, hget, hcontext, hcall⟩

theorem answeredFrom_of_prepared (hw : w.IsStatic) {table : Except TableError PreparedTable}
    (hprepared : (prepared e name w).1.map (·.table) = table) (hname : ∀ t, table = .ok t → t.name = name) :
    w.AnsweredFrom e name table fun t => w.entriesUnder e t.source name := by
  have h := answeredFrom_prepared hw e name
  rw [hprepared] at h
  exact h.congr fun t ht => by rw [hname t ht]

private theorem answeredFrom_current (hw : w.IsStatic) (hnone : w.held? e name = none) :
    w.AnsweredFrom e name (w.current e name) fun t => w.entriesUnder e t.source name := by
  refine answeredFrom_of_prepared hw ?_ fun t => current_name hw
  rw [(prepared_of_isStatic hw e name).1, hnone]
  rfl

theorem answeredFrom_clear (hw : w.IsStatic) (e : Nat) (name : String) :
    (w.clear e).AnsweredFrom e name (w.current e name) fun t => w.entriesUnder e t.source name := by
  have hnone : (w.clear e).held? e name = none := by
    rw [held?, clear, cacheOf_modifyCacheOf, Cache.get?_clear]
    rfl
  exact answeredFrom_current (w := w.clear e) hw hnone

/-- The entries that are fetched for the present definition are its own. -/
theorem AnsweredFrom.defined (h : w'.AnsweredFrom e name (w.current e name) fun t => w.entriesUnder e t.source name)
    (hnodup : ((w.engine e).sources.map Prod.fst).Nodup) :
    w'.AnsweredFrom e name (w.current e name) fun _ => w.definedEntries e name := by
  refine h.congr fun t ht => ?_
  rw [current] at ht
  cases hdefinition : w.definition? e name with
  | none => rw [hdefinition] at ht; cases ht
  | some pair =>
    obtain ⟨source, table⟩ := pair
    rw [hdefinition] at ht
    rw [(PreparedTable.header_of_prepare ht).2, entriesUnder_of_definition? hnodup hdefinition, definedEntries,
      hdefinition]
    rfl

end Workspace

end DecisionTables
