import DecisionTables.Proofs.Table.Answering
import DecisionTables.Proofs.Workspace.Runs
import DecisionTables.Workspace.Answering

/-!
# Queries with and without entries

A query to a prepared table changes a workspace only by a search for its entries, where these are not kept
(`evaluate_snd`). Whether the entries behind the rows are asked for makes no difference to that, nor to the rows or to
an error (`get_eq`). A query in a context is one with the values of the context, if these are found
(`getInContext_of_valuesIn`).
-/

namespace DecisionTables.Workspace

/-- A table that does not keep its entries is looked up in the source of its name. -/
theorem indexFor_snd (e : Nat) (t : PreparedTable) (query : List (Option String)) (w : Workspace) :
    (w.indexFor e t query).2 =
      match t.index, w.source? e t.source with
      | none, some r => w.record (.searched r t.name query)
      | _, _ => w := by
  rw [indexFor]
  cases t.index with
  | some index => rfl
  | none =>
    rw [findEntries]
    cases w.source? e t.source <;> rfl

theorem evaluate_snd (e : Nat) (t : PreparedTable) (values : List Value) (detailed : Bool) (w : Workspace) :
    (w.evaluate e t values detailed).2 =
      match t.normalize values with
      | .ok query => (w.indexFor e t query).2
      | .error _ => w := by
  rw [evaluate]
  cases t.normalize values with
  | error fault => rfl
  | ok query =>
    cases hindexed : w.indexFor e t query with
    | mk outcome w' => cases outcome <;> simp only [hindexed]

theorem map_answer_evaluate (e : Nat) (t : PreparedTable) (values : List Value) (detailed : Bool) (w : Workspace) :
    (w.evaluate e t values detailed).1.map (·.answer) = (w.evaluate e t values true).1.map (·.answer) := by
  rw [evaluate, evaluate]
  cases t.normalize values with
  | error fault => rfl
  | ok query =>
    dsimp only
    cases w.indexFor e t query with
    | mk outcome w' =>
      cases outcome with
      | error fault => rfl
      | ok index => exact (t.map_answer _ index query detailed).trans (t.map_answer _ index query true).symm

/-- A query is a detailed one whose entries are left out. -/
theorem get_eq (e : Nat) (name : String) (values : List Value) (w : Workspace) :
    w.get e name values = ((w.getDetailed e name values).1.map (·.answer), (w.getDetailed e name values).2) := by
  rw [get, getDetailed]
  cases prepared e name w with
  | mk outcome after =>
    cases outcome with
    | error fault => rfl
    | ok edition =>
      refine Prod.ext (map_answer_evaluate e edition.table values false after) ?_
      dsimp only
      rw [evaluate_snd, evaluate_snd]

/-! ### Queries in a context -/

variable {e : Nat} {name : String} {w : Workspace}

theorem getInContext_of_prepared_error {context : Context} {fault : TableError}
    (h : (prepared e name w).1 = .error fault) : (w.getInContext e name context).1 = .error fault := by
  have hcall : prepared e name w = (.error fault, (prepared e name w).2) := Prod.ext h rfl
  rw [getInContext, hcall]

/-- A query in a context whose values are found is the query with these values. -/
theorem getInContext_of_valuesIn {context : Context} {values : List Value}
    (h : ∀ edition, (prepared e name w).1 = .ok edition →
      edition.table.valuesIn ((w.engine e).creators.get? ·) context = .ok values) :
    w.getInContext e name context = w.get e name values := by
  have hengine : (prepared e name w).2.engine e = w.engine e := engine_prepared e e name w
  rw [getInContext, Workspace.get]
  cases hcall : prepared e name w with
  | mk outcome after =>
    rw [hcall] at h hengine
    cases outcome with
    | error fault => rfl
    | ok edition =>
      dsimp only
      rw [hengine, h edition rfl]

theorem getInContext_of_valuesIn_error {context : Context} {edition : Edition} {fault : TableError}
    (hprepared : (prepared e name w).1 = .ok edition)
    (h : edition.table.valuesIn ((w.engine e).creators.get? ·) context = .error fault) :
    (w.getInContext e name context).1 = .error fault := by
  have hengine : (prepared e name w).2.engine e = w.engine e := engine_prepared e e name w
  rw [getInContext]
  cases hcall : prepared e name w with
  | mk outcome after =>
    rw [hcall] at hprepared hengine
    obtain rfl : outcome = .ok edition := hprepared
    dsimp only
    rw [hengine, h]

/-- The answer to a query in a context is the answer to a query with some values. -/
theorem exists_get_of_getInContext {context : Context} {answer : Answer}
    (h : (w.getInContext e name context).1 = .ok answer) : ∃ values, (w.get e name values).1 = .ok answer := by
  cases hprepared : (prepared e name w).1 with
  | error fault =>
    rw [getInContext_of_prepared_error hprepared] at h
    cases h
  | ok edition =>
    cases hvalues : edition.table.valuesIn ((w.engine e).creators.get? ·) context with
    | error fault =>
      rw [getInContext_of_valuesIn_error hprepared hvalues] at h
      cases h
    | ok values =>
      refine ⟨values, ?_⟩
      rw [← getInContext_of_valuesIn fun edition' hprepared' => ?_]
      · exact h
      · obtain rfl : edition = edition' := Except.ok.inj (hprepared.symm.trans hprepared')
        exact hvalues

end DecisionTables.Workspace
