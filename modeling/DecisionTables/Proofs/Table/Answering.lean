import DecisionTables.Proofs.Sequencing
import DecisionTables.Query

/-!
# Answers with and without entries

A query goes through the entries found in their order, makes a row of each, and puts the entry aside if it is asked
for. So the rows are those of the entries, and the entries beside them are all that were found, or none
(`PreparedTable.answer_eq`).
-/

namespace DecisionTables.PreparedTable

private theorem rowsOf_eq (t : PreparedTable) (functions : Option Functions) (query : List (Option String))
    (detailed : Bool) (found : List ReadyEntry) :
    t.rowsOf functions query detailed found =
      (found.mapM (t.rowOf functions query)).map fun rows =>
        (rows, if detailed then found.map t.foundEntry else []) := by
  induction found with
  | nil => cases detailed <;> rfl
  | cons e found ih =>
    rw [rowsOf, ih, List.mapM_cons]
    cases t.rowOf functions query e with
    | error fault => rfl
    | ok row =>
      cases found.mapM (t.rowOf functions query) with
      | error fault => rfl
      | ok rows => cases detailed <;> rfl

theorem answer_eq (t : PreparedTable) (functions : Option Functions) (index : Index) (query : List (Option String))
    (detailed : Bool) :
    t.answer functions index query detailed = (do
      let found ← t.search index query
      let rows ← found.mapM (t.rowOf functions query)
      pure ⟨⟨t.name, t.source, t.identifiesEntries, rows⟩, if detailed then found.map t.foundEntry else []⟩) := by
  rw [answer]
  cases t.search index query with
  | error fault => rfl
  | ok found =>
    simp only [rowsOf_eq, bind, Except.bind]
    cases found.mapM (t.rowOf functions query) <;> rfl

/-- To ask for the entries changes nothing else. -/
theorem map_answer (t : PreparedTable) (functions : Option Functions) (index : Index) (query : List (Option String))
    (detailed : Bool) :
    (t.answer functions index query detailed).map (·.answer) = (do
      let found ← t.search index query
      let rows ← found.mapM (t.rowOf functions query)
      pure ⟨t.name, t.source, t.identifiesEntries, rows⟩) := by
  rw [answer_eq]
  cases t.search index query with
  | error fault => rfl
  | ok found =>
    simp only [bind, Except.bind]
    cases found.mapM (t.rowOf functions query) <;> rfl

end DecisionTables.PreparedTable
