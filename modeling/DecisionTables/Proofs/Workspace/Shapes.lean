import DecisionTables.Proofs.Workspace.Genuine

/-!
# The shape of rows

Whatever a session did before, the rows of every answer have the shape that the table declares
(`rows_follow_outputLevels`), for entries that are kept and for those fetched for the query, with patterns that are
read and with functions that are called.
-/

namespace DecisionTables.Workspace

variable {w : Workspace} {e : Nat} {name : String}

/-- A query to a name has this answer. -/
inductive Gives (w : Workspace) (e : Nat) (name : String) (answer : Answer) : Prop
  | get (values : List Value) (h : (w.get e name values).1 = .ok answer)
  | getDetailed (values : List Value) (d : DetailedAnswer) (h : (w.getDetailed e name values).1 = .ok d)
      (hd : d.answer = answer)
  | getInContext (context : Context) (h : (w.getInContext e name context).1 = .ok answer)

private theorem Gives.exists_get {answer : Answer} (h : w.Gives e name answer) :
    ∃ values, (w.get e name values).1 = .ok answer := by
  cases h with
  | get values h => exact ⟨values, h⟩
  | getDetailed values d h hd =>
    refine ⟨values, ?_⟩
    rw [get_eq, h, ← hd]
    rfl
  | getInContext context h => exact exists_get_of_getInContext h

/-- After any session that began with empty caches, every row of every answer has one cell for each output level
of the table, and the cell is an array exactly if the level is an array level. So in each column one of the two
readers succeeds and the other reports the wrong shape, and beyond the columns both report that there is none. A
name reads as the place of the first output level that bears it, and is unknown where no output level does. -/
theorem rows_follow_outputLevels {start : Workspace} (hnew : ∀ c, start.cache c = {}) (steps : List Step) (e : Nat)
    (name : String) (answer : Answer) (hanswer : (Step.runAll steps start).2.Gives e name answer) :
    ∃ edition, (prepared e name (Step.runAll steps start).2).1 = .ok edition ∧
      (∃ definition, edition.table.ComesFrom definition) ∧
      ∀ definition, edition.table.ComesFrom definition →
        ∀ row ∈ answer.rows, row.Follows definition.outputLevels := by
  have hgenuine : Genuine (Step.runAll steps start).2 := (genuine_of_new hnew).runAll steps
  obtain ⟨values, hget⟩ := hanswer.exists_get
  rw [get_eq] at hget
  obtain ⟨d, hd, rfl⟩ := map_eq_ok.1 hget
  obtain ⟨edition, query, index, found, hprepared, -, -, -, -, hrows⟩ := hgenuine.shows_of_getDetailed hd
  refine ⟨edition, hprepared, hgenuine.comesFrom_of_prepared hprepared, fun definition hfrom => ?_⟩
  exact forall_right_of_forall₂ (fun _ _ hrow => hfrom.follows_of_shows hrow) hrows

/-- Charges, with two output columns of one name in front of their input level. The entries are fetched for each
query. -/
def charges : Table where
  name := "charges"
  levels := [{ order := 2, name := some "rate", codec := "integer", isArray := true },
    { order := 3, name := some "rate", codec := "integer" }, { order := 1, name := some "class", codec := "string" }]
  inputs := 1
  entries := [⟨[some "A", some "1;2", some "3"], none, none⟩, ⟨[some "*", none, some "*"], none, some "eight"⟩]
  cacheable := false
  separator := ';'

/-- An engine for charges, with a function. -/
def charged : Workspace :=
  assemble [{ tables := Repository.tablesOf [charges] }]
    [({ sources := [("r0", 0)], functions := some fun _ _ => .ok (.integer 8) }, false)]

/-- The charges are put under another name. -/
def recharging : List Step :=
  [.get 0 "charges" [.text "A"], .put 0 "copy" "charges"]

/-- The function fills the array column, and the wildcard leaves the other column null. -/
theorem rows_follow_outputLevels_charges :
    let row : Row := ⟨[.array [.integer 8], .single .null], none, [some "rate", some "rate"]⟩
    (∀ c, charged.cache c = {}) ∧
    (Step.runAll recharging charged).2.Gives 0 "copy" ⟨"charges", "r0", false, [row]⟩ ∧
    ∃ edition, (prepared 0 "copy" (Step.runAll recharging charged).2).1 = .ok edition ∧
      edition.table.ComesFrom charges ∧ row.Follows charges.outputLevels := by
  intro row
  have hnew : ∀ c, charged.cache c = {} := cache_assemble _ _
  have hanswer : (Step.runAll recharging charged).2.Gives 0 "copy" ⟨"charges", "r0", false, [row]⟩ :=
    .get [.text "B"] (by cbv)
  have hcopied : (prepared 0 "copy" (Step.runAll recharging charged).2).1.map (·.table) =
      PreparedTable.prepare .standard .standard "r0" charges := by cbv
  obtain ⟨edition, hprepared, -, hrows⟩ := rows_follow_outputLevels hnew recharging 0 "copy" _ hanswer
  rw [hprepared] at hcopied
  have hfrom : edition.table.ComesFrom charges := ⟨_, _, _, hcopied.symm⟩
  exact ⟨hnew, hanswer, edition, hprepared, hfrom, hrows charges hfrom row (List.mem_singleton.2 rfl)⟩

end DecisionTables.Workspace
