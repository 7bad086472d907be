import DecisionTables.Proofs.Table.WellFormed
import DecisionTables.Proofs.Workspace.Genuine
import DecisionTables.Proofs.Workspace.Twins

/-!
# The listing of levels

Preparing a table brings its levels into the order of their numbers, and levels of one number stay as they are listed
(`Table.filter_ordered`). Nothing else looks at the listing (`PreparedTable.prepare_congr`), so a table whose levels
have distinct numbers may list them in any way: no preparation and no session can tell (`prepares_in_order`).
-/

namespace DecisionTables

namespace Table

variable {t : Table} {levels : List Level}

private theorem perm_ordered (t : Table) : t.ordered.Perm t.levels :=
  List.mergeSort_perm _ _

private theorem pairwise_ordered (t : Table) : t.ordered.Pairwise (·.order ≤ ·.order) :=
  Level.pairwise_mergeSort t.levels

/-- Among levels of one number the order keeps that of the listing. -/
theorem filter_ordered (t : Table) (n : Nat) :
    t.ordered.filter (·.order = n) = t.levels.filter (·.order = n) := by
  have hnumber : ∀ l ∈ t.levels.filter (·.order = n), l.order = n := by simp
  have hrow : (t.levels.filter (·.order = n)).Pairwise fun a b => decide (a.order ≤ b.order) = true :=
    List.pairwise_of_forall_mem_list fun a ha b hb => by simp [hnumber a ha, hnumber b hb]
  have hkept : (t.levels.filter (·.order = n)).Sublist t.ordered :=
    List.sublist_mergeSort Level.order_trans Level.order_total hrow List.filter_sublist
  have hfilter := hkept.filter (·.order = n)
  simp only [List.filter_filter, Bool.and_self] at hfilter
  exact (hfilter.eq_of_length (t.perm_ordered.filter _).length_eq.symm).symm

example : (Table.ordered ⟨"fares", [{ order := 2, codec := "decimal" }, { order := 1, codec := "string" },
    { order := 2, codec := "integer" }], 1, [], false, true, false, ','⟩).map (·.codec) =
    ["string", "decimal", "integer"] := by cbv

private theorem ordered_ordered (t : Table) : ({ t with levels := t.ordered } : Table).ordered = t.ordered :=
  List.mergeSort_of_pairwise (t.pairwise_ordered.imp decide_eq_true)

end Table

/-- A preparation depends on the levels in their order only. -/
theorem PreparedTable.prepare_congr {table : Table} {levels : List Level}
    (h : ({ table with levels } : Table).ordered = table.ordered) (codecs : CodecRegistry)
    (matchers : MatcherRegistry) (source : String) :
    prepare codecs matchers source { table with levels } = prepare codecs matchers source table := by
  have hlength : levels.length = table.levels.length := by
    rw [← Table.length_ordered table, ← h, Table.length_ordered]
  have hresolve : resolveLevels codecs matchers { table with levels } = resolveLevels codecs matchers table :=
    congrArg (List.mapM (ReadyLevel.resolve codecs matchers)) h
  rw [prepare_eq, prepare_eq, hresolve]
  dsimp only
  rw [hlength]
  rfl

open Workspace in
/-- A table is prepared with its levels in the order of their numbers, in which levels of one number stay as they are
listed. So if the numbers are distinct, the listing does not matter: every preparation has the same outcome, and every
session has the same replies. -/
theorem prepares_in_order (table : Table) :
    (∀ levels : List Level, levels.Perm table.levels → (table.levels.map (·.order)).Nodup →
      (∀ codecs matchers source, PreparedTable.prepare codecs matchers source { table with levels } =
        PreparedTable.prepare codecs matchers source table) ∧
      ∀ (w : Workspace) (r : Nat) (steps : List Step),
        (Step.runAll steps (w.modifyRepository r (·.insert { table with levels }))).1 =
          (Step.runAll steps (w.modifyRepository r (·.insert table))).1) ∧
    ∃ sequence : List Level, sequence.Perm table.levels ∧ sequence.Pairwise (·.order ≤ ·.order) ∧
      (∀ n, sequence.filter (·.order = n) = table.levels.filter (·.order = n)) ∧
      ∀ codecs matchers source,
        PreparedTable.prepare codecs matchers source { table with levels := sequence } =
          PreparedTable.prepare codecs matchers source table ∧
        ∀ t, PreparedTable.prepare codecs matchers source table = .ok t →
          List.Forall₂ (fun level l => ReadyLevel.resolve codecs matchers l = .ok level) (t.inputs ++ t.outputs)
            sequence := by
  refine ⟨fun levels hperm hdistinct => ?_, table.ordered, table.perm_ordered, table.pairwise_ordered,
    table.filter_ordered, fun codecs matchers source => ⟨?_, fun t ht => ?_⟩⟩
  · have hordered : ({ table with levels } : Table).ordered = table.ordered :=
      Level.mergeSort_eq_of_perm hperm hdistinct
    have hprepare := PreparedTable.prepare_congr hordered
    refine ⟨hprepare, fun w r steps => ?_⟩
    have hsame : Table.Interchangeable { table with levels } table := ⟨rfl, hprepare⟩
    exact Twins.runAll ⟨(Alike.refl w).modifyRepository (fun _ _ h => h.insert hsame rfl) r, rfl⟩ steps
  · exact PreparedTable.prepare_congr table.ordered_ordered codecs matchers source
  · obtain ⟨levels, hlevels, hheader⟩ := PreparedTable.eq_header_of_prepare ht
    rw [hheader]
    simp only [PreparedTable.header, List.take_append_drop]
    exact PreparedTable.forall₂_of_resolveLevels hlevels

/-- Fares by class and zone. -/
def fares : Table where
  name := "fares"
  levels := [{ order := 1, name := some "class", codec := "string" },
    { order := 2, name := some "zone", codec := "integer" }, { order := 3, name := some "price", codec := "integer" }]
  inputs := 2
  entries := [⟨[some "A", some "*", some "20"], none, none⟩, ⟨[some "A", some "1", some "10"], none, none⟩]

/-- The price may be listed in front of the levels that are matched, and the zone in front of the class. -/
theorem prepares_in_order_fares :
    let relisted : List Level := [{ order := 3, name := some "price", codec := "integer" },
      { order := 2, name := some "zone", codec := "integer" },
      { order := 1, name := some "class", codec := "string" }]
    let w := Workspace.assemble [{}] [({ sources := [("r0", 0)] }, false)]
    relisted.Perm fares.levels ∧ (fares.levels.map (·.order)).Nodup ∧
      (Step.runAll [.get 0 "fares" [.text "A", .integer 1]]
        (w.modifyRepository 0 (·.insert { fares with levels := relisted }))).1 =
        [.answer (.ok ⟨"fares", "r0", false, [⟨[.single (.integer 10)], none, [some "price"]⟩]⟩)] := by
  intro relisted w
  have hperm : relisted.Perm fares.levels := by decide
  have hdistinct : (fares.levels.map (·.order)).Nodup := by decide
  refine ⟨hperm, hdistinct, ?_⟩
  rw [((prepares_in_order fares).1 relisted hperm hdistinct).2 w 0 _]
  cbv

end DecisionTables
