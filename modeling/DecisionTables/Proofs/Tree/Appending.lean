import DecisionTables.Proofs.Tree.Ranking

/-!
# What a query finds after an entry was appended

An entry at the end changes no rank among the entries in front of it: their patterns all occur in front of it, so
they are declared where they were (`outranks_concat_iff`). So what a query finds changes only if it accepts the new
entry. Then the new entry joins the ones that were found if it has their patterns; otherwise either they or the new
entry alone are found, whichever is ahead (`Tree.Finds.concat`).
-/

namespace DecisionTables

/-- An entry at the end changes nothing for patterns that an entry in front of it begins with. -/
private theorem firstWith_concat {table : List (List Pattern)} {a patterns : List Pattern} (ha : a ∈ table)
    (hbegins : patterns <+: a) (last : List Pattern) :
    firstWith (table ++ [last]) patterns = firstWith table patterns := by
  have hfirst : ∃ b ∈ table, patterns.isPrefixOf b = true := ⟨a, ha, List.isPrefixOf_iff_prefix.2 hbegins⟩
  rw [firstWith, firstWith, List.findIdx_append, if_pos (by simpa using hfirst)]

theorem outranks_concat_iff {table : List (List Pattern)} {a b : List Pattern} (ha : a ∈ table) (hb : b ∈ table)
    (last : List Pattern) : Outranks (table ++ [last]) a b ↔ Outranks table a b := by
  have hplaces : ∀ {shared x y as bs}, a = shared ++ x :: as → b = shared ++ y :: bs →
      firstWith (table ++ [last]) (shared ++ [x]) = firstWith table (shared ++ [x]) ∧
      firstWith (table ++ [last]) (shared ++ [y]) = firstWith table (shared ++ [y]) := by
    intro shared x y as bs hx hy
    exact ⟨firstWith_concat ha ⟨as, by simp [hx]⟩ last, firstWith_concat hb ⟨bs, by simp [hy]⟩ last⟩
  constructor
  · rintro ⟨shared, x, y, as, bs, hx, hy, hne, hany, hahead⟩
    rw [(hplaces hx hy).1, (hplaces hx hy).2] at hahead
    exact ⟨shared, x, y, as, bs, hx, hy, hne, hany, hahead⟩
  · rintro ⟨shared, x, y, as, bs, hx, hy, hne, hany, hahead⟩
    rw [← (hplaces hx hy).1, ← (hplaces hx hy).2] at hahead
    exact ⟨shared, x, y, as, bs, hx, hy, hne, hany, hahead⟩

/-- Wildcards alone are never ahead. -/
theorem not_outranks_of_wildcards {table : List (List Pattern)} {a b : List Pattern} (ha : ∀ x ∈ a, x = .any) :
    ¬ Outranks table a b := by
  rintro ⟨shared, x, y, as, bs, rfl, -, -, hany, -⟩
  exact hany (ha x (by simp))

namespace Tree

variable {α : Type} {query : List Probe} {rows : List (Filed α)} {row : Filed α} {found found' : Option (List α)}

/-- The members that are filed under the given patterns. -/
def membersWith (rows : List (Filed α)) (patterns : List Pattern) : List α :=
  (rows.filter (·.1 = patterns)).map Prod.snd

private theorem membersWith_concat (rows : List (Filed α)) (row : Filed α) (patterns : List Pattern) :
    membersWith (rows ++ [row]) patterns =
      membersWith rows patterns ++ if row.1 = patterns then [row.2] else [] := by
  by_cases h : row.1 = patterns <;> simp [membersWith, h]

private theorem membersWith_eq_nil (h : ∀ r ∈ rows, r.1 ≠ row.1) : membersWith rows row.1 = [] := by
  rw [membersWith, List.filter_eq_nil_iff.2 (by simpa using h), List.map_nil]

/-- The entries found are those with the patterns of an accepted one that is ahead of all other accepted ones. -/
structure Best (query : List Probe) (rows : List (Filed α)) (patterns : List Pattern) : Prop where
  mem : ∃ row ∈ rows, row.1 = patterns
  accepts : Accepts query patterns
  best : ∀ row ∈ rows, Accepts query row.1 → row.1 = patterns ∨ Outranks (rows.map Prod.fst) patterns row.1

private theorem finds_iff : Finds query rows found ↔
    (found = none ∧ ∀ row ∈ rows, ¬ Accepts query row.1) ∨
      ∃ patterns, Best query rows patterns ∧ found = some (membersWith rows patterns) := by
  constructor
  · rintro (h | ⟨htop, haccepts, hbest⟩)
    · exact .inl ⟨rfl, h⟩
    · exact .inr ⟨_, ⟨⟨_, htop, rfl⟩, haccepts, hbest⟩, rfl⟩
  · rintro (⟨rfl, h⟩ | ⟨patterns, ⟨⟨top, htop, rfl⟩, haccepts, hbest⟩, rfl⟩)
    · exact .nothing h
    · exact .best htop haccepts hbest

theorem Best.unique {a b : List Pattern} (ha : Best query rows a) (hb : Best query rows b) : a = b := by
  obtain ⟨top, htop, rfl⟩ := ha.mem
  obtain ⟨top', htop', rfl⟩ := hb.mem
  rcases ha.best top' htop' hb.accepts with h | hahead
  · exact h.symm
  · rcases hb.best top htop ha.accepts with h | hahead'
    · exact h
    · exact absurd hahead' hahead.asymm

/-- What is best with the new entry and occurs in front of it was best before. -/
private theorem Best.of_concat {patterns : List Pattern} (h : Best query (rows ++ [row]) patterns)
    (hmem : ∃ r ∈ rows, r.1 = patterns) : Best query rows patterns := by
  refine ⟨hmem, h.accepts, fun r hr haccepts => ?_⟩
  obtain ⟨top, htop, rfl⟩ := hmem
  have hbest := h.best r (List.mem_append_left _ hr) haccepts
  rw [List.map_append, List.map_cons, List.map_nil,
    outranks_concat_iff (List.mem_map_of_mem htop) (List.mem_map_of_mem hr)] at hbest
  exact hbest

/-- What is best with the new entry is either what was best before, or the patterns of the new entry, which then
are new. -/
private theorem Best.cases_concat {patterns : List Pattern} (h : Best query (rows ++ [row]) patterns) :
    Best query rows patterns ∨ patterns = row.1 ∧ ∀ r ∈ rows, r.1 ≠ row.1 := by
  by_cases hmem : ∃ r ∈ rows, r.1 = patterns
  · exact .inl (h.of_concat hmem)
  · obtain ⟨top, htop, rfl⟩ := h.mem
    rcases List.mem_append.1 htop with htop | htop
    · exact absurd ⟨top, htop, rfl⟩ hmem
    · obtain rfl := List.mem_singleton.1 htop
      exact .inr ⟨rfl, fun r hr heq => hmem ⟨r, hr, heq⟩⟩

/-- What is found with a new entry at the end, against what is found without it. -/
theorem Finds.concat (h : Finds query rows found) (h' : Finds query (rows ++ [row]) found') :
    (¬ Accepts query row.1 → found' = found) ∧
    (Accepts query row.1 →
      (found = none ∧ found' = some [row.2]) ∨
      ∃ patterns, Best query rows patterns ∧ found = some (membersWith rows patterns) ∧
        ((row.1 = patterns ∧ found' = some (membersWith rows patterns ++ [row.2])) ∨
          (row.1 ≠ patterns ∧ found' = found) ∨
          (row.1 ≠ patterns ∧ Outranks ((rows ++ [row]).map Prod.fst) row.1 patterns ∧ found' = some [row.2]))) := by
  rcases finds_iff.1 h' with ⟨rfl, hnone⟩ | ⟨patterns, hbest, rfl⟩
  · have hrow : ¬ Accepts query row.1 := hnone row (by simp)
    refine ⟨fun _ => ?_, fun haccepts => absurd haccepts hrow⟩
    cases h with
    | nothing _ => rfl
    | best htop haccepts _ => exact absurd haccepts (hnone _ (List.mem_append_left _ htop))
  · rw [membersWith_concat]
    rcases hbest.cases_concat with hold | ⟨rfl, hnew⟩
    · -- the same patterns are best as before
      obtain rfl : found = some (membersWith rows patterns) := by
        rcases finds_iff.1 h with ⟨-, hnone⟩ | ⟨patterns', hold', rfl⟩
        · obtain ⟨top, htop, rfl⟩ := hold.mem
          exact absurd hold.accepts (hnone top htop)
        · rw [hold'.unique hold]
      by_cases hrow : row.1 = patterns
      · rw [if_pos hrow]
        refine ⟨fun hreject => absurd (hrow ▸ hold.accepts) hreject, fun _ => ?_⟩
        exact .inr ⟨patterns, hold, rfl, .inl ⟨hrow, rfl⟩⟩
      · rw [if_neg hrow, List.append_nil]
        exact ⟨fun _ => rfl, fun _ => .inr ⟨patterns, hold, rfl, .inr (.inl ⟨hrow, rfl⟩)⟩⟩
    · -- the new entry is ahead of all others
      rw [membersWith_eq_nil hnew, if_pos rfl, List.nil_append]
      refine ⟨fun hreject => absurd hbest.accepts hreject, fun _ => ?_⟩
      rcases finds_iff.1 h with ⟨rfl, -⟩ | ⟨patterns, hold, rfl⟩
      · exact .inl ⟨rfl, rfl⟩
      · obtain ⟨top, htop, rfl⟩ := hold.mem
        have hne : row.1 ≠ top.1 := (hnew top htop).symm
        have hahead := (hbest.best top (List.mem_append_left _ htop) hold.accepts).resolve_left hne.symm
        exact .inr ⟨top.1, hold, rfl, .inr (.inr ⟨hne, hahead, rfl⟩)⟩

end Tree

end DecisionTables
