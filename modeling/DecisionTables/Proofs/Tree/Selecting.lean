import DecisionTables.Proofs.Tree.Ranking

/-!
# What a query finds among some of the entries

Entries that a query does not accept still matter to it: where two accepted entries have different patterns at
a level, neither of them the wildcard, the one is ahead whose pattern is declared earlier, perhaps by an entry
that is not accepted. So of a selection of the entries a query finds the same as of all of them if the
selection keeps every accepted entry and, for two accepted ones that compete in this way, the first entry with
the patterns of either of them up to that level (`Tree.Finds.of_filter`).
-/

namespace DecisionTables

/-- Between the first elements of two kinds, a selection that keeps the first element of either kind shows the
order of the whole list. -/
private theorem findIdx_lt_of_filter {β : Type} {keep p q : β → Bool} {bs : List β}
    (hfirst : ∀ b, bs.find? (fun b => p b || q b) = some b → keep b = true)
    (h : (bs.filter keep).findIdx p < (bs.filter keep).findIdx q) : bs.findIdx p < bs.findIdx q := by
  induction bs with
  | nil => simp at h
  | cons b bs ih =>
    -- the first element of either kind is in the selection, and the rest does not matter
    by_cases heither : (p b || q b) = true
    · have hkeep : keep b = true := hfirst b (by simp [heither])
      rw [List.filter_cons_of_pos hkeep, List.findIdx_cons, List.findIdx_cons] at h
      cases hq : q b with
      | true => simp [hq] at h
      | false =>
        have hp : p b = true := by simpa [hq] using heither
        simp [List.findIdx_cons, hp, hq]
    · obtain ⟨hp, hq⟩ := Bool.or_eq_false_iff.1 (Bool.eq_false_iff.2 heither)
      have hfind : (b :: bs).find? (fun b => p b || q b) = bs.find? (fun b => p b || q b) := by
        simp [hp, hq]
      rw [hfind] at hfirst
      have hrest : (bs.filter keep).findIdx p < (bs.filter keep).findIdx q := by
        cases hkeep : keep b with
        | true =>
          rw [List.filter_cons_of_pos hkeep] at h
          simp only [List.findIdx_cons, hp, hq, cond_false] at h
          omega
        | false => rwa [List.filter_cons_of_neg (by simp [hkeep])] at h
      have := ih hfirst hrest
      simp only [List.findIdx_cons, hp, hq, cond_false]
      omega

namespace Tree

variable {α β : Type} {query : List Probe}

/-- Patterns that compete at a level: alike up to it, and different there without a wildcard. -/
def Compete (a b shared : List Pattern) (x y : Pattern) : Prop :=
  x ≠ y ∧ x ≠ .any ∧ y ≠ .any ∧ shared ++ [x] <+: a ∧ shared ++ [y] <+: b

/-- The selection keeps every accepted entry, and of two accepted ones that compete the first entry with the
patterns of either of them up to the level where they do. -/
structure Suffices (query : List Probe) (rows : List (Filed α)) (keep : Filed α → Bool) : Prop where
  accepted : ∀ row ∈ rows, Accepts query row.1 → keep row = true
  first : ∀ a ∈ rows, ∀ b ∈ rows, Accepts query a.1 → Accepts query b.1 → ∀ shared x y,
    Compete a.1 b.1 shared x y →
      ∀ row, rows.find? (fun r => (shared ++ [x]).isPrefixOf r.1 || (shared ++ [y]).isPrefixOf r.1) = some row →
        keep row = true

/-- What is ahead in the selection is ahead among all entries. -/
private theorem Suffices.outranks {rows : List (Filed α)} {keep : Filed α → Bool} (h : Suffices query rows keep)
    {a b : Filed α} (ha : a ∈ rows) (hb : b ∈ rows) (hacca : Accepts query a.1) (haccb : Accepts query b.1)
    (hahead : Outranks ((rows.filter keep).map Prod.fst) a.1 b.1) : Outranks (rows.map Prod.fst) a.1 b.1 := by
  obtain ⟨shared, x, y, as, bs, hax, hby, hne, hany, hlt⟩ := hahead
  refine ⟨shared, x, y, as, bs, hax, hby, hne, hany, ?_⟩
  by_cases hy : y = .any
  · exact .inl hy
  · have hcompete : Compete a.1 b.1 shared x y :=
      ⟨hne, hany, hy, ⟨as, by simp [hax]⟩, ⟨bs, by simp [hby]⟩⟩
    have hselected := hlt.resolve_left hy
    rw [firstWith, firstWith, List.findIdx_map, List.findIdx_map] at hselected
    rw [firstWith, firstWith, List.findIdx_map, List.findIdx_map]
    exact .inr (findIdx_lt_of_filter (h.first a ha b hb hacca haccb shared x y hcompete) hselected)

/-- A selection that suffices shows what all entries show. -/
theorem Finds.of_filter {rows : List (Filed α)} {keep : Filed α → Bool} (h : Suffices query rows keep)
    {found found' : Option (List α)} (hall : Finds query rows found)
    (hselected : Finds query (rows.filter keep) found') : found' = found := by
  have hkept : ∀ row ∈ rows, Accepts query row.1 → row ∈ rows.filter keep :=
    fun row hrow hacc => List.mem_filter.2 ⟨hrow, h.accepted row hrow hacc⟩
  cases hall with
  | nothing hnone =>
    cases hselected with
    | nothing _ => rfl
    | best htop hacc _ => exact absurd hacc (hnone _ (List.mem_filter.1 htop).1)
  | @best top htop hacc hbest =>
    cases hselected with
    | nothing hnone => exact absurd hacc (hnone _ (hkept _ htop hacc))
    | @best top' htop' hacc' hbest' =>
      have hrow' := (List.mem_filter.1 htop').1
      have hsame : top'.1 = top.1 := by
        rcases hbest' top (hkept top htop hacc) hacc with heq | hahead'
        · exact heq.symm
        · rcases hbest top' hrow' hacc' with heq | hahead
          · exact heq
          · exact absurd (h.outranks hrow' htop hacc' hacc hahead') hahead.asymm
      have hfilter : (rows.filter keep).filter (·.1 = top.1) = rows.filter (·.1 = top.1) := by
        rw [List.filter_filter]
        apply List.filter_congr
        intro row hrow
        by_cases heq : row.1 = top.1
        · simp [heq, h.accepted row hrow (heq ▸ hacc)]
        · simp [heq]
      rw [hsame, hfilter]

/-! ### Entries under other names -/

theorem finds_map_iff {g : α → β} {rows : List (Filed α)} {found : Option (List β)} :
    Finds query (rows.map fun row => (row.1, g row.2)) found ↔
      ∃ found', found = found'.map (List.map g) ∧ Finds query rows found' := by
  have hrows : (rows.map fun row => (row.1, g row.2)).map Prod.fst = rows.map Prod.fst := by
    rw [List.map_map]
    rfl
  have hfilter : ∀ patterns, ((rows.map fun row => (row.1, g row.2)).filter (·.1 = patterns)).map Prod.snd =
      ((rows.filter (·.1 = patterns)).map Prod.snd).map g := by
    intro patterns
    rw [List.filter_map, List.map_map, List.map_map]
    rfl
  constructor
  · intro h
    cases h with
    | nothing hnone =>
      refine ⟨none, rfl, .nothing fun row hrow => ?_⟩
      exact hnone _ (List.mem_map_of_mem hrow)
    | best htop hacc hbest =>
      obtain ⟨top, hmem, rfl⟩ := List.mem_map.1 htop
      rw [hrows] at hbest
      exact ⟨some _, by rw [hfilter]; rfl, .best hmem hacc fun row hrow => hbest _ (List.mem_map_of_mem hrow)⟩
  · rintro ⟨found', rfl, h⟩
    cases h with
    | nothing hnone =>
      refine .nothing fun row hrow => ?_
      obtain ⟨row', hrow', rfl⟩ := List.mem_map.1 hrow
      exact hnone row' hrow'
    | @best top htop hacc hbest =>
      have hmem : (top.1, g top.2) ∈ rows.map fun row => (row.1, g row.2) := List.mem_map_of_mem htop
      rw [Option.map_some, ← hfilter]
      refine .best hmem hacc fun row hrow => ?_
      obtain ⟨row', hrow', rfl⟩ := List.mem_map.1 hrow
      rw [hrows]
      exact hbest row' hrow'

end Tree

end DecisionTables
