import DecisionTables.Proofs.Tree.Backtracking
import DecisionTables.Proofs.Tree.FirstOccurrence
import Mathlib.Data.List.Forall2

/-!
# What a query finds among entries

The reference for the search of a tree, said of the list of the entries alone. An entry is accepted if the
query meets its pattern at every level. Of two accepted entries the one comes first that is ahead at the first
level where their patterns differ (`Outranks`): any pattern is ahead of the wildcard, and of two others that
one is whose first occurrence, behind the same patterns at the earlier levels, is declared earlier. The query
finds the entries with the patterns of a best one, in the order of the table (`Finds`), and so does the search
of the tree that the entries are divided into (`find_build`).
-/

namespace DecisionTables

/-- The value meets a pattern: every value the wildcard, and another pattern if the level admits it. -/
def Probe.Meets (p : Probe) (x : Pattern) : Prop :=
  x = .any ∨ p.admits x = .ok true

/-- The level decides about a pattern without a failure. -/
def Probe.Decides (p : Probe) (x : Pattern) : Prop :=
  ∃ b, p.admits x = .ok b

/-- A query meets patterns, level by level. -/
def Accepts (query : List Probe) (patterns : List Pattern) : Prop :=
  List.Forall₂ Probe.Meets query patterns

/-- The place of the first of some pattern lists that begins with the given patterns. -/
def firstWith (table : List (List Pattern)) (patterns : List Pattern) : Nat :=
  table.findIdx (patterns.isPrefixOf ·)

/-- Where the patterns `a` and `b` first differ, `a` is ahead: `b` has the wildcard there, or else the pattern
of `a` is declared earlier than that of `b`, among the entries that share what is in front of it. -/
def Outranks (table : List (List Pattern)) (a b : List Pattern) : Prop :=
  ∃ shared x y as bs, a = shared ++ x :: as ∧ b = shared ++ y :: bs ∧ x ≠ y ∧ x ≠ .any ∧
    (y = .any ∨ firstWith table (shared ++ [x]) < firstWith table (shared ++ [y]))

/-- Of two lists of patterns at most one is ahead of the other. -/
theorem Outranks.asymm {table : List (List Pattern)} {a b : List Pattern} (h : Outranks table a b) :
    ¬ Outranks table b a := by
  rintro ⟨shared', x', y', as', bs', hb', ha', hne', hany', hahead'⟩
  obtain ⟨shared, x, y, as, bs, ha, hb, hne, hany, hahead⟩ := h
  rw [ha] at ha'
  rw [hb] at hb'
  obtain ⟨rfl, rfl, rfl⟩ : shared' = shared ∧ x' = y ∧ y' = x := by
    clear hahead hahead' ha hb
    induction shared generalizing shared' with
    | nil =>
      cases shared' with
      | nil => simp_all
      | cons z zs => simp_all
    | cons w ws ih =>
      cases shared' with
      | nil => simp_all
      | cons z zs =>
        simp only [List.cons_append, List.cons.injEq] at ha' hb'
        obtain ⟨rfl, hrest⟩ := ih zs ha'.2 hb'.2
        exact ⟨by rw [ha'.1], hrest⟩
  rcases hahead with rfl | hlt
  · exact hany' rfl
  · rcases hahead' with rfl | hlt'
    · exact hany rfl
    · omega

namespace Tree

variable {α : Type}

/-- What a query finds among entries that are filed under their patterns. -/
inductive Finds (query : List Probe) (rows : List (Filed α)) : Option (List α) → Prop
  | nothing (h : ∀ row ∈ rows, ¬ Accepts query row.1) : Finds query rows none
  | best {top : Filed α} (htop : top ∈ rows) (haccepts : Accepts query top.1)
      (hbest : ∀ row ∈ rows, Accepts query row.1 → row.1 = top.1 ∨ Outranks (rows.map Prod.fst) top.1 row.1) :
      Finds query rows (some ((rows.filter (·.1 = top.1)).map Prod.snd))

/-- The patterns of the children that entries are divided into. -/
def labels (rows : List (Filed α)) : List Pattern :=
  (rows.map Filed.pattern).eraseDups

/-- The entries that are filed under a pattern, without it. -/
def rowsUnder (rows : List (Filed α)) (x : Pattern) : List (Filed α) :=
  rows.filterMap (Filed.under? x)

theorem mem_labels {rows : List (Filed α)} {x : Pattern} : x ∈ labels rows ↔ ∃ row ∈ rows, row.pattern = x := by
  rw [labels, List.mem_eraseDups, List.mem_map]

theorem mem_rowsUnder {rows : List (Filed α)} {x : Pattern} {row : Filed α} :
    row ∈ rowsUnder rows x ↔ ∃ full ∈ rows, full.pattern = x ∧ row = (full.1.tail, full.2) := by
  simp only [rowsUnder, List.mem_filterMap, Filed.under?, Option.ite_none_right_eq_some, Option.some.injEq]
  constructor
  · rintro ⟨full, hfull, hx, rfl⟩
    exact ⟨full, hfull, hx, rfl⟩
  · rintro ⟨full, hfull, hx, rfl⟩
    exact ⟨full, hfull, hx, rfl⟩

/-- What is kept of the entries under a pattern are the entries with this pattern of which the rest is kept. -/
theorem map_filter_rowsUnder (rows : List (Filed α)) (x : Pattern) (keep : List Pattern → Bool) :
    ((rowsUnder rows x).filter fun row => keep row.1).map Prod.snd =
      (rows.filter fun row => row.pattern = x ∧ keep row.1.tail = true).map Prod.snd := by
  induction rows with
  | nil => rfl
  | cons row rows ih =>
    rw [rowsUnder] at ih ⊢
    by_cases hx : row.pattern = x
    · have hunder : Filed.under? x row = some (row.1.tail, row.2) := by rw [Filed.under?, if_pos hx]
      rw [List.filterMap_cons_some hunder]
      by_cases hkeep : keep row.1.tail = true <;> simp [hx, hkeep, ih]
    · have hunder : Filed.under? x row = none := by rw [Filed.under?, if_neg hx]
      rw [List.filterMap_cons_none hunder, ih]
      simp [hx]

theorem patterns_eq_cons {row : Filed α} (h : row.1 ≠ []) : row.1 = row.pattern :: row.1.tail := by
  obtain ⟨_ | ⟨x, xs⟩, m⟩ := row
  · exact absurd rfl h
  · rfl

/-! ### The children that are tried -/

/-- The patterns of the children that a value is tried with, in order. -/
def tried (p : Probe) (rows : List (Filed α)) : List Pattern :=
  (labels rows).filter (fun x => (p.admits x).toOption == some true) ++ (labels rows).filter (· == .any)

private theorem mem_tried {p : Probe} {rows : List (Filed α)} {x : Pattern} :
    x ∈ tried p rows ↔ x ∈ labels rows ∧ p.Meets x := by
  have ht : (p.admits x).toOption == some true ↔ p.admits x = .ok true := by
    rcases p.admits x with e | b <;> simp [Except.toOption]
  simp only [tried, List.mem_append, List.mem_filter, ht, beq_iff_eq, Probe.Meets]
  constructor
  · rintro (⟨hx, h⟩ | ⟨hx, h⟩)
    · exact ⟨hx, .inr h⟩
    · exact ⟨hx, .inl h⟩
  · rintro ⟨hx, h | h⟩
    · exact .inr ⟨hx, h⟩
    · exact .inl ⟨hx, h⟩

/-- Of two children that are tried, the earlier one has a pattern that is ahead of that of the later one. -/
private theorem pairwise_tried (p : Probe) (rows : List (Filed α)) :
    (tried p rows).Pairwise fun x y =>
      x ≠ y ∧ x ≠ .any ∧ (y = .any ∨ (rows.map Filed.pattern).idxOf x < (rows.map Filed.pattern).idxOf y) := by
  have hlabels : (labels rows).Pairwise _ := pairwise_eraseDups (rows.map Filed.pattern)
  have hadmitted : ∀ x ∈ (labels rows).filter (fun x => (p.admits x).toOption == some true), x ≠ .any := by
    rintro x hx rfl
    simp [Probe.admits, Except.toOption] at hx
  rw [tried, List.pairwise_append]
  refine ⟨?_, ?_, ?_⟩
  · refine List.Pairwise.imp_of_mem ?_ (hlabels.filter _)
    intro x y hx hy hxy
    exact ⟨fun he => by simp [he] at hxy, hadmitted x hx, .inr hxy⟩
  · -- there is at most one wildcard among the labels
    refine List.Pairwise.imp_of_mem ?_ (hlabels.filter _)
    intro x y hx hy hxy
    simp only [List.mem_filter, beq_iff_eq] at hx hy
    rw [hx.2, hy.2] at hxy
    omega
  · intro x hx y hy
    simp only [List.mem_filter, beq_iff_eq] at hy
    exact ⟨fun he => hadmitted x hx (he.trans hy.2), hadmitted x hx, .inl hy.2⟩

theorem candidates_build {p : Probe} {n : Nat} {rows : List (Filed α)}
    (h : ∀ x ∈ labels rows, p.Decides x) :
    (build (n + 1) rows).candidates p = .ok ((tried p rows).map fun x => build n (rowsUnder rows x)) := by
  have hkeep : ∀ child ∈ (build (n + 1) rows).children,
      p.admits child.1 = .ok ((p.admits child.1).toOption == some true) := by
    intro child hchild
    simp only [build, List.mem_map] at hchild
    obtain ⟨x, hx, rfl⟩ := hchild
    obtain ⟨b, hb⟩ := h x hx
    simp [hb, Except.toOption]
  rw [candidates, keepM_eq_filter hkeep]
  simp only [bind, Except.bind, pure, Except.pure, build, tried, List.map_append, List.filter_map, List.map_map]
  rfl

/-! ### Ranks below a child -/

private theorem firstWith_cons (rows : List (Filed α)) (x : Pattern) {patterns : List Pattern}
    (h : patterns ≠ []) :
    (rows.map Prod.fst).findIdx ((x :: patterns).isPrefixOf ·) =
      rows.findIdx fun row => (Filed.under? x row).any fun r => patterns.isPrefixOf r.1 := by
  rw [List.findIdx_map]
  congr 1
  funext row
  rcases row with ⟨_ | ⟨y, ys⟩, m⟩
  · cases patterns with
    | nil => exact absurd rfl h
    | cons z zs => by_cases hx : x = .null <;> simp [Filed.under?, Filed.pattern, hx, eq_comm]
  · by_cases hx : y = x
    · subst hx
      simp [Filed.under?, Filed.pattern]
    · simp [Filed.under?, Filed.pattern, List.isPrefixOf, hx, Ne.symm hx]

/-- A rank below a child is a rank among all entries. -/
private theorem outranks_cons {rows : List (Filed α)} {x : Pattern} {as bs : List Pattern}
    (h : Outranks ((rowsUnder rows x).map Prod.fst) as bs) :
    Outranks (rows.map Prod.fst) (x :: as) (x :: bs) := by
  obtain ⟨shared, u, v, us, vs, rfl, rfl, hne, hany, hahead⟩ := h
  refine ⟨x :: shared, u, v, us, vs, rfl, rfl, hne, hany, hahead.imp_right fun hlt => ?_⟩
  simp only [firstWith, rowsUnder, List.findIdx_map] at hlt
  rw [firstWith, firstWith, List.cons_append, List.cons_append, firstWith_cons rows x (by simp),
    firstWith_cons rows x (by simp)]
  exact findIdx_filterMap_lt hlt

private theorem firstWith_singleton {rows : List (Filed α)} (hrows : ∀ row ∈ rows, row.1 ≠ []) (x : Pattern) :
    firstWith (rows.map Prod.fst) [x] = (rows.map Filed.pattern).idxOf x := by
  rw [firstWith, List.idxOf, List.findIdx_map, List.findIdx_map]
  induction rows with
  | nil => rfl
  | cons row rows ih =>
    obtain ⟨_ | ⟨w, ws⟩, m⟩ := row
    · exact absurd rfl (hrows _ (List.mem_cons_self ..))
    · have ih := ih fun r hr => hrows r (List.mem_cons_of_mem _ hr)
      rw [List.findIdx_cons, List.findIdx_cons, ih]
      by_cases hw : w = x
      · simp [Filed.pattern, hw]
      · have hw' : (x == w) = false := beq_false_of_ne (Ne.symm hw)
        simp [Filed.pattern, List.isPrefixOf, hw', beq_false_of_ne hw]

private theorem outranks_of_idxOf_lt {rows : List (Filed α)} (hrows : ∀ row ∈ rows, row.1 ≠ [])
    {x y : Pattern} (as bs : List Pattern) (hne : x ≠ y) (hany : x ≠ .any)
    (h : y = .any ∨ (rows.map Filed.pattern).idxOf x < (rows.map Filed.pattern).idxOf y) :
    Outranks (rows.map Prod.fst) (x :: as) (y :: bs) := by
  refine ⟨[], x, y, as, bs, rfl, rfl, hne, hany, h.imp_right fun hlt => ?_⟩
  rwa [List.nil_append, List.nil_append, firstWith_singleton hrows, firstWith_singleton hrows]

/-! ### The search of the tree -/

private theorem accepts_cons_iff {p : Probe} {ps : List Probe} {row : Filed α} (h : row.1 ≠ []) :
    Accepts (p :: ps) row.1 ↔ p.Meets row.pattern ∧ Accepts ps row.1.tail := by
  rw [patterns_eq_cons h]
  exact List.forall₂_cons

private theorem filter_rowsUnder {rows : List (Filed α)} (hrows : ∀ row ∈ rows, row.1 ≠ []) (x : Pattern)
    (xs : List Pattern) :
    ((rowsUnder rows x).filter (·.1 = xs)).map Prod.snd = (rows.filter (·.1 = x :: xs)).map Prod.snd := by
  rw [map_filter_rowsUnder rows x (· = xs)]
  congr 1
  apply List.filter_congr
  intro row hrow
  rw [decide_eq_decide, patterns_eq_cons (hrows row hrow), List.cons.injEq]
  exact and_congr_right fun _ => decide_eq_true_iff

/-- Without levels every entry is found. -/
private theorem finds_nil {row : Filed α} {rows : List (Filed α)} (h : ∀ r ∈ row :: rows, r.1 = []) :
    Finds [] (row :: rows) (some ((row :: rows).map Prod.snd)) := by
  have hrow : row.1 = [] := h row (List.mem_cons_self ..)
  have hall : (row :: rows).filter (·.1 = row.1) = row :: rows := by
    rw [List.filter_eq_self]
    intro r hr
    simp [h r hr, hrow]
  have hbest : Finds [] (row :: rows) (some (((row :: rows).filter (·.1 = row.1)).map Prod.snd)) :=
    .best (List.mem_cons_self ..) (by rw [hrow]; exact .nil) fun r hr _ => .inl ((h r hr).trans hrow.symm)
  rwa [hall] at hbest

section

variable {p : Probe} {ps : List Probe} {rows : List (Filed α)}

private theorem finds_nothing (hrows : ∀ row ∈ rows, row.1 ≠ [])
    (hall : ∀ x ∈ tried p rows, Finds ps (rowsUnder rows x) none) : Finds (p :: ps) rows none := by
  refine .nothing fun row hrow haccepts => ?_
  obtain ⟨hmeets, htail⟩ := (accepts_cons_iff (hrows row hrow)).1 haccepts
  have hmem : row.pattern ∈ tried p rows := mem_tried.2 ⟨mem_labels.2 ⟨row, hrow, rfl⟩, hmeets⟩
  cases hall _ hmem with
  | nothing h => exact h (row.1.tail, row.2) (mem_rowsUnder.2 ⟨row, hrow, rfl, rfl⟩) htail

/-- What is best below the first child with a result is best among all entries. -/
private theorem finds_of_child (hrows : ∀ row ∈ rows, row.1 ≠ []) {before after : List Pattern} {x : Pattern}
    {found : List α} (htried : tried p rows = before ++ x :: after)
    (hbefore : ∀ y ∈ before, Finds ps (rowsUnder rows y) none) (hx : Finds ps (rowsUnder rows x) (some found)) :
    Finds (p :: ps) rows (some found) := by
  have horder := pairwise_tried p rows
  rw [htried] at horder
  have hxtried : x ∈ tried p rows := by simp [htried]
  cases hx with
  | @best top htop haccepts hbest =>
    obtain ⟨full, hfull, hfullx, rfl⟩ := mem_rowsUnder.1 htop
    have hpatterns : full.1 = x :: full.1.tail := hfullx ▸ patterns_eq_cons (hrows full hfull)
    have hmeets : p.Meets full.pattern := by
      rw [hfullx]
      exact (mem_tried.1 hxtried).2
    rw [filter_rowsUnder hrows, ← hpatterns]
    refine .best hfull ((accepts_cons_iff (hrows full hfull)).2 ⟨hmeets, haccepts⟩) ?_
    intro row hrow hrowaccepts
    obtain ⟨hrowmeets, htail⟩ := (accepts_cons_iff (hrows row hrow)).1 hrowaccepts
    have hunder : (row.1.tail, row.2) ∈ rowsUnder rows row.pattern := mem_rowsUnder.2 ⟨row, hrow, rfl, rfl⟩
    have hmem : row.pattern ∈ before ++ x :: after := by
      rw [← htried]
      exact mem_tried.2 ⟨mem_labels.2 ⟨row, hrow, rfl⟩, hrowmeets⟩
    rw [patterns_eq_cons (hrows row hrow), hpatterns]
    rcases List.mem_append.1 hmem with hmem | hmem
    · -- the search below an earlier child would have found the row
      cases hbefore _ hmem with
      | nothing h => exact absurd htail (h _ hunder)
    · rcases List.mem_cons.1 hmem with hx | hmem
      · rw [hx] at hunder ⊢
        rcases hbest _ hunder htail with h | h
        · exact .inl (congrArg (x :: ·) h)
        · exact .inr (outranks_cons h)
      · have hahead := (List.pairwise_cons.1 (List.pairwise_append.1 horder).2.1).1 _ hmem
        exact .inr (outranks_of_idxOf_lt hrows _ _ hahead.1 hahead.2.1 hahead.2.2)

private theorem forall_rowsUnder {P : List Pattern → Prop} {x : Pattern} (h : ∀ row ∈ rows, P row.1.tail) :
    ∀ row ∈ rowsUnder rows x, P row.1 := by
  intro row hrow
  obtain ⟨full, hfull, -, rfl⟩ := mem_rowsUnder.1 hrow
  exact h full hfull

private theorem decides_of_candidates {n : Nat} {ts : List (Tree α)}
    (h : (build (n + 1) rows).candidates p = .ok ts) : ∀ x ∈ labels rows, p.Decides x := by
  obtain ⟨kept, hkept, -⟩ := bind_eq_ok.1 h
  intro x hx
  exact exists_of_keepM hkept (x, build n (rowsUnder rows x)) (List.mem_map_of_mem hx)

private theorem find_build_cons (hdecides : ∀ x ∈ labels rows, p.Decides x) :
    (build (ps.length + 1) rows).find (p :: ps) =
      firstFound (fun x => find ps (build ps.length (rowsUnder rows x))) (tried p rows) := by
  rw [find, candidates_build hdecides, ← firstFound_map]
  rfl

end

/-- What the search of the tree finds, where it does not fail, is what the query finds among the entries. -/
theorem finds_of_find {query : List Probe} {rows : List (Filed α)} {found : Option (List α)}
    (hrows : ∀ row ∈ rows, row.1.length = query.length)
    (hfind : (build query.length rows).find query = .ok found) : Finds query rows found := by
  induction query generalizing rows found with
  | nil =>
    cases rows with
    | nil =>
      cases hfind
      exact .nothing (by simp)
    | cons row rows =>
      obtain rfl : some ((row :: rows).map Prod.snd) = found := Except.ok.inj hfind
      exact finds_nil fun r hr => List.length_eq_zero_iff.1 (hrows r hr)
  | cons p ps ih =>
    have hne : ∀ row ∈ rows, row.1 ≠ [] := by
      intro row hrow h
      simpa [h] using hrows row hrow
    have hbelow : ∀ x, ∀ row ∈ rowsUnder rows x, row.1.length = ps.length := by
      refine fun x => forall_rowsUnder (P := (·.length = ps.length)) fun row hrow => ?_
      rw [List.length_tail, hrows row hrow, List.length_cons, Nat.add_sub_cancel]
    obtain ⟨ts, hcandidates, -⟩ := bind_eq_ok.1 hfind
    rw [List.length_cons, find_build_cons (decides_of_candidates hcandidates)] at hfind
    rcases firstFound_eq_ok hfind with ⟨rfl, hall⟩ | ⟨before, x, after, htried, hbefore, hsome, hx⟩
    · exact finds_nothing hne fun x hx => ih (hbelow x) (hall x hx)
    · obtain ⟨members, rfl⟩ := Option.isSome_iff_exists.1 hsome
      exact finds_of_child hne htried (fun y hy => ih (hbelow y) (hbefore y hy)) (ih (hbelow x) hx)

/-- If the levels decide about all patterns of the entries, the search of the tree does not fail. -/
private theorem exists_find {query : List Probe} {rows : List (Filed α)}
    (hdecides : ∀ row ∈ rows, List.Forall₂ Probe.Decides query row.1) :
    ∃ found, (build query.length rows).find query = .ok found := by
  induction query generalizing rows with
  | nil => exact ⟨_, rfl⟩
  | cons p ps ih =>
    have hlabels : ∀ x ∈ labels rows, p.Decides x := by
      intro x hx
      obtain ⟨⟨patterns, m⟩, hrow, rfl⟩ := mem_labels.1 hx
      cases hdecides _ hrow with
      | cons h _ => exact h
    rw [List.length_cons, find_build_cons hlabels]
    refine exists_firstFound fun x _ => ih ?_
    refine forall_rowsUnder (P := List.Forall₂ Probe.Decides ps) fun row hrow => ?_
    obtain ⟨patterns, m⟩ := row
    cases hdecides _ hrow with
    | cons _ h => exact h

/-- If the levels decide about all patterns of the entries, the search of the tree finds what the query finds
among the entries. -/
theorem find_build {query : List Probe} {rows : List (Filed α)}
    (hrows : ∀ row ∈ rows, row.1.length = query.length)
    (hdecides : ∀ row ∈ rows, List.Forall₂ Probe.Decides query row.1) :
    ∃ found, (build query.length rows).find query = .ok found ∧ Finds query rows found := by
  obtain ⟨found, hfind⟩ := exists_find hdecides
  exact ⟨found, hfind, finds_of_find hrows hfind⟩

end Tree

end DecisionTables
