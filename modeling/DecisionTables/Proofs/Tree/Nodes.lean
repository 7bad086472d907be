import DecisionTables.Proofs.Tree.Ranking
import Mathlib.Data.List.Perm.Basic
import Mathlib.Order.Bounds.Basic

/-!
# The nodes of a tree of entries

A node of the tree that entries are divided into stands for the entries with the patterns on the way to it: it divides
just these, by the patterns that follow, into as many levels as there are below it (`eq_build_of_mem_nodes`,
`members_eq_of_mem_nodes`). So its children have different patterns, in the order of the first entries below them
(`nodup_children`, `pairwise_children`). Dividing loses no entry and files none twice: the members of all nodes
together are a permutation of the entries (`perm_allMembers_build`).
-/

namespace DecisionTables.Tree

variable {α : Type}

mutual

/-- The nodes of a tree, itself first, each with the patterns on the way to it. -/
def nodes : Tree α → List (List Pattern × Tree α)
  | ⟨ms, cs⟩ => ([], ⟨ms, cs⟩) :: nodesOfChildren cs
termination_by structural t => t

/-- The nodes of some children. -/
def nodesOfChildren : List (Pattern × Tree α) → List (List Pattern × Tree α)
  | [] => []
  | c :: cs => nodesOfChild c ++ nodesOfChildren cs
termination_by structural cs => cs

/-- The nodes of a child, with its pattern in front. -/
def nodesOfChild : Pattern × Tree α → List (List Pattern × Tree α)
  | (x, t) => t.nodes.map fun n => (x :: n.1, n.2)
termination_by structural c => c

end

/-- The members of all nodes. -/
def allMembers (t : Tree α) : List α :=
  t.nodes.flatMap (·.2.members)

private theorem nodesOfChildren_eq (cs : List (Pattern × Tree α)) :
    nodesOfChildren cs = cs.flatMap fun c => c.2.nodes.map fun n => (c.1 :: n.1, n.2) := by
  induction cs with
  | nil => rfl
  | cons c cs ih =>
    obtain ⟨x, t⟩ := c
    rw [nodesOfChildren, nodesOfChild, ih, List.flatMap_cons]

private theorem nodes_eq (t : Tree α) :
    t.nodes = ([], t) :: t.children.flatMap fun c => c.2.nodes.map fun n => (c.1 :: n.1, n.2) := by
  obtain ⟨ms, cs⟩ := t
  rw [nodes, nodesOfChildren_eq]

private theorem cons_mem_nodes {t node : Tree α} {x : Pattern} {path : List Pattern} :
    (x :: path, node) ∈ t.nodes ↔ ∃ s, (x, s) ∈ t.children ∧ (path, node) ∈ s.nodes := by
  rw [nodes_eq]
  simp only [List.mem_cons, List.mem_flatMap, List.mem_map, Prod.mk.injEq, reduceCtorEq, false_and, false_or,
    List.cons.injEq]
  constructor
  · rintro ⟨⟨y, s⟩, hs, ⟨p, n⟩, hn, ⟨rfl, rfl⟩, rfl⟩
    exact ⟨s, hs, hn⟩
  · rintro ⟨s, hs, hn⟩
    exact ⟨(x, s), hs, (path, node), hn, ⟨rfl, rfl⟩, rfl⟩

private theorem nil_mem_nodes {t node : Tree α} : ([], node) ∈ t.nodes ↔ node = t := by
  rw [nodes_eq]
  simp

private theorem allMembers_eq (t : Tree α) : t.allMembers = t.members ++ t.children.flatMap (·.2.allMembers) := by
  rw [allMembers, nodes_eq, List.flatMap_cons, List.flatMap_assoc]
  simp only [List.flatMap_map]
  rfl

/-! ### The entries with some patterns in front -/

/-- The entries with some patterns in front, with the patterns that follow. -/
def rowsBelow (rows : List (Filed α)) : List Pattern → List (Filed α)
  | [] => rows
  | x :: path => rowsBelow (rowsUnder rows x) path

section

variable {rows : List (Filed α)} {path : List Pattern}

private theorem length_le_of_mem_rowsUnder {n : Nat} (hrows : ∀ row ∈ rows, n + 1 ≤ row.1.length) {x : Pattern} :
    ∀ row ∈ rowsUnder rows x, n ≤ row.1.length := by
  intro row hrow
  obtain ⟨full, hfull, -, rfl⟩ := mem_rowsUnder.1 hrow
  have := hrows full hfull
  rw [List.length_tail]
  omega

private theorem ne_nil_of_length {n : Nat} (hrows : ∀ row ∈ rows, n + 1 ≤ row.1.length) {row : Filed α}
    (hrow : row ∈ rows) : row.1 ≠ [] := by
  intro hnil
  simpa [hnil] using hrows row hrow

private theorem append_mem_of_mem_rowsBelow (hrows : ∀ row ∈ rows, path.length ≤ row.1.length) {row : Filed α}
    (h : row ∈ rowsBelow rows path) : (path ++ row.1, row.2) ∈ rows := by
  induction path generalizing rows with
  | nil => exact h
  | cons x path ih =>
    obtain ⟨full, hfull, hx, hrow⟩ := mem_rowsUnder.1 (ih (length_le_of_mem_rowsUnder hrows) h)
    obtain ⟨htail, hmember⟩ := Prod.mk.inj hrow
    have hpatterns := patterns_eq_cons (ne_nil_of_length hrows hfull)
    rw [hx, ← htail] at hpatterns
    rw [hmember, List.cons_append, ← hpatterns]
    exact hfull

/-- The entries with some patterns in front, in their order. -/
private theorem map_snd_rowsBelow (hrows : ∀ row ∈ rows, path.length ≤ row.1.length) :
    (rowsBelow rows path).map Prod.snd = (rows.filter (·.1.take path.length = path)).map Prod.snd := by
  induction path generalizing rows with
  | nil =>
    have hall : rows.filter (·.1.take 0 = []) = rows := List.filter_eq_self.2 fun row _ => by simp
    rw [rowsBelow, List.length_nil, hall]
  | cons x path ih =>
    rw [rowsBelow, ih (length_le_of_mem_rowsUnder hrows), map_filter_rowsUnder rows x (·.take path.length = path)]
    congr 1
    apply List.filter_congr
    intro row hrow
    rw [decide_eq_decide, patterns_eq_cons (ne_nil_of_length hrows hrow), List.length_cons, List.take_succ_cons,
      List.cons.injEq]
    exact and_congr_right fun _ => decide_eq_true_iff

private theorem sublist_rowsBelow (hrows : ∀ row ∈ rows, path.length ≤ row.1.length) :
    ((rowsBelow rows path).map Prod.snd).Sublist (rows.map Prod.snd) := by
  rw [map_snd_rowsBelow hrows]
  exact List.filter_sublist.map Prod.snd

private theorem map_snd_rowsUnder (rows : List (Filed α)) (x : Pattern) :
    (rowsUnder rows x).map Prod.snd = (rows.filter (·.pattern = x)).map Prod.snd := by
  have h := map_filter_rowsUnder rows x fun _ => true
  simpa using h

private theorem mem_snd_rowsUnder {x : Pattern} {m : α} :
    m ∈ (rowsUnder rows x).map Prod.snd ↔ ∃ row ∈ rows, row.pattern = x ∧ row.2 = m := by
  rw [map_snd_rowsUnder]
  simp [and_assoc]

end

/-! ### What a node stands for -/

private theorem mem_children_build {n : Nat} {rows : List (Filed α)} {x : Pattern} {t : Tree α} :
    (x, t) ∈ (build n rows).children ↔ ∃ k, n = k + 1 ∧ x ∈ labels rows ∧ t = build k (rowsUnder rows x) := by
  cases n with
  | zero => simp [build]
  | succ n =>
    simp only [build, List.mem_map, Prod.mk.injEq, Nat.add_right_cancel_iff, exists_eq_left']
    constructor
    · rintro ⟨y, hy, rfl, rfl⟩
      exact ⟨hy, rfl⟩
    · rintro ⟨hx, rfl⟩
      exact ⟨x, hx, rfl, rfl⟩

private theorem map_fst_children_build (n : Nat) (rows : List (Filed α)) :
    (build (n + 1) rows).children.map Prod.fst = labels rows := by
  rw [build, List.map_map]
  exact List.map_id _

section

variable {n : Nat} {rows : List (Filed α)} {path : List Pattern} {node : Tree α}

/-- A node divides the entries with the patterns on the way to it into the levels below, and below the root there are
such entries. -/
theorem eq_build_of_mem_nodes (h : (path, node) ∈ (build n rows).nodes) :
    path.length ≤ n ∧ node = build (n - path.length) (rowsBelow rows path) ∧
      (rowsBelow rows path = [] → path = []) := by
  induction path generalizing n rows with
  | nil => exact ⟨Nat.zero_le n, nil_mem_nodes.1 h, fun _ => rfl⟩
  | cons x path ih =>
    obtain ⟨s, hs, hnode⟩ := cons_mem_nodes.1 h
    obtain ⟨k, rfl, hx, rfl⟩ := mem_children_build.1 hs
    obtain ⟨hlength, hbuild, hinhabited⟩ := ih hnode
    rw [List.length_cons, Nat.add_sub_add_right]
    refine ⟨Nat.succ_le_succ hlength, hbuild, fun hnil => ?_⟩
    -- there is a child for a pattern only if an entry has it
    obtain ⟨row, hrow, hpattern⟩ := mem_labels.1 hx
    have hunder : (row.1.tail, row.2) ∈ rowsUnder rows x := mem_rowsUnder.2 ⟨row, hrow, hpattern, rfl⟩
    rw [rowsBelow] at hnil
    rw [hinhabited hnil] at hnil
    rw [rowsBelow] at hnil
    rw [hnil] at hunder
    cases hunder

/-- At the full depth there are the entries with the patterns on the way. -/
theorem full_of_mem_nodes (hrows : ∀ row ∈ rows, n ≤ row.1.length) (h : (path, node) ∈ (build n rows).nodes)
    (hfull : path.length = n) :
    node.children = [] ∧ node.members = (rows.filter (·.1.take n = path)).map Prod.snd := by
  obtain ⟨-, hnode, -⟩ := eq_build_of_mem_nodes h
  subst hfull
  rw [Nat.sub_self] at hnode
  rw [hnode, ← map_snd_rowsBelow hrows]
  exact ⟨rfl, rfl⟩

/-- There is nothing at the full depth only where there are no entries and no levels. -/
theorem eq_nil_of_members_eq_nil (h : (path, node) ∈ (build n rows).nodes) (hfull : path.length = n)
    (hmembers : node.members = []) : path = [] ∧ rows = [] := by
  obtain ⟨-, hnode, hinhabited⟩ := eq_build_of_mem_nodes h
  rw [hfull, Nat.sub_self] at hnode
  rw [hnode] at hmembers
  have hnil : rowsBelow rows path = [] := List.map_eq_nil_iff.1 hmembers
  have hroot := hinhabited hnil
  rw [hroot] at hnil
  exact ⟨hroot, hnil⟩

/-- Above the full depth there are no members, but children wherever there are entries. -/
theorem above_of_mem_nodes (h : (path, node) ∈ (build n rows).nodes) (habove : path.length < n) :
    node.members = [] ∧ (node.children = [] → path = [] ∧ rows = []) := by
  obtain ⟨-, hnode, hinhabited⟩ := eq_build_of_mem_nodes h
  obtain ⟨k, hk⟩ : ∃ k, n - path.length = k + 1 := ⟨n - path.length - 1, by omega⟩
  rw [hk] at hnode
  subst hnode
  refine ⟨rfl, fun hchildren => ?_⟩
  have hlabels := map_fst_children_build k (rowsBelow rows path)
  rw [hchildren] at hlabels
  have hnil : rowsBelow rows path = [] := by
    refine List.eq_nil_iff_forall_not_mem.2 fun row hrow => ?_
    have hlabel : row.pattern ∈ labels (rowsBelow rows path) := mem_labels.2 ⟨row, hrow, rfl⟩
    rw [← hlabels] at hlabel
    cases hlabel
  have hroot := hinhabited hnil
  rw [hroot] at hnil
  exact ⟨hroot, hnil⟩

/-! ### The children of a node -/

/-- A pattern by which a node has a child is a pattern of an entry. -/
theorem exists_mem_of_mem_children (hrows : ∀ row ∈ rows, n ≤ row.1.length)
    (h : (path, node) ∈ (build n rows).nodes) {child : Pattern × Tree α} (hchild : child ∈ node.children) :
    ∃ row ∈ rows, child.1 ∈ row.1 := by
  obtain ⟨hlength, rfl, -⟩ := eq_build_of_mem_nodes h
  obtain ⟨k, hk, hx, -⟩ := mem_children_build.1 hchild
  obtain ⟨row, hrow, hpattern⟩ := mem_labels.1 hx
  have hfull := append_mem_of_mem_rowsBelow (fun row hrow => hlength.trans (hrows row hrow)) hrow
  have hrest := hrows _ hfull
  rw [List.length_append] at hrest
  have hne : row.1 ≠ [] := List.ne_nil_of_length_pos (by omega)
  refine ⟨_, hfull, List.mem_append_right _ ?_⟩
  rw [patterns_eq_cons hne, hpattern]
  exact List.mem_cons_self

theorem nodup_children (h : (path, node) ∈ (build n rows).nodes) : (node.children.map Prod.fst).Nodup := by
  obtain ⟨-, rfl, -⟩ := eq_build_of_mem_nodes h
  cases n - path.length with
  | zero => exact List.nodup_nil
  | succ k =>
    rw [map_fst_children_build]
    exact nodup_eraseDups _

end

/-! ### All entries, each once -/

/-- Elements that are sorted by a key of theirs, one key after the other, are the elements. -/
private theorem perm_flatMap_filter {β γ : Type} [DecidableEq γ] (key : β → γ) {keys : List γ} (hkeys : keys.Nodup)
    {bs : List β} (hcover : ∀ b ∈ bs, key b ∈ keys) :
    (keys.flatMap fun k => bs.filter (key · = k)).Perm bs := by
  induction keys generalizing bs with
  | nil =>
    have hnil : bs = [] := List.eq_nil_iff_forall_not_mem.2 fun b hb => by simpa using hcover b hb
    rw [hnil]
    rfl
  | cons k keys ih =>
    obtain ⟨hk, hkeys⟩ := List.nodup_cons.1 hkeys
    -- what does not have the first key is sorted by the others
    have hrest : (keys.flatMap fun j => bs.filter (key · = j)) =
        keys.flatMap fun j => (bs.filter (key · ≠ k)).filter (key · = j) := by
      apply List.flatMap_congr
      intro j hj
      rw [List.filter_filter]
      apply List.filter_congr
      intro b _
      have hne : j ≠ k := fun h => hk (h ▸ hj)
      by_cases hb : key b = j <;> simp [hb, hne]
    have hcover' : ∀ b ∈ bs.filter (key · ≠ k), key b ∈ keys := by
      intro b hb
      obtain ⟨hmem, hne⟩ := List.mem_filter.1 hb
      exact (List.mem_cons.1 (hcover b hmem)).resolve_left (by simpa using hne)
    rw [List.flatMap_cons, hrest]
    refine ((ih hkeys hcover').append_left _).trans ?_
    have hsplit := List.filter_append_perm (key · = k) bs
    simpa using hsplit

/-- Every entry is among the members of exactly one node, and there once. -/
theorem perm_allMembers_build (n : Nat) (rows : List (Filed α)) :
    (build n rows).allMembers.Perm (rows.map Prod.snd) := by
  induction n generalizing rows with
  | zero =>
    rw [allMembers_eq, build, List.flatMap_nil, List.append_nil]
  | succ n ih =>
    have hchildren : (build (n + 1) rows).allMembers =
        (labels rows).flatMap fun x => (build n (rowsUnder rows x)).allMembers := by
      rw [allMembers_eq, build, List.nil_append, List.flatMap_map]
      rfl
    have hlabels : ((labels rows).flatMap fun x => rows.filter (·.pattern = x)).Perm rows :=
      perm_flatMap_filter Filed.pattern (nodup_eraseDups _) fun row hrow => mem_labels.2 ⟨row, hrow, rfl⟩
    rw [hchildren]
    refine (List.Perm.flatMap_left _ fun x _ => ih (rowsUnder rows x)).trans ?_
    simp only [map_snd_rowsUnder]
    rw [← List.map_flatMap]
    exact hlabels.map Prod.snd

/-! ### The order of the children -/

/-- The first place of the members below a tree. -/
def IsFirst (place : α → Nat) (t : Tree α) (i : Nat) : Prop :=
  IsLeast {k | ∃ m ∈ t.allMembers, place m = k} i

private theorem IsFirst.build_congr {place : α → Nat} {n : Nat} {rows : List (Filed α)} {i : Nat} :
    IsFirst place (build n rows) i ↔ IsLeast {k | ∃ m ∈ rows.map Prod.snd, place m = k} i := by
  simp only [IsFirst, (perm_allMembers_build n rows).mem_iff]

section

variable {place : α → Nat} {rows : List (Filed α)} {x : Pattern} {row : Filed α}

/-- The entry where a pattern first occurs has it, and no entry in front of it does. -/
private theorem pattern_of_idxOf (hrow : rows[(rows.map Filed.pattern).idxOf x]? = some row) :
    row.pattern = x ∧ ∀ j other, rows[j]? = some other → other.pattern = x →
      (rows.map Filed.pattern).idxOf x ≤ j := by
  obtain ⟨hlt, hget⟩ := List.getElem?_eq_some_iff.1 hrow
  have hlt' : (rows.map Filed.pattern).idxOf x < (rows.map Filed.pattern).length := by rwa [List.length_map]
  constructor
  · have hx := List.getElem_idxOf hlt'
    rw [List.getElem_map, hget] at hx
    exact hx
  · intro j other hother hx
    obtain ⟨hj, hget'⟩ := List.getElem?_eq_some_iff.1 hother
    by_contra hbefore
    rw [Nat.not_le, List.idxOf] at hbefore
    have hne := List.not_of_lt_findIdx hbefore
    rw [List.getElem_map, hget', hx] at hne
    simp at hne

/-- The first entry below a child is the first one with its pattern. -/
private theorem isFirst_rowsUnder (hplaces : rows.Pairwise fun a b => place a.2 < place b.2) (n : Nat)
    (hrow : rows[(rows.map Filed.pattern).idxOf x]? = some row) :
    IsFirst place (build n (rowsUnder rows x)) (place row.2) := by
  obtain ⟨hpattern, hfirst⟩ := pattern_of_idxOf hrow
  rw [IsFirst.build_congr]
  constructor
  · exact ⟨row.2, mem_snd_rowsUnder.2 ⟨row, List.mem_of_getElem? hrow, hpattern, rfl⟩, rfl⟩
  · rintro k ⟨m, hm, rfl⟩
    obtain ⟨other, hother, hx, rfl⟩ := mem_snd_rowsUnder.1 hm
    obtain ⟨j, hj⟩ := List.mem_iff_getElem?.1 hother
    rcases Nat.eq_or_lt_of_le (hfirst j other hj hx) with heq | hlt
    · rw [heq, hj] at hrow
      rw [Option.some.inj hrow]
    · obtain ⟨hi, hget⟩ := List.getElem?_eq_some_iff.1 hrow
      obtain ⟨hj', hget'⟩ := List.getElem?_eq_some_iff.1 hj
      have hless := List.pairwise_iff_getElem.1 hplaces _ _ hi hj' hlt
      rw [hget, hget'] at hless
      exact Nat.le_of_lt hless

private theorem exists_getElem?_idxOf (hx : x ∈ labels rows) :
    ∃ row, rows[(rows.map Filed.pattern).idxOf x]? = some row := by
  have hmem : x ∈ rows.map Filed.pattern := List.mem_eraseDups.1 hx
  have hlt := List.idxOf_lt_length_of_mem hmem
  rw [List.length_map] at hlt
  exact ⟨_, List.getElem?_eq_getElem hlt⟩

end

/-- The children of every node stand in the order of the first entries below them. -/
theorem pairwise_children {place : α → Nat} {n : Nat} {rows : List (Filed α)} {path : List Pattern} {node : Tree α}
    (hrows : ∀ row ∈ rows, n ≤ row.1.length) (hplaces : (rows.map Prod.snd).Pairwise fun a b => place a < place b)
    (h : (path, node) ∈ (build n rows).nodes) :
    node.children.Pairwise fun a b => ∃ i j, IsFirst place a.2 i ∧ IsFirst place b.2 j ∧ i < j := by
  obtain ⟨hlength, rfl, -⟩ := eq_build_of_mem_nodes h
  have hplaces' : (rowsBelow rows path).Pairwise fun a b => place a.2 < place b.2 := by
    have hsome := hplaces.sublist (sublist_rowsBelow fun row hrow => hlength.trans (hrows row hrow))
    rwa [List.pairwise_map] at hsome
  cases n - path.length with
  | zero => exact List.Pairwise.nil
  | succ k =>
    rw [build, List.pairwise_map]
    refine List.Pairwise.imp_of_mem ?_ (pairwise_eraseDups ((rowsBelow rows path).map Filed.pattern))
    intro x y hx hy hbefore
    obtain ⟨row, hrow⟩ := exists_getElem?_idxOf hx
    obtain ⟨other, hother⟩ := exists_getElem?_idxOf hy
    refine ⟨_, _, isFirst_rowsUnder hplaces' k hrow, isFirst_rowsUnder hplaces' k hother, ?_⟩
    obtain ⟨hi, hget⟩ := List.getElem?_eq_some_iff.1 hrow
    obtain ⟨hj, hget'⟩ := List.getElem?_eq_some_iff.1 hother
    have hless := List.pairwise_iff_getElem.1 hplaces' _ _ hi hj hbefore
    rwa [hget, hget'] at hless

end DecisionTables.Tree
