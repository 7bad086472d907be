import DecisionTables.Proofs.Table.Preparing
import DecisionTables.Proofs.Tree.Nodes

/-!
# The index of a table partitions its entries

The tree of an index has every entry in exactly one of its nodes, at the depth of the input levels and under the
normalized patterns of the entry, and shows the order of the table: within a node, and in the order of the
children of each node (`Index.Partitions`). This is so of all prepared entries that have their place in the list
as their position and at least as many patterns as there are input levels (`Index.build_partitions`), and the
entries of a prepared table are such entries (`Index.numbered_of_indexOf`).
-/

namespace DecisionTables.Index

/-- The entries have their places in the list as their positions. -/
def Numbered (entries : List ReadyEntry) : Prop :=
  entries.map (·.position) = List.range entries.length

/-- The input patterns of an entry are those of texts, or of the absence of texts, for at least so many levels. -/
def HasPatterns (inputs : Nat) (e : ReadyEntry) : Prop :=
  ∃ texts : List (Option String), inputs ≤ texts.length ∧ e.inputs = texts.map Pattern.ofText?

/-- A tree partitions entries by so many input patterns. -/
structure Partitions (inputs : Nat) (entries : List ReadyEntry) (t : Tree ReadyEntry) : Prop where
  /-- Every position is in exactly one node, and there once. -/
  once : (t.nodes.flatMap fun n => n.2.members.map (·.position)).Perm (List.range entries.length)
  /-- No node is deeper than there are patterns. -/
  depth : ∀ path node, (path, node) ∈ t.nodes → path.length ≤ inputs
  /-- Above that depth a node has no members. It has children, unless it is the root and there are no entries. -/
  above : ∀ path node, (path, node) ∈ t.nodes → path.length < inputs →
    node.members = [] ∧ (node.children = [] → path = [] ∧ entries = [])
  /-- At that depth a node has no children. It has members, unless it is the root and there are no entries. -/
  full : ∀ path node, (path, node) ∈ t.nodes → path.length = inputs →
    node.children = [] ∧ (node.members = [] → path = [] ∧ entries = [])
  /-- The positions in a node increase. -/
  increasing : ∀ path node, (path, node) ∈ t.nodes → (node.members.map (·.position)).Pairwise (· < ·)
  /-- The patterns on the way to a node are those of every entry in it. -/
  labels : ∀ path node, (path, node) ∈ t.nodes → ∀ e ∈ node.members,
    entries[e.position]? = some e ∧ path = e.inputs.take inputs
  /-- No child is under the wildcard as a text. -/
  concrete : ∀ path node, (path, node) ∈ t.nodes → ∀ child ∈ node.children, child.1 ≠ .text wildcard
  /-- The children of a node are under different patterns. -/
  distinct : ∀ path node, (path, node) ∈ t.nodes → (node.children.map Prod.fst).Nodup
  /-- The children of a node stand in the order of the first entries below them. -/
  ordered : ∀ path node, (path, node) ∈ t.nodes → node.children.Pairwise fun a b =>
    ∃ i j, a.2.IsFirst (·.position) i ∧ b.2.IsFirst (·.position) j ∧ i < j

section

variable {inputs : Nat} {entries : List ReadyEntry}

private theorem Numbered.pairwise (h : Numbered entries) : entries.Pairwise fun a b => a.position < b.position := by
  have hrange : (entries.map (·.position)).Pairwise (· < ·) := by
    rw [h]
    exact List.pairwise_lt_range
  rwa [List.pairwise_map] at hrange

theorem Numbered.getElem?_position (h : Numbered entries) {e : ReadyEntry} (he : e ∈ entries) :
    entries[e.position]? = some e := by
  obtain ⟨i, hi⟩ := List.mem_iff_getElem?.1 he
  have hposition : (entries.map (·.position))[i]? = some e.position := by
    rw [List.getElem?_map, hi]
    rfl
  rw [h] at hposition
  obtain ⟨hlt, hget⟩ := List.getElem?_eq_some_iff.1 hposition
  rw [List.getElem_range] at hget
  rwa [← hget]

theorem HasPatterns.length_le {e : ReadyEntry} (h : HasPatterns inputs e) : inputs ≤ e.inputs.length := by
  obtain ⟨texts, hlength, hinputs⟩ := h
  rwa [hinputs, List.length_map]

/-- The wildcard is not among the texts of patterns. -/
private theorem HasPatterns.ne_text_wildcard {e : ReadyEntry} (h : HasPatterns inputs e) {x : Pattern}
    (hx : x ∈ e.inputs) : x ≠ .text wildcard := by
  obtain ⟨texts, -, hinputs⟩ := h
  rw [hinputs] at hx
  obtain ⟨text, -, rfl⟩ := List.mem_map.1 hx
  cases text with
  | none => simp [Pattern.ofText?]
  | some s =>
    rw [Pattern.ofText?]
    split
    · simp
    · rename_i hs
      exact fun heq => hs (Pattern.text.inj heq)

end

/-- The entries of a prepared table have their places as their positions, and one pattern for each input level. -/
theorem numbered_of_indexOf {t : PreparedTable} {entries : List Entry} {index : Index}
    (h : t.indexOf entries = .ok index) :
    Numbered index.entries ∧ ∀ e ∈ index.entries, HasPatterns t.inputs.length e := by
  obtain ⟨hplaces, hready, -⟩ := PreparedTable.indexOf_eq_ok.1 h
  constructor
  · have hpositions := congrArg (List.map Prod.snd) hplaces
    have hlength := congrArg List.length hplaces
    rw [List.length_map, List.length_zipIdx] at hlength
    rw [List.map_map, List.zipIdx_map_snd, ← hlength, ← List.range_eq_range'] at hpositions
    exact hpositions
  · intro e he
    have hlength := PreparedTable.length_inputs_of_readyEntry (hready e he)
    obtain ⟨-, -, hinputs, -⟩ := PreparedTable.readyEntry_eq_ok.1 (hready e he)
    have hwildcard : ∀ x ∈ e.inputs, x ≠ .text wildcard :=
      forall_right_of_forall₂ (P := (· ≠ .text wildcard))
        (fun _ _ => ReadyLevel.normalizePattern_ne_text_wildcard) hinputs
    refine ⟨e.inputs.map Pattern.text?, by rw [List.length_map, hlength], ?_⟩
    rw [List.map_map]
    refine (List.map_id _).symm.trans (List.map_congr_left fun x hx => ?_)
    exact (Pattern.ofText?_text? (hwildcard x hx)).symm

/-! ### Filing the entries -/

/-- Entries as they are filed in the tree of an index. -/
def filed (entries : List ReadyEntry) : List (Tree.Filed ReadyEntry) :=
  entries.map fun e => (e.inputs, e)

section

variable {inputs : Nat} {entries : List ReadyEntry} {path : List Pattern} {node : Tree ReadyEntry}

private theorem tree_build (inputs : Nat) (entries : List ReadyEntry) :
    (Index.build inputs entries).tree = Tree.build inputs (filed entries) :=
  rfl

private theorem map_snd_filed (entries : List ReadyEntry) : (filed entries).map Prod.snd = entries := by
  rw [filed, List.map_map]
  exact List.map_id _

private theorem mem_filed {row : Tree.Filed ReadyEntry} :
    row ∈ filed entries ↔ row.2 ∈ entries ∧ row.1 = row.2.inputs := by
  rw [filed, List.mem_map]
  constructor
  · rintro ⟨e, he, rfl⟩
    exact ⟨he, rfl⟩
  · rintro ⟨he, hinputs⟩
    exact ⟨row.2, he, Prod.ext hinputs.symm rfl⟩

private theorem length_le_of_mem_filed (hpatterns : ∀ e ∈ entries, HasPatterns inputs e) :
    ∀ row ∈ filed entries, inputs ≤ row.1.length := by
  intro row hrow
  obtain ⟨he, hinputs⟩ := mem_filed.1 hrow
  rw [hinputs]
  exact (hpatterns _ he).length_le

/-- The members of a node are the entries with the patterns on the way to it, if it lies at the full depth. -/
private theorem members_of_mem_nodes (hpatterns : ∀ e ∈ entries, HasPatterns inputs e)
    (h : (path, node) ∈ (Tree.build inputs (filed entries)).nodes) :
    node.members = if path.length = inputs then entries.filter fun e => e.inputs.take inputs = path else [] := by
  by_cases hfull : path.length = inputs
  · obtain ⟨-, hmembers⟩ := Tree.full_of_mem_nodes (length_le_of_mem_filed hpatterns) h hfull
    rw [if_pos hfull, hmembers, filed, List.filter_map, List.map_map]
    exact List.map_id _
  · have habove : path.length < inputs := Nat.lt_of_le_of_ne (Tree.eq_build_of_mem_nodes h).1 hfull
    rw [if_neg hfull, (Tree.above_of_mem_nodes h habove).1]

private theorem sublist_members (hpatterns : ∀ e ∈ entries, HasPatterns inputs e)
    (h : (path, node) ∈ (Tree.build inputs (filed entries)).nodes) : node.members.Sublist entries := by
  rw [members_of_mem_nodes hpatterns h]
  split
  · exact List.filter_sublist
  · exact List.nil_sublist entries

end

/-- The tree of an index partitions the entries that it was built from. -/
theorem build_partitions {inputs : Nat} {entries : List ReadyEntry} (hnumbered : Numbered entries)
    (hpatterns : ∀ e ∈ entries, HasPatterns inputs e) :
    Partitions inputs entries (Index.build inputs entries).tree := by
  rw [tree_build]
  have hlength := length_le_of_mem_filed hpatterns
  have hnil : filed entries = [] → entries = [] := List.map_eq_nil_iff.1
  constructor
  case once =>
    have hperm := (Tree.perm_allMembers_build inputs (filed entries)).map (·.position)
    rw [map_snd_filed, hnumbered, Tree.allMembers, List.map_flatMap] at hperm
    exact hperm
  case depth => exact fun path node h => (Tree.eq_build_of_mem_nodes h).1
  case above =>
    intro path node h habove
    obtain ⟨hmembers, hchildren⟩ := Tree.above_of_mem_nodes h habove
    exact ⟨hmembers, fun hnone => (hchildren hnone).imp_right hnil⟩
  case full =>
    intro path node h hfull
    obtain ⟨hchildren, -⟩ := Tree.full_of_mem_nodes hlength h hfull
    exact ⟨hchildren, fun hnone => (Tree.eq_nil_of_members_eq_nil h hfull hnone).imp_right hnil⟩
  case increasing =>
    intro path node h
    rw [List.pairwise_map]
    exact hnumbered.pairwise.sublist (sublist_members hpatterns h)
  case labels =>
    intro path node h e he
    have hentry := hnumbered.getElem?_position ((sublist_members hpatterns h).subset he)
    rw [members_of_mem_nodes hpatterns h, List.mem_ite_nil_right, List.mem_filter, decide_eq_true_iff] at he
    exact ⟨hentry, he.2.2.symm⟩
  case concrete =>
    intro path node h child hchild
    obtain ⟨row, hrow, hx⟩ := Tree.exists_mem_of_mem_children hlength h hchild
    obtain ⟨he, hinputs⟩ := mem_filed.1 hrow
    rw [hinputs] at hx
    exact (hpatterns _ he).ne_text_wildcard hx
  case distinct => exact fun path node h => Tree.nodup_children h
  case ordered =>
    intro path node h
    refine Tree.pairwise_children hlength ?_ h
    rw [map_snd_filed]
    exact hnumbered.pairwise

/-! ### One level -/

/-- A level of codes and a rate for each code. -/
def coded : PreparedTable where
  name := "rates"
  source := "r0"
  inputs := [⟨"#0", none, .text, .strict, false, none⟩]
  outputs := [⟨"#1", none, .integer, .strict, false, none⟩]
  nullable := false
  cacheable := true
  identifiesEntries := false
  separator := ','
  index := none

def codedRates : List Entry :=
  [⟨[some "A", some "1"], none, none⟩, ⟨[some "*", some "2"], none, none⟩, ⟨[some "B", some "3"], none, none⟩,
    ⟨[some "A", some "4"], none, none⟩, ⟨[none, some "5"], none, none⟩]

def codedEntries : List ReadyEntry :=
  [⟨0, ⟨[some "A", some "1"], none, none⟩, [.text "A"], [.single (.integer 1)]⟩,
    ⟨1, ⟨[some "*", some "2"], none, none⟩, [.any], [.single (.integer 2)]⟩,
    ⟨2, ⟨[some "B", some "3"], none, none⟩, [.text "B"], [.single (.integer 3)]⟩,
    ⟨3, ⟨[some "A", some "4"], none, none⟩, [.text "A"], [.single (.integer 4)]⟩,
    ⟨4, ⟨[none, some "5"], none, none⟩, [.null], [.single (.integer 5)]⟩]

/-- Five entries of one level, of which two have the same code, are in four nodes. -/
theorem build_partitions_coded :
    coded.indexOf codedRates = .ok (.build 1 codedEntries) ∧ Numbered codedEntries ∧
      (∀ e ∈ codedEntries, HasPatterns 1 e) ∧ Partitions 1 codedEntries (Index.build 1 codedEntries).tree ∧
      (Index.build 1 codedEntries).tree.nodes.map (fun n => (n.1, n.2.members.map (·.position))) =
        [([], []), ([.text "A"], [0, 3]), ([.any], [1]), ([.text "B"], [2]), ([.null], [4])] := by
  have hindex : coded.indexOf codedRates = .ok (.build 1 codedEntries) := rfl
  obtain ⟨hnumbered, hpatterns⟩ := numbered_of_indexOf hindex
  exact ⟨hindex, hnumbered, hpatterns, build_partitions hnumbered hpatterns, rfl⟩

end DecisionTables.Index
