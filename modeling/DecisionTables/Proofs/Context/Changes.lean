import DecisionTables.Context
import Mathlib.Data.List.Basic
import Mathlib.Data.List.Induction

/-!
# What a context holds after changes

A write is read back under its own path and hides what stood at the beginnings and the extensions of the path; what
stands under any other path stays (`Items.read_write`). So after any changes of an empty context a value stands
under a path exactly if it was written there and no later write touches the path, and the explicit values are those
of the last change that gave any (`Context.applyAll_eq_some_iff`). Neither kind of change matters to the other.
-/

namespace DecisionTables

private theorem pathSegments_ne_nil (path : String) : pathSegments path ≠ [] :=
  List.splitOn_ne_nil '.' path.toList

/-- A path is its segments with dots between them. -/
private theorem intercalate_pathSegments (path : String) : ['.'].intercalate (pathSegments path) = path.toList :=
  List.intercalate_splitOn '.'

private theorem pathSegments_injective {p q : String} (h : pathSegments p = pathSegments q) : p = q := by
  rw [← String.toList_inj, ← intercalate_pathSegments p, h, intercalate_pathSegments]

namespace Items

variable {items : Items} {value : Value}

/-- What is dropped stands under `s`, so it is not found under another segment. -/
private theorem lookup_filter_ne {s t : List Char} (h : t ≠ s) :
    (items.filter (·.1 != s)).lookup t = items.lookup t := by
  induction items with
  | nil => rfl
  | cons entry items ih =>
    obtain ⟨u, item⟩ := entry
    by_cases hu : u = s
    · subst hu
      simp [List.lookup_cons, beq_eq_false_iff_ne.2 h, ih]
    · simp only [bne_iff_ne, ne_eq, hu, not_false_eq_true, List.filter_cons_of_pos, List.lookup_cons, ih]

private theorem lookup_put (s t : List Char) (item : Item) :
    (put items s item).lookup t = if t = s then some item else items.lookup t := by
  by_cases h : t = s
  · simp [put, h]
  · simp [put, List.lookup_cons, beq_eq_false_iff_ne.2 h, lookup_filter_ne h, h]

/-- A longer path is read in the items below its first segment. -/
private theorem read_cons_cons (s t : List Char) (path : List (List Char)) :
    read (s :: t :: path) items = read (t :: path) (below items s) := by
  have hnil : read (t :: path) [] = none := by cases path <;> rfl
  rw [read, below]
  split
  · rfl
  · exact hnil.symm

/-- After a write a path gives the value if it is the one that was written to, nothing if one of the two is the
beginning of the other, and else what it gave before. -/
theorem read_write {p : List (List Char)} (hp : p ≠ []) (q : List (List Char)) :
    read q (write value p items) =
      if p = q then some value else if p <+: q ∨ q <+: p then none else read q items := by
  induction p generalizing items q with
  | nil => exact absurd rfl hp
  | cons s path ih =>
    cases q with
    | nil => simp [read]
    | cons t rest =>
      by_cases h : t = s
      · subst h
        cases path with
        | nil => cases rest <;> simp [write, read, lookup_put]
        | cons next path =>
          cases rest with
          | nil => simp [write, read, lookup_put]
          | cons u rest =>
            -- both go on below the segment that they have in front
            rw [read_cons_cons, read_cons_cons, write, below, lookup_put, if_pos rfl]
            dsimp only
            rw [ih (List.cons_ne_nil next path)]
            simp only [List.cons.injEq, List.cons_prefix_cons, true_and]
      · have hs : s ≠ t := Ne.symm h
        have hlookup : (write value (s :: path) items).lookup t = items.lookup t := by
          cases path <;> rw [write, lookup_put, if_neg h]
        cases rest <;> simp [read, hlookup, h, hs]

end Items

namespace Context

/-- A change of a context. -/
inductive Change where
  /-- Writes a value under a path. -/
  | item (path : String) (value : Value)
  /-- Gives explicit values for the input levels. -/
  | levels (values : List Value)

namespace Change

/-- Writes to a path, to a beginning of the path, or to an extension of it. -/
def Touches (path : String) : Change → Prop
  | .item p _ => pathSegments p <+: pathSegments path ∨ pathSegments path <+: pathSegments p
  | .levels _ => False

/-- Gives explicit values. -/
def GivesLevels : Change → Prop
  | .item _ _ => False
  | .levels _ => True

end Change

/-- The context after a change. -/
def apply (c : Context) : Change → Context
  | .item path value => c.insert path value
  | .levels values => c.withLevelValues values

/-- The context after changes in order. -/
def applyAll (c : Context) (changes : List Change) : Context :=
  changes.foldl apply c

/-- A change is among others, and none behind it is of a kind. -/
def IsLast (kind : Change → Prop) (change : Change) (changes : List Change) : Prop :=
  ∃ before after, changes = before ++ change :: after ∧ ∀ later ∈ after, ¬ kind later

variable {kind : Change → Prop} {change : Change}

private theorem not_isLast_nil : ¬ IsLast kind change [] := by
  rintro ⟨before, after, h, -⟩
  simp at h

private theorem isLast_concat_iff (changes : List Change) (c : Change) :
    IsLast kind change (changes ++ [c]) ↔ c = change ∨ ¬ kind c ∧ IsLast kind change changes := by
  constructor
  · rintro ⟨before, after, h, hlater⟩
    induction after using List.reverseRecOn with
    | nil =>
      left
      obtain ⟨-, hc⟩ := List.append_inj' h rfl
      exact (List.cons.inj hc).1
    | append_singleton after d _ =>
      right
      rw [← List.cons_append, ← List.append_assoc] at h
      obtain ⟨rfl, hd⟩ := List.append_inj' h rfl
      obtain rfl : c = d := (List.cons.inj hd).1
      exact ⟨hlater c (by simp), before, after, rfl, fun later hl => hlater later (by simp [hl])⟩
  · rintro (rfl | ⟨hc, before, after, rfl, hlater⟩)
    · exact ⟨changes, [], rfl, by simp⟩
    · refine ⟨before, after ++ [c], by simp, fun later hl => ?_⟩
      rcases List.mem_append.1 hl with hl | hl
      · exact hlater later hl
      · rw [List.mem_singleton.1 hl]
        exact hc

private theorem get?_apply (c : Context) (change : Change) (path : String) (value : Value) :
    (c.apply change).get? path = some value ↔
      change = .item path value ∨ ¬ change.Touches path ∧ c.get? path = some value := by
  cases change with
  | levels values => simp [apply, withLevelValues, get?, Change.Touches]
  | item p v =>
    rw [apply, insert, get?, Items.read_write (pathSegments_ne_nil p)]
    by_cases hp : pathSegments p = pathSegments path
    · simp [pathSegments_injective hp, Change.Touches]
    · have hne : p ≠ path := fun h => hp (congrArg pathSegments h)
      by_cases ht : pathSegments p <+: pathSegments path ∨ pathSegments path <+: pathSegments p <;>
        simp [hp, hne, ht, Change.Touches, get?]

private theorem levelValues_apply (c : Context) (change : Change) (values : List Value) :
    (c.apply change).levelValues = some values ↔
      change = .levels values ∨ ¬ change.GivesLevels ∧ c.levelValues = some values := by
  cases change <;> simp [apply, insert, withLevelValues, Change.GivesLevels]

/-- After any changes of an empty context a path gives a value exactly if the value was written under this path and
no later write went to the path, to a beginning of it or to an extension of it; and the explicit values are the ones
that were given last. -/
theorem applyAll_eq_some_iff (changes : List Change) :
    (∀ path value, (applyAll {} changes).get? path = some value ↔
      IsLast (Change.Touches path) (.item path value) changes) ∧
    ∀ values, (applyAll {} changes).levelValues = some values ↔
      IsLast Change.GivesLevels (.levels values) changes := by
  induction changes using List.reverseRecOn with
  | nil =>
    refine ⟨fun path value => ?_, fun values => ?_⟩
    · have hempty : (applyAll {} []).get? path = none := by
        show Items.read (pathSegments path) [] = none
        cases hp : pathSegments path with
        | nil => rfl
        | cons s rest => cases rest <;> rfl
      simp [hempty, not_isLast_nil]
    · simp [applyAll, not_isLast_nil]
  | append_singleton changes change ih =>
    have happly : applyAll {} (changes ++ [change]) = (applyAll {} changes).apply change := by simp [applyAll]
    rw [happly]
    refine ⟨fun path value => ?_, fun values => ?_⟩
    · rw [get?_apply, isLast_concat_iff, ih.1]
    · rw [levelValues_apply, isLast_concat_iff, ih.2]

/-- A write below a value hides the value, and a write of a value hides what is below. -/
example :
    let c := applyAll {} [.item "holder" .null, .item "holder.age" (.integer 30), .item "a..b" .null, .item "a" .null]
    c.get? "holder" = none ∧ c.get? "holder.age" = some (.integer 30) ∧ c.get? "a..b" = none := by
  decide

end Context

end DecisionTables
