import DecisionTables.Tree.Walk

/-!
# The walk makes the search

A stack of frames stands for searches that are still to be made: those of the candidates of the frame on top,
one after the other, and then those of the frames below (`findStack`). A step of the walk keeps the result of
these searches, so a walk from the root gives what the recursive search gives (`search_eq_find`), errors
included.
-/

namespace DecisionTables.Tree

variable {α : Type}

/-- The members of the first tree with members that the frames of a stack lead to, the frame on top first. -/
def findStack : List (Frame α) → Except ConversionError (Option (List α))
  | [] => .ok none
  | f :: stack => do
    match ← firstFound (find f.below) f.pending with
    | some found => pure (some found)
    | none => findStack stack

theorem findStack_cons_cons (t : Tree α) (ts : List (Tree α)) (q : List Probe) (stack : List (Frame α)) :
    findStack (⟨t :: ts, q⟩ :: stack) =
      match find q t with
      | .error e => .error e
      | .ok (some found) => .ok (some found)
      | .ok none => findStack (⟨ts, q⟩ :: stack) := by
  simp only [findStack, firstFound, bind, Except.bind, pure, Except.pure]
  rcases find q t with e | _ | found <;> rfl

/-- The candidates of a tree in hand, put on top of the stack, stand for the search of the tree. -/
theorem findStack_push {p : Probe} {ps : List Probe} {t : Tree α} {below : List (Tree α)}
    (h : t.candidates p = .ok below) (ts : List (Tree α)) (stack : List (Frame α)) :
    findStack (⟨below, ps⟩ :: ⟨ts, p :: ps⟩ :: stack) = findStack (⟨t :: ts, p :: ps⟩ :: stack) := by
  rw [findStack_cons_cons, find, h]
  show (do match ← firstFound (find ps) below with
    | some found => pure (some found)
    | none => findStack (⟨ts, p :: ps⟩ :: stack)) = _
  simp only [bind, Except.bind, pure, Except.pure]
  rcases firstFound (find ps) below with e | _ | found <;> rfl

/-- A walk with enough steps makes the searches that its stack stands for. -/
private theorem walk_eq_findStack {n : Nat} {stack : List (Frame α)} (hn : effortOfStack stack ≤ n) :
    walk n stack = findStack stack := by
  induction n generalizing stack with
  | zero => cases stack <;> simp [effortOfStack] at hn
  | succ n ih =>
    rcases stack with _ | ⟨⟨_ | ⟨t, ts⟩, query⟩, stack⟩
    · rfl
    · simp only [effortOfStack, effortOfAll] at hn
      rw [walk, ih (by omega)]
      rfl
    · simp only [effortOfStack, effortOfAll] at hn
      cases query with
      | nil =>
        rw [walk, findStack_cons_cons, find]
        cases hm : t.members? with
        | some found => rfl
        | none =>
          have ht := two_le_effort t
          exact ih (by simp only [effortOfStack]; omega)
      | cons p ps =>
        rw [walk]
        cases hc : t.candidates p with
        | error e =>
          rw [findStack_cons_cons, find, hc]
          rfl
        | ok below =>
          have hb := effort_candidates_le hc
          rw [← findStack_push hc]
          exact ih (by simp only [effortOfStack]; omega)

/-- The walk from the root and the recursive search give the same result. -/
theorem search_eq_find (t : Tree α) (query : List Probe) : t.search query = t.find query := by
  rw [search, walk_eq_findStack (Nat.le_refl _), findStack_cons_cons]
  rcases find query t with e | _ | found <;> rfl

end DecisionTables.Tree
