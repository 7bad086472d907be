import DecisionTables.Proofs.Tree.Backtracking
import DecisionTables.Proofs.Tree.FirstOccurrence

/-!
# The walk as a loop

The walk in the form of a loop over a stack of cursors. A cursor has the candidates of a tree that was visited
and counts those that were taken; for which level it stands is not kept, but read off the height of the stack. A
round takes the next candidate of the cursor on top or drops an exhausted cursor (`round`). No stack is higher
than the query is long, and each round lowers the effort that is left in the open cursors and keeps what the
stack stands for (`keeps_round`). So the loop returns from every tree, and with the result of the recursive
search (`returns_iff_find`).

That result is the first of the events that a visit of the whole tree in the same order would come across
(`find_eq_firstOf`): comparisons that fail, and members at the full depth. A failure counts only where no such members
are in front of it. Members above the full depth, and children at it, are not looked at.
-/

namespace DecisionTables.Tree

variable {α : Type}

/-- The candidates of a tree that was visited, and how many of them have been taken. -/
structure Cursor (α : Type) where
  candidates : List (Tree α)
  taken : Nat

/-- What the loop comes to: a result, another stack, or a level that the query does not have. -/
inductive Progress (α : Type) where
  | ended (result : Except ConversionError (Option (List α)))
  | ongoing (stack : List (Cursor α))
  | stuck

/-- Visits a tree: its candidates for a value go on top of the stack, unless a comparison fails. -/
def visit (p : Probe) (t : Tree α) (stack : List (Cursor α)) : Progress α :=
  match t.candidates p with
  | .error e => .ended (.error e)
  | .ok ts => .ongoing (⟨ts, 0⟩ :: stack)

/-- Looks at a candidate at the full depth: its members are the result, if it has any. -/
def arrive (t : Tree α) (stack : List (Cursor α)) : Progress α :=
  match t.members? with
  | some found => .ended (.ok (some found))
  | none => .ongoing stack

/-- The loop begins with the candidates for the first value. Without values the tree is the one that was sought. -/
def enter (query : List Probe) (t : Tree α) : Progress α :=
  match query with
  | [] => .ended (.ok t.members?)
  | p :: _ => visit p t []

/-- A round of the loop. The candidates of a stack that is as high as the query is long are at the full depth. -/
def round (query : List Probe) : List (Cursor α) → Progress α
  | [] => .ended (.ok none)
  | c :: stack =>
    match c.candidates[c.taken]? with
    | none => .ongoing stack
    | some t =>
      if stack.length + 1 = query.length then arrive t (⟨c.candidates, c.taken + 1⟩ :: stack)
      else
        match query[stack.length + 1]? with
        | some p => visit p t (⟨c.candidates, c.taken + 1⟩ :: stack)
        | none => .stuck

/-- The loop returns a result, after finitely many rounds. -/
inductive Returns (query : List Probe) : Progress α → Except ConversionError (Option (List α)) → Prop
  | ended (result) : Returns query (.ended result) result
  | ongoing {stack result} (h : Returns query (round query stack) result) : Returns query (.ongoing stack) result

/-- The loop returns at most one result. -/
theorem Returns.unique {query : List Probe} {progress : Progress α} {r r' : Except ConversionError (Option (List α))}
    (h : Returns query progress r) (h' : Returns query progress r') : r = r' := by
  induction h with
  | ended result =>
    cases h'
    rfl
  | ongoing _ ih =>
    cases h' with
    | ongoing h' => exact ih h'

/-! ### What a stack stands for -/

/-- The frames of a walk with the candidates that the cursors have left. The height of the stack tells the values for
the levels below them. -/
def frames (query : List Probe) : List (Cursor α) → List (Frame α)
  | [] => []
  | c :: stack => ⟨c.candidates.drop c.taken, query.drop (stack.length + 1)⟩ :: frames query stack

/-- The effort that is left in the open cursors. -/
def effortLeft (query : List Probe) (stack : List (Cursor α)) : Nat :=
  effortOfStack (frames query stack)

/-- What a stack comes to keeps what it stands for: a result is the one of the searches that are still to be made, and
another stack stands for the same searches, with less effort, and is not too high for the query. -/
def Keeps (query : List Probe) (stack : List (Cursor α)) : Progress α → Prop
  | .ended result => findStack (frames query stack) = result
  | .ongoing stack' => stack'.length ≤ query.length ∧
      findStack (frames query stack') = findStack (frames query stack) ∧
      effortLeft query stack' < effortLeft query stack
  | .stuck => False

section

variable {query : List Probe} {c : Cursor α} {stack : List (Cursor α)} {t : Tree α}

private theorem drop_eq_cons_of_getElem? {β : Type} {bs : List β} {i : Nat} {b : β} (h : bs[i]? = some b) :
    bs.drop i = b :: bs.drop (i + 1) := by
  obtain ⟨hi, hb⟩ := List.getElem?_eq_some_iff.1 h
  rw [List.drop_eq_getElem_cons hi, hb]

/-- An exhausted cursor stands for no search. -/
private theorem keeps_exhausted (hheight : (c :: stack).length ≤ query.length)
    (ht : c.candidates[c.taken]? = none) : Keeps query (c :: stack) (.ongoing stack) := by
  have hpending : c.candidates.drop c.taken = [] := List.drop_eq_nil_iff.2 (List.getElem?_eq_none_iff.1 ht)
  rw [List.length_cons] at hheight
  refine ⟨by omega, ?_, ?_⟩
  · rw [frames, hpending]
    rfl
  · rw [effortLeft, effortLeft, frames, hpending, effortOfStack, effortOfAll]
    omega

private theorem frames_taken (query : List Probe) (stack : List (Cursor α)) (ht : c.candidates[c.taken]? = some t) :
    frames query (c :: stack) =
      ⟨t :: c.candidates.drop (c.taken + 1), query.drop (stack.length + 1)⟩ :: frames query stack := by
  rw [frames, drop_eq_cons_of_getElem? ht]

/-- At the full depth a candidate without members is passed over. -/
private theorem keeps_arrive (hheight : stack.length + 1 = query.length) (ht : c.candidates[c.taken]? = some t) :
    Keeps query (c :: stack) (arrive t (⟨c.candidates, c.taken + 1⟩ :: stack)) := by
  have hbelow : query.drop (stack.length + 1) = [] := List.drop_eq_nil_iff.2 (by omega)
  have hframes := frames_taken query stack ht
  rw [hbelow] at hframes
  rw [arrive]
  cases hm : t.members? with
  | some found =>
    show findStack (frames query (c :: stack)) = .ok (some found)
    rw [hframes, findStack_cons_cons, find, hm]
  | none =>
    have hleast := two_le_effort t
    refine ⟨by rw [List.length_cons]; omega, ?_, ?_⟩
    · rw [hframes, findStack_cons_cons, find, hm, frames, hbelow]
    · rw [effortLeft, effortLeft, hframes, frames, effortOfStack, effortOfStack, effortOfAll]
      simp only
      omega

/-- Above the full depth the candidates of a candidate are searched first. -/
private theorem keeps_visit {p : Probe} (hp : query[stack.length + 1]? = some p)
    (ht : c.candidates[c.taken]? = some t) :
    Keeps query (c :: stack) (visit p t (⟨c.candidates, c.taken + 1⟩ :: stack)) := by
  have hbelow := drop_eq_cons_of_getElem? hp
  have hframes := frames_taken query stack ht
  obtain ⟨hheight, -⟩ := List.getElem?_eq_some_iff.1 hp
  rw [visit]
  cases hc : t.candidates p with
  | error e =>
    show findStack (frames query (c :: stack)) = .error e
    rw [hframes, hbelow, findStack_cons_cons, find, hc]
    rfl
  | ok ts =>
    have heffort := effort_candidates_le hc
    have hpushed : frames query (⟨ts, 0⟩ :: ⟨c.candidates, c.taken + 1⟩ :: stack) =
        ⟨ts, query.drop (stack.length + 2)⟩ ::
          ⟨c.candidates.drop (c.taken + 1), p :: query.drop (stack.length + 2)⟩ :: frames query stack := by
      rw [frames, frames, hbelow]
      rfl
    refine ⟨by rw [List.length_cons, List.length_cons]; omega, ?_, ?_⟩
    · rw [hpushed, findStack_push hc, hframes, hbelow]
    · rw [effortLeft, effortLeft, hpushed, hframes, effortOfStack, effortOfStack, effortOfStack, effortOfAll]
      simp only
      omega

/-- What a round comes to. -/
theorem keeps_round (hheight : stack.length ≤ query.length) : Keeps query stack (round query stack) := by
  cases stack with
  | nil => rfl
  | cons c stack =>
    rw [round]
    cases ht : c.candidates[c.taken]? with
    | none => exact keeps_exhausted hheight ht
    | some t =>
      by_cases hfull : stack.length + 1 = query.length
      · simp only [hfull, if_true]
        exact keeps_arrive hfull ht
      · have hlevel : stack.length + 1 < query.length := Nat.lt_of_le_of_ne hheight hfull
        simp only [hfull, if_false, List.getElem?_eq_getElem hlevel]
        exact keeps_visit (List.getElem?_eq_getElem hlevel) ht

end

/-- The loop returns from every stack that is not too high, with the result of the searches that it stands for. -/
private theorem returns_ongoing {query : List Probe} {stack : List (Cursor α)}
    (hheight : stack.length ≤ query.length) : Returns query (.ongoing stack) (findStack (frames query stack)) := by
  induction heffort : effortLeft query stack using Nat.strongRecOn generalizing stack with
  | ind n ih =>
    refine .ongoing ?_
    have hkeeps := keeps_round hheight
    cases hround : round query stack with
    | ended result =>
      rw [hround] at hkeeps
      obtain rfl : findStack (frames query stack) = result := hkeeps
      exact .ended _
    | ongoing stack' =>
      rw [hround] at hkeeps
      obtain ⟨hheight', hfind, hless⟩ := hkeeps
      rw [← hfind]
      exact ih _ (heffort ▸ hless) hheight' rfl
    | stuck =>
      rw [hround] at hkeeps
      exact hkeeps.elim

private theorem returns_enter (t : Tree α) (query : List Probe) : Returns query (enter query t) (t.find query) := by
  cases query with
  | nil => exact .ended _
  | cons p ps =>
    rw [enter, visit, find]
    cases hc : t.candidates p with
    | error e => exact .ended _
    | ok ts =>
      have hfind : findStack (frames (p :: ps) [⟨ts, 0⟩]) = firstFound (find ps) ts := by
        simp only [frames, findStack, List.drop_zero, List.length_nil, List.drop_succ_cons, bind, Except.bind]
        rcases firstFound (find ps) ts with e | _ | found <;> rfl
      have hheight : [(⟨ts, 0⟩ : Cursor α)].length ≤ (p :: ps).length := by simp
      have hreturns := returns_ongoing hheight
      rw [hfind] at hreturns
      exact hreturns

/-! ### The order of the visit -/

/-- The errors of the comparisons at a tree that fail, in order. -/
def failures (p : Probe) (t : Tree α) : List ConversionError :=
  t.children.filterMap fun child => errorOf? (p.admits child.1)

/-- The children whose pattern a value satisfies, then that of the wildcard. -/
def admitted (p : Probe) (t : Tree α) : List (Tree α) :=
  (t.children.filter (fun child => (p.admits child.1).toOption == some true) ++
    t.children.filter (·.1 == .any)).map Prod.snd

/-- What a visit of a whole tree comes across, in order: at each tree the comparisons that fail, then what there is
below its children that are to be tried, and at the full depth the members, if there are any. -/
def events : List Probe → Tree α → List (Except ConversionError (List α))
  | [], t => if t.members.isEmpty then [] else [.ok t.members]
  | p :: ps, t => (failures p t).map .error ++ (admitted p t).flatMap (events ps)

/-- The result that the first of some events decides on. -/
def firstOf {β ε : Type} : List (Except ε β) → Except ε (Option β)
  | [] => .ok none
  | .ok b :: _ => .ok (some b)
  | .error e :: _ => .error e

private theorem firstFound_eq_firstOf {β γ ε : Type} {search : β → Except ε (Option γ)}
    {events : β → List (Except ε γ)} {bs : List β} (h : ∀ b ∈ bs, search b = firstOf (events b)) :
    firstFound search bs = firstOf (bs.flatMap events) := by
  induction bs with
  | nil => rfl
  | cons b bs ih =>
    have hb := h b List.mem_cons_self
    have hbs := ih fun c hc => h c (List.mem_cons_of_mem _ hc)
    rw [firstFound, hb, List.flatMap_cons]
    rcases events b with _ | ⟨e | found, rest⟩
    · exact hbs
    · rfl
    · rfl

/-- The tests are made in order, so the first one that fails is the one that is reported. -/
private theorem keepM_eq_error {β ε : Type} {test : β → Except ε Bool} {bs : List β} {e : ε} {es : List ε}
    (h : bs.filterMap (fun b => errorOf? (test b)) = e :: es) : keepM test bs = .error e := by
  induction bs with
  | nil => cases h
  | cons b bs ih =>
    rw [keepM, bind_eq_error]
    cases hb : test b with
    | error e' =>
      rw [List.filterMap_cons_some (b := e') (by rw [hb]; rfl)] at h
      exact .inl (congrArg _ (List.cons.inj h).1)
    | ok keep =>
      rw [List.filterMap_cons_none (by rw [hb]; rfl)] at h
      exact .inr ⟨keep, rfl, bind_eq_error.2 (.inl (ih h))⟩

private theorem candidates_of_failures_nil {p : Probe} {t : Tree α} (h : failures p t = []) :
    t.candidates p = .ok (admitted p t) := by
  have hkeep : ∀ child ∈ t.children, p.admits child.1 = .ok ((p.admits child.1).toOption == some true) := by
    intro child hchild
    obtain ⟨b, hb⟩ := errorOf?_eq_none.1 (List.filterMap_eq_nil_iff.1 h child hchild)
    cases b <;> simp [hb, Except.toOption]
  rw [candidates, keepM_eq_filter hkeep]
  rfl

private theorem candidates_of_failures_cons {p : Probe} {t : Tree α} {e : ConversionError} {es : List ConversionError}
    (h : failures p t = e :: es) : t.candidates p = .error e := by
  rw [candidates, keepM_eq_error h]
  rfl

/-- The recursive search decides on the first event of the visit. -/
theorem find_eq_firstOf (t : Tree α) (query : List Probe) : t.find query = firstOf (events query t) := by
  induction query generalizing t with
  | nil =>
    rw [find, events, members?]
    cases t.members.isEmpty <;> rfl
  | cons p ps ih =>
    rw [find, events]
    cases h : failures p t with
    | nil =>
      rw [candidates_of_failures_nil h]
      exact firstFound_eq_firstOf fun child _ => ih child
    | cons e es =>
      rw [candidates_of_failures_cons h]
      rfl

/-- From every tree and for every query the loop returns, and only what the recursive search gives, and so does the
walk. That is the first event of a visit: members at the full depth, or the error of a comparison with no such members
in front of it, or nothing where the visit comes across neither. -/
theorem returns_iff_find (t : Tree α) (query : List Probe) :
    (∀ result, Returns query (enter query t) result ↔ result = t.find query) ∧
      t.search query = t.find query ∧ t.find query = firstOf (events query t) := by
  refine ⟨fun result => ⟨fun h => ?_, fun h => ?_⟩, search_eq_find t query, find_eq_firstOf t query⟩
  · exact h.unique (returns_enter t query)
  · rw [h]
    exact returns_enter t query

end DecisionTables.Tree
