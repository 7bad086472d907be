import DecisionTables.Tree.Search

/-!
# Walking a tree

The search of a tree as a loop over a stack of frames, one for each level on the way to the tree in hand. A
frame holds the candidates that are still to be tried and the values for the levels below them. Each step
takes a candidate off a frame or drops an empty frame. The candidates of a tree are some of its children, each
at most once (`effort_candidates_le`), so the number of steps is bounded by the effort for the tree, and a
walk that may take as many steps as that is not cut short: more steps give the same result (`walk_eq_walk`).
-/

namespace DecisionTables.Tree

variable {α : Type}

/-- Candidates to be tried and the values for the levels below them. -/
structure Frame (α : Type) where
  pending : List (Tree α)
  below : List Probe

mutual

/-- The most steps that a tree can take: two for itself, and those for its children. -/
def effort : Tree α → Nat
  | ⟨_, cs⟩ => 2 + effortOfChildren cs
termination_by structural t => t

/-- The most steps that children can take. -/
def effortOfChildren : List (Pattern × Tree α) → Nat
  | [] => 0
  | c :: cs => effortOfChild c + effortOfChildren cs
termination_by structural cs => cs

/-- The most steps that a child can take. -/
def effortOfChild : Pattern × Tree α → Nat
  | (_, t) => t.effort
termination_by structural c => c

end

/-- The most steps that trees can take. -/
def effortOfAll : List (Tree α) → Nat
  | [] => 0
  | t :: ts => t.effort + effortOfAll ts

/-- The most steps that a stack can take. -/
def effortOfStack : List (Frame α) → Nat
  | [] => 1
  | f :: stack => 1 + effortOfAll f.pending + effortOfStack stack

/-- Tries the candidates of a stack in at most so many steps, those of the frame on top first. -/
def walk : Nat → List (Frame α) → Except ConversionError (Option (List α))
  | 0, _ => .ok none
  | _ + 1, [] => .ok none
  | n + 1, ⟨[], _⟩ :: stack => walk n stack
  | n + 1, ⟨t :: ts, []⟩ :: stack =>
    match t.members? with
    | some found => .ok (some found)
    | none => walk n (⟨ts, []⟩ :: stack)
  | n + 1, ⟨t :: ts, p :: ps⟩ :: stack =>
    match t.candidates p with
    | .error e => .error e
    | .ok below => walk n (⟨below, ps⟩ :: ⟨ts, p :: ps⟩ :: stack)

/-- The members that the values lead to, by a walk from the root. -/
def search (t : Tree α) (query : List Probe) : Except ConversionError (Option (List α)) :=
  walk (effortOfStack [⟨[t], query⟩]) [⟨[t], query⟩]

/-! ### The walk is not cut short -/

private theorem effortOfAll_append (ts us : List (Tree α)) :
    effortOfAll (ts ++ us) = effortOfAll ts + effortOfAll us := by
  induction ts with
  | nil => simp [effortOfAll]
  | cons t ts ih =>
    simp only [List.cons_append, effortOfAll, ih]
    omega

private theorem effortOfAll_kept_le {p : Probe} {cs kept : List (Pattern × Tree α)}
    (h : keepM (fun child => p.admits child.1) cs = .ok kept) :
    effortOfAll (kept.map Prod.snd) + effortOfAll ((cs.filter (·.1 == .any)).map Prod.snd) ≤
      effortOfChildren cs := by
  induction cs generalizing kept with
  | nil =>
    cases h
    simp [effortOfAll, effortOfChildren]
  | cons c cs ih =>
    simp only [keepM, bind, Except.bind, pure, Except.pure] at h
    cases hc : p.admits c.1 with
    | error e => simp [hc] at h
    | ok keep =>
      cases hk : keepM (fun child => p.admits child.1) cs with
      | error e => simp [hc, hk] at h
      | ok rest =>
        simp only [hc, hk, Except.ok.injEq] at h
        have hr := ih hk
        have hchild : effortOfChild c = c.2.effort := by cases c; rfl
        by_cases hany : c.1 = .any
        · have hkeep : keep = false := by
            rw [hany] at hc
            simpa [Probe.admits] using hc.symm
          subst hkeep
          subst h
          simp only [hany, BEq.rfl, List.filter_cons_of_pos, List.map_cons, effortOfAll, effortOfChildren,
            Bool.false_eq_true, ↓reduceIte, hchild]
          omega
        · have hnot : (c.1 == Pattern.any) = false := by simp [hany]
          subst h
          cases keep <;>
            simp only [hnot, Bool.false_eq_true, not_false_eq_true, List.filter_cons_of_neg, List.map_cons,
              effortOfAll, effortOfChildren, ↓reduceIte, hchild] <;>
            omega

private theorem effortOfChildren_le (t : Tree α) : effortOfChildren t.children + 2 ≤ t.effort := by
  cases t with
  | mk ms cs => exact Nat.le_of_eq (Nat.add_comm _ _)

theorem effort_candidates_le {p : Probe} {t : Tree α} {ts : List (Tree α)} (h : t.candidates p = .ok ts) :
    effortOfAll ts + 2 ≤ t.effort := by
  simp only [candidates, bind, Except.bind, pure, Except.pure] at h
  cases hk : keepM (fun child => p.admits child.1) t.children with
  | error e => simp [hk] at h
  | ok kept =>
    simp only [hk, Except.ok.injEq] at h
    subst h
    have h1 := effortOfAll_kept_le hk
    have h2 := effortOfChildren_le t
    rw [List.map_append, effortOfAll_append]
    omega

theorem two_le_effort (t : Tree α) : 2 ≤ t.effort := by
  cases t with
  | mk ms cs => exact Nat.le_add_right 2 _

/-- A walk with enough steps gives the same result with any other number of steps that is enough. -/
theorem walk_eq_walk {n m : Nat} {stack : List (Frame α)} (hn : effortOfStack stack ≤ n)
    (hm : effortOfStack stack ≤ m) : walk n stack = walk m stack := by
  induction n generalizing m stack with
  | zero => cases stack <;> simp [effortOfStack] at hn
  | succ n ih =>
    cases m with
    | zero => cases stack <;> simp [effortOfStack] at hm
    | succ m =>
      match stack with
      | [] => rfl
      | ⟨[], _⟩ :: stack =>
        simp only [effortOfStack, effortOfAll] at hn hm
        exact ih (by omega) (by omega)
      | ⟨t :: ts, []⟩ :: stack =>
        have ht := two_le_effort t
        simp only [effortOfStack, effortOfAll] at hn hm
        simp only [walk]
        cases t.members? with
        | some found => rfl
        | none =>
          apply ih <;>
            · simp only [effortOfStack]
              omega
      | ⟨t :: ts, p :: ps⟩ :: stack =>
        simp only [effortOfStack, effortOfAll] at hn hm
        simp only [walk]
        cases hc : t.candidates p with
        | error e => rfl
        | ok below =>
          have hb := effort_candidates_le hc
          apply ih <;>
            · simp only [effortOfStack]
              omega

end DecisionTables.Tree
