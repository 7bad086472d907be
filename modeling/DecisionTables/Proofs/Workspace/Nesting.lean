import DecisionTables.Proofs.Workspace.Runs

/-!
# How deep preparations are nested

A preparation calls for others only within a load that set off actions, and that load took a list of actions
away for good. So two ways of preparing that agree where fewer than `n` lists are left agree on preparations of
one level more where up to `n` are left (`prepareWith_congr`), and the number of levels that `prepared` allows
for is never reached: what it calls for within its loads is `prepared` itself (`prepared_eq`).
-/

namespace DecisionTables.Workspace

variable {p q : Preparation} {n : Nat}

/-- Two ways of preparing agree on workspaces with fewer than so many lists of actions. -/
def AgreeBelow (n : Nat) (p q : Preparation) : Prop :=
  ∀ e name w, w.pending < n → p e name w = q e name w

theorem AgreeBelow.perform (h : AgreeBelow n p q) (r : Nat) (action : Action) {w : Workspace}
    (hw : w.pending < n) : Workspace.perform p r action w = Workspace.perform q r action w := by
  cases action with
  | prepare e name => simp only [Workspace.perform, h e name w hw]
  | _ => rfl

theorem AgreeBelow.performAll (h : AgreeBelow n p q) (hp : Sound p) (r : Nat) (actions : List Action)
    {w : Workspace} (hw : w.pending < n) :
    Workspace.performAll p r actions w = Workspace.performAll q r actions w := by
  induction actions generalizing w with
  | nil => rfl
  | cons action actions ih =>
    obtain ⟨events, hrun⟩ := exists_run_perform hp r action w
    have hpending := Nat.lt_of_le_of_lt hrun.pending hw
    rw [Workspace.performAll, Workspace.performAll, ← h.perform r action hw]
    exact ih hpending

/-- A load without actions calls for no preparation, and one with actions leaves fewer lists than there were. -/
theorem AgreeBelow.loadFrom (h : AgreeBelow n p q) (hp : Sound p) (r : Nat) (name : String) {w : Workspace}
    (hw : w.pending ≤ n) : Workspace.loadFrom p r name w = Workspace.loadFrom q r name w := by
  unfold Workspace.loadFrom
  dsimp only
  by_cases hactions : (w.repository r).nextActions name = []
  · rw [hactions]
    rfl
  · have hpending : ((w.record (.loaded r name)).modifyRepository r (·.afterLoad name)).pending < w.pending :=
      pending_afterLoad_lt hactions
    rw [h.performAll hp r _ (Nat.lt_of_lt_of_le hpending hw)]

theorem AgreeBelow.load (h : AgreeBelow n p q) (hp : Sound p) (name : String) (sources : List (String × Nat))
    {w : Workspace} (hw : w.pending ≤ n) :
    Workspace.load p name sources w = Workspace.load q name sources w := by
  induction sources generalizing w with
  | nil => rfl
  | cons s sources ih =>
    obtain ⟨source, r⟩ := s
    obtain ⟨events, hrun⟩ := exists_run_loadFrom hp r name w
    have hpending := Nat.le_trans hrun.pending hw
    rw [Workspace.load, Workspace.load, ← h.loadFrom hp r name hw]
    cases hload : Workspace.loadFrom p r name w with
    | mk found w' =>
      rw [hload] at hpending
      cases found with
      | some table => rfl
      | none => exact ih hpending

theorem AgreeBelow.build (h : AgreeBelow n p q) (hp : Sound p) (e : Nat) (name : String) {w : Workspace}
    (hw : w.pending ≤ n) : Workspace.build p e name w = Workspace.build q e name w := by
  unfold Workspace.build
  dsimp only
  rw [h.load hp name _ hw]

theorem prepareWith_congr (h : AgreeBelow n p q) (hp : Sound p) (e : Nat) (name : String) {w : Workspace}
    (hw : w.pending ≤ n) : prepareWith p e name w = prepareWith q e name w := by
  have hbuild := h.build hp e name (w := w.modifyCacheOf e (·.acquire name)) hw
  unfold prepareWith
  dsimp only
  rw [hbuild]

/-- More levels than there are lists of actions make no difference. -/
private theorem prepareWithin_eq (depth depth' e : Nat) (name : String) (w : Workspace) (h : w.pending ≤ depth)
    (h' : w.pending ≤ depth') : prepareWithin depth e name w = prepareWithin depth' e name w := by
  have hnothing : ∀ p q, AgreeBelow 0 p q := fun _ _ _ _ _ h => absurd h (Nat.not_lt_zero _)
  have hempty : Sound fun _ name w => (.error (.unknownTable name), w) := fun _ _ w => ⟨[], Run.refl _ w⟩
  induction depth generalizing depth' e name w with
  | zero =>
    cases depth' with
    | zero => rfl
    | succ depth' => exact prepareWith_congr (hnothing _ _) hempty e name h
  | succ depth ih =>
    cases depth' with
    | zero => exact prepareWith_congr (hnothing _ _) (sound_prepareWithin depth) e name h'
    | succ depth' =>
      -- within a load that sets off actions fewer lists are left than the workspace had
      have hagree : AgreeBelow w.pending (prepareWithin depth) (prepareWithin depth') :=
        fun e name w' hw' => ih depth' e name w' (by omega) (by omega)
      exact prepareWith_congr hagree (sound_prepareWithin depth) e name (Nat.le_refl _)

/-- To prepare a name is to build it with preparations that are themselves of this kind. -/
theorem prepared_eq : prepared = prepareWith prepared := by
  funext e name w
  have hagree : AgreeBelow w.pending (prepareWithin w.pending) prepared :=
    fun e name w' hw' => prepareWithin_eq _ _ e name w' (Nat.le_of_lt hw') (Nat.le_refl _)
  calc prepareWithin w.pending e name w
      = prepareWithin (w.pending + 1) e name w :=
        prepareWithin_eq _ _ e name w (Nat.le_refl _) (Nat.le_succ _)
    _ = prepareWith prepared e name w :=
        prepareWith_congr hagree (sound_prepareWithin _) e name (Nat.le_refl _)

end DecisionTables.Workspace
