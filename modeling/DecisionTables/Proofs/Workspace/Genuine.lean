import DecisionTables.Proofs.Table.Columns
import DecisionTables.Proofs.Workspace.Invariants

/-!
# Caches that hold prepared tables only

Where all caches are empty at first, the tables in them come from definitions that some engine has prepared, whatever
a session does: editions get into a cache only by being published after a preparation, or by being put under another
name (`Genuine.runAll`). So the entries that a query finds are entries that were prepared with the table, either when
it was prepared itself or when they were fetched for the query, and the rows of the answer show them
(`Genuine.shows_of_getDetailed`).
-/

namespace DecisionTables.Workspace

variable {w : Workspace} {e : Nat} {name : String}

/-- The tables in the caches come from definitions. -/
def Genuine (w : Workspace) : Prop :=
  ∀ c name edition, (w.cache c).get? name = some edition → ∃ definition, edition.table.ComesFrom definition

private theorem comesFrom_of_buildHeld {t : PreparedTable} {built : Workspace}
    (h : buildHeld e name w = (.ok t, built)) : ∃ definition, t.ComesFrom definition := by
  obtain ⟨_, definition, -, hprepare⟩ := build_eq_ok h
  exact ⟨definition, _, _, _, hprepare⟩

theorem Genuine.modifyCacheOf {f : Cache → Cache} (h : Genuine w)
    (hf : ∀ name edition, (f (w.cacheOf e)).get? name = some edition →
      ∃ definition, edition.table.ComesFrom definition) : Genuine (w.modifyCacheOf e f) := by
  intro c n edition hedition
  rw [cache_modifyCacheOf] at hedition
  split at hedition
  next hc =>
    subst hc
    exact hf n edition hedition
  next => exact h c n edition hedition

private theorem invariant_genuine : Invariant (fun _ => True) Genuine where
  record _ _ _ h := h
  modifyRepository _ _ _ h := h
  modifyCacheOf _ _ _ hf h := h.modifyCacheOf fun n edition hedition => h _ n edition (hf _ n edition hedition)
  setOff _ _ _ _ := trivial
  publish q t built stamp _ _ hbuild h := by
    have hserial : Genuine { built with serial := built.serial + 1 } := h
    refine hserial.modifyCacheOf fun n edition hedition => ?_
    rw [Cache.get?_release, Cache.get?_publish] at hedition
    split at hedition
    · obtain rfl := Option.some.inj hedition
      exact comesFrom_of_buildHeld hbuild
    · exact h _ n edition hedition

/-- The table that is prepared for a query comes from a definition, whether it is in the cache or not. -/
theorem Genuine.comesFrom_of_prepared {edition : Edition} (h : Genuine w)
    (hok : (prepared e name w).1 = .ok edition) : ∃ definition, edition.table.ComesFrom definition := by
  rcases held_or_built_of_prepared hok with hheld | ⟨t, built, hbuild, rfl⟩
  · exact h _ name edition hheld
  · exact comesFrom_of_buildHeld hbuild

private theorem sessionInvariant_genuine : SessionInvariant (fun _ => True) Genuine where
  toInvariant := invariant_genuine
  journal _ _ h := h
  put q name edition after _ h hcall hafter := by
    refine hafter.modifyCacheOf fun n edition' hedition => ?_
    rw [Cache.get?_put] at hedition
    split at hedition
    · obtain rfl := Option.some.inj hedition
      exact h.comesFrom_of_prepared (congrArg Prod.fst hcall)
    · exact hafter _ n edition' hedition

theorem genuine_of_new (hnew : ∀ c, w.cache c = {}) : Genuine w := by
  intro c n edition hedition
  rw [hnew] at hedition
  simp [Cache.get?] at hedition

theorem Genuine.runAll (h : Genuine w) (steps : List Step) : Genuine (Step.runAll steps w).2 :=
  sessionInvariant_genuine.runAll (fun _ _ => trivial) h

theorem cache_assemble (repositories : List Repository) (engines : List (Engine × Bool)) (c : Nat) :
    (assemble repositories engines).cache c = {} := by
  simp [cache, assemble]

/-! ### The rows of an answer -/

variable {t : PreparedTable} {definition : Table} {query : List (Option String)} {index : Index}

/-- The entries that a query searches were prepared with the table. -/
theorem exists_indexOf_of_indexFor (h : t.ComesFrom definition) (hindex : (w.indexFor e t query).1 = .ok index) :
    ∃ entries, t.indexOf entries = .ok index := by
  rw [indexFor] at hindex
  cases hkept : t.index with
  | some kept =>
    rw [hkept] at hindex
    obtain rfl := Except.ok.inj hindex
    obtain ⟨codecs, matchers, source, hprepare⟩ := h
    exact ⟨definition.entries, PreparedTable.indexOf_of_prepare hprepare hkept⟩
  | none =>
    rw [hkept] at hindex
    exact ⟨_, hindex⟩

private theorem shows_of_evaluate {values : List Value} {d : DetailedAnswer} (h : t.ComesFrom definition)
    (hd : (w.evaluate e t values true).1 = .ok d) :
    ∃ query index found, t.normalize values = .ok query ∧ (w.indexFor e t query).1 = .ok index ∧
      t.search index query = .ok found ∧ d.entries = found.map t.foundEntry ∧
      List.Forall₂ t.Shows found d.answer.rows := by
  rw [evaluate] at hd
  cases hquery : t.normalize values with
  | error fault =>
    rw [hquery] at hd
    cases hd
  | ok query =>
    rw [hquery] at hd
    dsimp only at hd
    cases hindexed : w.indexFor e t query with
    | mk outcome after =>
      rw [hindexed] at hd
      cases outcome with
      | error fault => cases hd
      | ok index =>
        obtain ⟨entries, hentries⟩ := exists_indexOf_of_indexFor h (congrArg Prod.fst hindexed)
        obtain ⟨found, hfound, hbehind, hrows⟩ :=
          PreparedTable.shows_of_answer hentries (PreparedTable.length_of_normalize hquery) hd
        exact ⟨query, index, found, rfl, congrArg Prod.fst hindexed, hfound, hbehind, hrows⟩

/-- Each row of an answer shows an entry that the query finds in the table prepared for it, in the same order, and a
detailed answer has this entry beside the row. -/
theorem Genuine.shows_of_getDetailed {values : List Value} {d : DetailedAnswer} (h : Genuine w)
    (hd : (w.getDetailed e name values).1 = .ok d) :
    ∃ edition query index found, (prepared e name w).1 = .ok edition ∧ edition.table.normalize values = .ok query ∧
      ((prepared e name w).2.indexFor e edition.table query).1 = .ok index ∧
      edition.table.search index query = .ok found ∧ d.entries = found.map edition.table.foundEntry ∧
      List.Forall₂ edition.table.Shows found d.answer.rows := by
  rw [getDetailed] at hd
  cases hcall : prepared e name w with
  | mk outcome after =>
    rw [hcall] at hd
    cases outcome with
    | error fault => cases hd
    | ok edition =>
      obtain ⟨definition, hfrom⟩ := h.comesFrom_of_prepared (congrArg Prod.fst hcall)
      obtain ⟨query, index, found, hrest⟩ := shows_of_evaluate hfrom hd
      exact ⟨edition, query, index, found, rfl, hrest⟩

end DecisionTables.Workspace
