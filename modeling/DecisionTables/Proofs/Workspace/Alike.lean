import DecisionTables.Proofs.Sequencing
import DecisionTables.Proofs.Workspace.Runs

/-!
# Workspaces that prepare alike

Two definitions are interchangeable if no preparation tells them apart. Two workspaces are alike if they differ
at most in interchangeable definitions and in what their engines do not prepare with, such as functions
(`Workspace.Alike`). To prepare a name has the same result in both and leaves them alike, whatever the loads set
off (`Alike.prepared`).
-/

namespace DecisionTables

section

variable {α β γ : Type} {R : α → β → Prop} {x : Option α} {y : Option β}

private theorem isSome_eq_of_rel (h : Option.Rel R x y) : x.isSome = y.isSome := by
  cases h <;> rfl

theorem map_eq_of_rel {f : α → γ} {g : β → γ} (h : Option.Rel R x y) (hfg : ∀ a b, R a b → f a = g b) :
    x.map f = y.map g := by
  cases h with
  | none => rfl
  | some hab => exact congrArg some (hfg _ _ hab)

private theorem forall₂_modify {R : α → α → Prop} {as bs : List α} {f g : α → α} (h : List.Forall₂ R as bs)
    (hfg : ∀ a b, R a b → R (f a) (g b)) (i : Nat) : List.Forall₂ R (as.modify i f) (bs.modify i g) := by
  induction h generalizing i with
  | nil => cases i <;> exact .nil
  | cons hab hrest ih =>
    cases i with
    | zero => exact .cons (hfg _ _ hab) hrest
    | succ i => exact .cons hab (ih i)

end

/-! ### Definitions and repositories -/

/-- Two definitions with the same entries that no preparation tells apart. -/
structure Table.Interchangeable (t t' : Table) : Prop where
  entries : t.entries = t'.entries
  prepare : ∀ codecs matchers source,
    PreparedTable.prepare codecs matchers source t = PreparedTable.prepare codecs matchers source t'

theorem Table.Interchangeable.refl (t : Table) : t.Interchangeable t :=
  ⟨rfl, fun _ _ _ => rfl⟩

/-- Two repositories that differ at most in that their definitions under a name are interchangeable. -/
structure Repository.Alike (r r' : Repository) : Prop where
  tables : ∀ name, Option.Rel Table.Interchangeable (r.tables.get? name) (r'.tables.get? name)
  aliases : r.aliases = r'.aliases
  narrow : r.narrow = r'.narrow
  triggers : r.triggers = r'.triggers

namespace Repository

variable {r r' : Repository}

theorem Alike.refl (r : Repository) : r.Alike r := by
  refine ⟨fun name => ?_, rfl, rfl, rfl⟩
  cases r.tables.get? name with
  | none => exact .none
  | some t => exact .some (.refl t)

theorem Alike.table? (h : r.Alike r') (name : String) :
    Option.Rel Table.Interchangeable (r.table? name) (r'.table? name) := by
  rw [Repository.table?, Repository.table?, h.aliases]
  exact h.tables _

theorem Alike.entriesFor (h : r.Alike r') (name : String) (query : List (Option String)) :
    r.entriesFor name query = r'.entriesFor name query := by
  rw [Repository.entriesFor, Repository.entriesFor, h.narrow,
    map_eq_of_rel (h.table? name) fun _ _ ht => ht.entries]

theorem Alike.insert (h : r.Alike r') {t t' : Table} (ht : t.Interchangeable t') (hname : t.name = t'.name) :
    (r.insert t).Alike (r'.insert t') := by
  refine ⟨fun name => ?_, h.aliases, h.narrow, h.triggers⟩
  simp only [Repository.insert, Std.TreeMap.get?_eq_getElem?, Std.TreeMap.getElem?_insert, hname]
  split
  · exact .some ht
  · exact h.tables name

theorem Alike.remove (h : r.Alike r') (name : String) : (r.remove name).Alike (r'.remove name) := by
  refine ⟨fun n => ?_, h.aliases, h.narrow, h.triggers⟩
  simp only [Repository.remove, Std.TreeMap.get?_eq_getElem?, Std.TreeMap.getElem?_erase]
  split
  · exact .none
  · exact h.tables n

theorem Alike.afterLoad (h : r.Alike r') (name : String) : (r.afterLoad name).Alike (r'.afterLoad name) :=
  ⟨h.tables, h.aliases, h.narrow, by simp only [Repository.afterLoad, h.triggers]⟩

/-- The names stand in order, so they are known from whether there is a table of each. -/
theorem Alike.names (h : r.Alike r') : r.names = r'.names := by
  have hnodup : ∀ m : Std.TreeMap String Table, m.keys.Nodup := fun m =>
    Std.TreeMap.distinct_keys.imp fun hne heq => hne (Std.compare_eq_iff_eq.2 heq)
  have hmem : ∀ name, name ∈ r.names ↔ name ∈ r'.names := fun name => by
    rw [Repository.names, Repository.names, Std.TreeMap.mem_keys, Std.TreeMap.mem_keys,
      Std.TreeMap.mem_iff_isSome_getElem?, Std.TreeMap.mem_iff_isSome_getElem?]
    exact Eq.congr_left (isSome_eq_of_rel (h.tables name))
  refine List.Perm.eq_of_pairwise (fun a b _ _ hab hba => ?_) Std.TreeMap.ordered_keys Std.TreeMap.ordered_keys
    ((List.perm_ext_iff_of_nodup (hnodup _) (hnodup _)).2 hmem)
  rw [Std.OrientedCmp.gt_of_lt hab] at hba
  cases hba

end Repository

/-! ### Workspaces -/

/-- Two engines that prepare in the same way. -/
structure Engine.PreparesLike (a b : Engine) : Prop where
  sources : a.sources = b.sources
  codecs : a.codecs = b.codecs
  matchers : a.matchers = b.matchers
  cache : a.cache = b.cache

theorem Engine.PreparesLike.symm {a b : Engine} (h : a.PreparesLike b) : b.PreparesLike a :=
  ⟨h.sources.symm, h.codecs.symm, h.matchers.symm, h.cache.symm⟩

theorem Engine.PreparesLike.trans {a b c : Engine} (h : a.PreparesLike b) (h' : b.PreparesLike c) :
    a.PreparesLike c :=
  ⟨h.sources.trans h'.sources, h.codecs.trans h'.codecs, h.matchers.trans h'.matchers, h.cache.trans h'.cache⟩

namespace Workspace

/-- Two workspaces that differ at most in interchangeable definitions and in what engines do not prepare with. -/
structure Alike (w w' : Workspace) : Prop where
  repositories : List.Forall₂ Repository.Alike w.repositories w'.repositories
  engine : ∀ e, (w.engine e).PreparesLike (w'.engine e)
  caches : w.caches = w'.caches
  journal : w.journal = w'.journal
  serial : w.serial = w'.serial

/-- What is done in two workspaces has related results and leaves them alike. -/
structure AlikeAfter {α : Type} (R : α → α → Prop) (x y : α × Workspace) : Prop where
  result : R x.1 y.1
  alike : x.2.Alike y.2

/-- The results and the workspaces apart, to go on with both. -/
private theorem AlikeAfter.exists_split {α : Type} {R : α → α → Prop} {x y : α × Workspace} (h : AlikeAfter R x y) :
    ∃ a b after after', x = (a, after) ∧ y = (b, after') ∧ R a b ∧ after.Alike after' :=
  ⟨x.1, y.1, x.2, y.2, rfl, rfl, h.result, h.alike⟩

theorem AlikeAfter.exists_split_eq {α : Type} {x y : α × Workspace} (h : AlikeAfter Eq x y) :
    ∃ a after after', x = (a, after) ∧ y = (a, after') ∧ after.Alike after' :=
  ⟨x.1, x.2, y.2, rfl, Prod.ext h.result.symm rfl, h.alike⟩

variable {w w' : Workspace} {p : Preparation}

namespace Alike

theorem refl (w : Workspace) : w.Alike w :=
  ⟨List.forall₂_same.2 fun r _ => .refl r, fun _ => ⟨rfl, rfl, rfl, rfl⟩, rfl, rfl, rfl⟩

theorem repository (h : w.Alike w') (r : Nat) : (w.repository r).Alike (w'.repository r) := by
  simp only [Workspace.repository, List.getD_eq_getElem?_getD]
  cases hr : w.repositories[r]? with
  | some s =>
    obtain ⟨s', hs', hs⟩ := getElem?_of_forall₂ h.repositories hr
    rw [hs']
    exact hs
  | none =>
    have hlength := List.getElem?_eq_none_iff.1 hr
    rw [h.repositories.length_eq] at hlength
    rw [List.getElem?_eq_none hlength]
    exact .refl {}

theorem cacheOf (h : w.Alike w') (e : Nat) : w.cacheOf e = w'.cacheOf e := by
  simp only [Workspace.cacheOf, Workspace.cache, h.caches, (h.engine e).cache]

theorem pending (h : w.Alike w') : w.pending = w'.pending := by
  have hsum : ∀ {rs rs' : List Repository}, List.Forall₂ Repository.Alike rs rs' →
      rs.foldr (fun r n => r.pending + n) 0 = rs'.foldr (fun r n => r.pending + n) 0 := by
    intro rs rs' hrs
    induction hrs with
    | nil => rfl
    | cons hr _ ih => rw [List.foldr_cons, List.foldr_cons, ih, Repository.pending, Repository.pending, hr.triggers]
  exact hsum h.repositories

theorem record (h : w.Alike w') (event : Event) : (w.record event).Alike (w'.record event) :=
  ⟨h.repositories, h.engine, h.caches, by rw [Workspace.record, Workspace.record, h.journal], h.serial⟩

theorem modifyRepository (h : w.Alike w') {f g : Repository → Repository}
    (hfg : ∀ s s' : Repository, s.Alike s' → (f s).Alike (g s')) (r : Nat) :
    (w.modifyRepository r f).Alike (w'.modifyRepository r g) :=
  ⟨forall₂_modify h.repositories hfg r, h.engine, h.caches, h.journal, h.serial⟩

theorem modifyCacheOf (h : w.Alike w') (e : Nat) (f : Cache → Cache) :
    (w.modifyCacheOf e f).Alike (w'.modifyCacheOf e f) :=
  ⟨h.repositories, h.engine, by simp only [Workspace.modifyCacheOf, h.caches, h.cacheOf, (h.engine e).cache],
    h.journal, h.serial⟩

/-! ### Preparations -/

/-- A way of preparing that cannot tell alike workspaces apart. -/
def Respected (p : Preparation) : Prop :=
  ∀ e name w w', Alike w w' → AlikeAfter Eq (p e name w) (p e name w')

theorem invalidate (h : w.Alike w') (e : Nat) (name : String) : (w.invalidate e name).Alike (w'.invalidate e name) :=
  h.modifyCacheOf e _

theorem clear (h : w.Alike w') (e : Nat) : (w.clear e).Alike (w'.clear e) :=
  h.modifyCacheOf e _

theorem insert (h : w.Alike w') (r : Nat) (t : Table) :
    (w.modifyRepository r (·.insert t)).Alike (w'.modifyRepository r (·.insert t)) :=
  h.modifyRepository (fun _ _ hs => hs.insert (.refl t) rfl) r

theorem remove (h : w.Alike w') (r : Nat) (name : String) :
    (w.modifyRepository r (·.remove name)).Alike (w'.modifyRepository r (·.remove name)) :=
  h.modifyRepository (fun _ _ hs => hs.remove name) r

theorem perform (hp : Respected p) (h : w.Alike w') (r : Nat) (action : Action) :
    AlikeAfter Eq (Workspace.perform p r action w) (Workspace.perform p r action w') := by
  cases action with
  | invalidate e name =>
    refine ⟨?_, h.invalidate e name⟩
    simp only [Workspace.perform, h.cacheOf]
  | clear e => exact ⟨rfl, h.clear e⟩
  | insert t =>
    refine ⟨?_, h.insert r t⟩
    simp only [Workspace.perform, isSome_eq_of_rel ((h.repository r).tables t.name)]
  | remove name =>
    refine ⟨?_, h.remove r name⟩
    simp only [Workspace.perform, isSome_eq_of_rel ((h.repository r).tables name)]
  | prepare e name =>
    obtain ⟨hresult, halike⟩ := hp e name w w' h
    refine ⟨?_, halike⟩
    simp only [Workspace.perform, hresult]

theorem performAll (hp : Respected p) (h : w.Alike w') (r : Nat) (actions : List Action) :
    (Workspace.performAll p r actions w).Alike (Workspace.performAll p r actions w') := by
  induction actions generalizing w w' with
  | nil => exact h
  | cons action actions ih =>
    obtain ⟨houtcome, hafter⟩ := h.perform hp r action
    exact ih (houtcome ▸ hafter.record _)

theorem loadFrom (hp : Respected p) (h : w.Alike w') (r : Nat) (name : String) :
    AlikeAfter (Option.Rel Table.Interchangeable) (Workspace.loadFrom p r name w)
      (Workspace.loadFrom p r name w') := by
  have hactions : (w.repository r).nextActions name = (w'.repository r).nextActions name := by
    rw [Repository.nextActions, Repository.nextActions, (h.repository r).triggers]
  have htaken := (h.record (.loaded r name)).modifyRepository (fun _ _ hs => hs.afterLoad name) r
  have hafter := htaken.performAll hp r ((w.repository r).nextActions name)
  rw [Workspace.loadFrom, Workspace.loadFrom, ← hactions]
  exact ⟨(hafter.repository r).table? name, hafter⟩

theorem load (hp : Respected p) (name : String) (sources : List (String × Nat)) (h : w.Alike w') :
    AlikeAfter (Option.Rel fun s s' => s.1 = s'.1 ∧ s.2.Interchangeable s'.2) (Workspace.load p name sources w)
      (Workspace.load p name sources w') := by
  induction sources generalizing w w' with
  | nil => exact ⟨.none, h⟩
  | cons s sources ih =>
    obtain ⟨source, r⟩ := s
    obtain ⟨found, found', after, after', hload, hload', hfound, hafter⟩ := (h.loadFrom hp r name).exists_split
    rw [Workspace.load, Workspace.load, hload, hload']
    cases hfound with
    | none => exact ih hafter
    | some htable => exact ⟨.some ⟨rfl, htable⟩, hafter⟩

theorem build (hp : Respected p) (e : Nat) (name : String) (h : w.Alike w') :
    AlikeAfter Eq (Workspace.build p e name w) (Workspace.build p e name w') := by
  obtain ⟨found, found', after, after', hload, hload', hfound, hafter⟩ :=
    (h.load hp name (w.engine e).sources).exists_split
  rw [Workspace.build, Workspace.build, ← (h.engine e).sources, ← (h.engine e).codecs, ← (h.engine e).matchers, hload,
    hload']
  cases hfound with
  | none => exact ⟨rfl, hafter⟩
  | @some s s' hs =>
    obtain ⟨source, table⟩ := s
    obtain ⟨source', table'⟩ := s'
    obtain ⟨rfl, htable⟩ : source = source' ∧ table.Interchangeable table' := hs
    exact ⟨htable.prepare _ _ _, hafter⟩

theorem prepareWith (hp : Respected p) : Respected (Workspace.prepareWith p) := by
  intro e name w w' h
  cases hheld : (w.cacheOf e).get? name with
  | some edition =>
    rw [prepareWith_of_some hheld, prepareWith_of_some (h.cacheOf e ▸ hheld)]
    exact ⟨rfl, h⟩
  | none =>
    have hheld' : (w'.cacheOf e).get? name = none := h.cacheOf e ▸ hheld
    obtain ⟨outcome, built, built', hbuild, hbuild', hbuilt⟩ :=
      ((h.modifyCacheOf e (·.acquire name)).build hp e name).exists_split_eq
    cases outcome with
    | error fault =>
      rw [prepareWith_of_error hheld hbuild, prepareWith_of_error hheld' hbuild']
      exact ⟨rfl, hbuilt.modifyCacheOf e (·.release name)⟩
    | ok t =>
      have hserial : ({ built with serial := built'.serial + 1 } : Workspace).Alike
          { built' with serial := built'.serial + 1 } :=
        ⟨hbuilt.repositories, hbuilt.engine, hbuilt.caches, hbuilt.journal, rfl⟩
      rw [prepareWith_of_ok hheld hbuild, prepareWith_of_ok hheld' hbuild', h.cacheOf e, hbuilt.serial]
      exact ⟨rfl, hserial.modifyCacheOf e fun c =>
        (c.publish name (((w'.cacheOf e).acquire name).stamp name) ⟨built'.serial, t⟩).release name⟩

theorem prepareWithin (depth : Nat) : Respected (Workspace.prepareWithin depth) := by
  induction depth with
  | zero => exact prepareWith fun _ _ _ _ h => ⟨rfl, h⟩
  | succ depth ih => exact prepareWith ih

/-- To prepare a name has the same result in alike workspaces and leaves them alike. -/
theorem prepared (h : w.Alike w') (e : Nat) (name : String) :
    AlikeAfter Eq (Workspace.prepared e name w) (Workspace.prepared e name w') := by
  rw [Workspace.prepared, Workspace.prepared, h.pending]
  exact prepareWithin _ e name w w' h

end Alike

end Workspace

end DecisionTables
