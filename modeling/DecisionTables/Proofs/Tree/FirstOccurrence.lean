import DecisionTables.Proofs.Sequencing
import DecisionTables.Tree.Search
import Mathlib.Data.List.Nodup

/-!
# First occurrences

The children of a tree stand in the order in which their patterns first occur among the entries. Facts about
that order: dropping the later occurrences keeps it (`pairwise_eraseDups`), and so does restricting a list to
the elements that have an image (`findIdx_filterMap_lt`). Beside them what `keepM` and `firstFound` give, and
that they give something where no test and no search fails.
-/

namespace DecisionTables

/-- Between elements that have an image, restricting a list to those elements changes no order. -/
theorem findIdx_filterMap_lt {β γ : Type} {f : β → Option γ} {p q : γ → Bool} {bs : List β}
    (h : (bs.filterMap f).findIdx p < (bs.filterMap f).findIdx q) :
    bs.findIdx (fun b => (f b).any p) < bs.findIdx (fun b => (f b).any q) := by
  induction bs with
  | nil => simp at h
  | cons b bs ih =>
    cases hb : f b with
    | none =>
      rw [List.filterMap_cons_none hb] at h
      have := ih h
      simp only [List.findIdx_cons, hb, Option.any_none, cond_false]
      omega
    | some c =>
      rw [List.filterMap_cons_some hb, List.findIdx_cons, List.findIdx_cons] at h
      simp only [List.findIdx_cons, hb, Option.any_some]
      cases hq : q c with
      | true => simp [hq] at h
      | false =>
        cases hp : p c with
        | true => simp
        | false =>
          simp only [hp, hq, cond_false] at h ⊢
          have := ih (by omega)
          omega

private theorem idxOf_lt_of_filter {β : Type} [DecidableEq β] (keep : β → Bool) {bs : List β} {x y : β}
    (hx : keep x = true) (hy : keep y = true) (h : (bs.filter keep).idxOf x < (bs.filter keep).idxOf y) :
    bs.idxOf x < bs.idxOf y := by
  have hguard : ∀ z, keep z = true → (fun b => (Option.guard keep b).any (· == z)) = (· == z) := by
    intro z hz
    funext b
    by_cases hb : b = z
    · subst hb
      simp [hz]
    · by_cases hk : keep b = true <;> simp [hk, hb]
  rw [← List.filterMap_eq_filter] at h
  have := findIdx_filterMap_lt h
  rwa [hguard x hx, hguard y hy] at this

/-- Dropping the later occurrences of elements keeps the order of the first ones. -/
theorem pairwise_eraseDups {β : Type} [DecidableEq β] (bs : List β) :
    bs.eraseDups.Pairwise fun x y => bs.idxOf x < bs.idxOf y := by
  induction hn : bs.length using Nat.strongRecOn generalizing bs with
  | ind n ih =>
    cases bs with
    | nil => simp
    | cons b bs =>
      rw [List.eraseDups_cons, List.pairwise_cons]
      constructor
      · intro y hy
        have hne : y ≠ b := by
          have := (List.mem_filter.1 (List.mem_eraseDups.1 hy)).2
          simpa using this
        simp [Ne.symm hne]
      · have hlen : (bs.filter fun c => !c == b).length < n := by
          have := List.length_filter_le (fun c => !c == b) bs
          simp only [List.length_cons] at hn
          omega
        refine List.Pairwise.imp_of_mem ?_ (ih _ hlen _ rfl)
        intro x y hx hy hxy
        have hx' : x ≠ b := by simpa using (List.mem_filter.1 (List.mem_eraseDups.1 hx)).2
        have hy' : y ≠ b := by simpa using (List.mem_filter.1 (List.mem_eraseDups.1 hy)).2
        have h := idxOf_lt_of_filter (fun c => !c == b) (by simpa using hx') (by simpa using hy') hxy
        rw [List.idxOf_cons_ne _ (Ne.symm hx'), List.idxOf_cons_ne _ (Ne.symm hy')]
        omega

theorem nodup_eraseDups {β : Type} [DecidableEq β] (bs : List β) : bs.eraseDups.Nodup :=
  (pairwise_eraseDups bs).imp fun h he => by simp [he] at h

/-- Where no test fails, the elements that pass are kept. -/
theorem keepM_eq_filter {β ε : Type} {test : β → Except ε Bool} {bs : List β} {keep : β → Bool}
    (h : ∀ b ∈ bs, test b = .ok (keep b)) : keepM test bs = .ok (bs.filter keep) := by
  induction bs with
  | nil => rfl
  | cons b bs ih =>
    rw [keepM, h b (by simp), ih fun c hc => h c (List.mem_cons_of_mem _ hc)]
    cases hk : keep b <;> simp [hk, bind, Except.bind, pure, Except.pure]

theorem exists_of_keepM {β ε : Type} {test : β → Except ε Bool} {bs kept : List β}
    (h : keepM test bs = .ok kept) : ∀ b ∈ bs, ∃ keep, test b = .ok keep := by
  induction bs generalizing kept with
  | nil => simp
  | cons b bs ih =>
    obtain ⟨keep, hkeep, hrest⟩ := bind_eq_ok.1 h
    obtain ⟨rest, hrest, -⟩ := bind_eq_ok.1 hrest
    exact List.forall_mem_cons.2 ⟨⟨keep, hkeep⟩, ih hrest⟩

/-- Where no search fails there is a result. -/
theorem exists_firstFound {β γ ε : Type} {search : β → Except ε (Option γ)} {bs : List β}
    (h : ∀ b ∈ bs, ∃ found, search b = .ok found) : ∃ found, firstFound search bs = .ok found := by
  induction bs with
  | nil => exact ⟨none, rfl⟩
  | cons b bs ih =>
    obtain ⟨found, hb⟩ := h b (by simp)
    rw [firstFound, hb]
    cases found with
    | some found => exact ⟨some found, rfl⟩
    | none => exact ih fun c hc => h c (List.mem_cons_of_mem _ hc)

/-- Either every search is in vain, or the first one that is not gives the result; what comes after it is not
searched. -/
theorem firstFound_eq_ok {β γ ε : Type} {search : β → Except ε (Option γ)} {bs : List β} {found : Option γ}
    (h : firstFound search bs = .ok found) :
    (found = none ∧ ∀ b ∈ bs, search b = .ok none) ∨
    ∃ before b after, bs = before ++ b :: after ∧ (∀ c ∈ before, search c = .ok none) ∧ found.isSome ∧
      search b = .ok found := by
  induction bs with
  | nil =>
    cases h
    exact .inl ⟨rfl, by simp⟩
  | cons b bs ih =>
    obtain ⟨result, hb, hrest⟩ := bind_eq_ok.1 h
    cases result with
    | some result =>
      cases hrest
      exact .inr ⟨[], b, bs, rfl, by simp, rfl, hb⟩
    | none =>
      rcases ih hrest with ⟨rfl, hall⟩ | ⟨before, c, after, rfl, hbefore, hsome, hc⟩
      · exact .inl ⟨rfl, List.forall_mem_cons.2 ⟨hb, hall⟩⟩
      · exact .inr ⟨b :: before, c, after, rfl, List.forall_mem_cons.2 ⟨hb, hbefore⟩, hsome, hc⟩

/-- A search among images is a search among their originals. -/
theorem firstFound_map {β γ δ ε : Type} (f : δ → β) (search : β → Except ε (Option γ)) (ds : List δ) :
    firstFound search (ds.map f) = firstFound (fun d => search (f d)) ds := by
  induction ds with
  | nil => rfl
  | cons d ds ih => rw [List.map_cons, firstFound, firstFound, ih]

end DecisionTables
