import DecisionTables.Workspace.Preparation
import Std.Data.TreeMap.Lemmas

/-!
# Loads that are still to set off actions

A load takes a list of actions away from its repository, so the number of such lists never grows
(`pending_afterLoad_le`), and where there was an action to take it is smaller after the load
(`pending_afterLoad_lt`).
-/

namespace DecisionTables

open Std (TreeMap)

section Lengths

variable {β : Type} (t : TreeMap String (List β)) (k : String) (l : List β)

/-- The number of elements of all lists of a map. -/
private def lengths (pairs : List (String × List β)) : Nat :=
  pairs.foldr (fun p n => p.2.length + n) 0

private theorem lengths_perm {l l' : List (String × List β)} (h : l.Perm l') : lengths l = lengths l' := by
  induction h with
  | nil => rfl
  | cons p _ ih => simp only [lengths, List.foldr_cons] at ih ⊢; omega
  | swap p q l => simp only [lengths, List.foldr_cons]; omega
  | trans _ _ ih ih' => exact ih.trans ih'

private theorem lengths_toList_insert : lengths (t.insert k l).toList =
    l.length + lengths (t.toList.filter fun p => ¬k == p.1) :=
  lengths_perm TreeMap.toList_insert_perm

/-- A list takes the place of another one in the count. -/
private theorem lengths_insert :
    lengths (t.insert k l).toList + (t.getD k []).length = lengths t.toList + l.length := by
  rw [lengths_toList_insert]
  have ht : lengths t.toList = (t.getD k []).length + lengths (t.toList.filter fun p => ¬k == p.1) := by
    cases hk : t[k]? with
    | none =>
      have hne : ∀ p ∈ t.toList, ¬k = p.1 := by
        rintro ⟨k', u⟩ hp rfl
        rw [TreeMap.mem_toList_iff_getElem?_eq_some, hk] at hp
        cases hp
      rw [List.filter_eq_self.2 (by simpa using hne)]
      simp [TreeMap.getD_eq_getD_getElem?, hk]
    | some u =>
      have heq : (t.insert k u).Equiv t := by
        apply TreeMap.Equiv.of_forall_constGet?_eq
        intro k'
        by_cases h : k = k'
        · subst h
          simp [hk]
        · simp [TreeMap.getElem?_insert, h]
      have hperm := lengths_perm (TreeMap.equiv_iff_toList_perm.1 heq)
      rw [lengths_toList_insert] at hperm
      simp [TreeMap.getD_eq_getD_getElem?, hk, ← hperm]
  omega

end Lengths

namespace Repository

variable (r : Repository) (name : String)

private theorem pending_eq : r.pending = lengths r.triggers.toList := by
  have hvalues : r.triggers.values = r.triggers.toList.map Prod.snd := by
    have h : r.triggers.values = r.triggers.foldr (fun _ v l => v :: l) [] := rfl
    rw [h, TreeMap.foldr_eq_foldr_toList, List.foldr_cons_eq_append]
    simp
  rw [pending, hvalues, List.foldr_map, lengths]

private theorem pending_afterLoad : (r.afterLoad name).pending + (r.triggers.getD name []).length =
    r.pending + ((r.triggers.getD name []).length - 1) := by
  rw [pending_eq, pending_eq, ← List.length_drop]
  exact lengths_insert _ _ _

theorem pending_afterLoad_le : (r.afterLoad name).pending ≤ r.pending := by
  have := r.pending_afterLoad name
  omega

theorem pending_afterLoad_lt (h : r.nextActions name ≠ []) : (r.afterLoad name).pending < r.pending := by
  have hlength : (r.triggers.getD name []).length ≠ 0 := by
    intro h'
    simp [nextActions, List.length_eq_zero_iff.1 h'] at h
  have := r.pending_afterLoad name
  omega

end Repository

namespace Workspace

variable {f : Repository → Repository}

private theorem pending_modify_le (hf : ∀ r, (f r).pending ≤ r.pending) (rs : List Repository) (r : Nat) :
    (rs.modify r f).foldr (fun r n => r.pending + n) 0 ≤ rs.foldr (fun r n => r.pending + n) 0 := by
  induction rs generalizing r with
  | nil => simp
  | cons s rs ih =>
    cases r with
    | zero =>
      have := hf s
      simp only [List.modify_zero_cons, List.foldr_cons]
      omega
    | succ r =>
      have := ih r
      simp only [List.modify_succ_cons, List.foldr_cons]
      omega

private theorem pending_modify_lt {rs : List Repository} {r : Nat} {s : Repository} (hr : rs[r]? = some s)
    (hs : (f s).pending < s.pending) :
    (rs.modify r f).foldr (fun r n => r.pending + n) 0 < rs.foldr (fun r n => r.pending + n) 0 := by
  induction rs generalizing r with
  | nil => simp at hr
  | cons s' rs ih =>
    cases r with
    | zero =>
      obtain rfl : s' = s := by simpa using hr
      simp only [List.modify_zero_cons, List.foldr_cons]
      omega
    | succ r =>
      have := ih (by simpa using hr)
      simp only [List.modify_succ_cons, List.foldr_cons]
      omega

theorem pending_modifyRepository_le (hf : ∀ r, (f r).pending ≤ r.pending) (w : Workspace) (r : Nat) :
    (w.modifyRepository r f).pending ≤ w.pending :=
  pending_modify_le hf _ _

/-- A load that sets off actions leaves fewer of them. -/
theorem pending_afterLoad_lt {w : Workspace} {r : Nat} {name : String}
    (h : (w.repository r).nextActions name ≠ []) :
    (w.modifyRepository r (·.afterLoad name)).pending < w.pending := by
  cases hr : w.repositories[r]? with
  | none =>
    rw [repository, List.getD_eq_getElem?_getD, hr] at h
    simp [Repository.nextActions] at h
  | some s =>
    rw [repository, List.getD_eq_getElem?_getD, hr] at h
    exact pending_modify_lt hr (s.pending_afterLoad_lt name h)

end Workspace

end DecisionTables
