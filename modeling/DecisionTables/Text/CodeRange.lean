/-!
# Ranges of code points

A class of characters is given by a list of ranges of code points. The ranges stand in ascending order and do
not meet, so a search stops at the first range that ends at the code point or behind it: by `covers_iff`
this range alone decides.
-/

namespace DecisionTables.Text

/-- Ranges of code points, each by its first and its last. -/
abbrev CodeRanges := List (Nat × Nat)

/-- The code point lies in one of the ranges, which stand in ascending order. -/
def CodeRanges.covers : CodeRanges → Nat → Bool
  | [], _ => false
  | (first, last) :: rest, n => if n ≤ last then first ≤ n else covers rest n

/-- The ranges hold a code point each, stand in ascending order from a least one on and do not meet. -/
def CodeRanges.ascendingFrom : Nat → CodeRanges → Bool
  | _, [] => true
  | least, (first, last) :: rest => least ≤ first && first ≤ last && ascendingFrom (last + 1) rest

private theorem CodeRanges.least_le_of_mem {least : Nat} {ranges : CodeRanges} (h : ranges.ascendingFrom least = true)
    {r : Nat × Nat} (hr : r ∈ ranges) : least ≤ r.1 := by
  induction ranges generalizing least with
  | nil => simp at hr
  | cons s rest ih =>
    simp only [ascendingFrom, Bool.and_eq_true, decide_eq_true_eq] at h
    rcases List.mem_cons.1 hr with rfl | hr
    · exact h.1.1
    · have := ih h.2 hr
      omega

theorem CodeRanges.covers_iff {least : Nat} {ranges : CodeRanges} (h : ranges.ascendingFrom least = true)
    (n : Nat) : ranges.covers n = true ↔ ∃ r ∈ ranges, r.1 ≤ n ∧ n ≤ r.2 := by
  induction ranges generalizing least with
  | nil => simp [covers]
  | cons s rest ih =>
    simp only [ascendingFrom, Bool.and_eq_true, decide_eq_true_eq] at h
    by_cases hn : n ≤ s.2
    · simp only [covers, hn, if_true, decide_eq_true_eq]
      constructor
      · exact fun hs => ⟨s, by simp, hs, hn⟩
      · rintro ⟨r, hr, hrn, _⟩
        rcases List.mem_cons.1 hr with rfl | hr
        · exact hrn
        · have := least_le_of_mem h.2 hr
          omega
    · simp only [covers, hn, if_false, ih h.2]
      constructor
      · rintro ⟨r, hr, hrn⟩
        exact ⟨r, List.mem_cons_of_mem _ hr, hrn⟩
      · rintro ⟨r, hr, hrn⟩
        rcases List.mem_cons.1 hr with rfl | hr
        · exact absurd hrn.2 hn
        · exact ⟨r, hr, hrn⟩

end DecisionTables.Text
