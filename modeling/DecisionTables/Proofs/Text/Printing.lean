import DecisionTables.Number.Decimal.Printer
import DecisionTables.Pattern
import DecisionTables.Text.Blank
import Mathlib.Algebra.Group.Nat.Defs
import Mathlib.Data.List.TakeWhile

/-!
# Printed numbers

Printed numbers consist of digits, signs and points, so they are not blank and have no white space around them
(`Solid`), nor are they the wildcard. A number padded to a width that it does not exceed has exactly that width
(`length_padded`), and reading on over printed digits appends them (`ofDigitChars_padded`).
-/

namespace DecisionTables.Text

/-! ### Texts without white space -/

/-- There are characters, and none of them is white space or the wildcard. -/
def Solid (cs : List Char) : Prop :=
  cs ≠ [] ∧ ∀ c ∈ cs, isSpace c = false ∧ c ≠ '*'

instance (cs : List Char) : Decidable (Solid cs) :=
  decidable_of_iff ((!cs.isEmpty && cs.all fun c => !isSpace c && c != '*') = true) (by simp [Solid])

theorem Solid.cons {c : Char} {cs : List Char} (hc : isSpace c = false ∧ c ≠ '*') (h : Solid cs) :
    Solid (c :: cs) := by
  refine ⟨List.cons_ne_nil _ _, fun d hd => ?_⟩
  rcases List.mem_cons.1 hd with rfl | hd
  · exact hc
  · exact h.2 d hd

theorem Solid.append {cs ds : List Char} (h : Solid cs) (h' : Solid ds) : Solid (cs ++ ds) := by
  refine ⟨by simp [h.1], fun c hc => ?_⟩
  rcases List.mem_append.1 hc with hc | hc
  · exact h.2 c hc
  · exact h'.2 c hc

private theorem dropWhile_isSpace {cs : List Char} (h : ∀ c ∈ cs, isSpace c = false ∧ c ≠ '*') :
    cs.dropWhile isSpace = cs := by
  cases cs with
  | nil => rfl
  | cons c cs => rw [List.dropWhile_cons_of_neg (by simp [h c])]

theorem Solid.strip_eq {cs : List Char} (h : Solid cs) : strip cs = cs := by
  have hreverse : ∀ c ∈ cs.reverse, isSpace c = false ∧ c ≠ '*' := fun c hc => h.2 c (List.mem_reverse.1 hc)
  rw [strip, dropWhile_isSpace h.2, dropWhile_isSpace hreverse, List.reverse_reverse]

theorem Solid.isBlank_eq {cs : List Char} (h : Solid cs) : isBlank (String.ofList cs) = false := by
  obtain ⟨c, hc⟩ := List.exists_mem_of_ne_nil _ h.1
  rw [isBlank, String.toList_ofList, List.all_eq_false]
  exact ⟨c, hc, by simp [(h.2 c hc).1]⟩

/-- A text without white space is read as it is. -/
theorem Solid.nonBlank?_eq {cs : List Char} (h : Solid cs) :
    nonBlank? (some (String.ofList cs)) = some (String.ofList cs) := by
  simp [nonBlank?, h.isBlank_eq, trim, h.strip_eq]

theorem Solid.ne_wildcard {cs : List Char} (h : Solid cs) : String.ofList cs ≠ wildcard := by
  intro heq
  have hcs : cs = ['*'] := by
    rw [← String.toList_ofList (l := cs), heq]
    rfl
  exact (h.2 '*' (by rw [hcs]; exact List.mem_singleton_self _)).2 rfl

private theorem strip_append_left {front cs : List Char} (h : ∀ c ∈ front, isSpace c = true) :
    strip (front ++ cs) = strip cs := by
  rw [strip, List.dropWhile_append_of_pos h, strip]

private theorem strip_append_right {cs back : List Char} (h : ∀ c ∈ back, isSpace c = true) :
    strip (cs ++ back) = strip cs := by
  by_cases hcs : ∀ c ∈ cs, isSpace c = true
  · rw [strip_eq_nil.2 hcs, strip_eq_nil]
    exact fun c hc => (List.mem_append.1 hc).elim (hcs c) (h c)
  · have hne : (cs.dropWhile isSpace).isEmpty = false := by
      rw [List.isEmpty_eq_false_iff]
      intro hnil
      exact hcs fun c hc => List.dropWhile_eq_nil_iff.1 hnil c hc
    have hback : ∀ c ∈ back.reverse, isSpace c = true := fun c hc => h c (List.mem_reverse.1 hc)
    rw [strip, List.dropWhile_append, hne, if_neg Bool.false_ne_true, List.reverse_append,
      List.dropWhile_append_of_pos hback, strip]

/-- White space around a text does not matter. -/
theorem strip_padded {front cs back : List Char} (hfront : ∀ c ∈ front, isSpace c = true)
    (hback : ∀ c ∈ back, isSpace c = true) : strip (front ++ cs ++ back) = strip cs := by
  rw [strip_append_right hback, strip_append_left hfront]

/-! ### Digits -/

theorem solid_of_isDigit {cs : List Char} (hne : cs ≠ []) (h : ∀ c ∈ cs, c.isDigit = true) : Solid cs := by
  refine ⟨hne, fun c hc => ⟨?_, ?_⟩⟩
  · have hdigit := h c hc
    simp only [Char.isDigit, Bool.and_eq_true, decide_eq_true_eq, UInt32.le_iff_toNat_le] at hdigit
    have h1 : '0'.val.toNat = 48 := rfl
    have h2 : '9'.val.toNat = 57 := rfl
    have h3 : c.toNat = c.val.toNat := rfl
    -- the digits stand between the second and the third range
    simp only [isSpace, spaceRanges, CodeRanges.covers]
    rw [if_neg (by omega), if_neg (by omega), if_pos (by omega)]
    simp
    omega
  · rintro rfl
    exact absurd (h '*' hc) (by decide)

theorem solid_digits (n : Nat) : Solid (digits n) :=
  solid_of_isDigit Nat.toDigits_ne_nil fun _ hc => isDigit_of_mem_digits hc

private theorem padded_ne_nil (width n : Nat) : padded width n ≠ [] := by
  simp [padded, List.leftpad, digits, Nat.toDigits_ne_nil]

theorem solid_padded (width n : Nat) : Solid (padded width n) :=
  solid_of_isDigit (padded_ne_nil width n) fun _ hc => isDigit_of_mem_padded hc

theorem solid_pointed (m s : Nat) : Solid (pointed m s) := by
  rw [pointed]
  split
  · exact solid_digits m
  · exact (solid_digits _).append ((solid_padded _ _).cons (by decide))

/-- A number below a power of ten fills exactly its width. -/
theorem length_padded {width n : Nat} (hwidth : 0 < width) (h : n < 10 ^ width) :
    (padded width n).length = width := by
  have hlength := (Nat.length_toDigits_le_iff (b := 10) (by decide) hwidth).2 h
  simp only [padded, List.leftpad, List.length_append, List.length_replicate, digits]
  omega

theorem ofDigitChars_padded (width n init : Nat) :
    Nat.ofDigitChars 10 (padded width n) init = 10 ^ (padded width n).length * init + n := by
  have h := ofDigits_padded width n
  rw [ofDigits] at h
  rw [Nat.ofDigitChars_eq_ofDigitChars_zero, h]

theorem le_ofDigitChars (cs : List Char) (init : Nat) : init ≤ Nat.ofDigitChars 10 cs init := by
  have hpos : 0 < 10 ^ cs.length := Nat.pow_pos (by decide)
  rw [Nat.ofDigitChars_eq_ofDigitChars_zero]
  exact Nat.le_trans (Nat.le_mul_of_pos_left init hpos) (Nat.le_add_right _ _)

theorem digit?_of_isDigit {c : Char} (h : c.isDigit = true) : digit? c = some (c.toNat - '0'.toNat) := by
  rw [digit?, if_pos h]

theorem ofDigits_lt {cs : List Char} (h : ∀ c ∈ cs, c.isDigit = true) : ofDigits cs < 10 ^ cs.length := by
  rw [ofDigits]
  induction cs with
  | nil => decide
  | cons c cs ih =>
    have hrest := ih fun d hd => h d (List.mem_cons_of_mem _ hd)
    have hdigit := digit?_eq_some (digit?_of_isDigit (h c List.mem_cons_self))
    have hmul : 10 ^ cs.length * (c.toNat - '0'.toNat) ≤ 10 ^ cs.length * 9 :=
      Nat.mul_le_mul_left _ (Nat.le_of_lt_succ hdigit)
    rw [Nat.ofDigitChars_cons, Nat.ofDigitChars_eq_ofDigitChars_zero, List.length_cons, Nat.pow_succ, Nat.mul_zero,
      Nat.zero_add]
    omega

end DecisionTables.Text
