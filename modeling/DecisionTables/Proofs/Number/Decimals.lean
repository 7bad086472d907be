import DecisionTables.Number.Decimal.Reader
import DecisionTables.Proofs.Text.Printing

/-!
# Printed decimals are read back

Reading the text of a decimal gives that decimal, except that zero has no sign any more (`Decimal.read_text`).
A decimal without zeros at the end of its fraction is the only one of its value (`normalize_eq_iff`), so such
decimals have the same text if and only if their values are equal (`text_normalize_eq_iff`).
-/

namespace DecisionTables

/-! ### Reading -/

namespace Decimal

/-- Digits are read on to their end, if they lead to a number in range. -/
private theorem readOn_append (point digit : Bool) {ds : List Char} (hds : ∀ c ∈ ds, c.isDigit = true)
    {x y : Magnitude} (hmantissa : y.mantissa = Nat.ofDigitChars 10 ds x.mantissa)
    (hscale : y.scale = x.scale + point.toNat * ds.length) (rest : List Char) :
    readOn x digit point (ds ++ rest) = readOn y (digit || !ds.isEmpty) point rest := by
  induction ds generalizing digit x with
  | nil =>
    obtain rfl : y = x := by
      cases x
      cases y
      simp_all
    simp
  | cons c cs ih =>
    rw [Nat.ofDigitChars_cons, Nat.mul_comm] at hmantissa
    have hle := Text.le_ofDigitChars cs (x.mantissa * 10 + (c.toNat - '0'.toNat))
    have hlt := y.mantissa_lt
    have hplaces : y.scale = x.scale + point.toNat + point.toNat * cs.length := by
      rw [hscale, List.length_cons, Nat.mul_add]
      omega
    -- mantissa and scale only grow, so what is in range at the end is so on the way
    have hfits : x.mantissa * 10 + (c.toNat - '0'.toNat) < 0x1000000000000000000000000 ∧
        x.scale + point.toNat ≤ 28 := by
      have := y.scale_le
      constructor <;> omega
    rw [List.cons_append, readOn, Text.digit?_of_isDigit (hds c List.mem_cons_self)]
    simp only
    rw [push?, dif_pos hfits]
    simp only
    rw [ih true (fun d hd => hds d (List.mem_cons_of_mem _ hd)) hmantissa hplaces]
    simp

private theorem readOn_digits {n : Nat} {y : Magnitude} (hy : y.mantissa = n) (hscale : y.scale = 0)
    (rest : List Char) : readOn .zero false false (Text.digits n ++ rest) = readOn y true false rest := by
  have hvalue : Nat.ofDigitChars 10 (Text.digits n) 0 = n := Text.ofDigits_digits n
  have hne : (Text.digits n).isEmpty = false := List.isEmpty_eq_false_iff.2 (Text.solid_digits n).1
  rw [readOn_append false false (fun c hc => Text.isDigit_of_mem_digits hc) (hy.trans hvalue.symm)
    (by simp [hscale, Magnitude.zero]), hne]
  rfl

private theorem readOn_padded {n : Nat} {x y : Magnitude} {places : Nat}
    (hlength : (Text.padded places n).length = places)
    (hy : y.mantissa = 10 ^ places * x.mantissa + n) (hscale : y.scale = x.scale + places) :
    readOn x true true (Text.padded places n) = .ok y := by
  have hvalue := Text.ofDigitChars_padded places n x.mantissa
  rw [hlength] at hvalue
  have hread := readOn_append true true (fun c hc => Text.isDigit_of_mem_padded hc)
    (hy.trans hvalue.symm) (by simp [hscale, hlength]) []
  rw [List.append_nil] at hread
  rw [hread]
  rfl

/-- A printed magnitude is read back. -/
private theorem readOn_pointed (x : Magnitude) :
    readOn .zero false false (Text.pointed x.mantissa x.scale) = .ok x := by
  rw [Text.pointed]
  by_cases hs : x.scale = 0
  · rw [if_pos hs, ← List.append_nil (Text.digits x.mantissa), readOn_digits rfl hs]
    rfl
  · have hpow : 0 < 10 ^ x.scale := Nat.pow_pos (by decide)
    have hlt : x.mantissa / 10 ^ x.scale < 0x1000000000000000000000000 :=
      Nat.lt_of_le_of_lt (Nat.div_le_self _ _) x.mantissa_lt
    have hlength := Text.length_padded (Nat.pos_of_ne_zero hs) (Nat.mod_lt x.mantissa hpow)
    let whole : Magnitude := ⟨x.mantissa / 10 ^ x.scale, 0, hlt, Nat.zero_le _⟩
    have hfraction : readOn whole true true (Text.padded x.scale (x.mantissa % 10 ^ x.scale)) = .ok x :=
      readOn_padded hlength (Nat.div_add_mod _ _).symm (by simp [whole])
    rw [if_neg hs, Nat.pow_eq, readOn_digits (y := whole) rfl rfl, readOn]
    exact hfraction

/-- Only the sign of a zero is lost in reading. -/
theorem read_text (d : Decimal) : read d.text = .ok (signed d.negative d.toMagnitude) := by
  have hread := readOn_pointed d.toMagnitude
  have hplain : readPlain d.chars = .ok (signed d.negative d.toMagnitude) := by
    rw [chars]
    cases hneg : d.negative with
    | true =>
      rw [if_pos rfl, readPlain, hread]
      rfl
    | false =>
      have hsign : ∀ c ∈ Text.pointed d.mantissa d.scale, c.isDigit = true ∨ c = '.' := by
        intro c hc
        rw [Text.pointed] at hc
        split at hc
        · exact .inl (Text.isDigit_of_mem_digits hc)
        · simp only [List.mem_append, List.mem_cons] at hc
          rcases hc with hc | hc | hc
          · exact .inl (Text.isDigit_of_mem_digits hc)
          · exact .inr hc
          · exact .inl (Text.isDigit_of_mem_padded hc)
      rw [if_neg (by decide), readPlain.eq_def]
      split
      · rename_i heq
        exact absurd heq (Text.solid_pointed _ _).1
      · rename_i heq
        exact absurd (hsign '-' (by rw [heq]; exact List.mem_cons_self)) (by decide)
      · rename_i heq
        exact absurd (hsign '+' (by rw [heq]; exact List.mem_cons_self)) (by decide)
      · rw [hread]
        rfl
  rw [read, text]
  simp only [String.toList_ofList, hplain]

/-! ### Decimals without zeros at the end of their fraction -/

end Decimal

private theorem Magnitude.dropZeros_reduced (m s : Nat) : (dropZeros m s).2 = 0 ∨ (dropZeros m s).1 % 10 ≠ 0 := by
  induction s generalizing m with
  | zero => exact .inl rfl
  | succ s ih =>
    rw [dropZeros]
    split
    · exact ih (m / 10)
    · rename_i h
      exact .inr h

/-- Of two magnitudes of one value the one that cannot be reduced has no more places. -/
private theorem Magnitude.scale_le_of_eq {x y : Magnitude} (hy : y.scale = 0 ∨ y.mantissa % 10 ≠ 0)
    (h : x.mantissa * 10 ^ (28 - x.scale) = y.mantissa * 10 ^ (28 - y.scale)) : y.scale ≤ x.scale := by
  rcases Nat.lt_or_ge x.scale y.scale with hlt | hle
  case inr => exact hle
  have hscale := y.scale_le
  obtain ⟨k, hk⟩ : ∃ k, 28 - x.scale = (k + 1) + (28 - y.scale) := ⟨y.scale - x.scale - 1, by omega⟩
  rw [hk, Nat.pow_add, ← Nat.mul_assoc] at h
  have hm : x.mantissa * 10 ^ (k + 1) = y.mantissa := Nat.eq_of_mul_eq_mul_right (Nat.pow_pos (by decide)) h
  rw [Nat.pow_succ, ← Nat.mul_assoc] at hm
  rcases hy with hy | hy <;> omega

namespace Decimal

/-- There is no zero at the end of the fraction, and no sign at a zero. -/
def Reduced (d : Decimal) : Prop :=
  (d.scale = 0 ∨ d.mantissa % 10 ≠ 0) ∧ (d.mantissa = 0 → d.negative = false)

private theorem reduced_normalize (d : Decimal) : d.normalize.Reduced := by
  rw [normalize]
  split
  · exact ⟨.inl rfl, fun _ => rfl⟩
  · rename_i hd
    refine ⟨Magnitude.dropZeros_reduced _ _, fun hzero => absurd ?_ hd⟩
    have hmul := Magnitude.dropZeros_mul d.mantissa d.scale
    have hmantissa : (Magnitude.dropZeros d.mantissa d.scale).1 = 0 := hzero
    rw [hmantissa, Nat.zero_mul] at hmul
    exact hmul.symm

theorem natAbs_withSign (negative : Bool) (n : Nat) : (withSign negative n).natAbs = n := by
  cases negative <;> simp [withSign]

private theorem withSign_injective {a b : Bool} {n : Nat} (hn : 0 < n) (h : withSign a n = withSign b n) :
    a = b := by
  cases a <;> cases b <;> simp [withSign] at h ⊢ <;> omega

private theorem Reduced.eq_of_units_eq {a b : Decimal} (ha : a.Reduced) (hb : b.Reduced) (h : a.units = b.units) :
    a = b := by
  have hpow : ∀ d : Decimal, 0 < 10 ^ (28 - d.scale) := fun d => Nat.pow_pos (by decide)
  have habs : a.mantissa * 10 ^ (28 - a.scale) = b.mantissa * 10 ^ (28 - b.scale) := by
    have hnat := congrArg Int.natAbs h
    rwa [units, units, natAbs_withSign, natAbs_withSign] at hnat
  have hscale : a.scale = b.scale :=
    Nat.le_antisymm (Magnitude.scale_le_of_eq ha.1 habs.symm) (Magnitude.scale_le_of_eq hb.1 habs)
  have hmantissa : a.mantissa = b.mantissa := by
    rw [hscale] at habs
    exact Nat.eq_of_mul_eq_mul_right (hpow b) habs
  have hnegative : a.negative = b.negative := by
    by_cases hzero : a.mantissa = 0
    · rw [ha.2 hzero, hb.2 (by omega)]
    · have hpos : 0 < b.mantissa * 10 ^ (28 - b.scale) := Nat.mul_pos (by omega) (hpow b)
      rw [units, units, hscale, hmantissa] at h
      exact withSign_injective hpos h
  obtain ⟨⟨m, s, _, _⟩, n⟩ := a
  obtain ⟨⟨m', s', _, _⟩, n'⟩ := b
  simp_all

theorem normalize_eq_iff {a b : Decimal} : a.normalize = b.normalize ↔ a.units = b.units := by
  constructor
  · intro h
    rw [← units_normalize a, h, units_normalize]
  · intro h
    refine (reduced_normalize a).eq_of_units_eq (reduced_normalize b) ?_
    rw [units_normalize, units_normalize, h]

theorem read_text_normalize (d : Decimal) : read d.normalize.text = .ok d.normalize := by
  have hreduced := (reduced_normalize d).2
  rw [read_text, signed]
  by_cases hzero : d.normalize.mantissa = 0
  · rw [hzero, hreduced hzero]
    simp [← hreduced hzero]
  · have hsign : (d.normalize.mantissa != 0) = true := by simp [hzero]
    rw [hsign, Bool.and_true]

theorem text_normalize_eq_iff {a b : Decimal} : a.normalize.text = b.normalize.text ↔ a.units = b.units := by
  rw [← normalize_eq_iff]
  constructor
  · intro h
    have hread := read_text_normalize a
    rw [h, read_text_normalize] at hread
    exact (Except.ok.inj hread).symm
  · intro h
    rw [h]

theorem solid_chars (d : Decimal) : Text.Solid d.chars := by
  rw [chars]
  split
  · exact (Text.solid_pointed _ _).cons (by decide)
  · exact Text.solid_pointed _ _

end Decimal

end DecisionTables
