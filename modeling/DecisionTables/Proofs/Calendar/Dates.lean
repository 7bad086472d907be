import DecisionTables.Proofs.Calendar.Grammar

/-!
# Printed dates

Different dates have different texts, whatever their year (`Date.text_injective`). A date of the years 0 to
9999 is read back from its text (`Date.read_text`), and no other date can be read (`Date.year_of_read`).
-/

namespace DecisionTables

/-! ### Months and days -/

private theorem daysInMonth_le (year : Int) (month : Nat) : daysInMonth year month ≤ 31 := by
  unfold daysInMonth
  split
  case h_12 => split <;> omega
  all_goals omega

private theorem month_le_of_daysInMonth_pos {year : Int} {month : Nat} (h : 0 < daysInMonth year month) :
    month ≤ 12 := by
  unfold daysInMonth at h
  split at h
  all_goals omega

namespace Date

theorem month_lt (d : Date) : d.month < 10 ^ 2 := by
  have h := month_le_of_daysInMonth_pos (Nat.lt_of_lt_of_le d.one_le_day d.day_le)
  omega

theorem day_lt (d : Date) : d.day < 10 ^ 2 := by
  have h := Nat.le_trans d.day_le (daysInMonth_le d.year d.month)
  omega

/-! ### Different dates have different texts -/

private theorem filter_yearChars (year : Int) :
    (yearChars year).filter Char.isDigit = Text.padded 4 year.natAbs := by
  have hpadded : (Text.padded 4 year.natAbs).filter Char.isDigit = Text.padded 4 year.natAbs :=
    List.filter_eq_self.2 fun c hc => Text.isDigit_of_mem_padded hc
  unfold yearChars
  split
  · rw [List.filter_cons_of_neg (by decide), hpadded]
  · split
    · exact hpadded
    · rw [List.filter_cons_of_neg (by decide), hpadded]

private theorem mem_yearChars {year : Int} : '-' ∈ yearChars year ↔ year < 0 := by
  have hpadded : '-' ∉ Text.padded 4 year.natAbs :=
    fun h => absurd (Text.isDigit_of_mem_padded h) (by decide)
  unfold yearChars
  split
  · simpa
  · split <;> simp [hpadded] <;> omega

private theorem yearChars_injective {a b : Int} (h : yearChars a = yearChars b) : a = b := by
  have hdigits := congrArg (List.filter Char.isDigit) h
  have hsign : a < 0 ↔ b < 0 := by
    rw [← mem_yearChars, h, mem_yearChars]
  rw [filter_yearChars, filter_yearChars] at hdigits
  have habs := congrArg Text.ofDigits hdigits
  rw [Text.ofDigits_padded, Text.ofDigits_padded] at habs
  omega

private theorem padded_injective {a b : Nat} (h : Text.padded 2 a = Text.padded 2 b) : a = b := by
  have hvalue := congrArg Text.ofDigits h
  rwa [Text.ofDigits_padded, Text.ofDigits_padded] at hvalue

theorem text_injective {a b : Date} (h : a.text = b.text) : a = b := by
  have hmonth : ∀ d : Date, (Text.padded 2 d.month).length = 2 :=
    fun d => Text.length_padded (by decide) d.month_lt
  have hday : ∀ d : Date, (Text.padded 2 d.day).length = 2 :=
    fun d => Text.length_padded (by decide) d.day_lt
  have hchars : a.chars = b.chars := String.ofList_injective h
  unfold chars at hchars
  obtain ⟨hyear, hrest⟩ := List.append_inj' hchars (by simp [hmonth, hday])
  obtain ⟨hm, hd⟩ := List.append_inj (List.cons.inj hrest).2 (by simp [hmonth])
  have hy := yearChars_injective hyear
  have hm' := padded_injective hm
  have hd' := padded_injective (List.cons.inj hd).2
  obtain ⟨y, m, d, _, _⟩ := a
  obtain ⟨y', m', d', _, _⟩ := b
  simp_all

theorem solid_chars (d : Date) : Text.Solid d.chars := by
  have hyear : Text.Solid (yearChars d.year) := by
    unfold yearChars
    split
    · exact (Text.solid_padded _ _).cons (by decide)
    · split
      · exact Text.solid_padded _ _
      · exact (Text.solid_padded _ _).cons (by decide)
  exact hyear.append (((Text.solid_padded _ _).append ((Text.solid_padded _ _).cons (by decide))).cons (by decide))

end Date

/-! ### Dates are read back -/

theorem Layout.numeral_padded {least width n : Nat} (hleast : least ≤ width) (hwidth : 0 < width)
    (h : n < 10 ^ width) : Numeral least width (Text.padded width n) n where
  isDigit _ hc := Text.isDigit_of_mem_padded hc
  least_le := by rw [Text.length_padded hwidth h]; exact hleast
  le_most := Nat.le_of_eq (Text.length_padded hwidth h)
  value := Text.ofDigits_padded width n

namespace Date

/-- A year that is written without a sign fills its four digits. -/
theorem numeral_year {d : Date} (hyear : 0 ≤ d.year) (hyear' : d.year ≤ 9999) :
    Layout.Numeral 4 4 (Text.padded 4 d.year.natAbs) d.year.natAbs :=
  Layout.numeral_padded (by decide) (by decide) (by omega)

theorem read_text {d : Date} (hyear : 0 ≤ d.year) (hyear' : d.year ≤ 9999) : read d.text = .ok d := by
  have hchars : d.chars =
      Text.padded 4 d.year.natAbs ++ '-' :: (Text.padded 2 d.month ++ '-' :: Text.padded 2 d.day) := by
    rw [chars, yearChars, if_neg (by omega), if_pos hyear']
  have hwritten : Layout.Written d.chars ⟨d.year.natAbs, d.month, d.day⟩ := by
    rw [hchars]
    exact .yearFirst (by decide) (numeral_year hyear hyear')
      (Layout.numeral_padded (by decide) (by decide) d.month_lt)
      (Layout.numeral_padded (by decide) (by decide) d.day_lt)
  rw [read_eq_ok_iff, text, String.toList_ofList, d.solid_chars.strip_eq]
  exact ⟨_, hwritten, by simp only; omega, rfl, rfl⟩

theorem year_of_read {s : String} {d : Date} (h : read s = .ok d) : 0 ≤ d.year ∧ d.year ≤ 9999 := by
  obtain ⟨f, hwritten, hyear, -⟩ := read_eq_ok_iff.1 h
  have hlt := hwritten.year_lt
  omega

end Date

end DecisionTables
