import DecisionTables.Proofs.Calendar.Dates

/-!
# The spellings of a date

A text is read as a date exactly if it is in the grammar, without the white space around it, and has the fields
of a day that exists; and it has no second reading. A day of the years 0 to 9999 has many spellings, all of which
are read as that day: the year first or the day first, with each of the three separators, and with or without a
zero in front of a month or a day of one digit (`Date.read_eq_ok_iff_written`).
-/

namespace DecisionTables

namespace Layout

/-- The characters of a month or a day, without a zero in front of it and filled up to two digits. -/
def shortAndPadded (n : Nat) : List (List Char) :=
  [Text.digits n, Text.padded 2 n]

private theorem numeral_of_mem_shortAndPadded {n : Nat} (h : n < 10 ^ 2) {cs : List Char}
    (hcs : cs ∈ shortAndPadded n) : Numeral 1 2 cs n := by
  simp only [shortAndPadded, List.mem_cons, List.not_mem_nil, or_false] at hcs
  rcases hcs with rfl | rfl
  · have hlength : (Text.digits n).length ≤ 2 := (Nat.length_toDigits_le_iff (by decide) (by decide)).2 h
    have hne : Text.digits n ≠ [] := (Text.solid_digits n).1
    exact ⟨fun _ hc => Text.isDigit_of_mem_digits hc, List.length_pos_iff.2 hne, hlength, Text.ofDigits_digits n⟩
  · exact numeral_padded (by decide) (by decide) h

private theorem Numeral.solid {least most n : Nat} {cs : List Char} (h : Numeral least most cs n)
    (hleast : 0 < least) : Text.Solid cs := by
  have hlength := h.least_le
  exact Text.solid_of_isDigit (List.length_pos_iff.1 (by omega)) h.isDigit

/-- There is no white space in the texts of the grammar. -/
private theorem Written.solid {cs : List Char} {f : Fields} (h : Written cs f) : Text.Solid cs := by
  have hseparator : ∀ sep ∈ ['-', '.', '/'], Text.isSpace sep = false ∧ sep ≠ '*' := by
    simp only [List.forall_mem_cons]
    exact ⟨by decide, by decide, by decide, by simp⟩
  cases h with
  | yearFirst hsep hyear hmonth hday =>
    have hrest := ((hmonth.solid (by decide)).append ((hday.solid (by decide)).cons (hseparator _ hsep)))
    exact (hyear.solid (by decide)).append (hrest.cons (hseparator _ hsep))
  | dayFirst hsep hyear hmonth hday =>
    have hrest := ((hmonth.solid (by decide)).append ((hyear.solid (by decide)).cons (hseparator _ hsep)))
    exact (hday.solid (by decide)).append (hrest.cons (hseparator _ hsep))

end Layout

namespace Date

/-- A text of the grammar is read as the day that has its fields. -/
private theorem read_of_written {cs : List Char} {d : Date} (hyear : 0 ≤ d.year)
    (h : Layout.Written cs ⟨d.year.natAbs, d.month, d.day⟩) : read (String.ofList cs) = .ok d := by
  rw [read_eq_ok_iff, String.toList_ofList, h.solid.strip_eq]
  exact ⟨_, h, by simp only; omega, rfl, rfl⟩

/-- A text of the grammar is read if the day of its fields exists. -/
private theorem exists_read_iff {s : String} {f : Layout.Fields} (h : Layout.Written (Text.strip s.toList) f) :
    (∃ d, read s = .ok d) ↔ 1 ≤ f.day ∧ f.day ≤ daysInMonth f.year f.month := by
  constructor
  · rintro ⟨d, hd⟩
    obtain ⟨g, hg, hyear, hmonth, hday⟩ := read_eq_ok_iff.1 hd
    obtain rfl := h.unique hg
    rw [hyear, hmonth, hday]
    exact ⟨d.one_le_day, d.day_le⟩
  · rintro ⟨hone, hle⟩
    exact ⟨⟨f.year, f.month, f.day, hone, hle⟩, read_eq_ok_iff.2 ⟨f, h, rfl, rfl, rfl⟩⟩

/-- A text is read as a date exactly if it is written in the grammar, but for the white space around it, with
the fields of this date. Of the texts of the grammar just those are read whose day exists, and none has two
lists of fields. Every date of the years 0 to 9999 is read from each of its spellings. -/
theorem read_eq_ok_iff_written :
    (∀ (s : String) (d : Date), read s = .ok d ↔
      ∃ f, Layout.Written (Text.strip s.toList) f ∧ (f.year : Int) = d.year ∧ f.month = d.month ∧ f.day = d.day) ∧
    (∀ (s : String) (f : Layout.Fields), Layout.Written (Text.strip s.toList) f →
      ((∃ d, read s = .ok d) ↔ 1 ≤ f.day ∧ f.day ≤ daysInMonth f.year f.month)) ∧
    (∀ (cs : List Char) (f g : Layout.Fields), Layout.Written cs f → Layout.Written cs g → f = g) ∧
    ∀ d : Date, 0 ≤ d.year → d.year ≤ 9999 → ∀ sep ∈ ['-', '.', '/'],
      ∀ month ∈ Layout.shortAndPadded d.month, ∀ day ∈ Layout.shortAndPadded d.day,
        read (String.ofList (Text.padded 4 d.year.natAbs ++ sep :: (month ++ sep :: day))) = .ok d ∧
        read (String.ofList (day ++ sep :: (month ++ sep :: Text.padded 4 d.year.natAbs))) = .ok d := by
  refine ⟨fun _ _ => read_eq_ok_iff, fun _ _ => exists_read_iff, fun _ _ _ hf hg => hf.unique hg, ?_⟩
  intro d hyear hyear' sep hsep month hmonth day hday
  have hy := numeral_year hyear hyear'
  have hm := Layout.numeral_of_mem_shortAndPadded d.month_lt hmonth
  have hd := Layout.numeral_of_mem_shortAndPadded d.day_lt hday
  exact ⟨read_of_written hyear (.yearFirst hsep hy hm hd), read_of_written hyear (.dayFirst hsep hy hm hd)⟩

/-- A leap day, with the day first, and the same fields in a year without that day. -/
theorem read_eq_ok_iff_written_leapDay :
    (∃ d, read " 29/2/2012 " = .ok d ∧ d.year = 2012 ∧ d.month = 2 ∧ d.day = 29) ∧
    ¬∃ d, read "29/2/2013" = .ok d := by
  obtain ⟨hread, hexists, -, -⟩ := read_eq_ok_iff_written
  have hday : Layout.Numeral 1 2 ['2', '9'] 29 := by decide
  have hmonth : Layout.Numeral 1 2 ['2'] 2 := by decide
  have hyear : Layout.Numeral 4 4 ['2', '0', '1', '2'] 2012 := by decide
  have hyear' : Layout.Numeral 4 4 ['2', '0', '1', '3'] 2013 := by decide
  have hstrip : Text.strip " 29/2/2012 ".toList =
      ['2', '9'] ++ '/' :: (['2'] ++ '/' :: ['2', '0', '1', '2']) := by decide
  have hstrip' : Text.strip "29/2/2013".toList =
      ['2', '9'] ++ '/' :: (['2'] ++ '/' :: ['2', '0', '1', '3']) := by decide
  have hleap : Layout.Written (Text.strip " 29/2/2012 ".toList) ⟨2012, 2, 29⟩ := by
    rw [hstrip]
    exact .dayFirst (by decide) hyear hmonth hday
  have hother : Layout.Written (Text.strip "29/2/2013".toList) ⟨2013, 2, 29⟩ := by
    rw [hstrip']
    exact .dayFirst (by decide) hyear' hmonth hday
  constructor
  · obtain ⟨d, hd⟩ := (hexists _ _ hleap).2 (by decide)
    obtain ⟨f, hf, hy, hm, hd'⟩ := (hread _ _).1 hd
    obtain rfl := hleap.unique hf
    exact ⟨d, hd, hy.symm, hm.symm, hd'.symm⟩
  · rw [hexists _ _ hother]
    decide

end Date

end DecisionTables
