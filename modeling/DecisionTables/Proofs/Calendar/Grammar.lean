import DecisionTables.Calendar.Layout
import DecisionTables.Proofs.Sequencing
import DecisionTables.Proofs.Text.Printing
import Mathlib.Data.List.TakeWhile

/-!
# The grammar of dates

A date is written with a year of exactly four digits, a month and a day of one or two, and one and the same
separator between them, the year first or the day first (`Layout.Written`). Reading takes digits greedily and
decides for a layout by what it finds first, and yet it accepts exactly the texts of this grammar
(`Layout.read_eq_ok_iff`). So no text has two readings (`Layout.Written.unique`).
-/

namespace DecisionTables.Layout

/-- A number of at least `least` and at most `most` digits. -/
structure Numeral (least most : Nat) (cs : List Char) (n : Nat) : Prop where
  isDigit : ∀ c ∈ cs, c.isDigit = true
  least_le : least ≤ cs.length
  le_most : cs.length ≤ most
  value : Text.ofDigits cs = n

instance (least most : Nat) (cs : List Char) (n : Nat) : Decidable (Numeral least most cs n) :=
  decidable_of_iff
    (cs.all Char.isDigit = true ∧ least ≤ cs.length ∧ cs.length ≤ most ∧ Text.ofDigits cs = n)
    ⟨fun ⟨h, hleast, hmost, hvalue⟩ => ⟨List.all_eq_true.1 h, hleast, hmost, hvalue⟩,
      fun ⟨h, hleast, hmost, hvalue⟩ => ⟨List.all_eq_true.2 h, hleast, hmost, hvalue⟩⟩

/-- The characters of a date in one of the two layouts, and its fields. -/
inductive Written : List Char → Fields → Prop
  | yearFirst {f : Fields} {sep : Char} {year month day : List Char} (hsep : sep ∈ ['-', '.', '/'])
      (hyear : Numeral 4 4 year f.year) (hmonth : Numeral 1 2 month f.month) (hday : Numeral 1 2 day f.day) :
      Written (year ++ sep :: (month ++ sep :: day)) f
  | dayFirst {f : Fields} {sep : Char} {year month day : List Char} (hsep : sep ∈ ['-', '.', '/'])
      (hyear : Numeral 4 4 year f.year) (hmonth : Numeral 1 2 month f.month) (hday : Numeral 1 2 day f.day) :
      Written (day ++ sep :: (month ++ sep :: year)) f

/-! ### Numbers and separators -/

private theorem isSeparator_iff {c : Char} : isSeparator c = true ↔ c ∈ ['-', '.', '/'] := by
  simp [isSeparator, or_assoc]

/-- No digit follows where a separator does. -/
private theorem isDigit_head?_separator {sep : Char} (h : sep ∈ ['-', '.', '/']) (rest : List Char) :
    ∀ c ∈ (sep :: rest).head?, c.isDigit = false := by
  rintro c hc
  cases hc
  simp only [List.mem_cons, List.not_mem_nil, or_false] at h
  rcases h with rfl | rfl | rfl <;> rfl

theorem Numeral.lt {least most n : Nat} {cs : List Char} (h : Numeral least most cs n) : n < 10 ^ most := by
  rw [← h.value]
  exact Nat.lt_of_lt_of_le (Text.ofDigits_lt h.isDigit) (Nat.pow_le_pow_right (by decide) h.le_most)

/-- A year has four digits, in whichever layout. -/
theorem Written.year_lt {cs : List Char} {f : Fields} (h : Written cs f) : f.year < 10 ^ 4 := by
  cases h with
  | yearFirst _ hyear => exact hyear.lt
  | dayFirst _ hyear => exact hyear.lt

private theorem number_eq_ok {least most n : Nat} {cs rest : List Char} (h : number least most cs = .ok (n, rest)) :
    ∃ ds, cs = ds ++ rest ∧ Numeral least most ds n := by
  unfold number at h
  simp only at h
  split at h
  case isFalse => cases h
  case isTrue hleast =>
    obtain ⟨rfl, rfl⟩ := Prod.mk.inj (Except.ok.inj h)
    have htake : ((cs.take most).takeWhile Char.isDigit) <+: cs.take most := List.takeWhile_prefix _
    have hlength : ((cs.take most).takeWhile Char.isDigit).length ≤ most :=
      Nat.le_trans htake.length_le (List.length_take_le _ _)
    refine ⟨(cs.take most).takeWhile Char.isDigit, ?_, fun c hc => List.mem_takeWhile_imp hc, hleast, hlength, rfl⟩
    exact (List.prefix_iff_eq_append.1 (htake.trans (List.take_prefix _ _))).symm

/-- A run of digits ends where no digit follows. -/
private theorem takeWhile_take_append {most : Nat} {ds rest : List Char} (hds : ∀ c ∈ ds, c.isDigit = true)
    (hmost : ds.length ≤ most) (hrest : ∀ c ∈ rest.head?, c.isDigit = false) :
    ((ds ++ rest).take most).takeWhile Char.isDigit = ds := by
  have hstop : (rest.take (most - ds.length)).takeWhile Char.isDigit = [] := by
    cases rest with
    | nil => simp
    | cons c rest =>
      have hc : c.isDigit = false := hrest c rfl
      cases most - ds.length <;> simp [hc]
  rw [List.take_append, List.take_of_length_le hmost, List.takeWhile_append_of_pos hds, hstop, List.append_nil]

/-- A number is read to its end. -/
private theorem Numeral.number_append {least most n : Nat} {ds rest : List Char} (h : Numeral least most ds n)
    (hrest : ∀ c ∈ rest.head?, c.isDigit = false) : number least most (ds ++ rest) = .ok (n, rest) := by
  unfold number
  simp only [takeWhile_take_append h.isDigit h.le_most hrest]
  rw [if_pos h.least_le, List.drop_left, h.value]

private theorem Numeral.number_eq {least most n : Nat} {ds : List Char} (h : Numeral least most ds n) :
    number least most ds = .ok (n, []) := by
  have happend : number least most (ds ++ []) = .ok (n, []) := h.number_append (by simp)
  rwa [List.append_nil] at happend

private theorem Numeral.number_append_separator {least most n : Nat} {ds : List Char} (h : Numeral least most ds n)
    {sep : Char} (hsep : sep ∈ ['-', '.', '/']) (rest : List Char) :
    number least most (ds ++ sep :: rest) = .ok (n, sep :: rest) :=
  h.number_append (isDigit_head?_separator hsep rest)

private theorem separator_eq_ok {cs rest : List Char} {sep : Char} :
    separator cs = .ok (sep, rest) ↔ cs = sep :: rest ∧ sep ∈ ['-', '.', '/'] := by
  rw [← isSeparator_iff]
  cases cs with
  | nil => simp [separator]
  | cons c cs =>
    rw [separator]
    by_cases hc : isSeparator c = true
    · rw [if_pos hc]
      simp only [Except.ok.injEq, Prod.mk.injEq, List.cons.injEq]
      constructor
      · rintro ⟨rfl, rfl⟩
        exact ⟨⟨rfl, rfl⟩, hc⟩
      · exact And.left
    · rw [if_neg hc]
      simp only [reduceCtorEq, List.cons.injEq, false_iff]
      rintro ⟨⟨rfl, -⟩, hsep⟩
      exact hc hsep

private theorem again_eq_ok {cs rest : List Char} {sep : Char} : again sep cs = .ok rest ↔ cs = sep :: rest := by
  cases cs with
  | nil => simp [again]
  | cons c cs => by_cases hc : c = sep <;> simp [again, hc]

private theorem complete_eq_ok {found : Fields × List Char} {f : Fields} :
    complete found = .ok f ↔ found = (f, []) := by
  obtain ⟨g, _ | _⟩ := found <;> simp [complete]

/-! ### The two layouts -/

private theorem yearFirst_eq_ok {cs rest : List Char} {f : Fields} (h : yearFirst cs = .ok (f, rest)) :
    ∃ sep year month day, cs = year ++ sep :: (month ++ sep :: (day ++ rest)) ∧ sep ∈ ['-', '.', '/'] ∧
      Numeral 4 4 year f.year ∧ Numeral 1 2 month f.month ∧ Numeral 1 2 day f.day := by
  obtain ⟨⟨_, _⟩, hy, h⟩ := bind_eq_ok.1 h
  obtain ⟨⟨sep, _⟩, hs, h⟩ := bind_eq_ok.1 h
  obtain ⟨⟨_, _⟩, hm, h⟩ := bind_eq_ok.1 h
  obtain ⟨_, hs', h⟩ := bind_eq_ok.1 h
  obtain ⟨⟨_, _⟩, hd, h⟩ := bind_eq_ok.1 h
  cases h
  obtain ⟨year, rfl, hyear⟩ := number_eq_ok hy
  obtain ⟨rfl, hsep⟩ := separator_eq_ok.1 hs
  obtain ⟨month, rfl, hmonth⟩ := number_eq_ok hm
  obtain rfl := again_eq_ok.1 hs'
  obtain ⟨day, rfl, hday⟩ := number_eq_ok hd
  exact ⟨sep, year, month, day, rfl, hsep, hyear, hmonth, hday⟩

private theorem dayFirst_eq_ok {cs rest : List Char} {f : Fields} (h : dayFirst cs = .ok (f, rest)) :
    ∃ sep year month day, cs = day ++ sep :: (month ++ sep :: (year ++ rest)) ∧ sep ∈ ['-', '.', '/'] ∧
      Numeral 4 4 year f.year ∧ Numeral 1 2 month f.month ∧ Numeral 1 2 day f.day := by
  obtain ⟨⟨_, _⟩, hd, h⟩ := bind_eq_ok.1 h
  obtain ⟨⟨sep, _⟩, hs, h⟩ := bind_eq_ok.1 h
  obtain ⟨⟨_, _⟩, hm, h⟩ := bind_eq_ok.1 h
  obtain ⟨_, hs', h⟩ := bind_eq_ok.1 h
  obtain ⟨⟨_, _⟩, hy, h⟩ := bind_eq_ok.1 h
  cases h
  obtain ⟨day, rfl, hday⟩ := number_eq_ok hd
  obtain ⟨rfl, hsep⟩ := separator_eq_ok.1 hs
  obtain ⟨month, rfl, hmonth⟩ := number_eq_ok hm
  obtain rfl := again_eq_ok.1 hs'
  obtain ⟨year, rfl, hyear⟩ := number_eq_ok hy
  exact ⟨sep, year, month, day, rfl, hsep, hyear, hmonth, hday⟩

section

variable {f : Fields} {sep : Char} {year month day : List Char} (hsep : sep ∈ ['-', '.', '/'])
  (hyear : Numeral 4 4 year f.year) (hmonth : Numeral 1 2 month f.month) (hday : Numeral 1 2 day f.day)

include hsep hyear hmonth hday

private theorem yearFirst_append : yearFirst (year ++ sep :: (month ++ sep :: day)) = .ok (f, []) := by
  rw [yearFirst, hyear.number_append_separator hsep]
  simp only [bind, Except.bind, separator_eq_ok.2 ⟨rfl, hsep⟩, hmonth.number_append_separator hsep,
    again_eq_ok.2 rfl, hday.number_eq, pure, Except.pure]

private theorem dayFirst_append : dayFirst (day ++ sep :: (month ++ sep :: year)) = .ok (f, []) := by
  rw [dayFirst, hday.number_append_separator hsep]
  simp only [bind, Except.bind, separator_eq_ok.2 ⟨rfl, hsep⟩, hmonth.number_append_separator hsep,
    again_eq_ok.2 rfl, hyear.number_eq, pure, Except.pure]

end

/-- A day of at most two digits is no year, so the layout with the year first is given up. -/
private theorem yearFirst_append_of_day {sep : Char} {day rest : List Char} {n : Nat} (hsep : sep ∈ ['-', '.', '/'])
    (hday : Numeral 1 2 day n) : ∃ left, yearFirst (day ++ sep :: rest) = .error left := by
  have hlength := hday.le_most
  have hdigits : ((day ++ sep :: rest).take 4).takeWhile Char.isDigit = day :=
    takeWhile_take_append hday.isDigit (by omega) (isDigit_head?_separator hsep rest)
  have hyear : number 4 4 (day ++ sep :: rest) = .error (day ++ sep :: rest) := by
    unfold number
    simp only [hdigits]
    rw [if_neg (by omega)]
  exact ⟨_, by rw [yearFirst, hyear]; rfl⟩

/-! ### Reading is the grammar -/

theorem read_eq_ok_iff {cs : List Char} {f : Fields} : read cs = .ok f ↔ Written cs f := by
  constructor
  · intro h
    rw [read] at h
    split at h
    · rename_i found hfound
      obtain rfl := complete_eq_ok.1 h
      obtain ⟨sep, year, month, day, rfl, hsep, hyear, hmonth, hday⟩ := yearFirst_eq_ok hfound
      rw [List.append_nil]
      exact .yearFirst hsep hyear hmonth hday
    · obtain ⟨found, hfound, hcomplete⟩ := bind_eq_ok.1 h
      obtain rfl := complete_eq_ok.1 hcomplete
      obtain ⟨sep, year, month, day, rfl, hsep, hyear, hmonth, hday⟩ := dayFirst_eq_ok hfound
      rw [List.append_nil]
      exact .dayFirst hsep hyear hmonth hday
  · rintro (⟨hsep, hyear, hmonth, hday⟩ | ⟨hsep, hyear, hmonth, hday⟩)
    · rw [read, yearFirst_append hsep hyear hmonth hday]
      rfl
    · obtain ⟨left, hleft⟩ := yearFirst_append_of_day hsep hday
      rw [read, hleft]
      simp only [dayFirst_append hsep hyear hmonth hday, bind, Except.bind, complete]

theorem Written.unique {cs : List Char} {f g : Fields} (hf : Written cs f) (hg : Written cs g) : f = g :=
  Except.ok.inj ((read_eq_ok_iff.2 hf).symm.trans (read_eq_ok_iff.2 hg))

end DecisionTables.Layout

namespace DecisionTables.Date

private theorem ofFields?_eq_some {year : Int} {month day : Nat} {d : Date} :
    ofFields? year month day = some d ↔ year = d.year ∧ month = d.month ∧ day = d.day := by
  rw [ofFields?]
  constructor
  · intro h
    split at h
    case isTrue => cases h; exact ⟨rfl, rfl, rfl⟩
    case isFalse => cases h
  · rintro ⟨rfl, rfl, rfl⟩
    rw [dif_pos ⟨d.one_le_day, d.day_le⟩]

/-- A date is read from the texts that have its fields in one of the layouts. -/
theorem read_eq_ok_iff {s : String} {d : Date} :
    read s = .ok d ↔ ∃ f, Layout.Written (Text.strip s.toList) f ∧
      (f.year : Int) = d.year ∧ f.month = d.month ∧ f.day = d.day := by
  simp only [← Layout.read_eq_ok_iff]
  rw [read]
  cases hread : Layout.read (Text.strip s.toList) with
  | error rest => simp
  | ok f =>
    simp only [Except.ok.injEq, exists_eq_left']
    rw [← ofFields?_eq_some]
    cases ofFields? f.year f.month f.day <;> simp

end DecisionTables.Date
