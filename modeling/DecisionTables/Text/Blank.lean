import DecisionTables.Text.CodeRange

/-!
# Blank text

Patterns, cells and query texts are read without the white space around them, and a text of white space alone
is blank. White space is the Unicode property `White_Space`; it contains the white space of ASCII
(`isSpace_of_isWhitespace`), and it does not contain the zero-width characters. A text is blank exactly if
nothing is left of it after trimming (`isBlank_iff_trim_eq`).
-/

namespace DecisionTables.Text

/-- The ranges of the Unicode property `White_Space`, first and last code point. -/
def spaceRanges : CodeRanges :=
  [(0x9, 0xD), (0x20, 0x20), (0x85, 0x85), (0xA0, 0xA0), (0x1680, 0x1680), (0x2000, 0x200A), (0x2028, 0x2029),
    (0x202F, 0x202F), (0x205F, 0x205F), (0x3000, 0x3000)]

/-- White space by the Unicode property `White_Space`. -/
def isSpace (c : Char) : Bool :=
  spaceRanges.covers c.toNat

/-- The characters without the white space at both ends. -/
def strip (cs : List Char) : List Char :=
  ((cs.dropWhile isSpace).reverse.dropWhile isSpace).reverse

/-- The text without the white space at both ends. -/
def trim (s : String) : String :=
  String.ofList (strip s.toList)

/-- Nothing but white space. -/
def isBlank (s : String) : Bool :=
  s.toList.all isSpace

/-- The trimmed text, or nothing where the text is absent or blank. -/
def nonBlank? (text : Option String) : Option String :=
  text.bind fun s => if isBlank s then none else some (trim s)

theorem isSpace_of_isWhitespace {c : Char} (h : c.isWhitespace = true) : isSpace c = true := by
  simp [Char.isWhitespace] at h
  rcases h with ((rfl | rfl) | rfl) | rfl <;> decide

private theorem dropWhile_eq_nil {p : Char → Bool} {cs : List Char} :
    cs.dropWhile p = [] ↔ ∀ c ∈ cs, p c = true := by
  induction cs with
  | nil => simp
  | cons c cs ih => by_cases h : p c = true <;> simp [h, ih]

theorem strip_eq_nil {cs : List Char} : strip cs = [] ↔ ∀ c ∈ cs, isSpace c = true := by
  simp only [strip, List.reverse_eq_nil_iff, dropWhile_eq_nil, List.mem_reverse]
  constructor
  · intro ha
    cases hd : cs.dropWhile isSpace with
    | nil => exact dropWhile_eq_nil.1 hd
    | cons c r =>
      have hc : isSpace c = true := ha c (by simp [hd])
      have hn := List.head_dropWhile_not isSpace (l := cs) (by simp [hd])
      simp [hd, hc] at hn
  · intro h c hc
    rw [dropWhile_eq_nil.2 h] at hc
    simp at hc

theorem isBlank_iff_trim_eq {s : String} : isBlank s = true ↔ trim s = "" := by
  rw [isBlank, List.all_eq_true, ← strip_eq_nil, trim]
  constructor
  · intro h
    simp [h]
  · intro h
    simpa using congrArg String.toList h

end DecisionTables.Text
