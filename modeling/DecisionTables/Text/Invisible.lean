import DecisionTables.Text.Extender
import DecisionTables.Text.Unassigned

/-!
# Characters that are not shown as they are

Control and format characters, separators other than the space, characters for private use, characters that a
display may leave out (the property `Default_Ignorable_Code_Point`, to which the fillers of Hangul belong),
characters that extend the one in front of them, and code points without a character. A text that is shown
between quotes gives them by their code points (`isInvisible_iff` lists them).
-/

namespace DecisionTables.Text

/-- The ranges of the characters that have no shape: controls, formats, separators other than the space, those
for private use and those that a display may leave out. -/
def shapelessRanges : CodeRanges :=
  [(0x0, 0x1F), (0x7F, 0xA0), (0xAD, 0xAD), (0x34F, 0x34F), (0x600, 0x605), (0x61C, 0x61C), (0x6DD, 0x6DD),
    (0x70F, 0x70F), (0x890, 0x891), (0x8E2, 0x8E2), (0x115F, 0x1160), (0x1680, 0x1680), (0x17B4, 0x17B5),
    (0x180B, 0x180F), (0x2000, 0x200F), (0x2028, 0x202F), (0x205F, 0x2064), (0x2066, 0x206F),
    (0x3000, 0x3000), (0x3164, 0x3164), (0xD800, 0xF8FF), (0xFE00, 0xFE0F), (0xFEFF, 0xFEFF),
    (0xFFA0, 0xFFA0), (0xFFF9, 0xFFFB), (0x110BD, 0x110BD), (0x110CD, 0x110CD), (0x13430, 0x1343F),
    (0x1BCA0, 0x1BCA3), (0x1D173, 0x1D17A), (0xE0001, 0xE0001), (0xE0020, 0xE007F), (0xE0100, 0xE01EF),
    (0xF0000, 0xFFFFD), (0x100000, 0x10FFFD)]

private theorem ascendingFrom_shapelessRanges : shapelessRanges.ascendingFrom 0 = true := by
  decide

/-- A character that is not shown as it is. -/
def isInvisible (c : Char) : Bool :=
  shapelessRanges.covers c.toNat || extenderRanges.covers c.toNat || unassignedRanges.covers c.toNat

theorem isInvisible_iff {c : Char} : isInvisible c = true ↔
    ∃ r ∈ shapelessRanges ++ extenderRanges ++ unassignedRanges, r.1 ≤ c.toNat ∧ c.toNat ≤ r.2 := by
  simp only [isInvisible, Bool.or_eq_true, CodeRanges.covers_iff ascendingFrom_shapelessRanges,
    CodeRanges.covers_iff ascendingFrom_extenderRanges, CodeRanges.covers_iff ascendingFrom_unassignedRanges,
    List.mem_append, or_and_right, exists_or]

end DecisionTables.Text
