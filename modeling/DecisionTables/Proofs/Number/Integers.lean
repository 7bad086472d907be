import DecisionTables.Number.Integer
import DecisionTables.Proofs.Text.Printing

/-!
# Printed integers are read back

Reading the text of an integer gives that integer (`Integer.read_text`), so different integers have different
texts (`Integer.text_injective`).
-/

namespace DecisionTables.Integer

/-- Digits are read to their end as long as the number stays in its range. -/
private theorem readDigits_eq_ok {limit : Nat} {beyond : ReadError} {cs : List Char}
    (hcs : ∀ c ∈ cs, c.isDigit = true) {n : Nat} (hn : Nat.ofDigitChars 10 cs n ≤ limit) :
    readDigits limit beyond n cs = .ok (Nat.ofDigitChars 10 cs n) := by
  induction cs generalizing n with
  | nil => rw [readDigits, Nat.ofDigitChars_nil]
  | cons c cs ih =>
    rw [Nat.ofDigitChars_cons] at hn ⊢
    have hle := Text.le_ofDigitChars cs (10 * n + (c.toNat - '0'.toNat))
    rw [readDigits, Text.digit?_of_isDigit (hcs c List.mem_cons_self)]
    simp only
    rw [if_pos (Nat.le_trans hle hn)]
    exact ih (fun d hd => hcs d (List.mem_cons_of_mem _ hd)) hn

private theorem readMagnitude_digits {limit n : Nat} {beyond : ReadError} (hn : n ≤ limit) :
    readMagnitude limit beyond (Text.digits n) = .ok n := by
  have hvalue : Nat.ofDigitChars 10 (Text.digits n) 0 = n := Text.ofDigits_digits n
  rw [readMagnitude, if_neg (by simp [(Text.solid_digits n).1]),
    readDigits_eq_ok (fun c hc => Text.isDigit_of_mem_digits hc) (by rw [hvalue]; exact hn), hvalue]

theorem read_text (n : Int64) : read (text n) = .ok n := by
  have hleast := n.le_toInt
  have hmost := n.toInt_lt
  rw [read, text, String.toList_ofList, chars]
  by_cases hn : n.toInt < 0
  · rw [if_pos hn]
    simp only
    rw [readMagnitude_digits (by omega)]
    have hvalue : -(n.toInt.natAbs : Int) = n.toInt := by omega
    simp only [Except.map, bind, Except.bind, pure, Except.pure, hvalue, Int64.ofInt_toInt]
  · rw [if_neg hn]
    have hread : readMagnitude 0x7fffffffffffffff .tooLarge (Text.digits n.toInt.natAbs) = .ok n.toInt.natAbs :=
      readMagnitude_digits (by omega)
    have hvalue : (n.toInt.natAbs : Int) = n.toInt := by omega
    have hdigit : ∀ c ∈ Text.digits n.toInt.natAbs, c.isDigit = true := fun c hc => Text.isDigit_of_mem_digits hc
    -- a digit comes first, so there is no sign
    split
    · rename_i heq
      exact absurd (hdigit '-' (by rw [heq]; simp)) (by decide)
    · rename_i heq
      exact absurd (hdigit '+' (by rw [heq]; simp)) (by decide)
    · rw [hread]
      simp only [Except.map, bind, Except.bind, pure, Except.pure, hvalue, Int64.ofInt_toInt]

theorem text_injective {n m : Int64} (h : text n = text m) : n = m := by
  have hn := read_text n
  rw [h, read_text] at hn
  exact (Except.ok.inj hn).symm

theorem solid_chars (n : Int) : Text.Solid (chars n) := by
  rw [chars]
  split
  · exact (Text.solid_digits _).cons (by decide)
  · exact Text.solid_digits _

end DecisionTables.Integer
