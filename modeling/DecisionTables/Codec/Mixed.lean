import DecisionTables.Codec

/-!
# Numbers and words on one level

The codec of levels that hold short numbers and words side by side: up to nine digits are an integer, `null`
is null, `bad` is refused, and every other text is a text as it stands, blank or not.
-/

namespace DecisionTables.Codec

def decodeMixed : Option String → Except ConversionError Scalar
  | none => .ok .null
  | some s =>
    let cs := s.toList
    if s = "null" then .ok .null
    else if s = "bad" then .error ⟨"mixed", "bad", .refused "bad text"⟩
    else if !cs.isEmpty && cs.length ≤ 9 && cs.all Char.isDigit then .ok (.integer (Int64.ofInt (Text.ofDigits cs)))
    else .ok (.text s)

/-- Integers of at most nine digits, and texts. -/
def mixed : Codec where
  name := "mixed"
  decode := decodeMixed
  encode := Scalar.text?
  convert
    | .null => .ok .null
    | .text s => decodeMixed (some s)
    | .integer n => .ok (.integer n)
    | .boolean b => .ok (.boolean b)
    | value => .error ⟨"mixed", value.display, .refused "not mixed"⟩

end DecisionTables.Codec
