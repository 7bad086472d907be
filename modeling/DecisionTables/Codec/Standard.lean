import DecisionTables.Codec
import DecisionTables.Number.Decimal.OfBinary

/-!
# The standard codecs

Texts as they are, integers, booleans, dates and decimals. All but the codec of texts read null from blank
text and ignore the white space around a text. A value that is a text converts as that text decodes. Decimals
are encoded without zeros at the end of their fraction, so that equal values have one text.
-/

namespace DecisionTables.Codec

/-- Texts, kept as they are. Every value converts to its text. -/
def text : Codec where
  name := "string"
  decode
    | none => .ok .null
    | some s => .ok (.text s)
  encode := Scalar.text?
  convert value :=
    match value.text? with
    | none => .ok .null
    | some s => .ok (.text s)

def decodeInteger : Option String → Except ConversionError Scalar :=
  decodeTrimmed "integer" fun s =>
    match Integer.read s with
    | .ok n => .ok (.integer n)
    | .error e => .error (.integer e)

/-- Integers. Decimals of an integer's value convert to it. -/
def integer : Codec where
  name := "integer"
  decode := decodeInteger
  encode := Scalar.text?
  convert
    | .null => .ok .null
    | .integer n => .ok (.integer n)
    | .text s => decodeInteger (some s)
    | .decimal d =>
      if d.isWhole then
        match d.toInteger? with
        | some n => .ok (.integer n)
        | none => .error ⟨"integer", d.text, .outOfRange⟩
      else unsupported "integer" (.decimal d)
    | value => unsupported "integer" value

/-- The boolean of a literal, in whatever case of ASCII. -/
def booleanOfLiteral? (s : String) : Option Bool :=
  let literal := s.toList.map Char.toLower
  if ["true".toList, "t".toList, "yes".toList, "y".toList, "1".toList].contains literal then some true
  else if ["false".toList, "f".toList, "no".toList, "n".toList, "0".toList].contains literal then some false
  else none

def decodeBoolean : Option String → Except ConversionError Scalar :=
  decodeTrimmed "boolean" fun s =>
    match booleanOfLiteral? s with
    | some b => .ok (.boolean b)
    | none => .error .boolean

/-- Booleans. -/
def boolean : Codec where
  name := "boolean"
  decode := decodeBoolean
  encode := Scalar.text?
  convert
    | .null => .ok .null
    | .boolean b => .ok (.boolean b)
    | .text s => decodeBoolean (some s)
    | value => unsupported "boolean" value

def decodeDate : Option String → Except ConversionError Scalar :=
  decodeTrimmed "date" fun s =>
    match Date.read s with
    | .ok d => .ok (.date d)
    | .error e => .error (.date e)

/-- Calendar days. -/
def date : Codec where
  name := "date"
  decode := decodeDate
  encode := Scalar.text?
  convert
    | .null => .ok .null
    | .date d => .ok (.date d)
    | .text s => decodeDate (some s)
    | value => unsupported "date" value

def decodeDecimal : Option String → Except ConversionError Scalar :=
  decodeTrimmed "decimal" fun s =>
    match Decimal.read s with
    | .ok d => .ok (.decimal d)
    | .error e => .error (.decimal e)

/-- Exact decimals. Integers and binary numbers convert to them. -/
def decimal : Codec where
  name := "decimal"
  decode := decodeDecimal
  encode
    | .decimal d => some d.normalize.text
    | x => x.text?
  convert
    | .null => .ok .null
    | .decimal d => .ok (.decimal d)
    | .integer n => .ok (.decimal (Decimal.ofInteger n))
    | .binary x =>
      match Decimal.ofBinary? x with
      | some d => .ok (.decimal d)
      | none => .error ⟨"decimal", x.text, .binary⟩
    | .text s => decodeDecimal (some s)
    | value => unsupported "decimal" value

/-- The standard codecs. -/
def standard : List Codec :=
  [text, integer, boolean, date, decimal]

end DecisionTables.Codec
