import DecisionTables.Calendar.Layout
import DecisionTables.Number.Decimal.Reader
import DecisionTables.Value

/-!
# Codecs

A codec gives the texts of a level their type: it decodes stored text to a scalar, encodes a scalar as its
canonical text, and converts a value at run time to a scalar. Null has no text, and a codec decides which
texts mean null.
-/

namespace DecisionTables

/-- Why a codec rejects a text or a value. -/
inductive ConversionFault where
  | integer (e : Integer.ReadError)
  | outOfRange
  | boolean
  | date (e : Date.ReadError)
  | decimal (e : Decimal.ReadError)
  | binary
  | unsupported (kind : Kind)
  | refused (reason : String)
  deriving DecidableEq, Repr

def ConversionFault.message : ConversionFault → String
  | .integer e => e.message
  | .outOfRange => "out of range"
  | .boolean => "not a boolean literal"
  | .date e => e.message
  | .decimal e => e.message
  | .binary => "Error while converting to Decimal"
  | .unsupported kind => "unsupported value kind " ++ kind.name
  | .refused reason => reason

/-- A codec rejects a text or a value, given here as its text. -/
structure ConversionError where
  codec : String
  input : String
  fault : ConversionFault
  deriving DecidableEq, Repr

def ConversionError.message (e : ConversionError) : String :=
  "cannot convert '" ++ e.input ++ "' to " ++ e.codec ++ ": " ++ e.fault.message

/-- The type of a level. -/
structure Codec where
  name : String
  decode : Option String → Except ConversionError Scalar
  encode : Scalar → Option String
  convert : Value → Except ConversionError Scalar

namespace Codec

/-- Reads the text without the white space around it; absent and blank text mean null. -/
def decodeTrimmed (name : String) (read : String → Except ConversionFault Scalar) (text : Option String) :
    Except ConversionError Scalar :=
  match Text.nonBlank? text with
  | none => .ok .null
  | some s => (read s).mapError fun fault => ⟨name, s, fault⟩

/-- Whether the canonical text of a scalar decodes to an equal scalar. -/
def readsBack (c : Codec) (x : Scalar) : Except ConversionError Bool :=
  (c.decode (c.encode x)).map fun y => y.equals x

/-- Rejects a value of a kind that the codec does not convert. -/
def unsupported (name : String) (value : Value) : Except ConversionError Scalar :=
  .error ⟨name, value.display, .unsupported value.kind⟩

end Codec

end DecisionTables
