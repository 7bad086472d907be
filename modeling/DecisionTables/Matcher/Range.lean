import DecisionTables.Matcher

/-!
# Ranges

A range pattern is a lower and an upper bound with a separator between them. The separator is the first of a
list that occurs in the pattern, and the pattern is divided at its first occurrence. A bound that is blank or
`*` is open. Bounds and values are compared as scalars of the level; a blank or absent value is in no range.
-/

namespace DecisionTables

/-- How the patterns of a level are read as ranges. -/
structure Range where
  lowerClosed : Bool := true
  upperClosed : Bool := false
  /-- The separators, in order of precedence. -/
  separators : List Char := ['~', ':', '-', ',']
  deriving DecidableEq, Repr

namespace Range

/-- The separator of a pattern, `~` where none of the list occurs. -/
def separatorOf (r : Range) (pattern : List Char) : Char :=
  (r.separators.find? pattern.contains).getD '~'

/-- The text of a bound without the white space around it, nothing where it is open. -/
def bound? (cs : List Char) : Option String :=
  let cs := Text.strip cs
  if cs.isEmpty || cs == wildcard.toList then none else some (String.ofList cs)

/-- The lower and the upper bound of a pattern. Without a separator the whole pattern is the lower bound. -/
def bounds (r : Range) (pattern : String) : Option String × Option String :=
  let cs := pattern.toList
  let sep := r.separatorOf cs
  (bound? (cs.takeWhile (· != sep)), bound? ((cs.dropWhile (· != sep)).drop 1))

/-- Whether a scalar is on the wanted side of a bound: the bound is `side` to it, or equal to it if `closed`.
-/
def within (codec : Codec) (bound : Option String) (side : Ordering) (closed : Bool) (x : Scalar) :
    Except ConversionError Bool :=
  match bound with
  | none => .ok true
  | some b => do
    let limit ← codec.decode (some b)
    match limit.compare? x with
    | some .eq => pure closed
    | some order => pure (order == side)
    | none => pure false

/-- Whether a value lies in the range of a pattern. The upper bound is not read where the lower bound rules
the value out. -/
def accepts (r : Range) (codec : Codec) (value : Option String) (pattern : String) : Except ConversionError Bool :=
  match value with
  | none => .ok false
  | some v =>
    if Text.isBlank v then .ok false
    else do
      let x ← codec.decode (some v)
      if ← within codec (r.bounds pattern).1 .lt r.lowerClosed x then
        within codec (r.bounds pattern).2 .gt r.upperClosed x
      else pure false

/-- Reads a bound that is not open. -/
def validateBound (codec : Codec) : Option String → Except ConversionError Unit
  | none => .ok ()
  | some b => (codec.decode (some b)).map fun _ => ()

/-- Reads both bounds of a pattern. -/
def validate (r : Range) (codec : Codec) (pattern : String) : Except ConversionError Unit := do
  validateBound codec (r.bounds pattern).1
  validateBound codec (r.bounds pattern).2

/-- The matcher of range patterns. -/
def matcher (r : Range) : Matcher where
  exact := false
  accepts := r.accepts
  validate := r.validate

end Range

end DecisionTables
