import DecisionTables.Value

/-!
# Contexts

A context holds items under paths, and perhaps explicit values for the input levels of a query. A path is a text
of segments between dots. Items are nested: under a segment stands a value or the items below it. A write makes
the items on its way where there are none, also in the place of a value, and takes the place of whatever stands
at its end.
-/

namespace DecisionTables

/-- The segments of a path, which stand between dots. -/
def pathSegments (path : String) : List (List Char) :=
  path.toList.splitOn '.'

/-- What stands under a segment: a value, or the items below the segment. -/
inductive Item where
  | value (v : Value)
  | nested (items : List (List Char × Item))

/-- Items under segments, at most one under each. -/
abbrev Items := List (List Char × Item)

namespace Items

/-- The items with an item under a segment. -/
def put (items : Items) (segment : List Char) (item : Item) : Items :=
  (segment, item) :: items.filter (·.1 != segment)

/-- The items below a segment, none if there is a value or nothing. -/
def below (items : Items) (segment : List Char) : Items :=
  match items.lookup segment with
  | some (.nested inner) => inner
  | _ => []

/-- The items with a value at the end of a path. -/
def write (value : Value) : List (List Char) → Items → Items
  | [], items => items
  | [segment], items => put items segment (.value value)
  | segment :: next :: path, items =>
    put items segment (.nested (write value (next :: path) (below items segment)))

/-- The value at the end of a path. -/
def read : List (List Char) → Items → Option Value
  | [], _ => none
  | [segment], items =>
    match items.lookup segment with
    | some (.value v) => some v
    | _ => none
  | segment :: next :: path, items =>
    match items.lookup segment with
    | some (.nested inner) => read (next :: path) inner
    | _ => none

end Items

/-- Items under paths, and explicit values for input levels. -/
structure Context where
  items : Items := []
  levelValues : Option (List Value) := none

namespace Context

/-- The context with a value under a path. -/
def insert (c : Context) (path : String) (value : Value) : Context :=
  { c with items := c.items.write value (pathSegments path) }

/-- The value under a path. -/
def get? (c : Context) (path : String) : Option Value :=
  c.items.read (pathSegments path)

/-- The context with explicit values for the input levels. -/
def withLevelValues (c : Context) (values : List Value) : Context :=
  { c with levelValues := some values }

/-- The context of explicit values for the input levels alone. -/
def ofLevelValues (values : List Value) : Context :=
  { levelValues := some values }

end Context

end DecisionTables
