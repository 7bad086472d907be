import DecisionTables.Query
import Std.Data.TreeMap

/-!
# Formulas

Simple functions and creators given as data: a constant, one of the arguments, their number, their joined
texts, a failure; a value of the context, or a constant.
-/

namespace DecisionTables

open Std (TreeMap)

/-- A function given as data. -/
inductive Formula where
  | constant (value : Value)
  | argument (place : Nat)
  | count
  | join
  | fail (reason : String)
  deriving DecidableEq, Repr

namespace Formula

/-- The result of a formula under a name. A missing argument is null, and joined texts stand between bars. -/
def apply (name : String) (arguments : List Value) : Formula → Except FunctionError Value
  | .constant value => .ok value
  | .argument place => .ok (arguments.getD place .null)
  | .count => .ok (.integer (Int64.ofInt arguments.length))
  | .join => .ok (.text ("|".intercalate (arguments.map Value.display)))
  | .fail reason => .error (.failed name reason)

/-- The functions of formulas by name. -/
def functions (formulas : TreeMap String Formula) : Functions := fun name arguments =>
  match formulas.get? name with
  | some formula => formula.apply name arguments
  | none => .error (.unknown name)

end Formula

/-- The creator of the value under a path of the context, null where there is none. -/
def Creator.ofPath (path : String) : Creator := fun context =>
  (context.get? path).getD .null

/-- The creator of one and the same value. -/
def Creator.constant (value : Value) : Creator := fun _ =>
  value

end DecisionTables
