import DecisionTables.Table.Prepared
import Std.Data.TreeMap

/-!
# The cache of prepared tables

A cache keeps one edition per name. While a table is being prepared its name has a slot, held by every
preparation of that name that is under way. Invalidating a name drops its edition and advances the epoch of
its slot; clearing the cache drops all editions and advances the generation. A preparation remembers
generation and epoch as they were at its start, its stamp, and its edition is published only if the stamp is
still the same (`publish`). A slot goes away with its last holder.
-/

namespace DecisionTables

open Std (TreeMap)

/-- One preparation of a table; the serial number tells it from every other one. -/
structure Edition where
  serial : Nat
  table : PreparedTable

/-- What a cache knows about the preparations of a name that are under way. -/
structure Slot where
  holders : Nat := 0
  epoch : Nat := 0
  deriving DecidableEq, Repr

/-- The state of invalidation at the start of a preparation. -/
structure Stamp where
  generation : Nat
  epoch : Nat
  deriving DecidableEq, Repr

/-- Editions by name, and the state of invalidation. -/
structure Cache where
  editions : TreeMap String Edition := ∅
  generation : Nat := 0
  slots : TreeMap String Slot := ∅

namespace Cache

/-- The edition under a name. -/
def get? (c : Cache) (name : String) : Option Edition :=
  c.editions.get? name

/-- The cache with an edition under a name. -/
def put (c : Cache) (name : String) (e : Edition) : Cache :=
  { c with editions := c.editions.insert name e }

/-- The names of all editions in order. -/
def names (c : Cache) : List String :=
  c.editions.keys

/-- The slot of a name, which is at its first epoch where nobody holds it. -/
def slot (c : Cache) (name : String) : Slot :=
  (c.slots.get? name).getD {}

/-- The cache without an edition under a name, and with a new epoch in the slot of the name, if it has one. -/
def invalidate (c : Cache) (name : String) : Cache :=
  { c with
    editions := c.editions.erase name
    slots :=
      match c.slots.get? name with
      | some s => c.slots.insert name { s with epoch := s.epoch + 1 }
      | none => c.slots }

/-- The cache without editions, in a new generation. -/
def clear (c : Cache) : Cache :=
  { c with editions := ∅, generation := c.generation + 1 }

/-- The cache with one more holder of the slot of a name. -/
def acquire (c : Cache) (name : String) : Cache :=
  let s := c.slot name
  { c with slots := c.slots.insert name { s with holders := s.holders + 1 } }

/-- The cache with one holder less of the slot of a name. -/
def release (c : Cache) (name : String) : Cache :=
  let s := c.slot name
  { c with
    slots := if s.holders ≤ 1 then c.slots.erase name else c.slots.insert name { s with holders := s.holders - 1 } }

/-- The state of invalidation of a name. -/
def stamp (c : Cache) (name : String) : Stamp :=
  ⟨c.generation, (c.slot name).epoch⟩

/-- The cache with an edition under a name, unless the name has been invalidated since the stamp was taken. -/
def publish (c : Cache) (name : String) (s : Stamp) (e : Edition) : Cache :=
  if c.stamp name = s then c.put name e else c

end Cache

end DecisionTables
