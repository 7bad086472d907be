import DecisionTables.Workspace

/-!
# What the operations of a cache do

The three views of a cache, one lemma for each operation: its editions (`get?`), its generation, and the slots
of the names that are being prepared.
-/

namespace DecisionTables.Cache

variable (c : Cache) (n m : String)

/-! ### Editions -/

@[simp] theorem get?_invalidate : (c.invalidate n).get? m = if n = m then none else c.get? m := by
  simp [get?, invalidate, Std.TreeMap.getElem?_erase]

@[simp] theorem get?_clear : c.clear.get? n = none := by
  simp [get?, clear]

@[simp] theorem get?_acquire : (c.acquire n).get? m = c.get? m := rfl

@[simp] theorem get?_release : (c.release n).get? m = c.get? m := rfl

theorem get?_put (e : Edition) : (c.put n e).get? m = if n = m then some e else c.get? m := by
  simp [put, get?, Std.TreeMap.getElem?_insert]

theorem get?_publish (s : Stamp) (e : Edition) :
    (c.publish n s e).get? m = if c.stamp n = s ∧ n = m then some e else c.get? m := by
  by_cases hs : c.stamp n = s
  · simp [publish, hs, get?_put]
  · simp [publish, hs]

/-! ### Generations -/

@[simp] theorem generation_invalidate : (c.invalidate n).generation = c.generation := rfl

@[simp] theorem generation_clear : c.clear.generation = c.generation + 1 := rfl

@[simp] theorem generation_acquire : (c.acquire n).generation = c.generation := rfl

@[simp] theorem generation_release : (c.release n).generation = c.generation := rfl

@[simp] theorem generation_publish (s : Stamp) (e : Edition) : (c.publish n s e).generation = c.generation := by
  rw [publish]
  split <;> rfl

/-! ### Slots -/

theorem slots_invalidate : (c.invalidate n).slots[m]? =
    if n = m then (c.slots[m]?).map fun s => { s with epoch := s.epoch + 1 } else c.slots[m]? := by
  simp only [invalidate, Std.TreeMap.get?_eq_getElem?]
  by_cases h : n = m
  · subst h
    cases hs : c.slots[n]? <;> simp [hs]
  · cases hs : c.slots[n]? <;> simp [h, Std.TreeMap.getElem?_insert]

@[simp] theorem slots_clear : c.clear.slots = c.slots := rfl

theorem slots_acquire : (c.acquire n).slots[m]? =
    if n = m then some { c.slot n with holders := (c.slot n).holders + 1 } else c.slots[m]? := by
  simp [acquire, Std.TreeMap.getElem?_insert]

theorem slots_release : (c.release n).slots[m]? =
    if n = m then
      if (c.slot n).holders ≤ 1 then none else some { c.slot n with holders := (c.slot n).holders - 1 }
    else c.slots[m]? := by
  by_cases h : (c.slot n).holders ≤ 1
  · simp [release, h, Std.TreeMap.getElem?_erase]
  · simp [release, h, Std.TreeMap.getElem?_insert]

@[simp] theorem slots_publish (s : Stamp) (e : Edition) : (c.publish n s e).slots = c.slots := by
  rw [publish]
  split <;> rfl

theorem slots_release_congr {c c' : Cache} (h : c.slots = c'.slots) :
    (c.release n).slots = (c'.release n).slots := by
  unfold release slot
  rw [h]

theorem slot_eq_of_getElem? {c : Cache} {n : String} {s : Slot} (h : c.slots[n]? = some s) : c.slot n = s := by
  simp [slot, h]

end DecisionTables.Cache

namespace DecisionTables.Workspace

/-- The number of the cache of an engine. -/
def cacheNumber (w : Workspace) (e : Nat) : Nat :=
  (w.engine e).cache

theorem cache_modifyCacheOf (w : Workspace) (e : Nat) (f : Cache → Cache) (c : Nat) :
    (w.modifyCacheOf e f).cache c = if w.cacheNumber e = c then f (w.cache c) else w.cache c := by
  by_cases h : w.cacheNumber e = c
  · subst h
    simp [cache, modifyCacheOf, cacheNumber, cacheOf]
  · simp [cache, modifyCacheOf, cacheNumber] at h ⊢
    simp [h, Std.TreeMap.getD_insert]

@[simp] theorem cacheNumber_modifyCacheOf (w : Workspace) (e : Nat) (f : Cache → Cache) :
    (w.modifyCacheOf e f).cacheNumber = w.cacheNumber :=
  rfl

theorem cacheOf_modifyCacheOf (w : Workspace) (e : Nat) (f : Cache → Cache) :
    (w.modifyCacheOf e f).cacheOf e = f (w.cacheOf e) := by
  show (w.modifyCacheOf e f).cache (w.cacheNumber e) = f (w.cache (w.cacheNumber e))
  rw [cache_modifyCacheOf, if_pos rfl]

@[simp] theorem cache_record (w : Workspace) (event : Event) (c : Nat) : (w.record event).cache c = w.cache c :=
  rfl

end DecisionTables.Workspace
