import DecisionTables.Proofs.Cache.Operations
import DecisionTables.Proofs.Workspace.Pending

/-!
# What a run of actions leaves behind

A load may set off any actions, which may prepare other tables and so set off more. What all of them together
did can be read off the events that they left in the journal (`Run`): the generation of each cache grew by the
number of times it was cleared, the epoch of each slot that was held at the start by the number of times its
name was invalidated, and a name that nobody prepared kept its edition unless it was invalidated. So it is for
every way of preparing that is itself such a run (`Sound`), however deep the preparations are nested
(`sound_prepareWithin`).
-/

namespace DecisionTables

namespace Event

variable (cacheOf : Nat → Nat) (c : Nat) (name : String)

/-- A name was invalidated in a cache, which engines give by their number. -/
def invalidates : Event → Bool
  | .acted _ (.invalidate e n) _ => cacheOf e == c && n == name
  | _ => false

/-- A cache was cleared. -/
def clears : Event → Bool
  | .acted _ (.clear e) _ => cacheOf e == c
  | _ => false

/-- A name was asked for, to be prepared unless the cache has it. -/
def prepares : Event → Bool
  | .acted _ (.prepare e n) _ => cacheOf e == c && n == name
  | _ => false

/-- The edition of a name was dropped, together with what is under way for it. -/
def overtakes (event : Event) : Bool :=
  event.invalidates cacheOf c name || event.clears cacheOf c

end Event

namespace Workspace

/-- From one workspace to another by a run that left the given events. The run may publish an edition of its
own, at the place of its name in its cache; of that place nothing is said. -/
structure Run (own : Option (Nat × String)) (w : Workspace) (events : List Event) (w' : Workspace) : Prop where
  engines : w'.engines = w.engines
  journal : w'.journal = w.journal ++ events
  pending : w'.pending ≤ w.pending
  generation : ∀ c,
    (w'.cache c).generation = (w.cache c).generation + events.countP (Event.clears w.cacheNumber c)
  slot : ∀ c name (s : Slot), (w.cache c).slots[name]? = some s → 0 < s.holders →
    (w'.cache c).slots[name]? =
      some { s with epoch := s.epoch + events.countP (Event.invalidates w.cacheNumber c name) }
  edition : ∀ c name, own ≠ some (c, name) → events.all (!·.prepares w.cacheNumber c name) →
    (w'.cache c).get? name =
      if events.any (·.overtakes w.cacheNumber c name) then none else (w.cache c).get? name

/-- A way of preparing is a run, which may publish the edition of its name. -/
def Sound (prepare : Preparation) : Prop :=
  ∀ e name w, ∃ events, Run (some (w.cacheNumber e, name)) w events (prepare e name w).2

variable {w w' w'' : Workspace} {own : Option (Nat × String)}

theorem cacheNumber_eq (h : w'.engines = w.engines) : w'.cacheNumber = w.cacheNumber := by
  funext e
  simp [cacheNumber, engine, h]

theorem cacheOf_eq (h : w'.engines = w.engines) (e : Nat) : w'.cacheOf e = w'.cache (w.cacheNumber e) := by
  rw [← cacheNumber_eq h]
  rfl

theorem Run.refl (own : Option (Nat × String)) (w : Workspace) : Run own w [] w where
  engines := rfl
  journal := by simp
  pending := Nat.le_refl _
  generation c := by simp
  slot c name s hs _ := hs
  edition c name _ _ := by simp

theorem Run.trans {events events' : List Event} (h : Run own w events w') (h' : Run own w' events' w'') :
    Run own w (events ++ events') w'' where
  engines := h'.engines.trans h.engines
  journal := by rw [h'.journal, h.journal, List.append_assoc]
  pending := Nat.le_trans h'.pending h.pending
  generation c := by
    rw [h'.generation, h.generation, cacheNumber_eq h.engines, List.countP_append, Nat.add_assoc]
  slot c name s hs hpos := by
    have hs' := h'.slot c name _ (h.slot c name s hs hpos) hpos
    rw [hs', cacheNumber_eq h.engines, List.countP_append, Nat.add_assoc]
  edition c name hown hprepares := by
    rw [List.all_append, Bool.and_eq_true] at hprepares
    have he := h'.edition c name hown (by rw [cacheNumber_eq h.engines]; exact hprepares.2)
    rw [he, h.edition c name hown hprepares.1, cacheNumber_eq h.engines, List.any_append]
    cases events.any (·.overtakes w.cacheNumber c name) <;>
      cases events'.any (·.overtakes w.cacheNumber c name) <;> rfl

/-! ### Single steps -/

/-- An event that drops no edition may be added to a run. -/
theorem Run.record {events : List Event} (h : Run own w events w') {event : Event}
    (hquiet : ∀ c name, event.overtakes w.cacheNumber c name = false) :
    Run own w (events ++ [event]) (w'.record event) where
  engines := h.engines
  journal := by rw [Workspace.record, h.journal, List.append_assoc]
  pending := h.pending
  generation c := by
    have hclears := (Bool.or_eq_false_iff.1 (hquiet c "")).2
    simpa [hclears] using h.generation c
  slot c name s hs hpos := by
    have hinvalidates := (Bool.or_eq_false_iff.1 (hquiet c name)).1
    simpa [hinvalidates] using h.slot c name s hs hpos
  edition c name hown hprepares := by
    rw [List.all_append, Bool.and_eq_true] at hprepares
    have he := h.edition c name hown hprepares.1
    rw [List.any_append, List.any_cons, List.any_nil, hquiet, Bool.or_self, Bool.or_false]
    exact he

/-- A preparation that is recorded publishes nothing that the events do not show. -/
private theorem Run.record_prepare {events : List Event} {e : Nat} {name : String}
    (h : Run (some (w.cacheNumber e, name)) w events w') (r : Nat) (outcome : Outcome) :
    Run none w (events ++ [.acted r (.prepare e name) outcome])
      (w'.record (.acted r (.prepare e name) outcome)) := by
  have hrecord : Run (some (w.cacheNumber e, name)) w (events ++ [.acted r (.prepare e name) outcome])
      (w'.record (.acted r (.prepare e name) outcome)) := h.record fun _ _ => rfl
  refine { hrecord with edition := fun c n _ hprepares => hrecord.edition c n ?_ hprepares }
  rintro hown
  obtain ⟨rfl, rfl⟩ := Prod.mk.inj (Option.some.inj hown)
  simp [Event.prepares] at hprepares

private theorem run_modifyRepository {f : Repository → Repository} (hf : ∀ r, (f r).pending ≤ r.pending) (r : Nat) :
    Run own w [] (w.modifyRepository r f) where
  engines := rfl
  journal := (List.append_nil _).symm
  pending := pending_modifyRepository_le hf w r
  generation _ := rfl
  slot _ _ _ hs _ := hs
  edition _ _ _ _ := rfl

private theorem run_invalidate (r e : Nat) (name : String) (outcome : Outcome) :
    Run own w [.acted r (.invalidate e name) outcome]
      ((w.invalidate e name).record (.acted r (.invalidate e name) outcome)) where
  engines := rfl
  journal := rfl
  pending := Nat.le_refl _
  generation c := by
    show ((w.modifyCacheOf e (·.invalidate name)).cache c).generation = _
    rw [cache_modifyCacheOf]
    split <;> rfl
  slot c n s hs _ := by
    show ((w.modifyCacheOf e (·.invalidate name)).cache c).slots[n]? = _
    rw [cache_modifyCacheOf]
    by_cases hc : w.cacheNumber e = c
    · by_cases hn : name = n <;> simp [hc, hn, Cache.slots_invalidate, hs, Event.invalidates]
    · simp [hc, hs, Event.invalidates]
  edition c n _ _ := by
    show ((w.modifyCacheOf e (·.invalidate name)).cache c).get? n = _
    rw [cache_modifyCacheOf]
    by_cases hc : w.cacheNumber e = c
    · by_cases hn : name = n <;> simp [hc, hn, Event.overtakes, Event.invalidates, Event.clears]
    · simp [hc, Event.overtakes, Event.invalidates, Event.clears]

private theorem run_clear (r e : Nat) (outcome : Outcome) :
    Run own w [.acted r (.clear e) outcome] ((w.clear e).record (.acted r (.clear e) outcome)) where
  engines := rfl
  journal := rfl
  pending := Nat.le_refl _
  generation c := by
    show ((w.modifyCacheOf e Cache.clear).cache c).generation = _
    rw [cache_modifyCacheOf]
    by_cases hc : w.cacheNumber e = c <;> simp [hc, Event.clears]
  slot c n s hs _ := by
    show ((w.modifyCacheOf e Cache.clear).cache c).slots[n]? = _
    rw [cache_modifyCacheOf]
    split <;> exact hs
  edition c n _ _ := by
    show ((w.modifyCacheOf e Cache.clear).cache c).get? n = _
    rw [cache_modifyCacheOf]
    by_cases hc : w.cacheNumber e = c <;> simp [hc, Event.overtakes, Event.invalidates, Event.clears]

/-! ### Loads -/

theorem exists_run_perform {prepare : Preparation} (hp : Sound prepare) (r : Nat) (action : Action)
    (w : Workspace) :
    ∃ events, Run none w events
      ((perform prepare r action w).2.record (.acted r action (perform prepare r action w).1)) := by
  cases action with
  | invalidate e name => exact ⟨_, run_invalidate r e name _⟩
  | clear e => exact ⟨_, run_clear r e _⟩
  | insert t =>
    have h : Run none w [] (w.modifyRepository r (·.insert t)) :=
      run_modifyRepository (f := (·.insert t)) (fun _ => Nat.le_refl _) r
    exact ⟨_, h.record fun _ _ => rfl⟩
  | remove name =>
    have h : Run none w [] (w.modifyRepository r (·.remove name)) :=
      run_modifyRepository (f := (·.remove name)) (fun _ => Nat.le_refl _) r
    exact ⟨_, h.record fun _ _ => rfl⟩
  | prepare e name =>
    obtain ⟨events, h⟩ := hp e name w
    exact ⟨_, h.record_prepare r _⟩

private theorem exists_run_performAll {prepare : Preparation} (hp : Sound prepare) (r : Nat) (actions : List Action)
    (w : Workspace) : ∃ events, Run none w events (performAll prepare r actions w) := by
  induction actions generalizing w with
  | nil => exact ⟨[], Run.refl _ _⟩
  | cons action actions ih =>
    obtain ⟨events, h⟩ := exists_run_perform hp r action w
    obtain ⟨events', h'⟩ := ih _
    exact ⟨events ++ events', h.trans h'⟩

theorem exists_run_loadFrom {prepare : Preparation} (hp : Sound prepare) (r : Nat) (name : String)
    (w : Workspace) : ∃ events, Run none w (.loaded r name :: events) (loadFrom prepare r name w).2 := by
  have hload : Run none w [.loaded r name] (w.record (.loaded r name)) := (Run.refl _ w).record fun _ _ => rfl
  have hafter := hload.trans (run_modifyRepository (fun s => s.pending_afterLoad_le name) r)
  obtain ⟨events, h⟩ := exists_run_performAll hp r ((w.repository r).nextActions name) _
  exact ⟨events, hafter.trans h⟩

/-- The first repository that is asked for a table is the first source. -/
private theorem exists_run_load {prepare : Preparation} (hp : Sound prepare) (name : String)
    (sources : List (String × Nat)) (w : Workspace) :
    ∃ events, Run none w events (load prepare name sources w).2 ∧
      events.head? = sources.head?.map fun s => .loaded s.2 name := by
  induction sources generalizing w with
  | nil => exact ⟨[], Run.refl _ _, rfl⟩
  | cons s sources ih =>
    obtain ⟨source, r⟩ := s
    obtain ⟨events, h⟩ := exists_run_loadFrom hp r name w
    rw [load]
    cases hload : loadFrom prepare r name w with
    | mk found w' =>
      rw [hload] at h
      cases found with
      | some table => exact ⟨_, h, rfl⟩
      | none =>
        obtain ⟨events', h', _⟩ := ih w'
        exact ⟨_, h.trans h', rfl⟩

theorem exists_run_build {prepare : Preparation} (hp : Sound prepare) (e : Nat) (name : String)
    (w : Workspace) :
    ∃ events, Run none w events (build prepare e name w).2 ∧
      events.head? = (w.engine e).sources.head?.map fun s => .loaded s.2 name := by
  obtain ⟨events, h, hhead⟩ := exists_run_load hp name (w.engine e).sources w
  refine ⟨events, ?_, hhead⟩
  rw [build]
  cases hload : load prepare name (w.engine e).sources w with
  | mk found w' =>
    rw [hload] at h
    cases found <;> exact h

/-! ### Preparations -/

section

variable {prepare : Preparation} {e : Nat} {name : String} {built : Workspace}

theorem prepareWith_of_some {edition : Edition} (h : (w.cacheOf e).get? name = some edition) :
    prepareWith prepare e name w = (.ok edition, w) := by
  rw [prepareWith, h]

theorem prepareWith_of_error {fault : TableError} (hnone : (w.cacheOf e).get? name = none)
    (hbuild : build prepare e name (w.modifyCacheOf e (·.acquire name)) = (.error fault, built)) :
    prepareWith prepare e name w = (.error fault, built.modifyCacheOf e (·.release name)) := by
  rw [prepareWith, hnone]
  simp only [hbuild]

theorem prepareWith_of_ok {table : PreparedTable} (hnone : (w.cacheOf e).get? name = none)
    (hbuild : build prepare e name (w.modifyCacheOf e (·.acquire name)) = (.ok table, built)) :
    prepareWith prepare e name w = (.ok ⟨built.serial, table⟩,
      { built with serial := built.serial + 1 }.modifyCacheOf e fun c =>
        (c.publish name (((w.cacheOf e).acquire name).stamp name) ⟨built.serial, table⟩).release name) := by
  rw [prepareWith, hnone]
  simp only [hbuild, cacheOf_modifyCacheOf]

end

/-- A run while the slot of a name is held, with its holder let go after it. -/
private theorem Run.released {e : Nat} {name : String} {events : List Event}
    (h : Run none (w.modifyCacheOf e (·.acquire name)) events w') (serial : Nat) (f : Cache → Cache)
    (hgeneration : ∀ c, (f c).generation = c.generation) (hslots : ∀ c, (f c).slots = (c.release name).slots)
    (hget : ∀ c n, name ≠ n → (f c).get? n = c.get? n) :
    Run (some (w.cacheNumber e, name)) w events ({ w' with serial }.modifyCacheOf e f) := by
  have hnumber : w'.cacheNumber = w.cacheNumber := cacheNumber_eq h.engines
  have hcache : ∀ c, ({ w' with serial }.modifyCacheOf e f).cache c =
      if w.cacheNumber e = c then f (w'.cache c) else w'.cache c := by
    intro c
    rw [cache_modifyCacheOf, ← hnumber]
    rfl
  refine ⟨h.engines, h.journal, h.pending, fun c => ?_, fun c n s hs hpos => ?_, fun c n hown hprepares => ?_⟩
  · have hc := h.generation c
    rw [cache_modifyCacheOf, cacheNumber_modifyCacheOf] at hc
    rw [hcache]
    by_cases hce : w.cacheNumber e = c <;> simpa [hce, hgeneration] using hc
  · have hslot := h.slot c n
    rw [cache_modifyCacheOf, cacheNumber_modifyCacheOf] at hslot
    rw [hcache]
    by_cases hce : w.cacheNumber e = c
    · rw [if_pos hce] at hslot ⊢
      rw [hslots, Cache.slots_release]
      by_cases hn : name = n
      · -- the slot was held before, so it has a holder left
        subst hn
        have hheld := hslot { s with holders := s.holders + 1 }
          (by rw [Cache.slots_acquire, if_pos rfl, Cache.slot_eq_of_getElem? hs]) (Nat.succ_pos _)
        rw [if_pos rfl, Cache.slot_eq_of_getElem? hheld, if_neg (by simp; omega)]
        simp
      · rw [if_neg hn]
        exact hslot s (by rw [Cache.slots_acquire, if_neg hn, hs]) hpos
    · rw [if_neg hce] at hslot ⊢
      exact hslot s hs hpos
  · have hc := h.edition c n (by simp) hprepares
    rw [cache_modifyCacheOf, cacheNumber_modifyCacheOf] at hc
    rw [hcache]
    by_cases hce : w.cacheNumber e = c
    · have hn : name ≠ n := by
        rintro rfl
        exact hown (by rw [hce])
      simpa [hce, hget _ _ hn] using hc
    · simpa [hce] using hc

theorem sound_prepareWith {prepare : Preparation} (hp : Sound prepare) : Sound (prepareWith prepare) := by
  intro e name w
  cases hnone : (w.cacheOf e).get? name with
  | some edition =>
    rw [prepareWith_of_some hnone]
    exact ⟨[], Run.refl _ _⟩
  | none =>
    obtain ⟨events, h, _⟩ := exists_run_build hp e name (w.modifyCacheOf e (·.acquire name))
    refine ⟨events, ?_⟩
    cases hbuild : build prepare e name (w.modifyCacheOf e (·.acquire name)) with
    | mk outcome built =>
      rw [hbuild] at h
      change Run none _ events built at h
      cases outcome with
      | error fault =>
        rw [prepareWith_of_error hnone hbuild]
        exact h.released built.serial (·.release name) (fun _ => rfl) (fun _ => rfl) fun _ _ _ => rfl
      | ok table =>
        rw [prepareWith_of_ok hnone hbuild]
        refine h.released (built.serial + 1) (fun c => (c.publish name _ ⟨built.serial, table⟩).release name)
          (fun c => ?_) (fun c => ?_) fun c n hn => ?_
        · simp
        · exact Cache.slots_release_congr name (Cache.slots_publish c name _ _)
        · simp [Cache.get?_publish, hn]

/-- Whatever a preparation sets off, it is a run that publishes the edition of its name or nothing. -/
theorem sound_prepareWithin (depth : Nat) : Sound (prepareWithin depth) := by
  induction depth with
  | zero => exact sound_prepareWith fun _ _ w => ⟨[], Run.refl _ w⟩
  | succ depth ih => exact sound_prepareWith ih

theorem sound_prepared : Sound prepared :=
  fun e name w => sound_prepareWithin w.pending e name w

theorem engine_prepared (e e' : Nat) (name : String) (w : Workspace) :
    (prepared e' name w).2.engine e = w.engine e := by
  obtain ⟨events, hrun⟩ := sound_prepared e' name w
  rw [engine, engine, hrun.engines]

end Workspace

end DecisionTables
