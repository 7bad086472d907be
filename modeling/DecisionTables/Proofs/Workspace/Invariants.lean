import DecisionTables.Proofs.Workspace.Detail
import DecisionTables.Proofs.Workspace.Requests

/-!
# Invariants of preparations and sessions

A preparation records events, changes repositories, drops editions, lets go of slots and publishes what it has built.
A property that all this preserves is preserved by preparations, however deep they are nested (`Invariant.prepared`).
If it does not depend on the journal, and to put an edition under another name preserves it too, then every session
preserves it (`SessionInvariant.runAll`). What is published need only be looked at for the requests that are made.
-/

namespace DecisionTables

/-- A repository was asked for the entries of a table. -/
def Event.isSearch : Event → Bool
  | .searched _ _ _ => true
  | _ => false

namespace Workspace

/-! ### What preparations preserve -/

/-- A property of workspaces that is preserved by whatever preparations do: they record events other than searches,
change repositories, drop editions and let go of slots, and publish the tables that they have built for the requests
that are made. -/
structure Invariant (made : Request → Prop) (P : Workspace → Prop) : Prop where
  record : ∀ w event, event.isSearch = false → P w → P (w.record event)
  modifyRepository : ∀ w r f, P w → P (w.modifyRepository r f)
  modifyCacheOf : ∀ w e f, (∀ c name edition, (f c).get? name = some edition → c.get? name = some edition) →
    P w → P (w.modifyCacheOf e f)
  setOff : ∀ q q', made q → q' ∈ q.setOff → made q'
  publish : ∀ (q : Request) t built stamp, made q → q.cached? = none →
    buildHeld q.engine q.name q.before = (.ok t, built) → P built →
    P ({ built with serial := built.serial + 1 }.modifyCacheOf q.engine fun c =>
      (c.publish q.name stamp ⟨built.serial, t⟩).release q.name)

namespace Invariant

variable {made : Request → Prop} {P : Workspace → Prop} {n : Nat}

theorem invalidate (h : Invariant made P) (e : Nat) (name : String) {w : Workspace} (hw : P w) :
    P (w.invalidate e name) := by
  refine h.modifyCacheOf w e _ (fun c n edition hedition => ?_) hw
  rw [Cache.get?_invalidate] at hedition
  split at hedition
  · cases hedition
  · exact hedition

theorem clear (h : Invariant made P) (e : Nat) {w : Workspace} (hw : P w) : P (w.clear e) :=
  h.modifyCacheOf w e _ (fun c n edition hedition => by simp at hedition) hw

/-- The requests that are made preserve a property where fewer lists of actions are left than so many. -/
def Below (made : Request → Prop) (P : Workspace → Prop) (n : Nat) : Prop :=
  ∀ e name w, made ⟨e, name, w⟩ → w.pending < n → P w → P (Workspace.prepared e name w).2

private theorem perform (h : Invariant made P) (hbelow : Below made P n) (r : Nat) (action : Action) {w : Workspace}
    (hmade : ∀ q ∈ action.requests w, made q) (hn : w.pending < n) (hw : P w) :
    P (Workspace.perform Workspace.prepared r action w).2 := by
  cases action with
  | invalidate e name => exact h.invalidate e name hw
  | clear e => exact h.clear e hw
  | insert t => exact h.modifyRepository w r _ hw
  | remove name => exact h.modifyRepository w r _ hw
  | prepare e name => exact hbelow e name w (hmade _ (List.mem_singleton.2 rfl)) hn hw

private theorem performAll (h : Invariant made P) (hbelow : Below made P n) (r : Nat) (actions : List Action)
    {w : Workspace} (hmade : ∀ q ∈ requestsOfActions r actions w, made q) (hn : w.pending < n) (hw : P w) :
    P (Workspace.performAll Workspace.prepared r actions w) := by
  induction actions generalizing w with
  | nil => exact hw
  | cons action actions ih =>
    obtain ⟨hfirst, hrest⟩ := List.forall_mem_append.1 hmade
    obtain ⟨events, hrun⟩ := exists_run_perform sound_prepared r action w
    exact ih hrest (Nat.lt_of_le_of_lt hrun.pending hn) (h.record _ _ rfl (h.perform hbelow r action hfirst hn hw))

/-- A load that sets off actions leaves fewer lists of them, so there the preparations are below. -/
private theorem loadFrom (h : Invariant made P) (hbelow : Below made P n) (r : Nat) (name : String) {w : Workspace}
    (hmade : ∀ q ∈ requestsOfActions r ((w.repository r).nextActions name) (w.beginLoad r name), made q)
    (hn : w.pending ≤ n) (hw : P w) : P (Workspace.loadFrom Workspace.prepared r name w).2 := by
  have hbegun : P (w.beginLoad r name) := h.modifyRepository _ r _ (h.record w _ rfl hw)
  by_cases hactions : (w.repository r).nextActions name = []
  · rw [Workspace.loadFrom, hactions]
    exact hbegun
  · have hpending : (w.beginLoad r name).pending < w.pending := pending_afterLoad_lt hactions
    exact h.performAll hbelow r _ hmade (Nat.lt_of_lt_of_le hpending hn) hbegun

private theorem load (h : Invariant made P) (hbelow : Below made P n) (name : String) (sources : List (String × Nat))
    {w : Workspace} (hmade : ∀ q ∈ requestsOfLoad name sources w, made q) (hn : w.pending ≤ n) (hw : P w) :
    P (Workspace.load Workspace.prepared name sources w).2 := by
  induction sources generalizing w with
  | nil => exact hw
  | cons s sources ih =>
    obtain ⟨source, r⟩ := s
    obtain ⟨hfirst, hrest⟩ := List.forall_mem_append.1 hmade
    obtain ⟨events, hrun⟩ := exists_run_loadFrom sound_prepared r name w
    have hpending := Nat.le_trans hrun.pending hn
    have hafter := h.loadFrom hbelow r name hfirst hn hw
    rw [Workspace.load]
    cases hload : Workspace.loadFrom Workspace.prepared r name w with
    | mk found w' =>
      rw [hload] at hpending hafter hrest
      cases found with
      | some table => exact hafter
      | none => exact ih hrest hpending hafter

private theorem buildHeld (h : Invariant made P) (hbelow : Below made P n) {q : Request} (hq : made q)
    (hmiss : q.cached? = none) (hn : q.before.pending ≤ n) (hw : P q.before) :
    P (Workspace.buildHeld q.engine q.name q.before).2 := by
  have hheld : P q.held := h.modifyCacheOf _ _ _ (fun c n edition hedition => hedition) hw
  have hmade : ∀ q' ∈ requestsOfLoad q.name q.sources q.held, made q' := by
    intro q' hq'
    refine h.setOff q q' hq ?_
    rw [Request.setOff, hmiss]
    exact hq'
  rw [Workspace.buildHeld, build_snd]
  exact h.load hbelow _ _ hmade hn hheld

private theorem below (h : Invariant made P) (n : Nat) : Below made P n := by
  induction n with
  | zero => exact fun _ _ _ _ hn => absurd hn (Nat.not_lt_zero _)
  | succ n ih =>
    intro e name w hmade hn hw
    cases hheld : (w.cacheOf e).get? name with
    | some edition =>
      rw [prepared_eq, prepareWith_of_some hheld]
      exact hw
    | none =>
      have hbuilt := h.buildHeld ih hmade hheld (Nat.le_of_lt_succ hn) hw
      cases hbuild : Workspace.buildHeld e name w with
      | mk outcome built =>
        rw [hbuild] at hbuilt
        cases outcome with
        | error fault =>
          rw [prepared_of_buildHeld_error hheld hbuild]
          exact h.modifyCacheOf built e (·.release name) (fun c n edition hedition => hedition) hbuilt
        | ok t =>
          rw [prepared_of_buildHeld_ok hheld hbuild]
          exact h.publish ⟨e, name, w⟩ t built _ hmade hheld hbuild hbuilt

theorem prepared (h : Invariant made P) {e : Nat} {name : String} {w : Workspace} (hmade : made ⟨e, name, w⟩)
    (hw : P w) : P (Workspace.prepared e name w).2 :=
  h.below (w.pending + 1) e name w hmade (Nat.lt_succ_self _) hw

end Invariant

/-! ### What sessions preserve -/

/-- A property that does not depend on the journal, and that preparations preserve and to put an edition that was
prepared into a cache. -/
structure SessionInvariant (made : Request → Prop) (P : Workspace → Prop) : Prop extends Invariant made P where
  journal : ∀ (w : Workspace) (events : List Event), P w → P { w with journal := events }
  put : ∀ (q : Request) (name : String) (edition : Edition) (after : Workspace), made q → P q.before →
    q.before.prepared q.engine q.name = (.ok edition, after) → P after →
    P (after.modifyCacheOf q.engine (·.put name edition))

namespace SessionInvariant

variable {made : Request → Prop} {P : Workspace → Prop} {w : Workspace} {e : Nat} {name : String}

private theorem evaluate (h : SessionInvariant made P) (e : Nat) (t : PreparedTable) (values : List Value)
    (detailed : Bool) (hw : P w) : P (w.evaluate e t values detailed).2 := by
  rw [evaluate_snd]
  cases t.normalize values with
  | error fault => exact hw
  | ok query =>
    dsimp only
    rw [indexFor_snd]
    split
    · exact h.journal w _ hw
    · exact hw

private theorem getDetailed (h : SessionInvariant made P) (hmade : made ⟨e, name, w⟩) (values : List Value)
    (hw : P w) : P (w.getDetailed e name values).2 := by
  have hafter := h.prepared hmade hw
  rw [Workspace.getDetailed]
  cases hcall : Workspace.prepared e name w with
  | mk outcome after =>
    rw [hcall] at hafter
    cases outcome with
    | error fault => exact hafter
    | ok edition => exact h.evaluate e edition.table values true hafter

private theorem get (h : SessionInvariant made P) (hmade : made ⟨e, name, w⟩) (values : List Value) (hw : P w) :
    P (w.get e name values).2 := by
  rw [get_eq]
  exact h.getDetailed hmade values hw

private theorem getInContext (h : SessionInvariant made P) (hmade : made ⟨e, name, w⟩) (context : Context)
    (hw : P w) : P (w.getInContext e name context).2 := by
  have hafter := h.prepared hmade hw
  rw [Workspace.getInContext]
  cases hcall : Workspace.prepared e name w with
  | mk outcome after =>
    rw [hcall] at hafter
    cases outcome with
    | error fault => exact hafter
    | ok edition =>
      dsimp only
      cases edition.table.valuesIn ((after.engine e).creators.get? ·) context with
      | error fault => exact hafter
      | ok values => exact h.evaluate e edition.table values false hafter

private theorem putEdition (h : SessionInvariant made P) {source : String} (hmade : made ⟨e, source, w⟩)
    (name : String) (hw : P w) : P (Workspace.put e name source w).2 := by
  have hafter := h.prepared hmade hw
  rw [Workspace.put]
  cases hcall : Workspace.prepared e source w with
  | mk outcome after =>
    rw [hcall] at hafter
    cases outcome with
    | error fault => exact hafter
    | ok edition => exact h.put ⟨e, source, w⟩ name edition after hmade hw hcall hafter

private theorem prepareTimes (h : SessionInvariant made P) (count : Nat)
    (hmade : ∀ q ∈ requestsOfTimes e name count w, made q) (hw : P w) : P (w.prepareTimes e name count).2 := by
  induction count generalizing w with
  | zero => exact hw
  | succ count ih =>
    obtain ⟨hfirst, hrest⟩ := List.forall_mem_cons.1 hmade
    exact ih hrest (h.prepared hfirst hw)

private theorem sameEdition (h : SessionInvariant made P) (invalidated : Bool)
    (hmade : ∀ q ∈ (Step.same e name invalidated).requests w, made q) (hw : P w) :
    P (w.sameEdition e name invalidated).2 := by
  obtain ⟨hfirst, hsecond⟩ := List.forall_mem_cons.1 hmade
  have hbetween : P (if invalidated then (Workspace.prepared e name w).2.invalidate e name
      else (Workspace.prepared e name w).2) := by
    split
    · exact h.invalidate e name (h.prepared hfirst hw)
    · exact h.prepared hfirst hw
  exact h.prepared (hsecond _ (List.mem_singleton.2 rfl)) hbetween

theorem run (h : SessionInvariant made P) (step : Step) (hmade : ∀ q ∈ step.requests w, made q) (hw : P w) :
    P (step.run w).2 := by
  have hfirst : ∀ e name, step.requests w = [⟨e, name, w⟩] → made ⟨e, name, w⟩ :=
    fun e name hstep => hmade _ (hstep ▸ List.mem_singleton.2 rfl)
  cases step with
  | get e name values => exact h.get (hfirst e name rfl) values hw
  | getDetailed e name values => exact h.getDetailed (hfirst e name rfl) values hw
  | getInContext e name context => exact h.getInContext (hfirst e name rfl) context hw
  | callFound e name values arguments => exact h.get (hfirst e name rfl) values hw
  | prepare e name => exact h.prepared (hfirst e name rfl) hw
  | prepareTimes e name count => exact h.journal _ _ (h.prepareTimes count hmade (h.journal w [] hw))
  | invalidate e name => exact h.invalidate e name hw
  | clear e => exact h.clear e hw
  | put e name source => exact h.putEdition (hfirst e source rfl) name hw
  | same e name invalidated => exact h.sameEdition invalidated hmade hw
  | insertTable r t => exact h.modifyRepository w r _ hw
  | removeTable r name => exact h.modifyRepository w r _ hw
  | takeJournal r => exact h.journal w _ hw
  | _ => exact hw

theorem runAll (h : SessionInvariant made P) {steps : List Step} (hmade : ∀ q, Made steps w q → made q)
    (hw : P w) : P (Step.runAll steps w).2 := by
  induction steps generalizing w with
  | nil => exact hw
  | cons step steps ih =>
    have hstep := h.run step (fun q hq => hmade q (.of_head hq)) hw
    exact ih (fun q hq => hmade q hq.of_tail) hstep

end SessionInvariant

/-- Nothing in a session changes the engines. -/
private theorem sessionInvariant_engines (engines : List Engine) :
    SessionInvariant (fun _ => True) fun w => w.engines = engines where
  record _ _ _ h := h
  modifyRepository _ _ _ h := h
  modifyCacheOf _ _ _ _ h := h
  setOff _ _ _ _ := trivial
  publish _ _ _ _ _ _ _ h := h
  journal _ _ h := h
  put _ _ _ _ _ _ _ h := h

end Workspace

theorem Step.engines_run (step : Step) (w : Workspace) : (step.run w).2.engines = w.engines :=
  (Workspace.sessionInvariant_engines w.engines).run step (fun _ _ => trivial) rfl

/-- All requests of a session find the engines that it began with. -/
theorem Made.engines_eq {steps : List Step} {start : Workspace} {q : Request} (h : Made steps start q) :
    q.before.engines = start.engines := by
  induction h with
  | step done _ hq =>
    rw [Step.engines_of_mem_requests hq]
    exact (Workspace.sessionInvariant_engines start.engines).runAll (fun _ _ => trivial) rfl
  | setOff _ hq' ih => rw [Request.engines_of_mem_setOff hq', ih]

end DecisionTables
