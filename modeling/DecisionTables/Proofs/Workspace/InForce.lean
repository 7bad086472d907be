import DecisionTables.Proofs.Workspace.Answers
import DecisionTables.Session
import Mathlib.Data.List.DropRight

/-!
# The definition in force

An engine answers queries to a name from one definition until the name is dropped from its cache, however the
repositories are edited meanwhile. Over a session of one engine with static repositories that is the definition
which the name had at its first preparation that succeeded since it was last dropped, or its present one if
there was no such preparation (`inForce`). The argument follows the session step by step: the cache has just
these tables (`Tracks`), at the start and after each step (`tracks_concat`), and so the calls on a name are
answered from them (`answeredFrom_inForce`).
-/

namespace DecisionTables

namespace Step

variable (e : Nat) (name : String)

/-- A query to the name or a preparation of it. -/
def asks : Step → Bool
  | .get e' n _ | .getDetailed e' n _ | .getInContext e' n _ | .callFound e' n _ _ | .prepare e' n =>
    e' == e && n == name
  | _ => false

/-- The name is dropped from the cache. -/
def drops : Step → Bool
  | .invalidate e' n => e' == e && n == name
  | .clear e' => e' == e
  | _ => false

/-- A repository is given another table of this name, or loses the one it has. -/
def edits : Step → Bool
  | .insertTable _ t => t.name == name
  | .removeTable _ n => n == name
  | _ => false

/-- The step is a call of this engine or of a repository. Editions are not put into the cache directly, and
each preparation is a step of its own. -/
def ofEngine : Step → Bool
  | .get e' _ _ | .getDetailed e' _ _ | .getInContext e' _ _ | .call e' _ _ | .callFound e' _ _ _ | .prepare e' _
  | .invalidate e' _ | .clear e' | .cached e' | .cachedEdition e' _ | .tryCached e' _ _ | .configuration e'
  | .summary e' | .settings e' => e' == e
  | .insertTable _ _ | .removeTable _ _ | .tableNames _ | .takeJournal _ => true
  | .put _ _ _ | .prepareTimes _ _ _ | .same _ _ _ => false

/-- Each step that edits the name is followed by one that drops it, so no edit is outstanding at the end. -/
def refreshed : List Step → Bool
  | [] => true
  | step :: steps => (!step.edits name || steps.any (·.drops e name)) && refreshed steps

variable {e name}

private theorem refreshed_of_concat {steps : List Step} {step : Step} (h : refreshed e name (steps ++ [step]) = true)
    (hdrops : step.drops e name = false) : refreshed e name steps = true ∧ step.edits name = false := by
  induction steps with
  | nil => simpa [refreshed] using h
  | cons s steps ih =>
    simp only [List.cons_append, refreshed, List.any_append, List.any_cons, List.any_nil, hdrops, Bool.or_false,
      Bool.and_eq_true] at h ⊢
    obtain ⟨hsteps, hstep⟩ := ih h.2
    exact ⟨⟨h.1, hsteps⟩, hstep⟩

end Step

namespace Workspace

variable {w w' : Workspace} {e : Nat} {name : String} {step : Step}

/-! ### What a step does -/

/-- What a step of an engine's session does to a static workspace. -/
inductive Effect (e : Nat) (step : Step) (w w' : Workspace) : Prop
  /-- It asks for one name. -/
  | asked (name : String) (asks : ∀ n, step.asks e n = (name == n)) (drops : ∀ n, step.drops e n = false)
      (edits : ∀ n, step.edits n = false) (after : Undisturbed (prepared e name w).2 w')
  /-- It drops names from the cache. -/
  | dropped (f : Cache → Cache) (asks : ∀ n, step.asks e n = false) (edits : ∀ n, step.edits n = false)
      (get? : ∀ c n, (f c).get? n = if step.drops e n then none else c.get? n)
      (idle : ∀ c : Cache, c.IsIdle → (f c).IsIdle) (after : w' = w.modifyCacheOf e f)
  /-- It edits what a repository has under one name. -/
  | edited (r : Nat) (f : Repository → Repository) (asks : ∀ n, step.asks e n = false)
      (drops : ∀ n, step.drops e n = false) (isStatic : ∀ s : Repository, s.IsStatic → (f s).IsStatic)
      (tables : ∀ s n, step.edits n = false → (f s).tables.get? n = s.tables.get? n)
      (after : w' = w.modifyRepository r f)
  /-- It does none of this. -/
  | nothing (asks : ∀ n, step.asks e n = false) (drops : ∀ n, step.drops e n = false)
      (edits : ∀ n, step.edits n = false) (after : Undisturbed w w')

private theorem effect_run (hw : w.IsStatic) (hstep : step.ofEngine e = true) : Effect e step w (step.run w).2 := by
  cases step with
  | get e' n values =>
    obtain rfl : e' = e := eq_of_beq hstep
    exact .asked n (by simp [Step.asks]) (fun _ => rfl) (fun _ => rfl) (get_of_isStatic hw e' n values).2
  | getDetailed e' n values =>
    obtain rfl : e' = e := eq_of_beq hstep
    exact .asked n (by simp [Step.asks]) (fun _ => rfl) (fun _ => rfl) (getDetailed_of_isStatic hw e' n values).2
  | getInContext e' n context =>
    obtain rfl : e' = e := eq_of_beq hstep
    exact .asked n (by simp [Step.asks]) (fun _ => rfl) (fun _ => rfl) (getInContext_of_isStatic hw e' n context).2
  | callFound e' n values arguments =>
    obtain rfl : e' = e := eq_of_beq hstep
    exact .asked n (by simp [Step.asks]) (fun _ => rfl) (fun _ => rfl)
      (callFound_of_isStatic hw e' n values arguments).2
  | prepare e' n =>
    obtain rfl : e' = e := eq_of_beq hstep
    exact .asked n (by simp [Step.asks]) (fun _ => rfl) (fun _ => rfl)
      (.refl (prepared_of_isStatic hw e' n).2.1.isStatic)
  | invalidate e' n =>
    obtain rfl : e' = e := eq_of_beq hstep
    refine .dropped (·.invalidate n) (fun _ => rfl) (fun _ => rfl) (fun c m => ?_) (fun c hc m => ?_) rfl
    · simp [Step.drops]
    · rw [Cache.slots_invalidate, hc m]
      simp
  | clear e' =>
    obtain rfl : e' = e := eq_of_beq hstep
    exact .dropped Cache.clear (fun _ => rfl) (fun _ => rfl) (fun c m => by simp [Step.drops]) (fun _ hc => hc) rfl
  | insertTable r t =>
    refine .edited r (·.insert t) (fun _ => rfl) (fun _ => rfl) (fun s hs => hs.insert t) (fun s n hn => ?_) rfl
    exact Repository.get?_insert_of_ne (by simpa [Step.edits] using hn)
  | removeTable r n =>
    refine .edited r (·.remove n) (fun _ => rfl) (fun _ => rfl) (fun s hs => hs.remove n) (fun s m hm => ?_) rfl
    exact Repository.get?_remove_of_ne (by simpa [Step.edits] using hm)
  | takeJournal r =>
    exact .nothing (fun _ => rfl) (fun _ => rfl) (fun _ => rfl) ⟨⟨rfl, fun _ => rfl, hw⟩, rfl⟩
  | put _ _ _ | prepareTimes _ _ _ | same _ _ _ => cases hstep
  | _ => exact .nothing (fun _ => rfl) (fun _ => rfl) (fun _ => rfl) (.refl hw)

theorem Effect.isStatic (h : Effect e step w w') (hw : w.IsStatic) : w'.IsStatic := by
  cases h with
  | asked n _ _ _ after => exact after.isStatic
  | dropped f _ _ _ _ after => exact after ▸ hw
  | edited r f _ _ isStatic _ after => exact after ▸ hw.modifyRepository r isStatic
  | nothing _ _ _ after => exact after.isStatic

private theorem Effect.idle (h : Effect e step w w') (hw : w.IsStatic) (hidle : (w.cacheOf e).IsIdle) :
    (w'.cacheOf e).IsIdle := by
  cases h with
  | asked n _ _ _ after =>
    rw [after.cacheOf_eq]
    exact (prepared_of_isStatic hw e n).2.2.2 hidle
  | dropped f _ _ _ idle after =>
    rw [after, cacheOf_modifyCacheOf]
    exact idle _ hidle
  | edited r f _ _ _ _ after => exact after ▸ hidle
  | nothing _ _ _ after =>
    rw [after.cacheOf_eq]
    exact hidle

/-- Unless a step drops a name, the cache keeps its table, or else gets the one that the step prepares. -/
theorem Effect.held? (h : Effect e step w w') (hw : w.IsStatic) (n : String) :
    w'.held? e n =
      if step.drops e n then none
      else (w.held? e n).or (if step.asks e n then (w.current e n).toOption else none) := by
  cases h with
  | asked m asks drops _ after =>
    rw [after.held?_eq, (prepared_of_isStatic hw e m).2.2.1, drops, asks]
    -- the name that was asked for is the only one that may be new
    by_cases hn : m = n
    · subst hn
      simp
    · simp [hn, Ne.symm hn]
  | dropped f asks _ get? _ after =>
    rw [after, Workspace.held?, cacheOf_modifyCacheOf, get?, asks]
    split
    · rfl
    · simp [Workspace.held?]
  | edited r f asks drops _ _ after =>
    rw [after, asks, drops, if_neg Bool.false_ne_true, if_neg Bool.false_ne_true, Option.or_none]
    rfl
  | nothing asks drops _ after =>
    rw [after.held?_eq, asks, drops]
    simp

/-- The definition of a name stays as it is in a step that does not edit the name. -/
theorem Effect.current (h : Effect e step w w') (hw : w.IsStatic) {n : String} (hn : step.edits n = false) :
    w'.current e n = w.current e n := by
  cases h with
  | asked m _ _ _ after => exact ((prepared_of_isStatic hw e m).2.1.trans after.toUnedited).current_eq
  | dropped f _ _ _ _ after => exact after ▸ rfl
  | edited r f _ _ _ tables after =>
    subst after
    refine current_congr rfl fun r' => ?_
    rcases repository_modifyRepository w r r' f with h | h
    · rw [h]
    · rw [h, tables _ n hn]
  | nothing _ _ _ after => exact after.current_eq

/-! ### Sessions -/

/-- The steps of a session, each with the workspace in which it is taken. -/
def trail : List Step → Workspace → List (Workspace × Step)
  | [], _ => []
  | step :: steps, w => (w, step) :: trail steps (step.run w).2

/-- The table that was prepared first since the name was last dropped from the cache: what its definition gave
in the first of these steps that asked for the name when this succeeded. -/
def firstPrepared? (e : Nat) (name : String) (past : List (Workspace × Step)) : Option PreparedTable :=
  (past.rtakeWhile fun p => !p.2.drops e name).findSome? fun p =>
    if p.2.asks e name then (p.1.current e name).toOption else none

/-- The table that queries to a name are answered from after some steps. -/
def inForce (e : Nat) (name : String) (steps : List Step) (start : Workspace) : Except TableError PreparedTable :=
  ((firstPrepared? e name (trail steps start)).map .ok).getD ((Step.runAll steps start).2.current e name)

private theorem runAll_concat (steps : List Step) (step : Step) (w : Workspace) :
    (Step.runAll (steps ++ [step]) w).2 = (step.run (Step.runAll steps w).2).2 := by
  induction steps generalizing w with
  | nil => rfl
  | cons s steps ih => exact ih _

private theorem trail_concat (steps : List Step) (step : Step) (w : Workspace) :
    trail (steps ++ [step]) w = trail steps w ++ [((Step.runAll steps w).2, step)] := by
  induction steps generalizing w with
  | nil => rfl
  | cons s steps ih => exact congrArg ((w, s) :: ·) (ih _)

private theorem firstPrepared?_concat (e : Nat) (name : String) (past : List (Workspace × Step)) (w : Workspace)
    (step : Step) :
    firstPrepared? e name (past ++ [(w, step)]) =
      if step.drops e name then none
      else (firstPrepared? e name past).or (if step.asks e name then (w.current e name).toOption else none) := by
  rw [firstPrepared?, List.rtakeWhile_concat]
  cases step.drops e name with
  | true => rfl
  | false => simp [firstPrepared?, List.findSome?_append]

/-- The cache of an engine has the tables that the steps so far put in force, under their own names, and nothing
is being prepared. -/
structure Tracks (e : Nat) (past : List (Workspace × Step)) (w : Workspace) : Prop where
  isStatic : w.IsStatic
  idle : (w.cacheOf e).IsIdle
  held : ∀ name, w.held? e name = firstPrepared? e name past
  name_eq : ∀ name t, w.held? e name = some t → t.name = name

private theorem tracks_of_new (hw : w.IsStatic) (hnew : w.cacheOf e = {}) : Tracks e [] w where
  isStatic := hw
  idle := by
    rw [hnew]
    intro name
    simp
  held name := by
    rw [held?, hnew]
    rfl
  name_eq name t h := by
    rw [held?, hnew] at h
    cases h

theorem tracks_concat {past : List (Workspace × Step)} (h : Tracks e past w) (hstep : step.ofEngine e = true) :
    Tracks e (past ++ [(w, step)]) (step.run w).2 := by
  have heffect := effect_run h.isStatic hstep
  refine ⟨heffect.isStatic h.isStatic, heffect.idle h.isStatic h.idle, fun n => ?_, fun n t ht => ?_⟩
  · rw [heffect.held? h.isStatic, h.held, firstPrepared?_concat]
  · -- a table is either the one that was there or the one that the step prepared from the definition
    rw [heffect.held? h.isStatic] at ht
    split at ht
    · cases ht
    · rcases Option.or_eq_some_iff.1 ht with hheld | ⟨-, hasked⟩
      · exact h.name_eq n t hheld
      · split at hasked
        · exact current_name h.isStatic (toOption_eq_some.1 hasked)
        · cases hasked

theorem Tracks.answeredFrom {past : List (Workspace × Step)} (h : Tracks e past w) (name : String) :
    w.AnsweredFrom e name (((firstPrepared? e name past).map .ok).getD (w.current e name)) fun t =>
      w.entriesUnder e t.source name := by
  refine answeredFrom_of_prepared h.isStatic ?_ fun t ht => ?_
  · rw [(prepared_of_isStatic h.isStatic e name).1, h.held]
  · rw [← h.held] at ht
    cases hheld : w.held? e name with
    | some t' =>
      rw [hheld] at ht
      exact h.name_eq name t (hheld.trans (congrArg some (Except.ok.inj ht)))
    | none =>
      rw [hheld] at ht
      exact current_name h.isStatic ht

/-- A preparation that fails leaves nothing behind but what the journal shows. -/
theorem Tracks.failed {past : List (Workspace × Step)} (h : Tracks e past w) {fault : TableError}
    (hfault : ((firstPrepared? e name past).map .ok).getD (w.current e name) = .error fault) :
    ((prepared e name w).2.cacheOf e).editions = (w.cacheOf e).editions ∧
      ((prepared e name w).2.cacheOf e).IsIdle ∧ Unedited w (prepared e name w).2 := by
  rw [← h.held] at hfault
  cases hheld : w.held? e name with
  | some t =>
    rw [hheld] at hfault
    cases hfault
  | none =>
    rw [hheld] at hfault
    obtain ⟨-, hafter, hcache⟩ := prepared_of_current_error h.isStatic hheld hfault
    rw [hcache]
    exact ⟨rfl, h.idle.release_acquire name, hafter⟩

/-! ### What the calls on a name are answered from -/

section

variable {start : Workspace} {steps : List Step}

private theorem tracks_trail (hstatic : start.IsStatic) (hnew : start.cacheOf e = {})
    (hsteps : ∀ step ∈ steps, step.ofEngine e = true) :
    Tracks e (trail steps start) (Step.runAll steps start).2 := by
  induction steps using List.reverseRecOn with
  | nil => exact tracks_of_new hstatic hnew
  | append_singleton steps step ih =>
    rw [List.forall_mem_append] at hsteps
    rw [trail_concat, runAll_concat]
    exact tracks_concat (ih hsteps.1) (hsteps.2 step (by simp))

/-- Where no edit is outstanding, the table that was prepared first is that of the present definition. -/
private theorem current_of_firstPrepared? (hstatic : start.IsStatic) (hnew : start.cacheOf e = {})
    (hsteps : ∀ step ∈ steps, step.ofEngine e = true) (hrefreshed : Step.refreshed e name steps = true)
    {t : PreparedTable} (h : firstPrepared? e name (trail steps start) = some t) :
    (Step.runAll steps start).2.current e name = .ok t := by
  induction steps using List.reverseRecOn with
  | nil => cases h
  | append_singleton steps step ih =>
    rw [List.forall_mem_append] at hsteps
    rw [trail_concat, firstPrepared?_concat] at h
    split at h
    next => cases h
    next hdrops =>
      -- the last step does not drop the name, so it does not edit it either
      obtain ⟨hrefreshed, hedits⟩ := Step.refreshed_of_concat hrefreshed (Bool.not_eq_true _ ▸ hdrops)
      have hbefore := (tracks_trail hstatic hnew hsteps.1).isStatic
      rw [runAll_concat, (effect_run hbefore (hsteps.2 step (by simp))).current hbefore hedits]
      rcases Option.or_eq_some_iff.1 h with hfirst | ⟨-, hasked⟩
      · exact ih hsteps.1 hrefreshed hfirst
      · split at hasked
        · exact toOption_eq_some.1 hasked
        · cases hasked

private theorem inForce_eq_current (hstatic : start.IsStatic) (hnew : start.cacheOf e = {})
    (hsteps : ∀ step ∈ steps, step.ofEngine e = true) (hrefreshed : Step.refreshed e name steps = true) :
    inForce e name steps start = (Step.runAll steps start).2.current e name := by
  rw [inForce]
  cases hfirst : firstPrepared? e name (trail steps start) with
  | none => rfl
  | some t => exact (current_of_firstPrepared? hstatic hnew hsteps hrefreshed hfirst).symm

/-- After any steps the calls on a name are answered from the table in force, with the present entries under its
source where it does not keep its own. A preparation that fails leaves nothing behind. Once no edit of the name is
outstanding the present definition is in force, and with distinct names of the sources the answers are those of
this definition and its own entries, as they are with an empty cache. -/
theorem answeredFrom_inForce (hstatic : start.IsStatic) (hnew : start.cacheOf e = {})
    (hsteps : ∀ step ∈ steps, step.ofEngine e = true) (name : String) :
    let now := (Step.runAll steps start).2
    now.AnsweredFrom e name (inForce e name steps start) (fun t => now.entriesUnder e t.source name) ∧
    (∀ fault, inForce e name steps start = .error fault →
      ((prepared e name now).2.cacheOf e).editions = (now.cacheOf e).editions ∧
      ((prepared e name now).2.cacheOf e).IsIdle ∧ Unedited now (prepared e name now).2) ∧
    (Step.refreshed e name steps = true →
      inForce e name steps start = now.current e name ∧
      (((now.engine e).sources.map Prod.fst).Nodup →
        now.AnsweredFrom e name (now.current e name) (fun _ => now.definedEntries e name) ∧
        (now.clear e).AnsweredFrom e name (now.current e name) (fun _ => now.definedEntries e name))) := by
  intro now
  have htracks : Tracks e (trail steps start) now := tracks_trail hstatic hnew hsteps
  have hanswered : now.AnsweredFrom e name (inForce e name steps start) fun t =>
      now.entriesUnder e t.source name := htracks.answeredFrom name
  refine ⟨hanswered, fun fault hfault => htracks.failed hfault, fun hrefreshed => ?_⟩
  have hcurrent : inForce e name steps start = now.current e name :=
    inForce_eq_current hstatic hnew hsteps hrefreshed
  refine ⟨hcurrent, fun hnodup => ⟨?_, (answeredFrom_clear htracks.isStatic e name).defined hnodup⟩⟩
  rw [hcurrent] at hanswered
  exact hanswered.defined hnodup

end

/-- Rates with one value, kept with the table or fetched for each query. -/
def ratesOf (name codec value : String) (cacheable : Bool) : Table :=
  ⟨name, Level.listed [{ codec }], 0, [⟨[some value], none, none⟩], false, cacheable, false, ','⟩

/-- An engine with one repository, all of whose rates are seven. -/
def rated : Workspace :=
  assemble
    [{ tables := Repository.tablesOf [ratesOf "kept" "integer" "7" true, ratesOf "fetched" "integer" "7" false] }]
    [({ sources := [("r0", 0)] }, false)]

/-- The rates are read, and then edited. -/
def editing : List Step :=
  [.get 0 "kept" [], .get 0 "fetched" [], .insertTable 0 (ratesOf "kept" "string" "9" true),
    .insertTable 0 (ratesOf "fetched" "string" "9" false)]

/-- Until they are dropped the old rates are in force, of those that are fetched only the level; then the new ones
are. A preparation of other rates fails. -/
theorem answeredFrom_inForce_editing :
    rated.IsStatic ∧ rated.cacheOf 0 = {} ∧
    (∀ step ∈ editing ++ [.invalidate 0 "kept"], step.ofEngine 0 = true) ∧
    Step.refreshed 0 "kept" (editing ++ [.invalidate 0 "kept"]) = true ∧
    ((Step.runAll editing rated).2.get 0 "kept" []).1.map (·.rows) = .ok [⟨[.single (.integer 7)], none, [none]⟩] ∧
    ((Step.runAll editing rated).2.get 0 "fetched" []).1.map (·.rows) =
      .ok [⟨[.single (.integer 9)], none, [none]⟩] ∧
    ((Step.runAll (editing ++ [.invalidate 0 "kept"]) rated).2.get 0 "kept" []).1.map (·.rows) =
      .ok [⟨[.single (.text "9")], none, [none]⟩] ∧
    ((prepared 0 "other" (Step.runAll editing rated).2).2.cacheOf 0).editions =
      ((Step.runAll editing rated).2.cacheOf 0).editions := by
  have hstatic : rated.IsStatic :=
    isStatic_assemble [[ratesOf "kept" "integer" "7" true, ratesOf "fetched" "integer" "7" false]] _
  have hnew : rated.cacheOf 0 = {} := by cbv
  have hsteps : ∀ step ∈ editing ++ [.invalidate 0 "kept"], step.ofEngine 0 = true := by decide
  have hediting : ∀ step ∈ editing, step.ofEngine 0 = true := fun step h => hsteps step (List.mem_append_left _ h)
  have hrefreshed : Step.refreshed 0 "kept" (editing ++ [.invalidate 0 "kept"]) = true := by decide
  have hsources : ((Step.runAll (editing ++ [.invalidate 0 "kept"]) rated).2.engine 0).sources = [("r0", 0)] := by
    cbv
  obtain ⟨hkept, -, -⟩ := answeredFrom_inForce hstatic hnew hediting "kept"
  obtain ⟨hfetched, -, -⟩ := answeredFrom_inForce hstatic hnew hediting "fetched"
  obtain ⟨-, -, hnow⟩ := answeredFrom_inForce hstatic hnew hsteps "kept"
  obtain ⟨-, hfailed, -⟩ := answeredFrom_inForce hstatic hnew hediting "other"
  refine ⟨hstatic, hnew, hsteps, hrefreshed, ?_, ?_, ?_, (hfailed (.unknownTable "other") (by cbv)).1⟩
  · rw [hkept.get []]
    cbv
  · rw [hfetched.get []]
    cbv
  · rw [((hnow hrefreshed).2 (by rw [hsources]; decide)).1.get []]
    cbv

end Workspace

end DecisionTables
