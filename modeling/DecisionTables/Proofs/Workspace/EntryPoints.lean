import DecisionTables.Proofs.Workspace.Genuine

/-!
# The ways to query a table agree

A query takes its values from the caller or from a context, and its answer shows the entries behind the rows or leaves
them out. After any session all these ways agree (`queriesAgree_runAll`): they fail with the same errors and give the
same rows, each of which shows the entry beside it in the detailed answer.
-/

namespace DecisionTables

/-! ### The values of a context -/

/-- The values of input levels in a context are those of their creators, and the first level without one is
reported. -/
private theorem mapM_creators {inputs : List ReadyLevel} {levels : List Level}
    (h : List.Forall₂ ReadyLevel.Declared inputs levels) (creator? : String → Option Creator) (context : Context)
    (name : String) :
    (inputs.mapM fun level => match level.creator.bind creator? with
      | some create => .ok (create context)
      | none => .error (.unresolvedLevel name level.label) : Except TableError (List Value)) =
      match levels.find? fun l => (l.creator.bind creator?).isNone with
      | some l => .error (.unresolvedLevel name l.label)
      | none => .ok (levels.filterMap fun l => (l.creator.bind creator?).map (· context)) := by
  induction h with
  | nil => rfl
  | @cons level l inputs levels hl _ ih =>
    rw [List.mapM_cons, ih, hl.creator, hl.label, List.find?_cons, List.filterMap_cons]
    cases l.creator.bind creator? with
    | none => rfl
    | some create =>
      simp only [Option.isNone_some, Option.map_some]
      cases levels.find? fun l => (l.creator.bind creator?).isNone <;> rfl

private theorem PreparedTable.valuesIn_eq {t : PreparedTable} {levels : List Level}
    (h : List.Forall₂ ReadyLevel.Declared t.inputs levels) (creator? : String → Option Creator) {context : Context}
    (hnone : context.levelValues = none) :
    t.valuesIn creator? context =
      match levels.find? fun l => (l.creator.bind creator?).isNone with
      | some l => .error (.unresolvedLevel t.name l.label)
      | none => .ok (levels.filterMap fun l => (l.creator.bind creator?).map (· context)) := by
  rw [valuesIn, hnone]
  exact mapM_creators h creator? context t.name

namespace Workspace

/-- The registered creator that a level names. -/
def creator? (w : Workspace) (e : Nat) (l : Level) : Option Creator :=
  l.creator.bind ((w.engine e).creators.get? ·)

/-- The ways to query a name agree. -/
structure QueriesAgree (w : Workspace) (e : Nat) (name : String) : Prop where
  /-- An answer is a detailed one without the entries. -/
  get : ∀ values, w.get e name values =
    ((w.getDetailed e name values).1.map (·.answer), (w.getDetailed e name values).2)
  /-- The rows of an answer show the entries that the query finds, which stand beside them in the same order. -/
  getDetailed : ∀ values d, (w.getDetailed e name values).1 = .ok d → ∃ edition query index found,
    (prepared e name w).1 = .ok edition ∧ edition.table.normalize values = .ok query ∧
    ((prepared e name w).2.indexFor e edition.table query).1 = .ok index ∧
    edition.table.search index query = .ok found ∧ d.entries = found.map edition.table.foundEntry ∧
    List.Forall₂ edition.table.Shows found d.answer.rows
  /-- The table that is prepared comes from a definition. -/
  comesFrom : ∀ edition, (prepared e name w).1 = .ok edition → ∃ definition, edition.table.ComesFrom definition
  /-- Explicit values of a context come first. -/
  explicit : ∀ context values, context.levelValues = some values →
    w.getInContext e name context = w.get e name values
  /-- Without them the values are those of the creators, if there is one for each input level. -/
  created : ∀ context edition definition, context.levelValues = none →
    (prepared e name w).1 = .ok edition → edition.table.ComesFrom definition →
    (∀ l ∈ definition.inputLevels, (w.creator? e l).isSome = true) →
      w.getInContext e name context =
        w.get e name (definition.inputLevels.filterMap fun l => (w.creator? e l).map (· context))
  /-- The first input level without a creator is reported. -/
  unresolved : ∀ context edition definition l, context.levelValues = none →
    (prepared e name w).1 = .ok edition → edition.table.ComesFrom definition →
    (definition.inputLevels.find? fun l => (w.creator? e l).isNone) = some l →
      (w.getInContext e name context).1 = .error (.unresolvedLevel definition.name l.label)
  /-- What cannot be prepared has the error of its preparation. -/
  unprepared : ∀ context fault, (prepared e name w).1 = .error fault →
    (w.getInContext e name context).1 = .error fault

variable {w : Workspace} {e : Nat} {name : String}

private theorem valuesIn_of_comesFrom {t : PreparedTable} {definition : Table} {context : Context} (w : Workspace)
    (e : Nat) (h : t.ComesFrom definition) (hnone : context.levelValues = none) :
    t.valuesIn ((w.engine e).creators.get? ·) context =
      match definition.inputLevels.find? fun l => (w.creator? e l).isNone with
      | some l => .error (.unresolvedLevel definition.name l.label)
      | none => .ok (definition.inputLevels.filterMap fun l => (w.creator? e l).map (· context)) := by
  obtain ⟨codecs, matchers, source, hprepare⟩ := id h
  rw [← (PreparedTable.header_of_prepare hprepare).1]
  exact PreparedTable.valuesIn_eq h.forall₂_declared.1 _ hnone

theorem Genuine.queriesAgree (h : Genuine w) (e : Nat) (name : String) : w.QueriesAgree e name where
  get values := get_eq e name values w
  getDetailed _ _ hd := h.shows_of_getDetailed hd
  comesFrom _ hprepared := h.comesFrom_of_prepared hprepared
  explicit context values hvalues := by
    refine getInContext_of_valuesIn fun edition _ => ?_
    rw [PreparedTable.valuesIn, hvalues]
  created context edition definition hnone hprepared hfrom hcreators := by
    refine getInContext_of_valuesIn fun edition' hprepared' => ?_
    obtain rfl : edition = edition' := Except.ok.inj (hprepared.symm.trans hprepared')
    have hfound : (definition.inputLevels.find? fun l => (w.creator? e l).isNone) = none :=
      List.find?_eq_none.2 fun l hl => by simpa using Option.isSome_iff_ne_none.1 (hcreators l hl)
    rw [valuesIn_of_comesFrom w e hfrom hnone, hfound]
  unresolved context edition definition l hnone hprepared hfrom hfound := by
    refine getInContext_of_valuesIn_error hprepared ?_
    rw [valuesIn_of_comesFrom w e hfrom hnone, hfound]
  unprepared _ _ hfault := getInContext_of_prepared_error hfault

/-- After any session that began with empty caches, the ways to query a name agree. -/
theorem queriesAgree_runAll {start : Workspace} (hnew : ∀ c, start.cache c = {}) (steps : List Step) (e : Nat)
    (name : String) : (Step.runAll steps start).2.QueriesAgree e name :=
  ((genuine_of_new hnew).runAll steps).queriesAgree e name

/-- Tariffs by class, with the input level listed last. Two entries have the same class, and a function gives
the first cell of one of them. The entries are fetched for each query. -/
def tariffs : Table where
  name := "tariffs"
  levels := [{ order := 2, name := some "rates", codec := "integer", isArray := true },
    { order := 3, codec := "string" },
    { order := 1, name := some "class", codec := "string", creator := some "class" }]
  inputs := 1
  entries := [⟨[some "A", some "1,2", some "x"], some "first", none⟩,
    ⟨[some "B", some "3", some "y"], some "second", none⟩, ⟨[some "A", none, some "*"], some "third", some "eight"⟩]
  cacheable := false
  identifiesEntries := true

/-- An engine for tariffs, with a function and a creator. -/
def quoted : Workspace :=
  assemble [{ tables := Repository.tablesOf [tariffs] }]
    [({ sources := [("r0", 0)], functions := some fun _ _ => .ok (.integer 8)
        creators := (∅ : Std.TreeMap String Creator).insert "class" fun _ => .text "A" }, false)]

/-- The rows and entries of the first class. -/
def firstClass : DetailedAnswer where
  answer :=
    { table := "tariffs"
      source := "r0"
      identifiesEntries := true
      rows := [⟨[.array [.integer 1, .integer 2], .single (.text "x")], some "first", [some "rates", none]⟩,
        ⟨[.array [.integer 8], .single .null], some "third", [some "rates", none]⟩] }
  entries := [⟨[some "A", some "1,2", some "x"], some "first", [some "class", some "rates", none]⟩,
    ⟨[some "A", none, some "*"], some "third", [some "class", some "rates", none]⟩]

private theorem getDetailed_firstClass :
    ((Step.runAll [.get 0 "tariffs" [.text "B"]] quoted).2.getDetailed 0 "tariffs" [.text "A"]).1 =
      .ok firstClass := by cbv

private theorem getInContext_firstClass :
    ((Step.runAll [.get 0 "tariffs" [.text "B"]] quoted).2.getInContext 0 "tariffs" {}).1 =
      .ok firstClass.answer := by cbv

/-- The two entries of a class stand beside their rows, and the creator gives this class. -/
theorem queriesAgree_runAll_tariffs :
    let now := (Step.runAll [.get 0 "tariffs" [.text "B"]] quoted).2
    (∀ c, quoted.cache c = {}) ∧ (now.getDetailed 0 "tariffs" [.text "A"]).1 = .ok firstClass ∧
      now.QueriesAgree 0 "tariffs" ∧ (now.get 0 "tariffs" [.text "A"]).1 = .ok firstClass.answer ∧
      (now.getInContext 0 "tariffs" {}).1 = .ok firstClass.answer := by
  intro now
  have hnew : ∀ c, quoted.cache c = {} := cache_assemble _ _
  have hagree : now.QueriesAgree 0 "tariffs" := queriesAgree_runAll hnew _ 0 "tariffs"
  refine ⟨hnew, getDetailed_firstClass, hagree, ?_, getInContext_firstClass⟩
  rw [hagree.get, getDetailed_firstClass]
  rfl

end Workspace

end DecisionTables
