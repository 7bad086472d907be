import DecisionTables.Proofs.Codec.Laws
import DecisionTables.Proofs.Matcher.Validation
import DecisionTables.Proofs.Table.Preparing
import DecisionTables.Proofs.Tree.Ranking
import DecisionTables.Query

/-!
# Comparisons that cannot fail

Preparation reads the bounds of all ranges, and normalization the values of a query. So on a level with a
standard codec and a standard matcher the comparison of a normalized value with a prepared pattern does not
fail (`ReadyLevel.decides`), but for a date that a range level cannot read back from its text
(`ReadyLevel.Legible`); and so it is for all levels of a query and an entry (`PreparedTable.decides_of_legible`).
-/

namespace DecisionTables

/-- The level compares texts, or ranges. -/
def Matcher.IsStandard (m : Matcher) : Prop :=
  m = .strict ∨ ∃ r : Range, m = r.matcher

namespace ReadyLevel

variable {l : ReadyLevel}

/-- Where the level reads the text of a value again, to compare it with bounds, it can be read. -/
def Legible (l : ReadyLevel) (v : Value) : Prop :=
  l.matcher ≠ .strict → ∀ x, l.codec.convert v = .ok x → x.Readable

theorem legible_of_readable (hcodec : l.codec ∈ Codec.standard) {v : Value} (hv : v.Readable) : l.Legible v := by
  obtain ⟨kind, hlaws⟩ := Codec.lawful_of_mem_standard hcodec
  exact fun _ x hx => hlaws.readable_of_convert hv hx

/-- The text of a normalized value that is not blank can be read. -/
private theorem exists_decode_normalizeValue {kind : Kind} (hlaws : Codec.Lawful l.codec kind) {v : Value}
    {s : String} (hv : ∀ x, l.codec.convert v = .ok x → x.Readable) (h : l.normalizeValue v = .ok (some s))
    (hs : Text.isBlank s = false) :
    ∃ x, l.codec.decode (some s) = .ok x := by
  have hconvert : ∃ x, l.codec.convert v = .ok x ∧ l.codec.encode x = some s := by
    cases v with
    | text t =>
      rw [normalizeValue] at h
      split at h
      · cases h
        exact absurd hs (by decide)
      · exact map_eq_ok.1 h
    | _ => exact map_eq_ok.1 h
  obtain ⟨x, hx, hencode⟩ := hconvert
  have hkind : x.kind = kind := by
    refine (hlaws.kind_of_convert hx).resolve_left ?_
    rintro rfl
    rw [hlaws.encode_null] at hencode
    cases hencode
  obtain ⟨y, hy, -⟩ := hlaws.decode_encode hkind (hv x hx)
  exact ⟨y, hencode ▸ hy⟩

theorem decides (hcodec : l.codec ∈ Codec.standard) (hmatcher : l.matcher.IsStandard) {p : Option String}
    {pattern : Pattern} (hpattern : l.normalizePattern p = .ok pattern) {v : Value} {query : Option String}
    (hv : l.Legible v) (hquery : l.normalizeValue v = .ok query) : (l.probe query).Decides pattern := by
  obtain ⟨kind, hlaws⟩ := Codec.lawful_of_mem_standard hcodec
  cases pattern with
  | null => exact ⟨_, rfl⟩
  | any => exact ⟨_, rfl⟩
  | text s =>
    cases query with
    | none => exact ⟨_, rfl⟩
    | some t =>
      rcases hmatcher with hstrict | ⟨r, hrange⟩
      · exact ⟨_, by simp [Probe.admits, probe, hstrict, Matcher.strict]; rfl⟩
      · have hvalid : r.validate l.codec s = .ok () := by
          cases p with
          | none => cases hpattern
          | some u =>
            rw [normalizePattern, hrange] at hpattern
            split at hpattern
            · cases hpattern
            · obtain ⟨⟨⟩, hvalidate, hs⟩ := map_eq_ok.1 hpattern
              cases hs
              exact hvalidate
        have haccepts : ∃ b, r.accepts l.codec (some t) s = .ok b := by
          -- a blank value is outside of every range and is not read
          by_cases ht : Text.isBlank t = true
          · exact ⟨false, by rw [Range.accepts]; simp [ht]⟩
          · have hne : l.matcher ≠ .strict := fun h => Bool.noConfusion (congrArg Matcher.exact (hrange.symm.trans h))
            obtain ⟨x, hx⟩ := exists_decode_normalizeValue hlaws (hv hne) hquery (by simpa using ht)
            exact Range.exists_accepts hvalid hx
        simpa [Probe.Decides, Probe.admits, probe, hrange, Range.matcher] using haccepts

end ReadyLevel

/-! ### Normalized queries -/

namespace PreparedTable

variable {t : PreparedTable} {values : List Value} {query : List (Option String)}

theorem normalize_eq_ok : t.normalize values = .ok query ↔
    values.length = t.inputs.length ∧
      List.Forall₂ (fun pair q => pair.1.normalizeValue pair.2 = .ok q) (t.inputs.zip values) query := by
  unfold normalize
  by_cases hlength : values.length = t.inputs.length
  · rw [if_neg (by simpa using hlength), mapError_eq_ok, mapM_eq_ok]
    simp [hlength]
  · rw [if_pos hlength]
    simp [hlength]

private theorem forall₂_decides {levels : List ReadyLevel} {patterns : List (Option String)} {values : List Value}
    {inputs : List Pattern} {query : List (Option String)}
    (hstandard : ∀ l ∈ levels, l.codec ∈ Codec.standard ∧ l.matcher.IsStandard)
    (hlegible : ∀ pair ∈ levels.zip values, pair.1.Legible pair.2) (hpatterns : levels.length ≤ patterns.length)
    (hvalues : levels.length ≤ values.length)
    (hinputs : List.Forall₂ (fun pair x => pair.1.normalizePattern pair.2 = .ok x) (levels.zip patterns) inputs)
    (hquery : List.Forall₂ (fun pair q => pair.1.normalizeValue pair.2 = .ok q) (levels.zip values) query) :
    List.Forall₂ Probe.Decides (List.zipWith ReadyLevel.probe levels query) inputs := by
  induction levels generalizing patterns values inputs query with
  | nil =>
    cases hinputs
    exact .nil
  | cons l levels ih =>
    cases patterns with
    | nil => simp at hpatterns
    | cons p patterns =>
      cases values with
      | nil => simp at hvalues
      | cons v values =>
        rw [List.zip_cons_cons] at hinputs hquery hlegible
        obtain _ | ⟨hx, hinputs⟩ := hinputs
        obtain _ | ⟨hq, hquery⟩ := hquery
        obtain ⟨hl, hlevels⟩ := List.forall_mem_cons.1 hstandard
        obtain ⟨hv, hvs⟩ := List.forall_mem_cons.1 hlegible
        rw [List.zipWith_cons_cons]
        refine .cons (ReadyLevel.decides hl.1 hl.2 hx hv hq) (ih hlevels hvs ?_ ?_ hinputs hquery)
        · simpa using hpatterns
        · simpa using hvalues

/-- With standard codecs and matchers no comparison of a normalized query with a prepared entry fails. -/
theorem decides_of_legible {position : Nat} {e : Entry} {r : ReadyEntry}
    (hstandard : ∀ l ∈ t.inputs, l.codec ∈ Codec.standard ∧ l.matcher.IsStandard)
    (hlegible : ∀ pair ∈ t.inputs.zip values, pair.1.Legible pair.2) (hquery : t.normalize values = .ok query)
    (hr : t.readyEntry position e = .ok r) : List.Forall₂ Probe.Decides (t.probes query) r.inputs := by
  obtain ⟨hlength, -, hinputs, -⟩ := readyEntry_eq_ok.1 hr
  obtain ⟨hvalues, hnormalized⟩ := normalize_eq_ok.1 hquery
  have hpatterns : t.inputs.length ≤ e.patterns.length := by
    rw [hlength, levelCount]
    omega
  exact forall₂_decides hstandard hlegible hpatterns (Nat.le_of_eq hvalues.symm) hinputs hnormalized

theorem decides_of_standard {position : Nat} {e : Entry} {r : ReadyEntry}
    (hstandard : ∀ l ∈ t.inputs, l.codec ∈ Codec.standard ∧ l.matcher.IsStandard)
    (hreadable : ∀ v ∈ values, v.Readable) (hquery : t.normalize values = .ok query)
    (hr : t.readyEntry position e = .ok r) : List.Forall₂ Probe.Decides (t.probes query) r.inputs := by
  refine decides_of_legible hstandard (fun pair hpair => ?_) hquery hr
  obtain ⟨hl, hv⟩ := List.of_mem_zip hpair
  exact ReadyLevel.legible_of_readable (hstandard _ hl).1 (hreadable _ hv)

theorem length_of_normalize (h : t.normalize values = .ok query) : query.length = t.inputs.length := by
  obtain ⟨hvalues, hnormalized⟩ := normalize_eq_ok.1 h
  rw [← hnormalized.length_eq, List.length_zip]
  omega

end PreparedTable

end DecisionTables
