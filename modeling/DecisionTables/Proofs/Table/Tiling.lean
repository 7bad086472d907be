import DecisionTables.Proofs.Matcher.Intervals
import DecisionTables.Proofs.Table.Deciding
import DecisionTables.Proofs.Table.Searching

/-!
# Bands of integers

Increasing bounds divide the integers between the first and the last of them into bands, half open at the same side
(`exists_inBand_iff`), and no integer lies in two of them (`place_eq_of_inBand`). A table that has one entry for each
band, in whatever order, and the band as the pattern of its only input level is prepared without an error
(`Table.Banded.exists_prepare`), and a query finds the entry of the band that the integer lies in, and no other one
(`Table.Banded.search`).
-/

namespace DecisionTables

/-! ### Bands -/

/-- The bands between consecutive bounds. -/
def bands (bounds : List Int64) : List (Int64 × Int64) :=
  bounds.zip bounds.tail

/-- The integer lies between the bounds of a band, of which only one belongs to it. -/
def InBand (lowerClosed : Bool) (band : Int64 × Int64) (v : Int64) : Prop :=
  if lowerClosed then band.1 ≤ v ∧ v < band.2 else band.1 < v ∧ v ≤ band.2

instance (lowerClosed : Bool) (band : Int64 × Int64) (v : Int64) : Decidable (InBand lowerClosed band v) :=
  inferInstanceAs (Decidable (if lowerClosed then _ else _))

/-- A band as the pattern of an entry. -/
def bandText (band : Int64 × Int64) : String :=
  Integer.text band.1 ++ " ~ " ++ Integer.text band.2

/-- Ranges that are closed at one side. -/
def bandRange (lowerClosed : Bool) : Range :=
  { lowerClosed, upperClosed := !lowerClosed }

section

variable {lowerClosed : Bool} {bounds : List Int64} {v : Int64}

private theorem bands_cons_cons (a b : Int64) (bounds : List Int64) :
    bands (a :: b :: bounds) = (a, b) :: bands (b :: bounds) :=
  rfl

private theorem le_of_mem_bands (h : bounds.Pairwise (· < ·)) {first : Int64} (hfirst : bounds.head? = some first)
    {band : Int64 × Int64} (hband : band ∈ bands bounds) : first ≤ band.1 := by
  cases bounds with
  | nil => cases hfirst
  | cons a bounds =>
    obtain rfl := Option.some.inj hfirst
    rcases List.mem_cons.1 (List.of_mem_zip hband).1 with h' | h'
    · rw [h']
      exact Int64.le_refl _
    · exact Int64.le_of_lt ((List.pairwise_cons.1 h).1 _ h')

/-- Each band ends before the later ones begin. -/
private theorem pairwise_bands (h : bounds.Pairwise (· < ·)) :
    (bands bounds).Pairwise fun band band' => band.2 ≤ band'.1 := by
  induction bounds with
  | nil => exact .nil
  | cons a bounds ih =>
    cases bounds with
    | nil => exact .nil
    | cons b bounds =>
      rw [bands_cons_cons]
      exact .cons (fun band hband => le_of_mem_bands h.of_cons rfl hband) (ih h.of_cons)

private theorem lt_of_mem_bands (h : bounds.Pairwise (· < ·)) {band : Int64 × Int64} (hband : band ∈ bands bounds) :
    band.1 < band.2 := by
  induction bounds with
  | nil => cases hband
  | cons a bounds ih =>
    cases bounds with
    | nil => cases hband
    | cons b bounds =>
      rw [bands_cons_cons] at hband
      rcases List.mem_cons.1 hband with rfl | hband
      · exact (List.pairwise_cons.1 h).1 b List.mem_cons_self
      · exact ih h.of_cons hband

private theorem not_inBand_of_le {band band' : Int64 × Int64} (h : band.2 ≤ band'.1)
    (hv : InBand lowerClosed band v) : ¬ InBand lowerClosed band' v := by
  intro hv'
  cases lowerClosed <;> simp only [InBand, Bool.false_eq_true, if_true, if_false, Int64.le_iff_toInt_le,
    Int64.lt_iff_toInt_lt] at h hv hv' <;> omega

/-- No integer lies in two bands. -/
theorem place_eq_of_inBand (h : bounds.Pairwise (· < ·)) {i j : Nat} {band band' : Int64 × Int64}
    (hi : (bands bounds)[i]? = some band) (hj : (bands bounds)[j]? = some band') (hv : InBand lowerClosed band v)
    (hv' : InBand lowerClosed band' v) : j = i := by
  obtain ⟨hilt, rfl⟩ := List.getElem?_eq_some_iff.1 hi
  obtain ⟨hjlt, rfl⟩ := List.getElem?_eq_some_iff.1 hj
  have hpairwise := List.pairwise_iff_getElem.1 (pairwise_bands h)
  rcases Nat.lt_trichotomy j i with hlt | heq | hlt
  · exact absurd hv (not_inBand_of_le (hpairwise j i hjlt hilt hlt) hv')
  · exact heq
  · exact absurd hv' (not_inBand_of_le (hpairwise i j hilt hjlt hlt) hv)

theorem eq_of_inBand (h : bounds.Pairwise (· < ·)) {band band' : Int64 × Int64} (hband : band ∈ bands bounds)
    (hband' : band' ∈ bands bounds) (hv : InBand lowerClosed band v) (hv' : InBand lowerClosed band' v) :
    band' = band := by
  obtain ⟨i, hi⟩ := List.mem_iff_getElem?.1 hband
  obtain ⟨j, hj⟩ := List.mem_iff_getElem?.1 hband'
  rw [place_eq_of_inBand h hi hj hv hv', hi] at hj
  exact (Option.some.inj hj).symm

/-- The bands leave no gaps between the first and the last bound. -/
theorem exists_inBand_iff (h : bounds.Pairwise (· < ·)) {first last : Int64} (hfirst : bounds.head? = some first)
    (hlast : bounds.getLast? = some last) :
    (∃ band ∈ bands bounds, InBand lowerClosed band v) ↔ InBand lowerClosed (first, last) v := by
  induction bounds generalizing first with
  | nil => cases hfirst
  | cons a bounds ih =>
    obtain rfl := Option.some.inj hfirst
    cases bounds with
    | nil =>
      obtain rfl := Option.some.inj hlast
      have hempty : ¬ InBand lowerClosed (a, a) v := by
        cases lowerClosed <;> simp only [InBand, Bool.false_eq_true, if_true, if_false, Int64.le_iff_toInt_le,
          Int64.lt_iff_toInt_lt] <;> omega
      simp [bands, hempty]
    | cons b bounds =>
      have hab : a < b := (List.pairwise_cons.1 h).1 b List.mem_cons_self
      have hlast' : (b :: bounds).getLast? = some last := by rw [← hlast, List.getLast?_cons_cons]
      have hb : b ≤ last := by
        rcases List.mem_cons.1 (List.mem_of_getLast? hlast') with rfl | hmem
        · exact Int64.le_refl _
        · exact Int64.le_of_lt ((List.pairwise_cons.1 h.of_cons).1 last hmem)
      rw [bands_cons_cons, List.exists_mem_cons_iff, ih h.of_cons rfl hlast']
      cases lowerClosed <;> simp only [InBand, Bool.false_eq_true, if_true, if_false, Int64.le_iff_toInt_le,
        Int64.lt_iff_toInt_lt] at hab hb ⊢ <;> omega

end

/-! ### Bands as patterns -/

private theorem Integer.mem_chars {n : Int} {c : Char} (h : c ∈ chars n) : c = '-' ∨ c.isDigit = true := by
  rw [chars] at h
  split at h
  · exact (List.mem_cons.1 h).imp_right Text.isDigit_of_mem_digits
  · exact .inr (Text.isDigit_of_mem_digits h)

private theorem bounds_bandText (lowerClosed : Bool) (band : Int64 × Int64) :
    (bandRange lowerClosed).bounds (bandText band) =
      (some (Integer.text band.1), some (Integer.text band.2)) := by
  have hcodec : (Codec.integer, Kind.integer) ∈ Codec.typed := by simp [Codec.typed]
  have hseparators : (bandRange lowerClosed).separators = [] ++ '~' :: [':', '-', ','] := rfl
  have hkind : ∀ n : Int64, ∀ x, some (Scalar.integer n) = some x → x.kind = .integer := by
    rintro n _ ⟨⟩
    rfl
  have hwrites : ∀ n : Int64, Range.Writes .integer (some (.integer n)) (Integer.chars n.toInt) := fun _ => rfl
  have hsign : '~' ∉ Integer.chars band.1.toInt := by
    intro hmem
    rcases Integer.mem_chars hmem with h | h <;> exact absurd h (by decide)
  have hspace : (bandRange lowerClosed).IsPadding [' '] := by
    intro c hc
    obtain rfl := List.mem_singleton.1 hc
    exact ⟨by decide, by rw [hseparators]; decide⟩
  have hnothing : (bandRange lowerClosed).IsPadding [] := fun c hc => absurd hc List.not_mem_nil
  have htext : bandText band = String.ofList ([] ++ Integer.chars band.1.toInt ++ [' '] ++
      '~' :: ([' '] ++ Integer.chars band.2.toInt ++ [])) := by
    rw [bandText, Integer.text, Integer.text, show " ~ " = String.ofList [' ', '~', ' '] from rfl,
      ← String.ofList_append, ← String.ofList_append]
    simp
  rw [htext]
  exact Range.bounds_written hcodec hseparators (hkind band.1) (hkind band.2) (hwrites _) (hwrites _) hsign
    (fun x hx => absurd hx List.not_mem_nil) hnothing hspace hspace hnothing

theorem bandText_injective {band band' : Int64 × Int64} (h : bandText band = bandText band') : band = band' := by
  have hbounds := bounds_bandText true band
  rw [h, bounds_bandText] at hbounds
  obtain ⟨hlower, hupper⟩ := Prod.mk.inj hbounds
  exact Prod.ext (Integer.text_injective (Option.some.inj hlower.symm))
    (Integer.text_injective (Option.some.inj hupper.symm))

private theorem bandText_ne_wildcard (band : Int64 × Int64) : bandText band ≠ wildcard := by
  intro h
  have hbounds := bounds_bandText true band
  rw [h] at hbounds
  have hopen : (bandRange true).bounds wildcard = (none, none) := rfl
  cases hopen.symm.trans hbounds

private theorem admits_iff_inBand {lowerClosed : Bool} {band : Int64 × Int64} {v : Int64} :
    (bandRange lowerClosed).Admits (some (.integer band.1)) (some (.integer band.2)) (.integer v) ↔
      InBand lowerClosed band v := by
  cases lowerClosed <;>
    simp [Range.Admits, bandRange, InBand, Scalar.Below, Scalar.equals, Int64.le_iff_lt_or_eq]

namespace ReadyLevel

/-- A level of integers that are compared with bands. -/
structure IsBanded (l : ReadyLevel) (lowerClosed : Bool) : Prop where
  codec : l.codec = .integer
  matcher : l.matcher = (bandRange lowerClosed).matcher

variable {l : ReadyLevel} {lowerClosed : Bool}

private theorem readable_integer (n : Int64) :
    ∀ x, some (Scalar.integer n) = some x → x.kind = .integer ∧ x.Readable := by
  rintro _ ⟨⟩
  exact ⟨rfl, trivial⟩

private theorem IsBanded.normalizePattern_bandText (h : l.IsBanded lowerClosed) (band : Int64 × Int64) :
    l.normalizePattern (some (bandText band)) = .ok (.text (bandText band)) := by
  have hvalidate : (bandRange lowerClosed).validate .integer (bandText band) = .ok () :=
    Range.validate_of_bounds Codec.lawful_integer (readable_integer band.1) (readable_integer band.2)
      (bounds_bandText lowerClosed band)
  rw [ReadyLevel.normalizePattern, if_neg (bandText_ne_wildcard band), h.matcher, h.codec]
  simp only [Range.matcher, Bool.false_eq_true, if_false, hvalidate]
  rfl

/-- The level decides whether an integer lies in a band. -/
private theorem IsBanded.exists_admits (h : l.IsBanded lowerClosed) (v : Int64) (band : Int64 × Int64) :
    ∃ inside, (l.probe (some (Integer.text v))).admits (.text (bandText band)) = .ok inside ∧
      (inside = true ↔ InBand lowerClosed band v) := by
  have hcodec : (Codec.integer, Kind.integer) ∈ Codec.typed := by simp [Codec.typed]
  have hkind : (Scalar.integer v).kind = .integer := rfl
  obtain ⟨inside, haccepts, hinside⟩ := Range.accepts_of_bounds hcodec (readable_integer band.1)
    (readable_integer band.2) (bounds_bandText lowerClosed band) hkind trivial
  refine ⟨inside, ?_, hinside.trans admits_iff_inBand⟩
  simp only [Probe.admits, ReadyLevel.probe, h.matcher, h.codec]
  exact haccepts

end ReadyLevel

/-! ### Tables of bands -/

/-- The code of the ranges that are closed at one side. -/
def bandCode (lowerClosed : Bool) : String :=
  if lowerClosed then "between/ie" else "between/ei"

/-- The only input of a table is an integer level of such ranges, and there is one entry for each band, in whatever
order. The outputs are such that they can be prepared. -/
structure Table.Banded (codecs : CodecRegistry) (matchers : MatcherRegistry) (lowerClosed : Bool)
    (bounds : List Int64) (outputs : List ReadyLevel) (table : Table) : Prop where
  codec : codecs.resolve "integer" = .ok .integer
  matcher : matchers.resolve (some (bandCode lowerClosed)) = .ok (bandRange lowerClosed).matcher
  increasing : bounds.Pairwise (· < ·)
  nullable : table.nullable = false
  inputs : table.inputs = 1
  levels : ∃ first rest, (table.levels.mergeSort fun a b => a.order ≤ b.order) = first :: rest ∧
    first.codec = "integer" ∧ first.matcher = some (bandCode lowerClosed) ∧
    rest.mapM (ReadyLevel.resolve codecs matchers) = .ok outputs
  patterns : (table.entries.map fun e => e.pattern? 0).Perm ((bands bounds).map fun band => some (bandText band))
  cells : ∀ e ∈ table.entries, e.patterns.length = outputs.length + 1 ∧
    (e.function.isSome && outputs.isEmpty) = false ∧
    ∃ cells, decodeCells table.separator e.function.isSome outputs (e.patterns.drop 1) = .ok cells

/-- Of elements with different keys one alone has its key. -/
private theorem filter_key_eq_singleton {α β : Type} [DecidableEq β] {key : α → β} {as : List α}
    (h : (as.map key).Nodup) {a : α} (ha : a ∈ as) : as.filter (key · = key a) = [a] := by
  induction as with
  | nil => cases ha
  | cons b as ih =>
    rw [List.map_cons, List.nodup_cons] at h
    rcases List.mem_cons.1 ha with rfl | ha
    · have hrest : as.filter (key · = key a) = [] := by
        rw [List.filter_eq_nil_iff]
        intro c hc heq
        exact h.1 (List.mem_map.2 ⟨c, hc, by simpa using heq⟩)
      rw [List.filter_cons_of_pos (by simp), hrest]
    · have hne : ¬ key b = key a := fun heq => h.1 (List.mem_map.2 ⟨a, ha, heq.symm⟩)
      rw [List.filter_cons_of_neg (by simpa using hne), ih h.2 ha]

namespace Table.Banded

open PreparedTable (header)

variable {codecs : CodecRegistry} {matchers : MatcherRegistry} {lowerClosed : Bool} {bounds : List Int64}
  {outputs : List ReadyLevel} {table : Table} {source : String} {level : ReadyLevel} {index : Index} {v : Int64}

theorem resolveLevels (h : table.Banded codecs matchers lowerClosed bounds outputs) :
    ∃ level : ReadyLevel, level.IsBanded lowerClosed ∧
      PreparedTable.resolveLevels codecs matchers table = .ok (level :: outputs) := by
  obtain ⟨first, rest, hsorted, hcodec, hmatcher, hrest⟩ := h.levels
  refine ⟨⟨first.label, first.name, .integer, (bandRange lowerClosed).matcher, first.isArray, first.creator⟩,
    ⟨rfl, rfl⟩, ?_⟩
  have hfirst : ReadyLevel.resolve codecs matchers first =
      .ok ⟨first.label, first.name, .integer, (bandRange lowerClosed).matcher, first.isArray, first.creator⟩ := by
    rw [ReadyLevel.resolve, hcodec, hmatcher, h.codec, h.matcher]
    rfl
  rw [PreparedTable.resolveLevels, hsorted, List.mapM_cons, hfirst, hrest]
  rfl

private theorem inputs_header (h : table.Banded codecs matchers lowerClosed bounds outputs) (source : String) :
    (header source table (level :: outputs)).inputs = [level] := by
  simp [header, h.inputs]

theorem outputs_header (h : table.Banded codecs matchers lowerClosed bounds outputs) (source : String) :
    (header source table (level :: outputs)).outputs = outputs := by
  simp [header, h.inputs]

private theorem nodup_patterns (h : table.Banded codecs matchers lowerClosed bounds outputs) :
    ((bands bounds).map fun band => [Pattern.text (bandText band)]).Nodup := by
  have hbands : (bands bounds).Nodup := by
    refine (pairwise_bands h.increasing).imp_of_mem ?_
    rintro band _ hband - hle rfl
    exact Int64.lt_irrefl (Int64.lt_of_lt_of_le (lt_of_mem_bands h.increasing hband) hle)
  refine hbands.map fun band band' heq => bandText_injective ?_
  simpa using heq

/-- Each entry can be prepared, with its band as its pattern. -/
private theorem exists_readyEntry (h : table.Banded codecs matchers lowerClosed bounds outputs)
    (hlevel : level.IsBanded lowerClosed) (source : String) {e : Entry} (he : e ∈ table.entries) (position : Nat) :
    ∃ band ∈ bands bounds, ∃ cells, e.pattern? 0 = some (bandText band) ∧
      decodeCells table.separator e.function.isSome outputs (e.patterns.drop 1) = .ok cells ∧
      (header source table (level :: outputs)).readyEntry position e =
        .ok ⟨position, e, [.text (bandText band)], cells⟩ := by
  obtain ⟨hlength, hfunction, cells, hcells⟩ := h.cells e he
  obtain ⟨band, hband, hpattern⟩ : ∃ band ∈ bands bounds, some (bandText band) = e.pattern? 0 :=
    List.mem_map.1 (h.patterns.subset (List.mem_map_of_mem he))
  refine ⟨band, hband, cells, hpattern.symm, hcells, PreparedTable.readyEntry_eq_ok.2 ⟨?_, ?_, ?_, ?_, rfl, rfl⟩⟩
  · rw [PreparedTable.levelCount, h.inputs_header, h.outputs_header, hlength, Nat.add_comm]
    rfl
  · rw [h.outputs_header]
    exact hfunction
  · obtain ⟨_ | ⟨pattern, patterns⟩, key, function⟩ := e
    · cases hlength
    · obtain rfl : pattern = some (bandText band) := hpattern.symm
      rw [h.inputs_header, List.zip_cons_cons]
      exact .cons (hlevel.normalizePattern_bandText band) .nil
  · rw [h.inputs_header, h.outputs_header]
    exact hcells

private theorem exists_indexOf (h : table.Banded codecs matchers lowerClosed bounds outputs)
    (hlevel : level.IsBanded lowerClosed) (source : String) :
    ∃ index, (header source table (level :: outputs)).indexOf table.entries = .ok index := by
  obtain ⟨ready, hready⟩ := exists_mapM fun e he =>
    have ⟨_, _, _, _, _, hentry⟩ :=
      h.exists_readyEntry hlevel source (List.fst_mem_of_mem_zipIdx he) e.2
    ⟨_, hentry⟩
  exact ⟨_, bind_eq_ok.2 ⟨ready, hready, rfl⟩⟩

/-- What a prepared entry has from its table: its band, and its cells. -/
theorem of_mem_index (h : table.Banded codecs matchers lowerClosed bounds outputs)
    (hlevel : level.IsBanded lowerClosed)
    (hindex : (header source table (level :: outputs)).indexOf table.entries = .ok index) {r : ReadyEntry}
    (hr : r ∈ index.entries) :
    ∃ band ∈ bands bounds, r.inputs = [.text (bandText band)] ∧ table.entries[r.position]? = some r.stored ∧
      r.stored.pattern? 0 = some (bandText band) ∧
      decodeCells table.separator r.stored.function.isSome outputs (r.stored.patterns.drop 1) = .ok r.cells := by
  have hplace := PreparedTable.getElem?_position hindex hr
  have hready := (PreparedTable.indexOf_eq_ok.1 hindex).2.1 r hr
  obtain ⟨band, hband, cells, hpattern, hcells, hentry⟩ :=
    h.exists_readyEntry hlevel source (List.mem_of_getElem? hplace) r.position
  have hr' := Except.ok.inj (hready.symm.trans hentry)
  refine ⟨band, hband, congrArg ReadyEntry.inputs hr', hplace, hpattern, ?_⟩
  rw [hcells, congrArg ReadyEntry.cells hr']

/-- The prepared entries have one band each, and each band once. -/
private theorem perm_inputs (h : table.Banded codecs matchers lowerClosed bounds outputs)
    (hlevel : level.IsBanded lowerClosed)
    (hindex : (header source table (level :: outputs)).indexOf table.entries = .ok index) :
    (index.entries.map (·.inputs)).Perm ((bands bounds).map fun band => [.text (bandText band)]) := by
  have hpatterns : index.entries.map (·.inputs) =
      (table.entries.map fun e => e.pattern? 0).map fun p => p.toList.map Pattern.text := by
    rw [← PreparedTable.map_stored_of_indexOf hindex, List.map_map, List.map_map]
    refine List.map_congr_left fun r hr => ?_
    obtain ⟨band, -, hinputs, -, hpattern, -⟩ := h.of_mem_index hlevel hindex hr
    rw [hinputs, Function.comp_apply, Function.comp_apply, hpattern]
    rfl
  rw [hpatterns]
  refine (h.patterns.map _).trans (List.Perm.of_eq ?_)
  rw [List.map_map]
  rfl

private theorem exists_mem_of_band (h : table.Banded codecs matchers lowerClosed bounds outputs)
    (hlevel : level.IsBanded lowerClosed)
    (hindex : (header source table (level :: outputs)).indexOf table.entries = .ok index) {band : Int64 × Int64}
    (hband : band ∈ bands bounds) : ∃ r ∈ index.entries, r.inputs = [.text (bandText band)] := by
  obtain ⟨r, hr, hinputs⟩ := List.mem_map.1 ((h.perm_inputs hlevel hindex).symm.subset (List.mem_map_of_mem hband))
  exact ⟨r, hr, hinputs⟩

private theorem probes_header (h : table.Banded codecs matchers lowerClosed bounds outputs) (source : String)
    (value : Option String) :
    (header source table (level :: outputs)).probes [value] = [level.probe value] := by
  rw [PreparedTable.probes, h.inputs_header]
  rfl

/-- A query accepts the entry of a band if its integer lies in the band. -/
private theorem accepts_iff_inBand (h : table.Banded codecs matchers lowerClosed bounds outputs)
    (hlevel : level.IsBanded lowerClosed) {r : ReadyEntry} {band : Int64 × Int64}
    (hinputs : r.inputs = [.text (bandText band)]) :
    Accepts ((header source table (level :: outputs)).probes [some (Integer.text v)]) r.inputs ↔
      InBand lowerClosed band v := by
  obtain ⟨inside, hadmits, hinside⟩ := hlevel.exists_admits v band
  rw [h.probes_header, hinputs, Accepts, List.forall₂_cons, Probe.Meets, hadmits, ← hinside]
  simp

/-- A query finds the entry of the band of its integer, or nothing if there is none. -/
theorem search (h : table.Banded codecs matchers lowerClosed bounds outputs) (hlevel : level.IsBanded lowerClosed)
    (hindex : (header source table (level :: outputs)).indexOf table.entries = .ok index) (v : Int64) :
    ∃ found, index.tree.search ((header source table (level :: outputs)).probes [some (Integer.text v)]) = .ok found ∧
      ((∀ band ∈ bands bounds, ¬ InBand lowerClosed band v) → found = none) ∧
      ∀ band ∈ bands bounds, InBand lowerClosed band v →
        ∃ r ∈ index.entries, r.inputs = [.text (bandText band)] ∧ found = some [r] := by
  have hquery : [some (Integer.text v)].length = (header source table (level :: outputs)).inputs.length := by
    rw [h.inputs_header]
    rfl
  obtain ⟨found, hsearch, hfinds⟩ := PreparedTable.search_indexOf hindex hquery fun r hr => by
    obtain ⟨band, -, hinputs, -⟩ := h.of_mem_index hlevel hindex hr
    obtain ⟨inside, hadmits, -⟩ := hlevel.exists_admits v band
    rw [h.probes_header, hinputs]
    exact .cons ⟨inside, hadmits⟩ .nil
  refine ⟨found, hsearch, fun hnone => ?_, fun band hband hv => ?_⟩
  · cases hfinds with
    | nothing _ => rfl
    | best htop htopAccepts _ =>
      obtain ⟨r, hr, rfl⟩ := List.mem_map.1 htop
      obtain ⟨band, hband, hinputs, -⟩ := h.of_mem_index hlevel hindex hr
      exact absurd ((h.accepts_iff_inBand hlevel hinputs).1 htopAccepts) (hnone band hband)
  · cases hfinds with
    | nothing hnone =>
      obtain ⟨r, hr, hinputs⟩ := h.exists_mem_of_band hlevel hindex hband
      exact absurd ((h.accepts_iff_inBand hlevel hinputs).2 hv) (hnone _ (List.mem_map_of_mem hr))
    | best htop htopAccepts _ =>
      obtain ⟨r, hr, rfl⟩ := List.mem_map.1 htop
      obtain ⟨band', hband', hinputs, -⟩ := h.of_mem_index hlevel hindex hr
      obtain rfl : band' = band :=
        eq_of_inBand h.increasing hband hband' hv ((h.accepts_iff_inBand hlevel hinputs).1 htopAccepts)
      -- the entries differ in their patterns, so the one that was found is alone
      have hnodup : (index.entries.map (·.inputs)).Nodup :=
        (h.perm_inputs hlevel hindex).nodup_iff.2 h.nodup_patterns
      refine ⟨r, hr, hinputs, congrArg some ?_⟩
      rw [List.filter_map, List.map_map]
      exact (List.map_id _).trans (filter_key_eq_singleton hnodup hr)

theorem normalize_integer (h : table.Banded codecs matchers lowerClosed bounds outputs)
    (hlevel : level.IsBanded lowerClosed) (source : String) (v : Int64) :
    (header source table (level :: outputs)).normalize [.integer v] = .ok [some (Integer.text v)] := by
  have hvalue : level.normalizeValue (.integer v) = .ok (some (Integer.text v)) := by
    rw [ReadyLevel.normalizeValue, hlevel.codec]
    · rfl
    · simp
  rw [PreparedTable.normalize_eq_ok, h.inputs_header]
  exact ⟨rfl, .cons hvalue .nil⟩

/-- The table is prepared without an error. -/
theorem exists_prepare (h : table.Banded codecs matchers lowerClosed bounds outputs) (source : String) :
    ∃ level index t, level.IsBanded lowerClosed ∧
      (header source table (level :: outputs)).indexOf table.entries = .ok index ∧
      PreparedTable.prepare codecs matchers source table = .ok t ∧
      t = { header source table (level :: outputs) with index := t.index } ∧
      t.index = if table.cacheable then some index else none := by
  obtain ⟨level, hlevel, hresolved⟩ := h.resolveLevels
  obtain ⟨index, hindex⟩ := h.exists_indexOf hlevel source
  have hinputs : table.inputs ≤ table.levels.length := by
    obtain ⟨first, rest, hsorted, -⟩ := h.levels
    have hlength := congrArg List.length hsorted
    rw [List.length_mergeSort, List.length_cons] at hlength
    rw [h.inputs, hlength]
    exact Nat.le_add_left 1 _
  refine ⟨level, index, { header source table (level :: outputs) with
    index := if table.cacheable then some index else none }, hlevel, hindex,
    PreparedTable.prepare_eq_ok.2 ⟨hinputs, _, hresolved, ?_⟩, rfl, rfl⟩
  by_cases hcacheable : table.cacheable = true
  · rw [if_pos hcacheable, if_pos hcacheable]
    exact ⟨index, hindex, rfl⟩
  · rw [if_neg hcacheable, if_neg hcacheable]
    rfl

end Table.Banded

end DecisionTables
