import DecisionTables.Proofs.Codec.RoundTrip
import DecisionTables.Proofs.Scalar.Order
import DecisionTables.Proofs.Table.Faults
import DecisionTables.Row
import Mathlib.Data.Set.List

/-!
# Lists written into array cells

A list of integers, booleans, dates or decimals is written into an array cell as the canonical texts of its
values with the separator between them, and white space around them at will (`WritesPart`). If the separator
does not occur in what is written for a value, the cell is read back as the list, value by value and in order,
up to the equality of decimals, and the typed reader of the array gives all the values
(`decodeCell_intercalate`).
-/

namespace DecisionTables

/-- What may be written for a value in an array cell: its canonical text with white space around it, without the
separator. -/
structure WritesPart (codec : Codec) (separator : Char) (x : Scalar) (part : List Char) : Prop where
  separator_notMem : separator ∉ part
  padded : ∃ front text back, part = front ++ text ++ back ∧ codec.encode x = some (String.ofList text) ∧
    (∀ c ∈ front, Text.isSpace c = true) ∧ ∀ c ∈ back, Text.isSpace c = true

/-- The reader of array columns for the scalars of a kind gives these, all of them and in this order. -/
def Row.GivesAll (row : Row) (c : Column) : Kind → List Scalar → Prop
  | .integer, xs => ∃ ns, row.getIntegers c = .ok ns ∧ ns.map .integer = xs
  | .boolean, xs => ∃ bs, row.getBooleans c = .ok bs ∧ bs.map .boolean = xs
  | .date, xs => ∃ ds, row.getDates c = .ok ds ∧ ds.map .date = xs
  | .decimal, xs => ∃ ds, row.getDecimals c = .ok ds ∧ ds.map .decimal = xs
  | _, _ => False

variable {codec : Codec} {kind : Kind} {separator : Char}

/-! ### The text of a cell -/

/-- Without the white space around it, a part is the canonical text. -/
private theorem WritesPart.encode_eq (hcodec : (codec, kind) ∈ Codec.typed) {x : Scalar} (hkind : x.kind = kind)
    {part : List Char} (h : WritesPart codec separator x part) :
    codec.encode x = some (String.ofList (Text.strip part)) := by
  obtain ⟨front, text, back, rfl, htext, hfront, hback⟩ := h.padded
  obtain ⟨cs, hcs, hsolid⟩ := Codec.solid_encode hcodec hkind
  obtain rfl : text = cs := by simpa using congrArg String.toList (Option.some.inj (htext.symm.trans hcs))
  rw [Text.strip_padded hfront hback, hsolid.strip_eq, htext]

/-- A part has a character that is neither white space nor the wildcard. -/
private theorem WritesPart.exists_mem (hcodec : (codec, kind) ∈ Codec.typed) {x : Scalar} (hkind : x.kind = kind)
    {part : List Char} (h : WritesPart codec separator x part) :
    ∃ c ∈ part, Text.isSpace c = false ∧ c ≠ '*' := by
  obtain ⟨front, text, back, rfl, htext, -, -⟩ := h.padded
  obtain ⟨cs, hcs, hsolid⟩ := Codec.solid_encode hcodec hkind
  obtain rfl : text = cs := by simpa using congrArg String.toList (Option.some.inj (htext.symm.trans hcs))
  obtain ⟨c, hc⟩ := List.exists_mem_of_ne_nil _ hsolid.1
  exact ⟨c, by simp [hc], hsolid.2 c hc⟩

private theorem mem_intercalate_cons {c : Char} {sep part : List Char} (parts : List (List Char)) (hc : c ∈ part) :
    c ∈ sep.intercalate (part :: parts) := by
  cases parts with
  | nil => rwa [List.intercalate_singleton]
  | cons next parts => simp [List.intercalate_cons_cons, hc]

private theorem arrayParts_of_mem {text : List Char} {c : Char} (hc : c ∈ text)
    (hsolid : Text.isSpace c = false ∧ c ≠ '*') :
    arrayParts separator (some (String.ofList text)) = (text.splitOn separator).map (String.ofList ∘ Text.strip) := by
  have hwildcard : String.ofList text ≠ wildcard := by
    intro heq
    have htext : text = ['*'] := by simpa [wildcard] using congrArg String.toList heq
    rw [htext, List.mem_singleton] at hc
    exact hsolid.2 hc
  have hblank : ¬ Text.isBlank (String.ofList text) = true := by
    rw [Text.isBlank, String.toList_ofList, List.all_eq_true]
    intro hall
    rw [hall c hc] at hsolid
    exact Bool.noConfusion hsolid.1
  rw [arrayParts, if_neg (not_or.2 ⟨hwildcard, hblank⟩), String.toList_ofList]

/-- The parts of a cell are what was written into it. -/
private theorem arrayParts_intercalate (hcodec : (codec, kind) ∈ Codec.typed) {xs : List Scalar}
    {parts : List (List Char)} (hne : xs ≠ []) (hkind : ∀ x ∈ xs, x.kind = kind)
    (hwritten : List.Forall₂ (WritesPart codec separator) xs parts) :
    arrayParts separator (some (String.ofList ([separator].intercalate parts))) =
      parts.map (String.ofList ∘ Text.strip) := by
  have hseparator : ∀ part ∈ parts, separator ∉ part :=
    forall_right_of_forall₂ (fun _ _ h => h.separator_notMem) hwritten
  cases hwritten with
  | nil => exact absurd rfl hne
  | @cons x part xs parts hpart hrest =>
    obtain ⟨c, hc, hsolid⟩ := hpart.exists_mem hcodec (hkind x List.mem_cons_self)
    rw [arrayParts_of_mem (mem_intercalate_cons parts hc) hsolid,
      List.splitOn_intercalate separator hseparator (List.cons_ne_nil _ _)]

/-! ### Reading the cell -/

/-- Each part is read as a value equal to the one that it was written for. -/
private theorem exists_mapM_decode (hcodec : (codec, kind) ∈ Codec.typed) {xs : List Scalar}
    {parts : List (List Char)} (hkind : ∀ x ∈ xs, x.kind = kind) (hdecoded : ∀ x ∈ xs, ∃ p, codec.decode p = .ok x)
    (hwritten : List.Forall₂ (WritesPart codec separator) xs parts) :
    ∃ ys, (parts.map (String.ofList ∘ Text.strip)).mapM (fun part => codec.decode (some part)) = .ok ys ∧
      List.Forall₂ (fun y x => y.equals x = true) ys xs := by
  have hlaws := Codec.lawful_of_mem_typed hcodec
  simp only [mapM_eq_ok, List.forall₂_map_left_iff]
  induction hwritten with
  | nil => exact ⟨[], .nil, .nil⟩
  | @cons x part xs parts hpart _ ih =>
    rw [List.forall_mem_cons] at hkind hdecoded
    obtain ⟨p, hp⟩ := hdecoded.1
    obtain ⟨y, hy, hequals⟩ := hlaws.decode_encode_of_decode hp
    rw [hpart.encode_eq hcodec hkind.1] at hy
    obtain ⟨ys, hys, hrest⟩ := ih hkind.2 hdecoded.2
    exact ⟨y :: ys, .cons hy hys, .cons hequals hrest⟩

/-! ### The typed readers -/

private theorem Row.readAll_map {α : Type} {reader : Scalar → Except WrongKind (Option α)} {hold : α → Scalar}
    (h : ∀ a, reader (hold a) = .ok (some a)) (as : List α) : Row.readAll reader (as.map hold) = .ok as := by
  induction as with
  | nil => rfl
  | cons a as ih =>
    rw [List.map_cons, Row.readAll, h, ih]
    rfl

private theorem Row.exists_readArray {α : Type} {reader : Scalar → Except WrongKind (Option α)} {hold : α → Scalar}
    (hreader : ∀ a, reader (hold a) = .ok (some a)) (hhold : ∀ y : Scalar, y.kind = kind → ∃ a, hold a = y)
    {row : Row} {c : Column} {ys : List Scalar} (hcell : row.cell c = .ok (.array ys))
    (hkind : ∀ y ∈ ys, y.kind = kind) : ∃ as, row.readArray reader c = .ok as ∧ as.map hold = ys := by
  obtain ⟨as, rfl⟩ : ys ∈ Set.range (List.map hold) := by
    rw [Set.range_list_map]
    exact fun y hy => hhold y (hkind y hy)
  refine ⟨as, ?_, rfl⟩
  rw [Row.readArray, Row.getArray, hcell]
  show (Row.readAll reader (as.map hold)).mapError TableError.wrongKind = _
  rw [Row.readAll_map hreader]
  rfl

/-- The typed reader of a column gives the values of an array of its kind. -/
private theorem Row.givesAll_of_cell (hcodec : (codec, kind) ∈ Codec.typed) {row : Row} {c : Column}
    {ys : List Scalar}
    (hcell : row.cell c = .ok (.array ys)) (hkind : ∀ y ∈ ys, y.kind = kind) : row.GivesAll c kind ys := by
  simp only [Codec.typed, List.mem_cons, List.not_mem_nil, or_false, Prod.mk.injEq] at hcodec
  rcases hcodec with ⟨-, rfl⟩ | ⟨-, rfl⟩ | ⟨-, rfl⟩ | ⟨-, rfl⟩ <;>
    refine Row.exists_readArray (fun _ => rfl) (fun y hy => ?_) hcell hkind <;>
    cases y <;> cases hy <;> exact ⟨_, rfl⟩

/-- The canonical texts of a list of values with the separator between them, which occurs in none of them, and with
white space around each at will, are read by an array level as a list of equal values in the same order. The typed
reader of a column with this cell gives all of them. -/
theorem decodeCell_intercalate (hcodec : (codec, kind) ∈ Codec.typed) {l : ReadyLevel} (hl : l.codec = codec)
    (harray : l.isArray = true) {xs : List Scalar} {parts : List (List Char)} (hne : xs ≠ [])
    (hdecoded : ∀ x ∈ xs, x ≠ .null ∧ ∃ p, codec.decode p = .ok x)
    (hwritten : List.Forall₂ (WritesPart codec separator) xs parts) :
    ∃ ys, l.decodeCell separator (some (String.ofList ([separator].intercalate parts))) = .ok (.array ys) ∧
      List.Forall₂ (fun y x => y.equals x = true) ys xs ∧
      ∀ (row : Row) (c : Column), row.cell c = .ok (.array ys) → row.GivesAll c kind ys := by
  have hkind : ∀ x ∈ xs, x.kind = kind := by
    intro x hx
    obtain ⟨hnull, p, hp⟩ := hdecoded x hx
    exact ((Codec.lawful_of_mem_typed hcodec).kind_of_decode hp).resolve_left hnull
  obtain ⟨ys, hread, hequal⟩ := exists_mapM_decode hcodec hkind (fun x hx => (hdecoded x hx).2) hwritten
  have hkind' : ∀ y ∈ ys, y.kind = kind :=
    forall_right_of_forall₂ (fun _ _ h => (Scalar.kind_eq_of_equals h.2).trans h.1)
      ((List.forall₂_and_left xs ys).2 ⟨hkind, hequal.flip⟩)
  refine ⟨ys, ?_, hequal, fun row c hcell => Row.givesAll_of_cell hcodec hcell hkind'⟩
  rw [ReadyLevel.decodeCell, if_pos harray, ReadyLevel.decodeArray_eq,
    arrayParts_intercalate hcodec hne hkind hwritten, hl, hread]
  rfl

/-- A level of lists of decimals. -/
def rateLists : ReadyLevel :=
  ⟨"rates", some "rates", .decimal, .strict, true, none⟩

/-- The separator is a space, so the white space around a value is tabs. -/
theorem decodeCell_intercalate_spaced :
    let half : Scalar := .decimal ⟨⟨150, 2, by decide, by decide⟩, false⟩
    let owed : Scalar := .decimal ⟨⟨20, 0, by decide, by decide⟩, true⟩
    let parts := ["\t1.5".toList, "-20\t".toList]
    (Codec.decimal, Kind.decimal) ∈ Codec.typed ∧ [half, owed] ≠ [] ∧
    (∀ x ∈ [half, owed], x ≠ .null ∧ ∃ p, Codec.decimal.decode p = .ok x) ∧
    List.Forall₂ (WritesPart .decimal ' ') [half, owed] parts ∧
    String.ofList ([' '].intercalate parts) = "\t1.5 -20\t" ∧
    ∃ ys, rateLists.decodeCell ' ' (some "\t1.5 -20\t") = .ok (.array ys) ∧
      List.Forall₂ (fun y x => y.equals x = true) ys [half, owed] ∧
      ∃ ds, (Row.mk [.array ys] none [some "rates"]).getDecimals (.named "rates") = .ok ds ∧
        ds.map .decimal = ys := by
  intro half owed parts
  have hcodec : (Codec.decimal, Kind.decimal) ∈ Codec.typed := by simp [Codec.typed]
  have hdecoded : ∀ x ∈ [half, owed], x ≠ .null ∧ ∃ p, Codec.decimal.decode p = .ok x := by
    simp only [List.forall_mem_cons]
    exact ⟨⟨by decide, some "1.50", rfl⟩, ⟨by decide, some "-20", rfl⟩, by simp⟩
  have hspace : Text.isSpace '\t' = true := by decide
  have hwritten : List.Forall₂ (WritesPart .decimal ' ') [half, owed] parts :=
    .cons ⟨by decide, ['\t'], "1.5".toList, [], by decide, rfl, by simp [hspace], by simp⟩
      (.cons ⟨by decide, [], "-20".toList, ['\t'], by decide, rfl, by simp, by simp [hspace]⟩ .nil)
  have htext : String.ofList ([' '].intercalate parts) = "\t1.5 -20\t" := by decide
  obtain ⟨ys, hread, hequal, hgives⟩ :=
    decodeCell_intercalate hcodec (l := rateLists) rfl rfl (by simp) hdecoded hwritten
  rw [htext] at hread
  exact ⟨hcodec, by simp, hdecoded, hwritten, htext, ys, hread, hequal, hgives _ (.named "rates") rfl⟩

end DecisionTables
