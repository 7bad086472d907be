import DecisionTables.Codec.Standard
import DecisionTables.Proofs.Calendar.Dates
import DecisionTables.Proofs.Number.Decimals
import DecisionTables.Proofs.Number.Integers

/-!
# Laws of the standard codecs

A standard codec gives null and the scalars of one kind, and encodes two scalars of this kind as the same text
if and only if they are equal (`Codec.Lawful`). It reads back what it has encoded, but for dates outside the
years 0 to 9999. Every standard codec obeys these laws (`lawful_of_mem_standard`).
-/

namespace DecisionTables

/-! ### The texts of scalars and values -/

private theorem booleanText_injective {a b : Bool} (h : booleanText a = booleanText b) : a = b := by
  cases a <;> cases b <;> first | rfl | exact absurd h (by decide)

private theorem solid_booleanText (b : Bool) : ∃ cs, booleanText b = String.ofList cs ∧ Text.Solid cs := by
  cases b with
  | true => exact ⟨['t', 'r', 'u', 'e'], rfl, by decide⟩
  | false => exact ⟨['f', 'a', 'l', 's', 'e'], rfl, by decide⟩

private theorem Binary64.solid_text (x : Binary64) : ∃ cs, x.text = String.ofList cs ∧ Text.Solid cs := by
  unfold text
  split
  · exact ⟨['N', 'a', 'N'], rfl, by decide⟩
  · rename_i negative _
    cases negative with
    | true => exact ⟨['-', 'i', 'n', 'f'], rfl, by decide⟩
    | false => exact ⟨['i', 'n', 'f'], rfl, by decide⟩
  · rename_i negative significand exponent _
    have hmagnitude : Text.Solid (magnitudeChars significand exponent) := by
      unfold magnitudeChars
      split
      · decide
      · exact Text.solid_pointed _ _
    refine ⟨_, rfl, ?_⟩
    cases negative with
    | true => exact hmagnitude.cons (by decide)
    | false => exact hmagnitude

private theorem Value.solid_text? {v : Value} {t : String} (hv : ∀ s, v ≠ .text s) (h : v.text? = some t) :
    ∃ cs, t = String.ofList cs ∧ Text.Solid cs := by
  cases v with
  | null => cases h
  | text s => exact absurd rfl (hv s)
  | integer n => cases h; exact ⟨_, rfl, Integer.solid_chars _⟩
  | binary x => cases h; exact x.solid_text
  | boolean b => cases h; exact solid_booleanText b
  | date d => cases h; exact ⟨_, rfl, d.solid_chars⟩
  | decimal d => cases h; exact ⟨_, rfl, d.solid_chars⟩

namespace Scalar

private theorem eq_decimal_of_kind {x : Scalar} (h : x.kind = .decimal) : ∃ d, x = .decimal d := by
  cases x with
  | decimal d => exact ⟨d, rfl⟩
  | _ => cases h

private theorem text?_eq_iff {x y : Scalar} (hkind : x.kind = y.kind) (hx : x.kind ≠ .decimal) :
    x.text? = y.text? ↔ x.equals y = true := by
  cases x <;> cases y <;> simp only [kind, reduceCtorEq, not_true_eq_false, ne_eq] at hkind hx <;>
    simp only [text?, equals, beq_iff_eq, Option.some.injEq, text.injEq, integer.injEq, boolean.injEq, date.injEq,
      beq_self_eq_true]
  · exact ⟨Integer.text_injective, congrArg _⟩
  · exact ⟨booleanText_injective, congrArg _⟩
  · exact ⟨Date.text_injective, congrArg _⟩

/-- If it is a date, it is one of the years 0 to 9999. -/
def Readable : Scalar → Prop
  | .date d => 0 ≤ d.year ∧ d.year ≤ 9999
  | _ => True

end Scalar

/-- If it is a date, it is one of the years 0 to 9999. -/
def Value.Readable : Value → Prop
  | .date d => 0 ≤ d.year ∧ d.year ≤ 9999
  | _ => True

namespace Codec

/-! ### The laws -/

/-- What a codec has to obey on a level whose patterns are compared by their text. Here `kind` is the kind of
the scalars that it gives. -/
structure Lawful (c : Codec) (kind : Kind) : Prop where
  decode_none : c.decode none = .ok .null
  encode_null : c.encode .null = none
  encode_isSome : ∀ {x}, x.kind = kind → (c.encode x).isSome
  kind_of_decode : ∀ {p x}, c.decode p = .ok x → x = .null ∨ x.kind = kind
  kind_of_convert : ∀ {v x}, c.convert v = .ok x → x = .null ∨ x.kind = kind
  encode_eq_iff : ∀ {x y}, x.kind = kind → y.kind = kind → (c.encode x = c.encode y ↔ x.equals y = true)
  encode_ne_wildcard : ∀ {p x}, p ≠ some wildcard → c.decode p = .ok x → c.encode x ≠ some wildcard
  isBlank_encode : ∀ {v x t}, (∀ s, v = .text s → Text.isBlank s = false) → c.convert v = .ok x →
    c.encode x = some t → Text.isBlank t = false
  readable_of_decode : ∀ {p x}, c.decode p = .ok x → x.Readable
  readable_of_convert : ∀ {v : Value} {x}, v.Readable → c.convert v = .ok x → x.Readable
  decode_encode : ∀ {x}, x.kind = kind → x.Readable → ∃ y, c.decode (c.encode x) = .ok y ∧ y.equals x = true

private theorem decodeTrimmed_eq_ok {name : String} {read : String → Except ConversionFault Scalar}
    {p : Option String} {x : Scalar} (h : decodeTrimmed name read p = .ok x) : x = .null ∨ ∃ s, read s = .ok x := by
  unfold decodeTrimmed at h
  split at h
  · exact .inl (Except.ok.inj h).symm
  · rename_i s _
    exact .inr ⟨s, mapError_eq_ok.1 h⟩

private theorem decodeTrimmed_solid {name : String} {read : String → Except ConversionFault Scalar} {cs : List Char}
    (hcs : Text.Solid cs) {x : Scalar} (h : read (String.ofList cs) = .ok x) :
    decodeTrimmed name read (some (String.ofList cs)) = .ok x := by
  rw [decodeTrimmed, hcs.nonBlank?_eq]
  simp only [h, Except.mapError]

/-- The laws of a codec that reads texts without the white space around them. -/
private theorem lawful_of_decodeTrimmed {c : Codec} {kind : Kind} {read : String → Except ConversionFault Scalar}
    (hdecode : c.decode = decodeTrimmed c.name read) (hnull : c.encode .null = none)
    (hread : ∀ s x, read s = .ok x → x.kind = kind ∧ x.Readable)
    (htext : ∀ s, c.convert (.text s) = c.decode (some s))
    (hconvert : ∀ v x, (∀ s, v ≠ .text s) → c.convert v = .ok x →
      (x = .null ∨ x.kind = kind) ∧ (v.Readable → x.Readable))
    (hencode : ∀ x, x.kind = kind → ∃ cs, c.encode x = some (String.ofList cs) ∧ Text.Solid cs ∧
      (x.Readable → ∃ y, read (String.ofList cs) = .ok y ∧ y.equals x = true))
    (hinj : ∀ x y, x.kind = kind → y.kind = kind → (c.encode x = c.encode y ↔ x.equals y = true)) :
    Lawful c kind := by
  have hkind : ∀ {p x}, c.decode p = .ok x → x = .null ∨ x.kind = kind := by
    intro p x h
    rw [hdecode] at h
    exact (decodeTrimmed_eq_ok h).imp_right fun ⟨s, hs⟩ => (hread s x hs).1
  have hkind' : ∀ {v x}, c.convert v = .ok x → x = .null ∨ x.kind = kind := by
    intro v x h
    by_cases hv : ∃ s, v = .text s
    · obtain ⟨s, rfl⟩ := hv
      exact hkind (htext s ▸ h)
    · exact (hconvert v x (fun s hs => hv ⟨s, hs⟩) h).1
  have hreadable : ∀ {p x}, c.decode p = .ok x → x.Readable := by
    intro p x h
    rw [hdecode] at h
    rcases decodeTrimmed_eq_ok h with rfl | ⟨s, hs⟩
    · trivial
    · exact (hread s x hs).2
  exact {
    decode_none := by rw [hdecode]; rfl
    encode_null := hnull
    encode_isSome hx := by
      obtain ⟨cs, hcs, -⟩ := hencode _ hx
      rw [hcs]
      rfl
    kind_of_decode := hkind
    kind_of_convert := hkind'
    encode_eq_iff hx hy := hinj _ _ hx hy
    encode_ne_wildcard _ h := by
      rw [hdecode] at h
      rcases decodeTrimmed_eq_ok h with rfl | ⟨s, hs⟩
      · simp [hnull]
      · obtain ⟨cs, hcs, hsolid, -⟩ := hencode _ (hread s _ hs).1
        rw [hcs]
        exact fun heq => hsolid.ne_wildcard (Option.some.inj heq)
    isBlank_encode _ h ht := by
      rcases hkind' h with rfl | hx
      · rw [hnull] at ht
        cases ht
      · obtain ⟨cs, hcs, hsolid, -⟩ := hencode _ hx
        rw [hcs] at ht
        cases ht
        exact hsolid.isBlank_eq
    readable_of_decode := hreadable
    readable_of_convert {v x} hv h := by
      by_cases htext' : ∃ s, v = .text s
      · obtain ⟨s, rfl⟩ := htext'
        exact hreadable (htext s ▸ h)
      · exact (hconvert v x (fun s hs => htext' ⟨s, hs⟩) h).2 hv
    decode_encode hx hyears := by
      obtain ⟨cs, hcs, hsolid, hback⟩ := hencode _ hx
      obtain ⟨y, hy, heq⟩ := hback hyears
      exact ⟨y, by rw [hcs, hdecode]; exact decodeTrimmed_solid hsolid hy, heq⟩ }

theorem lawful_text : Lawful text .text where
  decode_none := rfl
  encode_null := rfl
  encode_isSome {x} hx := by cases x <;> first | rfl | cases hx
  kind_of_decode {p x} h := by
    cases p <;> cases h
    · exact .inl rfl
    · exact .inr rfl
  kind_of_convert {v x} h := by
    unfold text at h
    simp only at h
    split at h <;> cases h
    · exact .inl rfl
    · exact .inr rfl
  encode_eq_iff hx hy := Scalar.text?_eq_iff (hx.trans hy.symm) (by rw [hx]; decide)
  encode_ne_wildcard {p x} hp h := by
    cases p <;> cases h
    · decide
    · exact hp
  isBlank_encode {v x t} hv h ht := by
    have hvalue : v.text? = some t := by
      unfold text at h
      simp only at h
      split at h <;> cases h
      · cases ht
      · cases ht
        assumption
    by_cases htext : ∃ s, v = .text s
    · obtain ⟨s, rfl⟩ := htext
      cases hvalue
      exact hv t rfl
    · obtain ⟨cs, rfl, hsolid⟩ := Value.solid_text? (fun s hs => htext ⟨s, hs⟩) hvalue
      exact hsolid.isBlank_eq
  readable_of_decode {p x} h := by cases p <;> cases h <;> trivial
  readable_of_convert {v x} _ h := by
    unfold text at h
    simp only at h
    split at h <;> cases h <;> trivial
  decode_encode {x} hx _ := by
    cases x with
    | text s => exact ⟨.text s, rfl, by simp [Scalar.equals]⟩
    | _ => cases hx

theorem lawful_integer : Lawful integer .integer := by
  refine lawful_of_decodeTrimmed rfl rfl (fun s x h => ?_) (fun _ => rfl) (fun v x hv h => ?_) (fun x hx => ?_)
    fun x y hx hy => ?_
  · split at h <;> cases h
    exact ⟨rfl, trivial⟩
  · cases v with
    | text s => exact absurd rfl (hv s)
    | null => cases h; exact ⟨.inl rfl, fun _ => trivial⟩
    | integer n => cases h; exact ⟨.inr rfl, fun _ => trivial⟩
    | decimal d =>
      unfold integer at h
      simp only at h
      split at h
      · split at h <;> cases h
        exact ⟨.inr rfl, fun _ => trivial⟩
      · cases h
    | _ => cases h
  · cases x with
    | integer n =>
      refine ⟨_, rfl, Integer.solid_chars _, fun _ => ⟨.integer n, ?_, by simp [Scalar.equals]⟩⟩
      have hread := Integer.read_text n
      rw [Integer.text] at hread
      rw [hread]
    | _ => cases hx
  · exact Scalar.text?_eq_iff (hx.trans hy.symm) (by rw [hx]; decide)

theorem lawful_boolean : Lawful boolean .boolean := by
  refine lawful_of_decodeTrimmed rfl rfl (fun s x h => ?_) (fun _ => rfl) (fun v x hv h => ?_) (fun x hx => ?_)
    fun x y hx hy => ?_
  · split at h <;> cases h
    exact ⟨rfl, trivial⟩
  · cases v with
    | text s => exact absurd rfl (hv s)
    | null => cases h; exact ⟨.inl rfl, fun _ => trivial⟩
    | boolean b => cases h; exact ⟨.inr rfl, fun _ => trivial⟩
    | _ => cases h
  · cases x with
    | boolean b =>
      obtain ⟨cs, hcs, hsolid⟩ := solid_booleanText b
      have hliteral : booleanOfLiteral? (booleanText b) = some b := by cases b <;> decide
      refine ⟨cs, congrArg some hcs, hsolid, fun _ => ⟨.boolean b, ?_, by simp [Scalar.equals]⟩⟩
      rw [← hcs, hliteral]
    | _ => cases hx
  · exact Scalar.text?_eq_iff (hx.trans hy.symm) (by rw [hx]; decide)

theorem lawful_date : Lawful date .date := by
  refine lawful_of_decodeTrimmed rfl rfl (fun s x h => ?_) (fun _ => rfl) (fun v x hv h => ?_) (fun x hx => ?_)
    fun x y hx hy => ?_
  · split at h
    case h_1 d hd =>
      cases h
      exact ⟨rfl, Date.year_of_read hd⟩
    case h_2 => cases h
  · cases v with
    | text s => exact absurd rfl (hv s)
    | null => cases h; exact ⟨.inl rfl, fun _ => trivial⟩
    | date d => cases h; exact ⟨.inr rfl, id⟩
    | _ => cases h
  · cases x with
    | date d =>
      refine ⟨_, rfl, d.solid_chars, fun hyears => ⟨.date d, ?_, by simp [Scalar.equals]⟩⟩
      have hread := Date.read_text hyears.1 hyears.2
      rw [Date.text] at hread
      rw [hread]
    | _ => cases hx
  · exact Scalar.text?_eq_iff (hx.trans hy.symm) (by rw [hx]; decide)

theorem lawful_decimal : Lawful decimal .decimal := by
  refine lawful_of_decodeTrimmed rfl rfl (fun s x h => ?_) (fun _ => rfl) (fun v x hv h => ?_) (fun x hx => ?_)
    fun x y hx hy => ?_
  · split at h <;> cases h
    exact ⟨rfl, trivial⟩
  · cases v with
    | text s => exact absurd rfl (hv s)
    | null => cases h; exact ⟨.inl rfl, fun _ => trivial⟩
    | decimal d => cases h; exact ⟨.inr rfl, fun _ => trivial⟩
    | integer n => cases h; exact ⟨.inr rfl, fun _ => trivial⟩
    | binary b =>
      unfold decimal at h
      simp only at h
      split at h <;> cases h
      exact ⟨.inr rfl, fun _ => trivial⟩
    | _ => cases h
  · cases x with
    | decimal d =>
      refine ⟨_, rfl, d.normalize.solid_chars, fun _ => ⟨.decimal d.normalize, ?_, ?_⟩⟩
      · have hread := Decimal.read_text_normalize d
        rw [Decimal.text] at hread
        rw [hread]
      · simp [Scalar.equals, Decimal.equals, Decimal.units_normalize]
    | _ => cases hx
  · obtain ⟨a, rfl⟩ := Scalar.eq_decimal_of_kind hx
    obtain ⟨b, rfl⟩ := Scalar.eq_decimal_of_kind hy
    show some a.normalize.text = some b.normalize.text ↔ (a.units == b.units) = true
    rw [Option.some.injEq, Decimal.text_normalize_eq_iff, beq_iff_eq]

theorem lawful_of_mem_standard {c : Codec} (h : c ∈ standard) : ∃ kind, Lawful c kind := by
  simp only [standard, List.mem_cons, List.not_mem_nil, or_false] at h
  rcases h with rfl | rfl | rfl | rfl | rfl
  · exact ⟨_, lawful_text⟩
  · exact ⟨_, lawful_integer⟩
  · exact ⟨_, lawful_boolean⟩
  · exact ⟨_, lawful_date⟩
  · exact ⟨_, lawful_decimal⟩

/-- The standard codecs of other scalars than texts, with the kinds of their scalars. -/
def typed : List (Codec × Kind) :=
  [(integer, .integer), (boolean, .boolean), (date, .date), (decimal, .decimal)]

theorem lawful_of_mem_typed {c : Codec} {kind : Kind} (h : (c, kind) ∈ typed) : Lawful c kind := by
  simp only [typed, List.mem_cons, List.not_mem_nil, or_false, Prod.mk.injEq] at h
  rcases h with ⟨rfl, rfl⟩ | ⟨rfl, rfl⟩ | ⟨rfl, rfl⟩ | ⟨rfl, rfl⟩
  · exact lawful_integer
  · exact lawful_boolean
  · exact lawful_date
  · exact lawful_decimal

/-- The canonical texts of these codecs have no white space around them, and none is the wildcard. -/
theorem solid_encode {c : Codec} {kind : Kind} (h : (c, kind) ∈ typed) {x : Scalar} (hx : x.kind = kind) :
    ∃ cs, c.encode x = some (String.ofList cs) ∧ Text.Solid cs := by
  simp only [typed, List.mem_cons, List.not_mem_nil, or_false, Prod.mk.injEq] at h
  rcases h with ⟨rfl, rfl⟩ | ⟨rfl, rfl⟩ | ⟨rfl, rfl⟩ | ⟨rfl, rfl⟩ <;> cases x <;> cases hx
  · exact ⟨_, rfl, Integer.solid_chars _⟩
  · obtain ⟨cs, hcs, hsolid⟩ := solid_booleanText ‹Bool›
    exact ⟨cs, congrArg some hcs, hsolid⟩
  · exact ⟨_, rfl, Date.solid_chars _⟩
  · exact ⟨_, rfl, Decimal.solid_chars _⟩

/-! ### What follows from the laws -/

variable {c : Codec} {kind : Kind}

private theorem Lawful.encode_eq_none (hc : Lawful c kind) {x : Scalar} (hx : x = .null ∨ x.kind = kind) :
    c.encode x = none ↔ x = .null := by
  constructor
  · intro h
    rcases hx with rfl | hx
    · rfl
    · have hsome := hc.encode_isSome hx
      rw [h] at hsome
      cases hsome
  · rintro rfl
    exact hc.encode_null

/-- Among null and the scalars of the kind, the text tells the scalar. -/
theorem Lawful.encode_eq_encode_iff (hc : Lawful c kind) {x y : Scalar} (hx : x = .null ∨ x.kind = kind)
    (hy : y = .null ∨ y.kind = kind) : c.encode x = c.encode y ↔ x.equals y = true := by
  by_cases hxnull : x = .null
  · subst hxnull
    rw [hc.encode_null, eq_comm, hc.encode_eq_none hy]
    cases y <;> simp [Scalar.equals]
  · by_cases hynull : y = .null
    · subst hynull
      rw [hc.encode_null, hc.encode_eq_none hx]
      cases x <;> simp [Scalar.equals]
    · exact hc.encode_eq_iff (hx.resolve_left hxnull) (hy.resolve_left hynull)

end Codec

end DecisionTables
