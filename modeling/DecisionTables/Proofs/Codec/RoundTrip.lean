import DecisionTables.Proofs.Codec.Laws

/-!
# Round trips of the standard codecs

What a standard codec decodes is read back from its canonical text, and the canonical text is the same after
that; it tells apart exactly what is not equal, so no two spellings of a scalar have different canonical texts.
A text converts as it decodes, and whatever a codec gives converts to itself
(`Codec.decode_encode_of_mem_standard`).
-/

namespace DecisionTables.Codec

/-! ### Decoding what was encoded -/

section

variable {c : Codec} {kind : Kind}

theorem Lawful.decode_encode_of_decode (hc : Lawful c kind) {p : Option String} {x : Scalar}
    (h : c.decode p = .ok x) : ∃ y, c.decode (c.encode x) = .ok y ∧ y.equals x = true := by
  rcases hc.kind_of_decode h with rfl | hkind
  · refine ⟨.null, ?_, rfl⟩
    rw [hc.encode_null, hc.decode_none]
  · exact hc.decode_encode hkind (hc.readable_of_decode h)

/-- The canonical text of a scalar is the canonical text of what it is read back as. -/
private theorem Lawful.encode_eq_of_read_back (hc : Lawful c kind) {p q : Option String} {x y : Scalar}
    (hx : c.decode p = .ok x) (hy : c.decode q = .ok y) (h : y.equals x = true) : c.encode y = c.encode x :=
  (hc.encode_eq_encode_iff (hc.kind_of_decode hy) (hc.kind_of_decode hx)).2 h

end

/-! ### Converting texts and scalars -/

private theorem convert_text {c : Codec} (h : c ∈ standard) (s : String) :
    c.convert (.text s) = c.decode (some s) := by
  simp only [standard, List.mem_cons, List.not_mem_nil, or_false] at h
  rcases h with rfl | rfl | rfl | rfl | rfl <;> rfl

/-- A codec of one kind converts null and the scalars of this kind to themselves. -/
def KeepsScalars (c : Codec) (kind : Kind) : Prop :=
  ∀ x : Scalar, x = .null ∨ x.kind = kind → c.convert (.ofScalar x) = .ok x

private theorem exists_keepsScalars {c : Codec} (h : c ∈ standard) : ∃ kind, Lawful c kind ∧ c.KeepsScalars kind := by
  have hkeeps : ∀ {c : Codec} {kind : Kind}, c.convert .null = .ok .null →
      (∀ x : Scalar, x.kind = kind → c.convert (.ofScalar x) = .ok x) → c.KeepsScalars kind := by
    rintro c kind hnull hkind x (rfl | hx)
    · exact hnull
    · exact hkind x hx
  simp only [standard, List.mem_cons, List.not_mem_nil, or_false] at h
  rcases h with rfl | rfl | rfl | rfl | rfl
  · exact ⟨_, lawful_text, hkeeps rfl fun x hx => by cases x <;> cases hx; rfl⟩
  · exact ⟨_, lawful_integer, hkeeps rfl fun x hx => by cases x <;> cases hx; rfl⟩
  · exact ⟨_, lawful_boolean, hkeeps rfl fun x hx => by cases x <;> cases hx; rfl⟩
  · exact ⟨_, lawful_date, hkeeps rfl fun x hx => by cases x <;> cases hx; rfl⟩
  · exact ⟨_, lawful_decimal, hkeeps rfl fun x hx => by cases x <;> cases hx; rfl⟩

/-- A scalar that a standard codec decodes is read back from its canonical text as an equal scalar with the same
canonical text, and two such scalars have the same canonical text exactly if they are equal. Texts convert as they
decode, and the scalars that a codec gives convert to themselves. -/
theorem decode_encode_of_mem_standard {c : Codec} (hc : c ∈ standard) :
    (∀ p x, c.decode p = .ok x →
      (∃ y, c.decode (c.encode x) = .ok y ∧ y.equals x = true ∧ c.encode y = c.encode x) ∧
      ∀ p' x', c.decode p' = .ok x' → (c.encode x = c.encode x' ↔ x.equals x' = true)) ∧
    (∀ s, c.convert (.text s) = c.decode (some s)) ∧
    ∀ x, (∃ p, c.decode p = .ok x) ∨ (∃ v, c.convert v = .ok x) → c.convert (.ofScalar x) = .ok x := by
  obtain ⟨kind, hlaws, hkeeps⟩ := exists_keepsScalars hc
  refine ⟨fun p x hx => ⟨?_, fun p' x' hx' => ?_⟩, convert_text hc, fun x hx => hkeeps x ?_⟩
  · obtain ⟨y, hy, hequals⟩ := hlaws.decode_encode_of_decode hx
    exact ⟨y, hy, hequals, hlaws.encode_eq_of_read_back hx hy hequals⟩
  · exact hlaws.encode_eq_encode_iff (hlaws.kind_of_decode hx) (hlaws.kind_of_decode hx')
  · rcases hx with ⟨p, hp⟩ | ⟨v, hv⟩
    · exact hlaws.kind_of_decode hp
    · exact hlaws.kind_of_convert hv

/-- The largest mantissa rounds beyond its range and gives up a decimal place. -/
theorem decode_encode_of_mem_standard_rounded :
    decimal ∈ standard ∧
    ∃ x y, decimal.decode (some " 7.92281625142643375935439503355") = .ok x ∧
      decimal.encode x = some "7.922816251426433759354395034" ∧
      decimal.decode (decimal.encode x) = .ok y ∧ y.equals x = true ∧ decimal.encode y = decimal.encode x ∧
      decimal.convert (.ofScalar x) = .ok x := by
  have hcodec : decimal ∈ standard := by simp [standard]
  obtain ⟨x, hx, hencode⟩ : ∃ x, decimal.decode (some " 7.92281625142643375935439503355") = .ok x ∧
      decimal.encode x = some "7.922816251426433759354395034" := ⟨_, rfl, by decide⟩
  obtain ⟨hdecode, -, hconvert⟩ := decode_encode_of_mem_standard hcodec
  obtain ⟨⟨y, hy, hequals, hsame⟩, -⟩ := hdecode _ _ hx
  exact ⟨hcodec, x, y, hx, hencode, hy, hequals, hsame, hconvert x (.inl ⟨_, hx⟩)⟩

end DecisionTables.Codec
