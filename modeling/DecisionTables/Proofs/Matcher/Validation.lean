import DecisionTables.Codec.Standard
import DecisionTables.Matcher.Range
import DecisionTables.Proofs.Sequencing

/-!
# Validation of range patterns covers their evaluation

A bound is either open or a text that the codec of the level has to read. Validation reads both bounds and reports the
first that cannot be read (`Range.validate_eq_error_iff`). The evaluation for a value reads the value first, then the
lower bound, and the upper bound only for a value that clears the lower one (`Range.accepts_eq_error_iff`). So a
pattern that passes validation fails for no value that can be read, and one that does not pass fails for every such
value that gets as far as the bound in question (`Range.accepts_eq_error_iff_of_validate`). Nothing is assumed of the
codec.
-/

namespace DecisionTables.Range

/-- A bound that is not open cannot be read. -/
def Rejects (codec : Codec) (bound : Option String) (e : ConversionError) : Prop :=
  ∃ b, bound = some b ∧ codec.decode (some b) = .error e

/-- A scalar is on the wanted side of a bound that can be read, or on the bound itself where it is closed. All scalars
clear an open bound. -/
def Clears (codec : Codec) (bound : Option String) (side : Ordering) (closed : Bool) (x : Scalar) : Prop :=
  ∀ b, bound = some b → ∃ limit, codec.decode (some b) = .ok limit ∧
    (limit.compare? x = some side ∨ limit.compare? x = some .eq ∧ closed = true)

/-- A scalar is above the lower bound of a pattern. -/
def ClearsLower (r : Range) (codec : Codec) (pattern : String) (x : Scalar) : Prop :=
  Clears codec (r.bounds pattern).1 .lt r.lowerClosed x

variable {r : Range} {codec : Codec} {bound : Option String} {pattern v : String} {x : Scalar} {e : ConversionError}

/-! ### One bound -/

private theorem validateBound_eq_error_iff : validateBound codec bound = .error e ↔ Rejects codec bound e := by
  cases bound with
  | none => simp [validateBound, Rejects]
  | some b => simp [validateBound, Rejects, map_eq_error]

private theorem validateBound_eq_ok_iff : validateBound codec bound = .ok () ↔ ∀ e, ¬ Rejects codec bound e := by
  have h : ∀ e, ¬ Rejects codec bound e ↔ validateBound codec bound ≠ .error e :=
    fun e => not_congr validateBound_eq_error_iff.symm
  simp only [h]
  cases validateBound codec bound <;> simp

/-- The comparison with a bound fails only where the bound cannot be read, whatever it is compared with. -/
private theorem within_eq_error_iff {side : Ordering} {closed : Bool} :
    within codec bound side closed x = .error e ↔ Rejects codec bound e := by
  cases bound with
  | none => simp [within, Rejects]
  | some b =>
    have hrejects : Rejects codec (some b) e ↔ codec.decode (some b) = .error e := by simp [Rejects]
    rw [hrejects, within]
    cases codec.decode (some b) with
    | error e' => simp [bind, Except.bind]
    | ok limit =>
      simp only [bind, Except.bind, reduceCtorEq, iff_false]
      cases limit.compare? x with
      | none => simp [pure, Except.pure]
      | some order => cases order <;> simp [pure, Except.pure]

private theorem within_eq_true_iff {side : Ordering} {closed : Bool} (hside : side ≠ .eq) :
    within codec bound side closed x = .ok true ↔ Clears codec bound side closed x := by
  cases bound with
  | none => simp [within, Clears]
  | some b =>
    simp only [Clears, Option.some.injEq, forall_eq']
    rw [within]
    cases codec.decode (some b) with
    | error e' => simp [bind, Except.bind]
    | ok limit =>
      simp only [bind, Except.bind, Except.ok.injEq, exists_eq_left']
      cases limit.compare? x with
      | none => simp [pure, Except.pure]
      | some order =>
        -- a bound is wanted on one side, and equality is left to `closed`
        cases side with
        | eq => exact absurd rfl hside
        | lt => cases order <;> simp [pure, Except.pure]
        | gt => cases order <;> simp [pure, Except.pure]

/-! ### Both bounds -/

/-- Validation reports the lower bound, and the upper one only where the lower one can be read. -/
theorem validate_eq_error_iff : r.validate codec pattern = .error e ↔
    Rejects codec (r.bounds pattern).1 e ∨
      (∀ e', ¬ Rejects codec (r.bounds pattern).1 e') ∧ Rejects codec (r.bounds pattern).2 e := by
  rw [validate, bind_eq_error, validateBound_eq_error_iff, ← validateBound_eq_ok_iff]
  refine or_congr_right ?_
  constructor
  · rintro ⟨⟨⟩, hlower, hupper⟩
    exact ⟨hlower, validateBound_eq_error_iff.1 hupper⟩
  · rintro ⟨hlower, hupper⟩
    exact ⟨(), hlower, validateBound_eq_error_iff.2 hupper⟩

private theorem validate_eq_ok_iff : r.validate codec pattern = .ok () ↔
    ∀ e, ¬ Rejects codec (r.bounds pattern).1 e ∧ ¬ Rejects codec (r.bounds pattern).2 e := by
  rw [validate, bind_eq_ok, forall_and, ← validateBound_eq_ok_iff, ← validateBound_eq_ok_iff]
  constructor
  · rintro ⟨⟨⟩, hlower, hupper⟩
    exact ⟨hlower, hupper⟩
  · rintro ⟨hlower, hupper⟩
    exact ⟨(), hlower, hupper⟩

theorem accepts_eq (hv : Text.isBlank v = false) : r.accepts codec (some v) pattern =
    codec.decode (some v) >>= fun x => within codec (r.bounds pattern).1 .lt r.lowerClosed x >>= fun inside =>
      if inside then within codec (r.bounds pattern).2 .gt r.upperClosed x else .ok false := by
  rw [accepts]
  simp only [hv, Bool.false_eq_true, if_false]
  rfl

/-- The evaluation reads the value, then the lower bound, then the upper bound for a value that clears the lower one,
and fails with the first error. -/
theorem accepts_eq_error_iff (hv : Text.isBlank v = false) : r.accepts codec (some v) pattern = .error e ↔
    codec.decode (some v) = .error e ∨ ∃ x, codec.decode (some v) = .ok x ∧
      (Rejects codec (r.bounds pattern).1 e ∨
        r.ClearsLower codec pattern x ∧ Rejects codec (r.bounds pattern).2 e) := by
  rw [accepts_eq hv, bind_eq_error]
  refine or_congr_right (exists_congr fun x => and_congr_right fun _ => ?_)
  have hlt : (.lt : Ordering) ≠ .eq := by decide
  rw [bind_eq_error, within_eq_error_iff, ClearsLower, ← within_eq_true_iff hlt]
  refine or_congr_right ?_
  constructor
  · rintro ⟨inside, hinside, hupper⟩
    cases inside with
    | false => simp at hupper
    | true => exact ⟨hinside, within_eq_error_iff.1 hupper⟩
  · rintro ⟨hinside, hupper⟩
    exact ⟨true, hinside, within_eq_error_iff.2 hupper⟩

/-- A value that does not clear the lower bound is not compared with the upper one. -/
private theorem accepts_of_not_clears (hv : Text.isBlank v = false) (hx : codec.decode (some v) = .ok x)
    (hlower : ∀ e, ¬ Rejects codec (r.bounds pattern).1 e) (hout : ¬ r.ClearsLower codec pattern x) :
    r.accepts codec (some v) pattern = .ok false := by
  have hlt : (.lt : Ordering) ≠ .eq := by decide
  have hinside : within codec (r.bounds pattern).1 .lt r.lowerClosed x = .ok false := by
    rw [ClearsLower, ← within_eq_true_iff hlt] at hout
    cases hwithin : within codec (r.bounds pattern).1 .lt r.lowerClosed x with
    | error e => exact absurd (within_eq_error_iff.1 hwithin) (hlower e)
    | ok inside =>
      cases inside with
      | false => rfl
      | true => exact absurd hwithin hout
  rw [accepts_eq hv, hx]
  show (within codec (r.bounds pattern).1 .lt r.lowerClosed x >>= _) = _
  rw [hinside]
  rfl

theorem accepts_blank {value : Option String} (h : ∀ v, value = some v → Text.isBlank v = true) :
    r.accepts codec value pattern = .ok false := by
  cases value with
  | none => rfl
  | some v => rw [accepts, if_pos (h v rfl)]

/-- A pattern that passes validation fails for just the values that cannot be read, with their own error. -/
theorem accepts_eq_error_iff_of_valid {value : Option String} (hvalid : r.validate codec pattern = .ok ()) :
    r.accepts codec value pattern = .error e ↔
      ∃ v, value = some v ∧ Text.isBlank v = false ∧ codec.decode (some v) = .error e := by
  obtain ⟨hlower, hupper⟩ := validate_eq_ok_iff.1 hvalid e
  constructor
  · intro hfails
    by_cases hblank : ∃ v, value = some v ∧ Text.isBlank v = false
    · obtain ⟨v, rfl, hv⟩ := hblank
      rcases (accepts_eq_error_iff hv).1 hfails with hown | ⟨x, -, hbound | ⟨-, hbound⟩⟩
      · exact ⟨v, rfl, hv, hown⟩
      · exact absurd hbound hlower
      · exact absurd hbound hupper
    · have hnot : r.accepts codec value pattern = .ok false := by
        refine accepts_blank fun v hv => ?_
        simpa [hv] using hblank
      cases hnot.symm.trans hfails
  · rintro ⟨v, rfl, hv, hown⟩
    exact (accepts_eq_error_iff hv).2 (.inl hown)

/-- A pattern that passes validation decides about every value that can be read. -/
theorem exists_accepts (hvalid : r.validate codec pattern = .ok ()) (hx : codec.decode (some v) = .ok x) :
    ∃ inside, r.accepts codec (some v) pattern = .ok inside := by
  rw [← errorOf?_eq_none, Option.eq_none_iff_forall_ne_some]
  intro e he
  rw [errorOf?_eq_some, accepts_eq_error_iff_of_valid hvalid] at he
  obtain ⟨w, hw, -, hown⟩ := he
  rw [← hw, hx] at hown
  cases hown

/-- A pattern that passes validation fails for just the values that cannot be read, with their own error. A
pattern whose lower bound cannot be read is rejected with the error of that bound and fails with it for every
value that can be read. If only its upper bound cannot be read, then of those values just the ones that clear
the lower bound fail, with the error of the upper bound, and the others are not accepted. Whatever the pattern,
null and blank values are not accepted, and a value that cannot be read fails with its own error. -/
theorem accepts_eq_error_iff_of_validate (r : Range) (codec : Codec) (pattern : String) :
    (r.matcher.validate codec pattern = .ok () → ∀ value e,
      r.matcher.accepts codec value pattern = .error e ↔
        ∃ v, value = some v ∧ Text.isBlank v = false ∧ codec.decode (some v) = .error e) ∧
    (∀ e, r.matcher.validate codec pattern = .error e ↔
      Rejects codec (r.bounds pattern).1 e ∨
        (∀ e', ¬ Rejects codec (r.bounds pattern).1 e') ∧ Rejects codec (r.bounds pattern).2 e) ∧
    (∀ e, Rejects codec (r.bounds pattern).1 e → ∀ v x, Text.isBlank v = false → codec.decode (some v) = .ok x →
      r.matcher.accepts codec (some v) pattern = .error e) ∧
    (∀ e, (∀ e', ¬ Rejects codec (r.bounds pattern).1 e') → Rejects codec (r.bounds pattern).2 e →
      ∀ v x, Text.isBlank v = false → codec.decode (some v) = .ok x →
        (r.ClearsLower codec pattern x ↔ r.matcher.accepts codec (some v) pattern = .error e) ∧
        (¬ r.ClearsLower codec pattern x ↔ r.matcher.accepts codec (some v) pattern = .ok false)) ∧
    (∀ value, (∀ v, value = some v → Text.isBlank v = true) → r.matcher.accepts codec value pattern = .ok false) ∧
    ∀ v e, Text.isBlank v = false → codec.decode (some v) = .error e →
      r.matcher.accepts codec (some v) pattern = .error e := by
  refine ⟨fun hvalid value e => accepts_eq_error_iff_of_valid hvalid, fun e => validate_eq_error_iff, ?_, ?_,
    fun value => accepts_blank, ?_⟩
  · intro e hlower v x hv hx
    exact (accepts_eq_error_iff hv).2 (.inr ⟨x, hx, .inl hlower⟩)
  · intro e hlower hupper v x hv hx
    have hfails : r.ClearsLower codec pattern x → r.accepts codec (some v) pattern = .error e :=
      fun hclears => (accepts_eq_error_iff hv).2 (.inr ⟨x, hx, .inr ⟨hclears, hupper⟩⟩)
    have hpasses : ¬ r.ClearsLower codec pattern x → r.accepts codec (some v) pattern = .ok false :=
      accepts_of_not_clears hv hx hlower
    constructor
    · refine ⟨hfails, fun h => ?_⟩
      by_contra hout
      cases (hpasses hout).symm.trans h
    · refine ⟨hpasses, fun h hclears => ?_⟩
      cases (hfails hclears).symm.trans h
  · intro v e hv hown
    exact (accepts_eq_error_iff hv).2 (.inl hown)

/-- The error of a text without digits on a level of integers. -/
def noInteger (s : String) : ConversionError :=
  ⟨"integer", s, .integer .invalidDigit⟩

/-- The same three texts at a pattern of two readable bounds, one without an upper and one without any bound that can
be read. -/
theorem accepts_eq_error_iff_of_validate_letters :
    let r : Range := {}
    r.matcher.validate .integer "1 - 9" = .ok () ∧
      r.matcher.accepts .integer (some "y") "1 - 9" = .error (noInteger "y") ∧
      r.matcher.validate .integer "3 - x" = .error (noInteger "x") ∧
      r.matcher.accepts .integer (some "5") "3 - x" = .error (noInteger "x") ∧
      r.matcher.accepts .integer (some "2") "3 - x" = .ok false ∧
      r.matcher.validate .integer "z - x" = .error (noInteger "z") ∧
      r.matcher.accepts .integer (some "2") "z - x" = .error (noInteger "z") := by
  intro r
  have hone : r.bounds "1 - 9" = (some "1", some "9") := by decide
  have hthree : r.bounds "3 - x" = (some "3", some "x") := by decide
  have hletters : r.bounds "z - x" = (some "z", some "x") := by decide
  have hread : ∀ s n, Codec.integer.decode (some s) = .ok n → ∀ e, ¬ Rejects .integer (some s) e := by
    intro s n hn e hrejects
    obtain ⟨t, ht, he⟩ := hrejects
    rw [← ht, hn] at he
    cases he
  have hx : Rejects .integer (some "x") (noInteger "x") := ⟨"x", rfl, by decide⟩
  have hz : Rejects .integer (some "z") (noInteger "z") := ⟨"z", rfl, by decide⟩
  have h1 : Codec.integer.decode (some "1") = .ok (.integer 1) := by decide
  have h2 : Codec.integer.decode (some "2") = .ok (.integer 2) := by decide
  have h3 : Codec.integer.decode (some "3") = .ok (.integer 3) := by decide
  have h5 : Codec.integer.decode (some "5") = .ok (.integer 5) := by decide
  have h9 : Codec.integer.decode (some "9") = .ok (.integer 9) := by decide
  have hvalid : r.matcher.validate .integer "1 - 9" = .ok () := by
    refine validate_eq_ok_iff.2 fun e => ?_
    rw [hone]
    exact ⟨hread "1" _ h1 e, hread "9" _ h9 e⟩
  have habove : r.ClearsLower .integer "3 - x" (.integer 5) := by
    rw [ClearsLower, hthree]
    rintro _ ⟨⟩
    exact ⟨_, h3, .inl (by decide)⟩
  have hbelow : ¬ r.ClearsLower .integer "3 - x" (.integer 2) := by
    rw [ClearsLower, hthree]
    intro h
    obtain ⟨limit, hlimit, hside⟩ := h "3" rfl
    obtain rfl : limit = .integer 3 := Except.ok.inj (hlimit.symm.trans h3)
    exact absurd hside (by decide)
  obtain ⟨hreads, -⟩ := accepts_eq_error_iff_of_validate r .integer "1 - 9"
  obtain ⟨-, hupper, -, hpasses, -⟩ := accepts_eq_error_iff_of_validate r .integer "3 - x"
  obtain ⟨-, hlower, hfails, -⟩ := accepts_eq_error_iff_of_validate r .integer "z - x"
  rw [hthree] at hupper hpasses
  rw [hletters] at hlower hfails
  have hpasses := hpasses _ (hread "3" _ h3) hx
  refine ⟨hvalid, (hreads hvalid _ _).2 ⟨"y", rfl, by decide, by decide⟩, (hupper _).2 (.inr ⟨hread "3" _ h3, hx⟩),
    (hpasses "5" _ (by decide) h5).1.1 habove, (hpasses "2" _ (by decide) h2).2.1 hbelow, (hlower _).2 (.inl hz),
    hfails _ hz "2" _ (by decide) h2⟩

end DecisionTables.Range
