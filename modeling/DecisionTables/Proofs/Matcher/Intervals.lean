import DecisionTables.Proofs.Codec.Laws
import DecisionTables.Proofs.Matcher.Validation
import DecisionTables.Proofs.Scalar.Order

/-!
# Ranges as intervals

A range pattern is a lower bound, a separator and an upper bound, with white space around the bounds, where a
bound is the canonical text of a scalar, or open (`Range.Writes`). On a level of integers, booleans, dates or
decimals it stands for the interval between the two scalars (`Range.Admits`). It is divided at the separator
that comes first in the list, wherever this one occurs in the upper bound (`bounds_of_split`); the bounds are
read back as equal scalars, and those compare as the scalars that were written (`accepts_of_bounds`).
-/

namespace DecisionTables.Range

/-- What may be written for a bound: the canonical text of a scalar, or white space or the wildcard for none. -/
def Writes (codec : Codec) : Option Scalar → List Char → Prop
  | some x, cs => codec.encode x = some (String.ofList cs)
  | none, cs => (∀ c ∈ cs, Text.isSpace c = true) ∨ cs = wildcard.toList

/-- A scalar lies between the bounds, of which an absent one is open. -/
def Admits (r : Range) (lower upper : Option Scalar) (v : Scalar) : Prop :=
  (∀ l, lower = some l → l.Below v ∨ l.equals v = true ∧ r.lowerClosed = true) ∧
    (∀ u, upper = some u → v.Below u ∨ v.equals u = true ∧ r.upperClosed = true)

/-- White space in which no separator occurs. -/
def IsPadding (r : Range) (cs : List Char) : Prop :=
  ∀ c ∈ cs, Text.isSpace c = true ∧ c ∉ r.separators

instance (r : Range) (cs : List Char) : Decidable (r.IsPadding cs) :=
  decidable_of_iff ((cs.all fun c => Text.isSpace c && !r.separators.contains c) = true) (by simp [IsPadding])

variable {r : Range} {codec : Codec} {kind : Kind}

/-! ### Dividing a pattern -/

private theorem separatorOf_eq {before after cs : List Char} {s : Char}
    (hseparators : r.separators = before ++ s :: after)
    (hs : s ∈ cs) (hbefore : ∀ x ∈ before, x ∈ cs → x = s) : r.separatorOf cs = s := by
  have hfind : r.separators.find? cs.contains = some s := by
    rw [hseparators, List.find?_append]
    cases hfound : before.find? cs.contains with
    | none => simp [hs]
    | some x =>
      have hx : x ∈ cs := by simpa using List.find?_some hfound
      rw [hbefore x (List.mem_of_find?_eq_some hfound) hx]
      rfl
  rw [separatorOf, hfind]
  rfl

/-- The separator may occur again after the place where the pattern is divided. -/
theorem bounds_of_split {before after front back : List Char} {s : Char}
    (hseparators : r.separators = before ++ s :: after) (hfront : s ∉ front)
    (hbefore : ∀ x ∈ before, x ∉ front ∧ x ∉ back) :
    r.bounds (String.ofList (front ++ s :: back)) = (bound? front, bound? back) := by
  have hseparator : r.separatorOf (front ++ s :: back) = s := by
    refine separatorOf_eq hseparators (by simp) fun x hx hmem => ?_
    rcases List.mem_append.1 hmem with h | h
    · exact absurd h (hbefore x hx).1
    · exact (List.mem_cons.1 h).resolve_right (hbefore x hx).2
  have hne : ∀ c ∈ front, (c != s) = true := by
    intro c hc
    simp only [bne_iff_ne]
    rintro rfl
    exact hfront hc
  have htake : (front ++ s :: back).takeWhile (· != s) = front := by
    rw [List.takeWhile_append_of_pos hne, List.takeWhile_cons_of_neg (by simp), List.append_nil]
  have hdrop : (front ++ s :: back).dropWhile (· != s) = s :: back := by
    rw [List.dropWhile_append_of_pos hne, List.dropWhile_cons_of_neg (by simp)]
  simp only [bounds, String.toList_ofList, hseparator, htake, hdrop, List.drop_succ_cons, List.drop_zero]

/-- White space around a bound does not matter, and an open one is read as such. -/
private theorem bound?_padded (hcodec : (codec, kind) ∈ Codec.typed) {bound : Option Scalar}
    (hkind : ∀ x, bound = some x → x.kind = kind) {cs front back : List Char} (h : Writes codec bound cs)
    (hfront : ∀ c ∈ front, Text.isSpace c = true) (hback : ∀ c ∈ back, Text.isSpace c = true) :
    bound? (front ++ cs ++ back) = bound.bind codec.encode := by
  rw [bound?, Text.strip_padded hfront hback]
  cases bound with
  | none =>
    rcases h with hspace | rfl
    · simp [Text.strip_eq_nil.2 hspace]
    · rfl
  | some x =>
    obtain ⟨ds, hds, hsolid⟩ := Codec.solid_encode hcodec (hkind x rfl)
    obtain rfl : cs = ds := by simpa using congrArg String.toList (Option.some.inj (h.symm.trans hds))
    have hwildcard : cs ≠ wildcard.toList := by
      rintro rfl
      exact hsolid.ne_wildcard rfl
    rw [hsolid.strip_eq]
    simp [hsolid.1, hwildcard, hds]

/-! ### Comparing with the bounds -/

/-- Each bound that is there can be read. -/
private theorem validateBound_encode (hlaws : codec.Lawful kind) {bound : Option Scalar}
    (hbound : ∀ x, bound = some x → x.kind = kind ∧ x.Readable) :
    validateBound codec (bound.bind codec.encode) = .ok () := by
  cases bound with
  | none => rfl
  | some x =>
    obtain ⟨hkind, hreadable⟩ := hbound x rfl
    obtain ⟨y, hy, -⟩ := hlaws.decode_encode hkind hreadable
    obtain ⟨t, ht⟩ := Option.isSome_iff_exists.1 (hlaws.encode_isSome hkind)
    rw [ht] at hy
    rw [Option.bind_some, ht, validateBound, hy]
    rfl

/-- A scalar that was read is compared with a bound as the scalar that was written. -/
private theorem within_encode (hlaws : codec.Lawful kind) {bound : Option Scalar}
    (hbound : ∀ x, bound = some x → x.kind = kind ∧ x.Readable) {v v' : Scalar} (hv : v.equals v' = true)
    (side : Ordering) (closed : Bool) :
    ∃ inside, within codec (bound.bind codec.encode) side closed v = .ok inside ∧
      (inside = true ↔ ∀ x, bound = some x → x.compare? v' = some .eq ∧ closed = true ∨
        x.compare? v' = some side ∧ side ≠ .eq) := by
  cases bound with
  | none => exact ⟨true, rfl, by simp⟩
  | some x =>
    obtain ⟨hkind, hreadable⟩ := hbound x rfl
    obtain ⟨y, hy, hequals⟩ := hlaws.decode_encode hkind hreadable
    obtain ⟨t, ht⟩ := Option.isSome_iff_exists.1 (hlaws.encode_isSome hkind)
    rw [ht] at hy
    rw [Option.bind_some, ht, within, hy]
    simp only [bind, Except.bind, Scalar.compare?_congr hequals hv, Option.some.injEq, forall_eq']
    cases x.compare? v' with
    | none => exact ⟨false, rfl, by simp⟩
    | some order => cases order <;> cases side <;> simp [pure, Except.pure]

section

variable {lower upper : Option Scalar} {pattern : String}

theorem validate_of_bounds (hlaws : codec.Lawful kind)
    (hlower : ∀ x, lower = some x → x.kind = kind ∧ x.Readable)
    (hupper : ∀ x, upper = some x → x.kind = kind ∧ x.Readable)
    (hbounds : r.bounds pattern = (lower.bind codec.encode, upper.bind codec.encode)) :
    r.validate codec pattern = .ok () := by
  rw [validate, hbounds, validateBound_encode hlaws hlower, validateBound_encode hlaws hupper]
  rfl

/-- The value of a text is accepted if it lies between the scalars of the bounds. -/
theorem accepts_of_bounds (hcodec : (codec, kind) ∈ Codec.typed)
    (hlower : ∀ x, lower = some x → x.kind = kind ∧ x.Readable)
    (hupper : ∀ x, upper = some x → x.kind = kind ∧ x.Readable)
    (hbounds : r.bounds pattern = (lower.bind codec.encode, upper.bind codec.encode)) {v : Scalar}
    (hv : v.kind = kind) (hreadable : v.Readable) :
    ∃ inside, r.accepts codec (codec.encode v) pattern = .ok inside ∧
      (inside = true ↔ r.Admits lower upper v) := by
  have hlaws := Codec.lawful_of_mem_typed hcodec
  obtain ⟨cs, hcs, hsolid⟩ := Codec.solid_encode hcodec hv
  obtain ⟨v', hdecode, hequals⟩ := hlaws.decode_encode hv hreadable
  obtain ⟨above, habove, hlowerIff⟩ := within_encode hlaws hlower hequals .lt r.lowerClosed
  obtain ⟨below, hbelow, hupperIff⟩ := within_encode hlaws hupper hequals .gt r.upperClosed
  have hinside : above = true ∧ below = true ↔ r.Admits lower upper v := by
    rw [hlowerIff, hupperIff, Admits]
    refine and_congr (forall_congr' fun l => forall_congr' fun hl => ?_)
      (forall_congr' fun u => forall_congr' fun hu => ?_)
    · have hkind := (hlower l hl).1.trans hv.symm
      rw [Scalar.compare?_eq_eq_iff hkind, Scalar.compare?_eq_lt_iff hkind]
      simp [or_comm]
    · have hkind := (hupper u hu).1.trans hv.symm
      rw [Scalar.compare?_eq_eq_iff hkind, Scalar.compare?_eq_gt_iff hkind, Scalar.equals_comm]
      simp [or_comm]
  refine ⟨above && below, ?_, by rw [Bool.and_eq_true, hinside]⟩
  rw [hcs] at hdecode
  rw [hcs, accepts, hbounds, hdecode]
  simp only [hsolid.isBlank_eq, Bool.false_eq_true, if_false, bind, Except.bind, habove, hbelow]
  cases above <;> rfl

end

/-- Patterns are read with their bounds, if the separator is not part of the lower one and none that comes before it
in the list is part of a bound. -/
theorem bounds_written (hcodec : (codec, kind) ∈ Codec.typed) {before after : List Char} {s : Char}
    (hseparators : r.separators = before ++ s :: after) {lower upper : Option Scalar}
    (hlower : ∀ x, lower = some x → x.kind = kind) (hupper : ∀ x, upper = some x → x.kind = kind)
    {ls us : List Char} (hls : Writes codec lower ls) (hus : Writes codec upper us) (hs : s ∉ ls)
    (hbefore : ∀ x ∈ before, x ∉ ls ∧ x ∉ us) {as bs cs ds : List Char} (has : r.IsPadding as)
    (hbs : r.IsPadding bs) (hcs : r.IsPadding cs) (hds : r.IsPadding ds) :
    r.bounds (String.ofList (as ++ ls ++ bs ++ s :: (cs ++ us ++ ds))) =
      (lower.bind codec.encode, upper.bind codec.encode) := by
  have hsep : s ∈ r.separators := by simp [hseparators]
  have hnot : ∀ {xs : List Char} {x : Char}, r.IsPadding xs → x ∈ r.separators → x ∉ xs :=
    fun hxs hx hmem => (hxs _ hmem).2 hx
  rw [bounds_of_split hseparators,
    bound?_padded hcodec hlower hls (fun c hc => (has c hc).1) fun c hc => (hbs c hc).1,
    bound?_padded hcodec hupper hus (fun c hc => (hcs c hc).1) fun c hc => (hds c hc).1]
  · simp [hs, hnot has hsep, hnot hbs hsep]
  · intro x hx
    have hmem : x ∈ r.separators := by simp [hseparators, hx]
    simp [hbefore x hx, hnot has hmem, hnot hbs hmem, hnot hcs hmem, hnot hds hmem]

/-- A range that is written with a separator of the list can be evaluated, and it accepts just the scalars of its
interval. Null and blank text are in no range. -/
theorem accepts_written (hcodec : (codec, kind) ∈ Codec.typed) {before after : List Char} {s : Char}
    (hseparators : r.separators = before ++ s :: after) {lower upper : Option Scalar}
    (hlower : ∀ x, lower = some x → x.kind = kind ∧ x.Readable)
    (hupper : ∀ x, upper = some x → x.kind = kind ∧ x.Readable) {ls us : List Char} (hls : Writes codec lower ls)
    (hus : Writes codec upper us) (hs : s ∉ ls) (hbefore : ∀ x ∈ before, x ∉ ls ∧ x ∉ us)
    {as bs cs ds : List Char} (has : r.IsPadding as) (hbs : r.IsPadding bs) (hcs : r.IsPadding cs)
    (hds : r.IsPadding ds) :
    let pattern := String.ofList (as ++ ls ++ bs ++ s :: (cs ++ us ++ ds))
    r.matcher.validate codec pattern = .ok () ∧
      (∀ v : Scalar, v.kind = kind → v.Readable →
        ∃ inside, r.matcher.accepts codec (codec.encode v) pattern = .ok inside ∧
          (inside = true ↔ r.Admits lower upper v)) ∧
      ∀ value, (∀ v, value = some v → Text.isBlank v = true) → r.matcher.accepts codec value pattern = .ok false := by
  intro pattern
  have hbounds : r.bounds pattern = (lower.bind codec.encode, upper.bind codec.encode) :=
    bounds_written hcodec hseparators (fun x hx => (hlower x hx).1) (fun x hx => (hupper x hx).1) hls hus hs hbefore
      has hbs hcs hds
  exact ⟨validate_of_bounds (Codec.lawful_of_mem_typed hcodec) hlower hupper hbounds,
    fun v hv hreadable => accepts_of_bounds hcodec hlower hupper hbounds hv hreadable, fun value => accepts_blank⟩

/-- Ranges with a hyphen between the bounds. -/
def hyphened : Range :=
  { separators := ['~', '-'] }

/-- The hyphen is the separator and also the sign of the upper bound. -/
theorem accepts_written_hyphened :
    hyphened.matcher.validate .integer " * -\t-3" = .ok () ∧
      hyphened.matcher.accepts .integer (some "-4") " * -\t-3" = .ok true ∧
      hyphened.matcher.accepts .integer (some "-3") " * -\t-3" = .ok false ∧
      hyphened.matcher.accepts .integer (some " ") " * -\t-3" = .ok false := by
  have hseparators : hyphened.separators = ['~'] ++ '-' :: [] := rfl
  have hlower : ∀ x, (none : Option Scalar) = some x → x.kind = .integer ∧ x.Readable := by simp
  have hupper : ∀ x, some (Scalar.integer (-3)) = some x → x.kind = .integer ∧ x.Readable := by
    rintro _ ⟨⟩
    exact ⟨rfl, trivial⟩
  have hls : Writes .integer none ['*'] := .inr rfl
  have hus : Writes .integer (some (.integer (-3))) ['-', '3'] := by
    show Codec.integer.encode (.integer (-3)) = _
    rfl
  have hspace : hyphened.IsPadding [' '] := by decide
  have htab : hyphened.IsPadding ['\t'] := by decide
  have hempty : hyphened.IsPadding [] := by decide
  have hcodec : (Codec.integer, Kind.integer) ∈ Codec.typed := by simp [Codec.typed]
  have hlast : '-' ∉ ['*'] := by decide
  have hearlier : ∀ x ∈ ['~'], x ∉ ['*'] ∧ x ∉ ['-', '3'] := by simp
  obtain ⟨hvalidate, haccepts, hblank⟩ :=
    accepts_written hcodec hseparators hlower hupper hls hus hlast hearlier hspace hspace htab hempty
  obtain ⟨inside, hinside, hiff⟩ := haccepts (.integer (-4)) rfl trivial
  obtain ⟨outside, houtside, hiff'⟩ := haccepts (.integer (-3)) rfl trivial
  obtain rfl : inside = true := hiff.2 ⟨by simp, by
    rintro _ ⟨⟩
    exact .inl (show (-4 : Int64) < -3 by decide)⟩
  obtain rfl : outside = false := by
    rw [← Bool.not_eq_true, hiff']
    rintro ⟨-, hbelow⟩
    rcases hbelow _ rfl with h | ⟨-, h⟩
    · exact absurd h (show ¬ (-3 : Int64) < -3 by decide)
    · cases h
  exact ⟨hvalidate, hinside, houtside, hblank (some " ") (by
    rintro _ ⟨⟩
    decide)⟩

end DecisionTables.Range
