import DecisionTables.Proofs.Codec.Laws
import DecisionTables.Proofs.Table.Preparing
import DecisionTables.Proofs.Tree.Ranking
import DecisionTables.Query

/-!
# Levels that compare texts

On a level with an exact matcher a value is looked up among the children of a tree by its text
(`candidates_build_of_exact`). With a standard codec this comparison of canonical texts is the comparison of
typed values: the child that a value is looked up in is that of a stored pattern if and only if the scalars of
the two are equal (`sought_eq_normalizePattern_iff`).
-/

namespace DecisionTables

/-- The pattern of the child in which a value is looked up on an exact level, given by its text. -/
def Pattern.sought : Option String → Pattern
  | none => .null
  | some s => .text s

private theorem Pattern.sought_injective {a b : Option String} (h : sought a = sought b) : a = b := by
  cases a <;> cases b <;> simp_all [sought]

private theorem Pattern.ofText?_eq_sought {t : Option String} (h : t ≠ some wildcard) : ofText? t = sought t := by
  cases t with
  | none => rfl
  | some s =>
    have hs : s ≠ wildcard := fun hs => h (congrArg some hs)
    rw [ofText?, if_neg hs, sought]

/-- Of two elements, those are kept in order that belong to a list without repetitions. -/
private theorem filter_eq_singleton {β : Type} [DecidableEq β] {bs : List β} (h : bs.Nodup) (b : β) :
    bs.filter (· = b) = [b].filter (· ∈ bs) := by
  rw [List.filter_eq, List.Nodup.count h]
  by_cases hb : b ∈ bs <;> simp [hb]

namespace Tree

variable {α : Type}

/-- On an exact level at most two children are tried: the one in which the value is looked up, and that of the
wildcard. -/
theorem candidates_build_of_exact {p : Probe} (hexact : p.matcher.exact = true)
    (hvalue : ∀ s, p.value = some s → Text.isBlank s = false) (n : Nat) (rows : List (Filed α)) :
    (build (n + 1) rows).candidates p =
      .ok (([Pattern.sought p.value, .any].filter (· ∈ labels rows)).map fun x => build n (rowsUnder rows x)) := by
  have hadmits : ∀ x, p.admits x = .ok (decide (x = Pattern.sought p.value)) := by
    intro x
    cases hv : p.value with
    | none => cases x <;> simp [Probe.admits, hv, Pattern.sought]
    | some s =>
      have hs := hvalue s hv
      cases x <;> simp [Probe.admits, hv, hexact, hs, Pattern.sought]
      rw [Bool.beq_eq_decide_eq]
  have hnodup : (labels rows).Nodup := nodup_eraseDups _
  rw [candidates_build fun x _ => ⟨_, hadmits x⟩, tried]
  have hsought : (labels rows).filter (fun x => (p.admits x).toOption == some true) =
      [Pattern.sought p.value].filter (· ∈ labels rows) := by
    rw [← filter_eq_singleton hnodup]
    apply List.filter_congr
    intro x _
    simp [hadmits, Except.toOption]
  have hany : (labels rows).filter (· == .any) = [Pattern.any].filter (· ∈ labels rows) := by
    rw [← filter_eq_singleton hnodup]
    apply List.filter_congr
    intro x _
    rw [Bool.beq_eq_decide_eq]
  rw [hsought, hany, ← List.filter_append]
  rfl

end Tree

namespace ReadyLevel

variable {l : ReadyLevel}

private theorem normalizePattern_of_exact {kind : Kind} (hlaws : Codec.Lawful l.codec kind)
    (hexact : l.matcher.exact = true) {p : Option String} (hp : p ≠ some wildcard) {pattern : Pattern}
    (h : l.normalizePattern p = .ok pattern) :
    ∃ x, l.codec.decode p = .ok x ∧ pattern = Pattern.sought (l.codec.encode x) := by
  cases p with
  | none =>
    cases h
    exact ⟨.null, hlaws.decode_none, by rw [hlaws.encode_null, Pattern.sought]⟩
  | some s =>
    have hs : s ≠ wildcard := fun hs => hp (congrArg some hs)
    rw [normalizePattern, if_neg hs, if_pos hexact] at h
    obtain ⟨x, hx, rfl⟩ := map_eq_ok.1 h
    exact ⟨x, hx, Pattern.ofText?_eq_sought (hlaws.encode_ne_wildcard hp hx)⟩

private theorem normalizeValue_of_not_blank {v : Value} (hv : ∀ s, v = .text s → Text.isBlank s = false) :
    l.normalizeValue v = (l.codec.convert v).map l.codec.encode := by
  cases v with
  | text s => rw [normalizeValue, if_neg (by simp [hv s rfl])]
  | _ => rfl

/-- A pattern other than the wildcard is the one in which a value is looked up if and only if the two mean equal
scalars, and so is another pattern the same. -/
theorem sought_eq_normalizePattern_iff (hcodec : l.codec ∈ Codec.standard) (hmatcher : l.matcher = .strict)
    {p : Option String} (hp : p ≠ some wildcard) {pattern : Pattern} (hpattern : l.normalizePattern p = .ok pattern) :
    ∃ x, l.codec.decode p = .ok x ∧ pattern ≠ .any ∧
      (∀ v y, (∀ s, v = .text s → Text.isBlank s = false) → l.codec.convert v = .ok y →
        ∃ query, l.normalizeValue v = .ok query ∧
          (∀ (n : Nat) (rows : List (Tree.Filed ReadyEntry)), (Tree.build (n + 1) rows).candidates (l.probe query) =
            .ok (([Pattern.sought query, .any].filter (· ∈ Tree.labels rows)).map fun x =>
              Tree.build n (Tree.rowsUnder rows x))) ∧
          (Pattern.sought query = pattern ↔ x.equals y = true)) ∧
      ∀ p' pattern', p' ≠ some wildcard → l.normalizePattern p' = .ok pattern' →
        ∃ x', l.codec.decode p' = .ok x' ∧ (pattern = pattern' ↔ x.equals x' = true) := by
  obtain ⟨kind, hlaws⟩ := Codec.lawful_of_mem_standard hcodec
  have hexact : l.matcher.exact = true := by rw [hmatcher]; rfl
  obtain ⟨x, hx, rfl⟩ := normalizePattern_of_exact hlaws hexact hp hpattern
  have hxkind := hlaws.kind_of_decode hx
  refine ⟨x, hx, ?_, fun v y hv hy => ?_, fun p' pattern' hp' hpattern' => ?_⟩
  · cases l.codec.encode x <;> simp [Pattern.sought]
  · refine ⟨l.codec.encode y, by rw [normalizeValue_of_not_blank hv, hy]; rfl, fun n rows => ?_, ?_⟩
    · exact Tree.candidates_build_of_exact hexact (fun s hs => hlaws.isBlank_encode hv hy hs) n rows
    · rw [← hlaws.encode_eq_encode_iff hxkind (hlaws.kind_of_convert hy), eq_comm]
      exact ⟨Pattern.sought_injective, congrArg _⟩
  · obtain ⟨x', hx', rfl⟩ := normalizePattern_of_exact hlaws hexact hp' hpattern'
    refine ⟨x', hx', ?_⟩
    rw [← hlaws.encode_eq_encode_iff hxkind (hlaws.kind_of_decode hx')]
    exact ⟨Pattern.sought_injective, congrArg _⟩

/-- An exact level of decimals. -/
def rate : ReadyLevel :=
  ⟨"rate", none, .decimal, .strict, false, none⟩

/-- The decimal `2.00`. -/
def twoWritten : Decimal :=
  ⟨⟨200, 2, by decide, by decide⟩, false⟩

/-- An integer is looked up where a decimal pattern of its value was put, however that was written. -/
theorem sought_eq_normalizePattern_iff_two :
    rate.codec ∈ Codec.standard ∧ some " +2.00" ≠ some wildcard ∧
    rate.normalizePattern (some " +2.00") = .ok (.text "2") ∧
    (∃ query, rate.normalizeValue (.integer 2) = .ok query ∧ Pattern.sought query = .text "2") ∧
    ∃ x', rate.codec.decode (some "02.0e0") = .ok x' ∧ (Scalar.decimal twoWritten).equals x' = true := by
  have hcodec : rate.codec ∈ Codec.standard := by simp [Codec.standard, rate]
  have hpattern : rate.normalizePattern (some " +2.00") = .ok (.text "2") := rfl
  have hpattern' : rate.normalizePattern (some "02.0e0") = .ok (.text "2") := rfl
  have hdecode : rate.codec.decode (some " +2.00") = .ok (.decimal twoWritten) := rfl
  have hequals : (Scalar.decimal twoWritten).equals (.decimal (Decimal.ofInteger 2)) = true := by decide
  obtain ⟨x, hx, -, hvalue, hother⟩ := sought_eq_normalizePattern_iff hcodec rfl (by decide) hpattern
  obtain rfl : x = _ := Except.ok.inj (hx.symm.trans hdecode)
  obtain ⟨query, hquery, -, hsought⟩ := hvalue (.integer 2) (.decimal (Decimal.ofInteger 2)) (by simp) rfl
  obtain ⟨x', hx', hsame⟩ := hother (some "02.0e0") (.text "2") (by decide) hpattern'
  exact ⟨hcodec, by decide, hpattern, ⟨query, hquery, hsought.2 hequals⟩, x', hx', hsame.1 rfl⟩

end ReadyLevel

end DecisionTables
