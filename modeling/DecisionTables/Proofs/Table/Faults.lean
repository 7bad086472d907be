import DecisionTables.Proofs.Table.Preparing

/-!
# What is wrong with a level

The faults of a level are the codes of it that are not known, and those of its cells are the patterns that it
does not accept and the parts that it cannot read. Each list of faults is empty exactly if there is nothing
wrong, and its first element is the error of resolving the level or of reading the cell.
-/

namespace DecisionTables

/-! ### Codes -/

/-- What is wrong with the code of a codec. -/
def CodecRegistry.faults (r : CodecRegistry) (code : String) : List TableError :=
  if (r.get? code).isSome then [] else [.unknownCodec code]

theorem CodecRegistry.faults_eq_nil_iff {r : CodecRegistry} {code : String} :
    r.faults code = [] ↔ (r.get? code).isSome = true := by
  simp [faults]

theorem CodecRegistry.resolve_eq_ok {r : CodecRegistry} {code : String} {codec : Codec} :
    r.resolve code = .ok codec ↔ r.get? code = some codec := by
  rw [resolve]
  cases r.get? code <;> simp

theorem CodecRegistry.errorOf?_resolve (r : CodecRegistry) (code : String) :
    errorOf? (r.resolve code) = (r.faults code).head? := by
  rw [resolve, faults]
  cases r.get? code <;> rfl

namespace MatcherRegistry

/-- The matcher of a code, the default one where there is no code. -/
def find? (r : MatcherRegistry) (code : Option String) : Option Matcher :=
  match code with
  | none => some r.default
  | some code => r.matchers.get? code

/-- What is wrong with the code of a matcher. -/
def faults (r : MatcherRegistry) (code : Option String) : List TableError :=
  match code with
  | none => []
  | some code => if (r.matchers.get? code).isSome then [] else [.unknownMatcher code]

variable {r : MatcherRegistry} {code : Option String}

theorem faults_eq_nil_iff : r.faults code = [] ↔ (r.find? code).isSome = true := by
  cases code <;> simp [faults, find?]

theorem resolve_eq_ok {matcher : Matcher} : r.resolve code = .ok matcher ↔ r.find? code = some matcher := by
  cases code with
  | none => simp [resolve, find?]
  | some code =>
    rw [resolve, find?, get]
    cases r.matchers.get? code <;> simp

theorem errorOf?_resolve (r : MatcherRegistry) (code : Option String) :
    errorOf? (r.resolve code) = (r.faults code).head? := by
  cases code with
  | none => rfl
  | some code =>
    rw [resolve, faults, get]
    cases r.matchers.get? code <;> rfl

end MatcherRegistry

/-! ### Patterns and cells -/

/-- An input level accepts null, the wildcard, on an exact level the texts that the codec decodes, and on other levels
those that the matcher validates. -/
def InputFits (codec : Codec) (matcher : Matcher) : Option String → Prop
  | none => True
  | some s => s = wildcard ∨
      if matcher.exact then ∃ x, codec.decode (some s) = .ok x else ∃ x, matcher.validate codec s = .ok x

/-- The parts of an array cell, without the white space around them. An absent or blank cell and the wildcard have
none. -/
def arrayParts (separator : Char) : Option String → List String
  | none => []
  | some s =>
    if s = wildcard ∨ Text.isBlank s then [] else (s.toList.splitOn separator).map (String.ofList ∘ Text.strip)

/-- An output level reads the wildcard and what the codec decodes, on an array level each part of a cell. -/
def OutputFits (codec : Codec) (isArray : Bool) (separator : Char) (pattern : Option String) : Prop :=
  if isArray then ∀ part ∈ arrayParts separator pattern, ∃ x, codec.decode (some part) = .ok x
  else pattern = some wildcard ∨ ∃ x, codec.decode pattern = .ok x

/-- What is wrong with a pattern of an input level. -/
def inputFaults (codec : Codec) (matcher : Matcher) : Option String → List ConversionError
  | none => []
  | some s =>
    if s = wildcard then []
    else if matcher.exact then (errorOf? (codec.decode (some s))).toList
    else (errorOf? (matcher.validate codec s)).toList

/-- What is wrong with a cell of an output level, part by part on an array level. -/
def outputFaults (codec : Codec) (isArray : Bool) (separator : Char) (pattern : Option String) :
    List ConversionError :=
  if isArray then (arrayParts separator pattern).flatMap fun part => (errorOf? (codec.decode (some part))).toList
  else if pattern = some wildcard then []
  else (errorOf? (codec.decode pattern)).toList

theorem inputFaults_eq_nil_iff {codec : Codec} {matcher : Matcher} {pattern : Option String} :
    inputFaults codec matcher pattern = [] ↔ InputFits codec matcher pattern := by
  cases pattern with
  | none => simp [inputFaults, InputFits]
  | some s =>
    rw [inputFaults, InputFits]
    by_cases hs : s = wildcard
    · simp [hs]
    · by_cases he : matcher.exact = true <;> simp [hs, he, Option.toList_eq_nil_iff, errorOf?_eq_none]

theorem outputFaults_eq_nil_iff {codec : Codec} {isArray : Bool} {separator : Char} {pattern : Option String} :
    outputFaults codec isArray separator pattern = [] ↔ OutputFits codec isArray separator pattern := by
  cases isArray with
  | true => simp [outputFaults, OutputFits, errorOf?_eq_none]
  | false => by_cases hs : pattern = some wildcard <;> simp [outputFaults, OutputFits, hs, errorOf?_eq_none]

private theorem ReadyLevel.errorOf?_normalizePattern (l : ReadyLevel) (pattern : Option String) :
    errorOf? (l.normalizePattern pattern) = (inputFaults l.codec l.matcher pattern).head? := by
  cases pattern with
  | none => rfl
  | some s =>
    rw [normalizePattern, inputFaults]
    by_cases hs : s = wildcard
    · simp [hs]
    · by_cases he : l.matcher.exact = true <;> simp [hs, he]

theorem ReadyLevel.decodeArray_eq (l : ReadyLevel) (separator : Char) (pattern : Option String) :
    l.decodeArray separator pattern = (arrayParts separator pattern).mapM fun part => l.codec.decode (some part) := by
  cases pattern with
  | none => rfl
  | some s =>
    rw [decodeArray, arrayParts]
    by_cases hs : s = wildcard ∨ Text.isBlank s = true
    · have hs' : (decide (s = wildcard) || Text.isBlank s) = true := by simpa using hs
      rw [if_pos hs, if_pos hs']
      rfl
    · have hs' : ¬ (decide (s = wildcard) || Text.isBlank s) = true := by simpa using hs
      rw [if_neg hs, if_neg hs', List.mapM_map]
      rfl

private theorem ReadyLevel.errorOf?_decodeCell (l : ReadyLevel) (separator : Char) (pattern : Option String) :
    errorOf? (l.decodeCell separator pattern) = (outputFaults l.codec l.isArray separator pattern).head? := by
  rw [decodeCell, outputFaults]
  by_cases ha : l.isArray = true
  · rw [if_pos ha, if_pos ha, errorOf?_map, decodeArray_eq]
    exact errorOf?_mapM (List.forall₂_same.2 fun part _ => Option.head?_toList.symm)
  · by_cases hs : pattern = some wildcard <;> simp [ha, hs]

/-! ### Levels -/

namespace Level

variable {codecs : CodecRegistry} {matchers : MatcherRegistry} {l : Level}

/-- What is wrong with the codes of a level, first that of its codec. -/
def faults (codecs : CodecRegistry) (matchers : MatcherRegistry) (l : Level) : List TableError :=
  codecs.faults l.codec ++ matchers.faults l.matcher

/-- What is wrong with an input pattern, if the codes of the level are known. -/
def inputFaults (codecs : CodecRegistry) (matchers : MatcherRegistry) (l : Level) (pattern : Option String) :
    List ConversionError :=
  match codecs.get? l.codec, matchers.find? l.matcher with
  | some codec, some matcher => DecisionTables.inputFaults codec matcher pattern
  | _, _ => []

/-- What is wrong with an output cell, if the codec of the level is known. -/
def outputFaults (codecs : CodecRegistry) (separator : Char) (l : Level) (pattern : Option String) :
    List ConversionError :=
  match codecs.get? l.codec with
  | some codec => DecisionTables.outputFaults codec l.isArray separator pattern
  | none => []

theorem faults_eq_nil_iff :
    l.faults codecs matchers = [] ↔
      (codecs.get? l.codec).isSome = true ∧ (matchers.find? l.matcher).isSome = true := by
  rw [faults, List.append_eq_nil_iff, CodecRegistry.faults_eq_nil_iff, MatcherRegistry.faults_eq_nil_iff]

theorem inputFaults_eq_nil_iff {pattern : Option String} :
    l.inputFaults codecs matchers pattern = [] ↔ ∀ codec matcher, codecs.get? l.codec = some codec →
      matchers.find? l.matcher = some matcher → InputFits codec matcher pattern := by
  rw [inputFaults]
  cases codecs.get? l.codec with
  | none => simp
  | some codec => cases matchers.find? l.matcher <;> simp [DecisionTables.inputFaults_eq_nil_iff]

theorem outputFaults_eq_nil_iff {separator : Char} {pattern : Option String} :
    l.outputFaults codecs separator pattern = [] ↔
      ∀ codec, codecs.get? l.codec = some codec → OutputFits codec l.isArray separator pattern := by
  rw [outputFaults]
  cases codecs.get? l.codec <;> simp [DecisionTables.outputFaults_eq_nil_iff]

end Level

namespace ReadyLevel

variable {codecs : CodecRegistry} {matchers : MatcherRegistry} {l : Level} {r : ReadyLevel}

theorem resolve_eq_ok :
    resolve codecs matchers l = .ok r ↔ codecs.get? l.codec = some r.codec ∧
      matchers.find? l.matcher = some r.matcher ∧ r.label = l.label ∧ r.name = l.name ∧
      r.isArray = l.isArray ∧ r.creator = l.creator := by
  simp only [resolve, bind_eq_ok, CodecRegistry.resolve_eq_ok, MatcherRegistry.resolve_eq_ok, pure, Except.pure,
    Except.ok.injEq]
  constructor
  · rintro ⟨codec, hcodec, matcher, hmatcher, rfl⟩
    exact ⟨hcodec, hmatcher, rfl, rfl, rfl, rfl⟩
  · rintro ⟨hcodec, hmatcher, hlabel, hname, harray, hcreator⟩
    exact ⟨_, hcodec, _, hmatcher, by rw [← hlabel, ← hname, ← harray, ← hcreator]⟩

theorem errorOf?_resolve (l : Level) :
    errorOf? (resolve codecs matchers l) = (l.faults codecs matchers).head? := by
  rw [resolve, Level.faults]
  refine errorOf?_bind (CodecRegistry.errorOf?_resolve _ _) fun codec _ => ?_
  rw [← List.append_nil (MatcherRegistry.faults _ _)]
  exact errorOf?_bind (MatcherRegistry.errorOf?_resolve _ _) fun matcher _ => rfl

theorem errorOf?_normalizePattern_of_resolve (h : resolve codecs matchers l = .ok r) (pattern : Option String) :
    errorOf? (r.normalizePattern pattern) = (l.inputFaults codecs matchers pattern).head? := by
  obtain ⟨hcodec, hmatcher, -⟩ := resolve_eq_ok.1 h
  rw [errorOf?_normalizePattern, Level.inputFaults, hcodec, hmatcher]

theorem errorOf?_decodeCell_of_resolve (h : resolve codecs matchers l = .ok r) (separator : Char)
    (pattern : Option String) :
    errorOf? (r.decodeCell separator pattern) = (l.outputFaults codecs separator pattern).head? := by
  obtain ⟨hcodec, -, -, -, harray, -⟩ := resolve_eq_ok.1 h
  rw [errorOf?_decodeCell, Level.outputFaults, hcodec, harray]

end ReadyLevel

end DecisionTables
