import Mathlib.Data.List.Forall2

/-!
# Steps that may fail

A sequence of steps succeeds exactly if each of its steps does: the cases of `bind`, `map`, `mapError` and of
`List.mapM`, which applies a step to every element of a list (`mapM_eq_ok`). A sequence that fails has the error of
the first step that does: its error is the first of all errors of its steps (`errorOf?_bind`, `errorOf?_mapM`). In
front of them some facts about lists that are related element by element.
-/

namespace DecisionTables

variable {α β ε δ : Type}

theorem forall_right_of_forall₂ {R : α → β → Prop} {P : β → Prop} (hP : ∀ a b, R a b → P b) {as : List α}
    {bs : List β} (h : List.Forall₂ R as bs) : ∀ b ∈ bs, P b := by
  induction h with
  | nil => simp
  | cons hab _ ih => exact List.forall_mem_cons.2 ⟨hP _ _ hab, ih⟩

theorem forall₂_congr_right {R S : α → β → Prop} {as : List α} {bs : List β}
    (h : ∀ b ∈ bs, ∀ a, R a b ↔ S a b) : List.Forall₂ R as bs ↔ List.Forall₂ S as bs := by
  induction bs generalizing as with
  | nil => simp
  | cons b bs ih =>
    rw [List.forall_mem_cons] at h
    cases as with
    | nil => simp
    | cons a as => rw [List.forall₂_cons, List.forall₂_cons, h.1 a, ih h.2]

theorem forall₂_zip {R : α → β → Prop} {as : List α} {bs : List β} (h : List.Forall₂ R as bs) (cs : List δ) :
    List.Forall₂ (fun a b => R a.1 b.1 ∧ a.2 = b.2) (as.zip cs) (bs.zip cs) := by
  induction h generalizing cs with
  | nil => simp
  | cons hab _ ih =>
    cases cs with
    | nil => simp
    | cons c cs => exact .cons ⟨hab, rfl⟩ (ih cs)

theorem getElem?_of_forall₂ {R : α → β → Prop} {as : List α} {bs : List β} (h : List.Forall₂ R as bs)
    {i : Nat} {a : α} (ha : as[i]? = some a) : ∃ b, bs[i]? = some b ∧ R a b := by
  induction h generalizing i with
  | nil => simp at ha
  | @cons a' b' as bs hab _ ih =>
    cases i with
    | zero =>
      obtain rfl : a' = a := by simpa using ha
      exact ⟨b', rfl, hab⟩
    | succ i => exact ih ha

theorem map_eq_map_of_forall₂ {R : α → β → Prop} {f : α → δ} {g : β → δ} (h : ∀ a b, R a b → f a = g b)
    {as : List α} {bs : List β} (hr : List.Forall₂ R as bs) : as.map f = bs.map g := by
  rw [← List.forall₂_eq_eq_eq, List.forall₂_map_left_iff, List.forall₂_map_right_iff]
  exact hr.imp h

theorem bind_eq_ok {x : Except ε α} {f : α → Except ε β} {b : β} :
    (x >>= f) = .ok b ↔ ∃ a, x = .ok a ∧ f a = .ok b := by
  cases x <;> simp [bind, Except.bind]

theorem bind_eq_error {x : Except ε α} {f : α → Except ε β} {e : ε} :
    (x >>= f) = .error e ↔ x = .error e ∨ ∃ a, x = .ok a ∧ f a = .error e := by
  cases x <;> simp [bind, Except.bind]

theorem map_eq_ok {x : Except ε α} {f : α → β} {b : β} : x.map f = .ok b ↔ ∃ a, x = .ok a ∧ f a = b := by
  cases x <;> simp [Except.map]

theorem map_eq_error {x : Except ε α} {f : α → β} {e : ε} : x.map f = .error e ↔ x = .error e := by
  cases x <;> simp [Except.map]

theorem toOption_eq_some {x : Except ε α} {a : α} : x.toOption = some a ↔ x = .ok a := by
  cases x <;> simp [Except.toOption]

theorem mapError_eq_ok {x : Except ε α} {f : ε → δ} {a : α} : x.mapError f = .ok a ↔ x = .ok a := by
  cases x <;> simp [Except.mapError]

/-- A step succeeds for all elements of a list exactly if the results are those of the single elements. -/
theorem mapM_eq_ok {f : α → Except ε β} {as : List α} {bs : List β} :
    as.mapM f = .ok bs ↔ List.Forall₂ (fun a b => f a = .ok b) as bs := by
  induction as generalizing bs with
  | nil => cases bs <;> simp [pure, Except.pure]
  | cons a as ih =>
    rw [List.mapM_cons, bind_eq_ok]
    simp only [bind_eq_ok, pure, Except.pure, Except.ok.injEq, ih]
    constructor
    · rintro ⟨b, hb, bs, hbs, rfl⟩
      exact .cons hb hbs
    · rintro (_ | ⟨hb, hbs⟩)
      exact ⟨_, hb, _, hbs, rfl⟩

theorem mapM_congr {f g : α → Except ε β} {as : List α} (h : ∀ a ∈ as, f a = g a) : as.mapM f = as.mapM g := by
  induction as with
  | nil => rfl
  | cons a as ih =>
    rw [List.forall_mem_cons] at h
    rw [List.mapM_cons, List.mapM_cons, h.1, ih h.2]

theorem exists_mapM {f : α → Except ε β} {as : List α} (h : ∀ a ∈ as, ∃ b, f a = .ok b) :
    ∃ bs, as.mapM f = .ok bs := by
  simp only [mapM_eq_ok]
  induction as with
  | nil => exact ⟨[], .nil⟩
  | cons a as ih =>
    rw [List.forall_mem_cons] at h
    obtain ⟨b, hb⟩ := h.1
    obtain ⟨bs, hbs⟩ := ih h.2
    exact ⟨b :: bs, .cons hb hbs⟩

/-- A step whose results show what they come from succeeds for a list with the results that show the list. -/
theorem mapM_eq_ok_of_inverse {f : α → Except ε β} {g : β → α} (hg : ∀ a b, f a = .ok b → g b = a)
    {as : List α} {bs : List β} : as.mapM f = .ok bs ↔ bs.map g = as ∧ ∀ b ∈ bs, f (g b) = .ok b := by
  rw [mapM_eq_ok]
  constructor
  · intro h
    induction h with
    | nil => simp
    | @cons a b as bs hab _ ih =>
      have hb := hg a b hab
      refine ⟨by rw [List.map_cons, hb, ih.1], List.forall_mem_cons.2 ⟨by rw [hb, hab], ih.2⟩⟩
  · rintro ⟨rfl, h⟩
    rw [List.forall₂_map_left_iff, List.forall₂_same]
    exact h

/-! ### The first error -/

/-- The error of a step that fails. -/
def errorOf? : Except ε α → Option ε
  | .ok _ => none
  | .error e => some e

@[simp] theorem errorOf?_ok (a : α) : errorOf? (.ok a : Except ε α) = none := rfl

@[simp] theorem errorOf?_error (e : ε) : errorOf? (.error e : Except ε α) = some e := rfl

theorem errorOf?_eq_some {x : Except ε α} {e : ε} : errorOf? x = some e ↔ x = .error e := by
  cases x <;> simp

theorem errorOf?_eq_none {x : Except ε α} : errorOf? x = none ↔ ∃ a, x = .ok a := by
  cases x <;> simp

@[simp] theorem errorOf?_map (x : Except ε α) (f : α → β) : errorOf? (x.map f) = errorOf? x := by
  cases x <;> rfl

@[simp] theorem errorOf?_mapError (x : Except ε α) (f : ε → δ) : errorOf? (x.mapError f) = (errorOf? x).map f := by
  cases x <;> rfl

/-- The second step counts only where the first one succeeds. -/
theorem errorOf?_bind {x : Except ε α} {f : α → Except ε β} {es es' : List ε} (hx : errorOf? x = es.head?)
    (hf : ∀ a, x = .ok a → errorOf? (f a) = es'.head?) : errorOf? (x >>= f) = (es ++ es').head? := by
  rw [List.head?_append, ← hx]
  cases x with
  | error e => rfl
  | ok a =>
    rw [errorOf?_ok, Option.none_or]
    exact hf a rfl

theorem errorOf?_mapM {γ : Type} {f : α → Except ε β} {faults : γ → List ε} {as : List α} {cs : List γ}
    (h : List.Forall₂ (fun a c => errorOf? (f a) = (faults c).head?) as cs) :
    errorOf? (as.mapM f) = (cs.flatMap faults).head? := by
  induction h with
  | nil => rfl
  | cons hac _ ih =>
    rw [List.mapM_cons, List.flatMap_cons]
    refine errorOf?_bind hac fun b _ => ?_
    rw [← List.append_nil (List.flatMap _ _)]
    exact errorOf?_bind ih fun _ _ => rfl

end DecisionTables
