/-!
# Outcomes of steps that can fail

A sequence of steps succeeds when every step does, and fails where the first one fails. `Outcome` says of
one computation what its result has when it succeeds and what its fault has when it fails, and is carried
along a sequence.
-/

namespace GoIdiom

universe u

variable {ε α β : Type u} {x : Except ε α} {f : α → Except ε β}

/-- Two steps succeed when both do. -/
theorem Except.bind_eq_ok {b : β} : x >>= f = .ok b ↔ ∃ a, x = .ok a ∧ f a = .ok b := by
  cases x with
  | error e =>
    constructor
    · intro h
      cases h
    · rintro ⟨a, h, -⟩
      cases h
  | ok a =>
    constructor
    · intro h
      exact ⟨a, rfl, h⟩
    · rintro ⟨_, ⟨⟩, h⟩
      exact h

/-- Two steps fail when the first one does, or the second one after it. -/
theorem Except.bind_eq_error {e : ε} :
    x >>= f = .error e ↔ x = .error e ∨ ∃ a, x = .ok a ∧ f a = .error e := by
  cases x with
  | error e' =>
    constructor
    · intro h
      cases h
      exact Or.inl rfl
    · rintro (h | ⟨a, h, -⟩) <;> cases h
      rfl
  | ok a =>
    constructor
    · intro h
      exact Or.inr ⟨a, rfl, h⟩
    · rintro (h | ⟨_, ⟨⟩, h⟩)
      · cases h
      · exact h

/-- A computation succeeds like another one when the results are the same and faults are not looked at. -/
theorem Except.eq_ok_of_toOption_eq {y : Except ε α} {a : α} (h : x.toOption = y.toOption) (hy : y = .ok a) :
    x = .ok a := by
  rw [hy] at h
  cases x with
  | error e => cases h
  | ok b => exact congrArg Except.ok (Option.some.inj h)

/-- Whether a computation succeeds. -/
theorem Except.isSome_toOption_iff : x.toOption.isSome = true ↔ ∃ a, x = .ok a := by
  cases x with
  | error e => exact ⟨fun h => (Bool.false_ne_true h).elim, fun ⟨_, h⟩ => nomatch h⟩
  | ok a => exact ⟨fun _ => ⟨a, rfl⟩, fun _ => rfl⟩

/-- A computation whose result has one property, or whose fault has another. -/
inductive Outcome (P : α → Prop) (E : ε → Prop) : Except ε α → Prop
  | ok {a : α} (h : P a) : Outcome P E (.ok a)
  | error {e : ε} (h : E e) : Outcome P E (.error e)

namespace Outcome

variable {P : α → Prop} {Q : β → Prop} {E : ε → Prop}

/-- What is known of a result. -/
theorem of_ok {a : α} (h : Outcome P E (.ok a)) : P a := by
  cases h with
  | ok h => exact h

/-- What is known of a fault. -/
theorem of_error {e : ε} (h : Outcome P E (.error e)) : E e := by
  cases h with
  | error h => exact h

/-- One computation after the other. -/
theorem bind (hx : Outcome P E x) (hf : ∀ a, P a → Outcome Q E (f a)) : Outcome Q E (x >>= f) := by
  cases hx with
  | ok h => exact hf _ h
  | error h => exact .error h

/-- A result that is used as it is. -/
theorem map {g : α → β} (hx : Outcome P E x) (hg : ∀ a, P a → Q (g a)) : Outcome Q E (x.map g) := by
  cases hx with
  | ok h => exact .ok (hg _ h)
  | error h => exact .error h

/-- A fault that is recorded in another form. -/
theorem mapError {ε' : Type u} {E' : ε' → Prop} {g : ε → ε'} (hx : Outcome P E x)
    (hg : ∀ e, E e → E' (g e)) : Outcome P E' (x.mapError g) := by
  cases hx with
  | ok h => exact .ok h
  | error h => exact .error (hg _ h)

/-- Less is known of the result. -/
theorem mono {P' : α → Prop} (hx : Outcome P E x) (hP : ∀ a, P a → P' a) : Outcome P' E x := by
  cases hx with
  | ok h => exact .ok (hP _ h)
  | error h => exact .error h

/-- Less is known of the fault. -/
theorem mono_error {E' : ε → Prop} (hx : Outcome P E x) (hE : ∀ e, E e → E' e) : Outcome P E' x := by
  cases hx with
  | ok h => exact .ok h
  | error h => exact .error (hE _ h)

end Outcome

/-- A computation that succeeds with a result of a kind. -/
def Yields (P : α → Prop) (x : Except ε α) : Prop := ∃ a, x = .ok a ∧ P a

namespace Yields

variable {γ : Type u} {P : α → Prop} {Q : β → Prop} {R : γ → Prop} {y : Except ε β}

/-- A result yields what holds of it. -/
theorem ok_iff {a : α} : Yields P (.ok a : Except ε α) ↔ P a := by
  constructor
  · rintro ⟨_, ⟨⟩, h⟩
    exact h
  · intro h
    exact ⟨a, rfl, h⟩

/-- A failure yields nothing. -/
theorem not_error {e : ε} : ¬ Yields P (.error e : Except ε α) := by
  rintro ⟨_, h, -⟩
  cases h

/-- A result that is used as it is. -/
theorem map_iff {g : α → β} (h : ∀ a, Q (g a) ↔ P a) : Yields Q (x.map g) ↔ Yields P x := by
  cases x with
  | error e => exact iff_of_false not_error not_error
  | ok a => exact ok_iff.trans ((h a).trans ok_iff.symm)

/-- Two results that are used together. -/
theorem both_iff {g : α → β → γ} (h : ∀ a b, R (g a b) ↔ P a ∧ Q b) :
    Yields R (do let a ← x; let b ← y; pure (g a b)) ↔ Yields P x ∧ Yields Q y := by
  cases x with
  | error e => exact iff_of_false not_error fun h => not_error h.1
  | ok a =>
    cases y with
    | error e => exact iff_of_false not_error fun h => not_error h.2
    | ok b => exact ok_iff.trans ((h a b).trans (and_congr ok_iff.symm ok_iff.symm))

end Yields

end GoIdiom
