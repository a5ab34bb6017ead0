import Mathlib.Tactic.Common

/-
  Calls that may throw.

  A call that may throw returns if it ends with a value.  A
  handler around it can catch one exception; the call is
  caught if it returns or throws that one.

  Key definitions include:
    * `Returns`
    * `Caught`

  Key results include:
    * `bind_ok`
    * `returns_bind`
    * `returns_ite`
    * `caught_bind`
-/

variable {ε α β : Type}

/- The call ends with a value. -/
def Returns (x : Except ε α) : Prop :=
  ∃ a, x = .ok a

/- The call ends with a value or with the exception `e`. -/
def Caught
    (e : ε)
    (x : Except ε α) : Prop :=
  Returns x ∨ x = .error e

@[simp] theorem returns_ok (a : α) :
    Returns (.ok a : Except ε α) :=
  ⟨a, rfl⟩

@[simp] theorem not_returns_error (e : ε) :
    ¬ Returns (.error e : Except ε α) := by
  rintro ⟨a, hOk⟩
  cases hOk

theorem bind_ok
    {x : Except ε α}
    {f : α → Except ε β}
    {b : β}
    (hBind : (x >>= f) = .ok b) :
    ∃ a, x = .ok a ∧ f a = .ok b := by
  cases x with
  | error e => cases hBind
  | ok a => exact ⟨a, rfl, hBind⟩

theorem bind_returns
    {x : Except ε α}
    {f : α → Except ε β}
    (hFirst : ∃ a, x = .ok a)
    (hRest : ∀ a, x = .ok a → ∃ b, f a = .ok b) :
    ∃ b, (x >>= f) = .ok b := by
  rcases hFirst with ⟨a, hA⟩
  rcases hRest a hA with ⟨b, hB⟩
  exact ⟨b, by rw [hA]; exact hB⟩

theorem returns_bind
    {x : Except ε α}
    {f : α → Except ε β} :
    Returns (x >>= f) ↔ ∃ a, x = .ok a ∧ Returns (f a) := by
  cases x with
  | error e =>
      constructor
      · intro hReturns
        exact absurd hReturns (not_returns_error e)
      · rintro ⟨a, hOk, _⟩
        cases hOk
  | ok a =>
      constructor
      · intro hReturns
        exact ⟨a, rfl, hReturns⟩
      · rintro ⟨b, hOk, hReturns⟩
        cases hOk
        exact hReturns

/- What comes behind the call only makes up its value. -/
theorem returns_bind_pure
    {x : Except ε α}
    {f : α → β} :
    Returns (x >>= fun a => pure (f a)) ↔ Returns x := by
  cases x with
  | error e => simp [bind, Except.bind]
  | ok a => simp [bind, Except.bind, pure, Except.pure]

theorem map_ok
    {x : Except ε α}
    {f : α → β}
    {b : β}
    (hMap : x.map f = .ok b) :
    ∃ a, x = .ok a ∧ b = f a := by
  cases x with
  | error e => cases hMap
  | ok a =>
      cases hMap
      exact ⟨a, rfl, rfl⟩

theorem returns_map
    {x : Except ε α}
    {f : α → β} :
    Returns (x.map f) ↔ Returns x := by
  cases x with
  | error e => simp [Except.map]
  | ok a => simp [Except.map]

/- A call behind a check that throws. -/
theorem returns_ite
    {p : Prop}
    [Decidable p]
    {x : Except ε α}
    {e : ε} :
    Returns (if p then x else .error e) ↔ p ∧ Returns x := by
  by_cases hCheck : p
  · simp [hCheck]
  · simp [hCheck]

@[simp] theorem caught_ok
    (e : ε)
    (a : α) :
    Caught e (.ok a : Except ε α) :=
  Or.inl (returns_ok a)

@[simp] theorem caught_error
    {e e' : ε} :
    Caught e (.error e' : Except ε α) ↔ e' = e := by
  constructor
  · rintro (hReturns | hError)
    · exact absurd hReturns (not_returns_error e')
    · exact Except.error.inj hError
  · rintro rfl
    exact Or.inr rfl

theorem caught_bind
    {e : ε}
    {x : Except ε α}
    {f : α → Except ε β} :
    Caught e (x >>= f) ↔
      Caught e x ∧ ∀ a, x = .ok a → Caught e (f a) := by
  cases x with
  | error e' =>
      constructor
      · intro hCaught
        refine ⟨caught_error.mpr (caught_error.mp hCaught), ?_⟩
        intro a hOk
        cases hOk
      · intro hCaught
        exact caught_error.mpr (caught_error.mp hCaught.1)
  | ok a =>
      constructor
      · intro hCaught
        refine ⟨caught_ok e a, ?_⟩
        rintro b ⟨⟩
        exact hCaught
      · intro hCaught
        exact hCaught.2 a rfl
