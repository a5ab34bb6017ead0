import Mathlib.Tactic.Common

/-
  Runs of a labelled step relation.

  `Steps step s as t` is a run from `s` to `t` whose labels
  are `as`.  A guard on steps restricts the runs; an
  invariant of every guarded step holds in every state that
  a guarded run reaches.

  Key definitions include:
    * `Steps`
    * `Guarded`

  Key results include:
    * `Steps.invariant`
    * `Steps.simulation`
-/

------------------------------------------------------------
-- Runs
------------------------------------------------------------

variable {σ α : Type}

inductive Steps
    (step : σ → α → σ → Prop) :
    σ → List α → σ → Prop
| nil (s : σ) : Steps step s [] s
| cons
    {s t u : σ}
    {a : α}
    {as : List α}
    (hStep : step s a t)
    (hRest : Steps step t as u) :
    Steps step s (a :: as) u

/- The steps of a relation that meet a condition. -/
def Guarded
    (guard : σ → α → Prop)
    (step : σ → α → σ → Prop) :
    σ → α → σ → Prop :=
  fun s a t => guard s a ∧ step s a t

namespace Steps

variable {step : σ → α → σ → Prop}

/- What every step preserves, every run preserves. -/
theorem invariant
    {I : σ → Prop}
    (hPreserved :
      ∀ s a t, I s → step s a t → I t)
    {s t : σ}
    {as : List α}
    (hRun : Steps step s as t)
    (hStart : I s) :
    I t := by
  induction hRun with
  | nil s => exact hStart
  | cons hStep _ ih =>
      exact ih (hPreserved _ _ _ hStart hStep)

/- A run whose labels meet a condition is a guarded run. -/
theorem restrict
    {P : α → Prop}
    {s t : σ}
    {as : List α}
    (hRun : Steps step s as t)
    (hAll : ∀ a ∈ as, P a) :
    Steps (Guarded (fun _ a => P a) step) s as t := by
  induction hRun with
  | nil s => exact Steps.nil s
  | cons hStep _ ih =>
      have hRest := ih (fun a hIn =>
        hAll a (List.mem_cons_of_mem _ hIn))
      exact Steps.cons ⟨hAll _ List.mem_cons_self, hStep⟩
        hRest

/- A run of a relation is one of every larger relation. -/
theorem mono
    {step' : σ → α → σ → Prop}
    (hLarger : ∀ s a t, step s a t → step' s a t)
    {s t : σ}
    {as : List α}
    (hRun : Steps step s as t) :
    Steps step' s as t := by
  induction hRun with
  | nil s => exact Steps.nil s
  | cons hStep _ ih =>
      exact Steps.cons (hLarger _ _ _ hStep) ih

/- Steps that another system also makes, it makes in a run. -/
theorem lift
    {τ β : Type}
    {step' : τ → β → τ → Prop}
    {f : σ → τ}
    {g : α → β}
    (hLifted : ∀ s a t, step s a t → step' (f s) (g a) (f t))
    {s t : σ}
    {as : List α}
    (hRun : Steps step s as t) :
    Steps step' (f s) (as.map g) (f t) := by
  induction hRun with
  | nil s => exact Steps.nil (f s)
  | cons hStep _ ih =>
      exact Steps.cons (hLifted _ _ _ hStep) ih

/-
  If every step is matched by a step of another relation with
  the same label, every run is matched by a run.
-/
theorem simulation
    {τ : Type}
    {step' : τ → α → τ → Prop}
    {R : σ → τ → Prop}
    (hMatched : ∀ s a t s',
      R s s' → step s a t → ∃ t', step' s' a t' ∧ R t t')
    {s t : σ}
    {s' : τ}
    {as : List α}
    (hRun : Steps step s as t)
    (hStart : R s s') :
    ∃ t', Steps step' s' as t' ∧ R t t' := by
  induction hRun generalizing s' with
  | nil s => exact ⟨s', Steps.nil s', hStart⟩
  | cons hStep _ ih =>
      rcases hMatched _ _ _ _ hStart hStep with
        ⟨t', hStep', hNext⟩
      rcases ih hNext with ⟨u', hRest', hEnd⟩
      exact ⟨u', Steps.cons hStep' hRest', hEnd⟩

/- A run over an appended label list splits there. -/
theorem split
    {s u : σ}
    {as bs : List α}
    (hRun : Steps step s (as ++ bs) u) :
    ∃ t, Steps step s as t ∧ Steps step t bs u := by
  induction as generalizing s with
  | nil => exact ⟨s, Steps.nil s, hRun⟩
  | cons a as ih =>
      cases hRun with
      | cons hStep hRest =>
          rcases ih hRest with ⟨t, hFirst, hSecond⟩
          exact ⟨t, Steps.cons hStep hFirst, hSecond⟩

theorem append
    {s t u : σ}
    {as bs : List α}
    (hFirst : Steps step s as t)
    (hSecond : Steps step t bs u) :
    Steps step s (as ++ bs) u := by
  induction hFirst with
  | nil s => exact hSecond
  | cons hStep _ ih => exact Steps.cons hStep (ih hSecond)

end Steps
