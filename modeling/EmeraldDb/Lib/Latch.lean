import Mathlib.Logic.Function.Basic

/-
  Exclusive latches among numbered threads.

  A latch is free or owned by one thread.  The states of the
  threads say who is in the critical section; the two agree
  when a thread enters it by taking the free latch and leaves
  it by releasing the latch.

  Key definitions include:
    * `Latched`
    * `ownerValue`

  Key results include:
    * `Latched.move`
    * `Latched.get`
    * `Latched.release`
-/

variable {σ β : Type}

/- The owner is the one thread in the critical section. -/
def Latched
    (holds : σ → Bool)
    (owner : Option Nat)
    (thread : Nat → σ) : Prop :=
  ∀ a, holds (thread a) = true ↔ owner = some a

/- What the owner's state says, or `d` for a free latch. -/
def ownerValue
    (owner : Option Nat)
    (thread : Nat → σ)
    (f : σ → β)
    (d : β) : β :=
  match owner with
  | some a => f (thread a)
  | none => d

theorem ownerValue_none
    (thread : Nat → σ)
    (f : σ → β)
    (d : β) :
    ownerValue none thread f d = d := rfl

/- The value of a thread that has just become the owner. -/
theorem ownerValue_update
    (thread : Nat → σ)
    (a : Nat)
    (st : σ)
    (f : σ → β)
    (d : β) :
    ownerValue (some a) (Function.update thread a st) f d =
      f st :=
  congrArg f (Function.update_self _ _ _)

namespace Latched

variable {holds : σ → Bool} {owner : Option Nat}
variable {thread : Nat → σ} {a : Nat} {st : σ}

/- At most one thread is in the critical section. -/
theorem exclusive
    (hLatched : Latched holds owner thread)
    {b : Nat}
    (hA : holds (thread a) = true)
    (hB : holds (thread b) = true) :
    a = b := by
  have hOwner := (hLatched a).mp hA
  rw [(hLatched b).mp hB, Option.some.injEq] at hOwner
  exact hOwner.symm

/- A thread moves inside or outside the critical section. -/
theorem move
    (hLatched : Latched holds owner thread)
    (hSame : holds st = holds (thread a)) :
    Latched holds owner (Function.update thread a st) := by
  intro b
  by_cases hEq : b = a
  · rw [hEq, Function.update_self, hSame]
    exact hLatched a
  · rw [Function.update_of_ne hEq]
    exact hLatched b

/- A thread takes the free latch. -/
theorem get
    (hLatched : Latched holds none thread)
    (hHolds : holds st = true) :
    Latched holds (some a) (Function.update thread a st) := by
  intro b
  by_cases hEq : b = a
  · rw [hEq, Function.update_self, hHolds]
    simp
  · rw [Function.update_of_ne hEq, hLatched b]
    simp [Ne.symm hEq]

/- The owner releases the latch. -/
theorem release
    (hLatched : Latched holds owner thread)
    (hHolds : holds (thread a) = true)
    (hLeaves : holds st = false) :
    Latched holds none (Function.update thread a st) := by
  intro b
  by_cases hEq : b = a
  · rw [hEq, Function.update_self, hLeaves]
    simp
  · rw [Function.update_of_ne hEq, hLatched b,
      (hLatched a).mp hHolds]
    simp [Ne.symm hEq]

section OwnerValue

variable {f : σ → β} {d : β}

/- The value is in the state of the owner. -/
theorem value_of_holder
    (hLatched : Latched holds owner thread)
    (hHolds : holds (thread a) = true) :
    ownerValue owner thread f d = f (thread a) := by
  rw [(hLatched a).mp hHolds]
  rfl

theorem value_holder
    (hLatched : Latched holds owner thread)
    (hHolds : holds (thread a) = true) :
    ownerValue owner (Function.update thread a st) f d =
      f st := by
  rw [(hLatched a).mp hHolds]
  exact ownerValue_update _ _ _ _ _

/- A thread that is not the owner has no part in the value. -/
theorem value_other
    (hLatched : Latched holds owner thread)
    (hOther : holds (thread a) = false) :
    ownerValue owner (Function.update thread a st) f d =
      ownerValue owner thread f d := by
  cases hOwner : owner with
  | none => rfl
  | some b =>
      have hNe : b ≠ a := by
        intro hEq
        have hHolds := (hLatched b).mpr hOwner
        rw [hEq, hOther] at hHolds
        exact Bool.false_ne_true hHolds
      exact congrArg f (Function.update_of_ne hNe _ _)

/- A step that does not touch the value of a thread. -/
theorem value_same
    (hLatched : Latched holds owner thread)
    (hSame : f st = f (thread a)) :
    ownerValue owner (Function.update thread a st) f d =
      ownerValue owner thread f d := by
  by_cases hHolds : holds (thread a) = true
  · rw [hLatched.value_holder hHolds,
      hLatched.value_of_holder hHolds, hSame]
  · exact hLatched.value_other (Bool.eq_false_iff.mpr hHolds)

end OwnerValue

end Latched
