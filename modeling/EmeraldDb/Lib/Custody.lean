import Mathlib.Logic.Function.Basic
import Mathlib.Tactic.Common

/-
  Resources in custody.

  A table says of every resource whether it is free, held by
  a party, lost, or of no concern.  Every party holds at most
  one resource.  What the parties hold agrees with the table
  when exactly the holder of a resource is its party there;
  it goes on to agree when a party takes, gives back or passes
  on a resource.

  Key definitions include:
    * `Custody`
    * `Backed`

  Key results include:
    * `Backed.take`
    * `Backed.drop`
    * `Backed.pass`
-/

------------------------------------------------------------
-- Tables
------------------------------------------------------------

/- Where a resource is. -/
inductive Custody (ο : Type)
| free
| foreign
| lost
| held (o : ο)
deriving DecidableEq, Repr

variable {κ ο : Type}

/- What the parties hold is what the table says they hold. -/
def Backed
    (table : κ → Custody ο)
    (held : ο → Option κ) : Prop :=
  ∀ o k, held o = some k ↔ table k = .held o

namespace Backed

variable {table : κ → Custody ο} {held : ο → Option κ}

/- A resource has one holder. -/
theorem only
    (hBacked : Backed table held)
    {o p : ο}
    {k : κ}
    (hO : held o = some k)
    (hP : held p = some k) :
    o = p := by
  have hTable := (hBacked o k).mp hO
  rw [(hBacked p k).mp hP] at hTable
  exact (Custody.held.inj hTable).symm

/- Nobody holds anything. -/
theorem init
    (hFree : ∀ o k, table k ≠ .held o) :
    Backed table (fun _ => none) := by
  intro o k
  simp [hFree o k]

variable [DecidableEq κ] [DecidableEq ο]

omit [DecidableEq ο] in
/- A resource that nobody holds is of another kind. -/
theorem mark
    (hBacked : Backed table held)
    {k : κ}
    {c : Custody ο}
    (hOld : ∀ o, table k ≠ .held o)
    (hNew : ∀ o, c ≠ .held o) :
    Backed (Function.update table k c) held := by
  intro o l
  by_cases hEq : l = k
  · subst hEq
    rw [Function.update_self, hBacked o l]
    exact iff_of_false (hOld o) (hNew o)
  · rw [Function.update_of_ne hEq]
    exact hBacked o l

/- A party without a resource takes one that nobody holds. -/
theorem take
    (hBacked : Backed table held)
    {o : ο}
    {k : κ}
    (hNone : held o = none)
    (hOld : ∀ p, table k ≠ .held p) :
    Backed (Function.update table k (.held o))
      (Function.update held o (some k)) := by
  intro p l
  by_cases hKey : l = k
  · subst hKey
    rw [Function.update_self, Custody.held.injEq]
    by_cases hParty : p = o
    · subst hParty
      simp
    · rw [Function.update_of_ne hParty, hBacked p l]
      exact iff_of_false (hOld p) (Ne.symm hParty)
  · rw [Function.update_of_ne hKey]
    by_cases hParty : p = o
    · subst hParty
      rw [Function.update_self, ← hBacked p l, hNone]
      simp [Ne.symm hKey]
    · rw [Function.update_of_ne hParty]
      exact hBacked p l

/- The holder gives its resource back, or loses it. -/
theorem drop
    (hBacked : Backed table held)
    {o : ο}
    {k : κ}
    {c : Custody ο}
    (hHolds : held o = some k)
    (hNew : ∀ p, c ≠ .held p) :
    Backed (Function.update table k c)
      (Function.update held o none) := by
  intro p l
  by_cases hParty : p = o
  · subst hParty
    rw [Function.update_self]
    by_cases hKey : l = k
    · subst hKey
      rw [Function.update_self]
      exact iff_of_false (by simp) (hNew p)
    · rw [Function.update_of_ne hKey, ← hBacked p l, hHolds]
      simp [Ne.symm hKey]
  · rw [Function.update_of_ne hParty]
    by_cases hKey : l = k
    · subst hKey
      rw [Function.update_self]
      exact iff_of_false
        (fun hP => hParty (hBacked.only hP hHolds)) (hNew p)
    · rw [Function.update_of_ne hKey]
      exact hBacked p l

/- The holder passes its resource on. -/
theorem pass
    (hBacked : Backed table held)
    {o p : ο}
    {k : κ}
    (hHolds : held o = some k)
    (hNone : held p = none) :
    Backed (Function.update table k (.held p))
      (Function.update (Function.update held o none) p
        (some k)) := by
  have hNe : p ≠ o := by
    rintro rfl
    rw [hHolds] at hNone
    cases hNone
  have hDropped : Backed (Function.update table k .free)
      (Function.update held o none) :=
    hBacked.drop hHolds (by simp)
  have hTaken := hDropped.take (o := p) (k := k)
    (by rw [Function.update_of_ne hNe, hNone]) (by simp)
  rwa [Function.update_idem] at hTaken

end Backed
