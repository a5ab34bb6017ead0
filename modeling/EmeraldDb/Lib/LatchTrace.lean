import Mathlib.Data.List.Basic
import Mathlib.Tactic.Common

/-
  Calls that get and release latches.

  A traced call is its result together with the latch
  operations it makes, in order.  The latches it holds itself
  are a list; the holders of a latch, those of other threads
  included, are counts.  A call is balanced if it releases
  only what it holds, never waits for a latch that it holds
  itself, and leaves every count as it was.

  Key definitions include:
    * `LatchOp`
    * `Traced`
    * `owns`
    * `Traced.Balanced`

  Key results include:
    * `counts_of_owns`
    * `Traced.balanced_iff`
    * `Traced.owns_bind`
-/

inductive LatchMode
| shared
| exclusive
deriving DecidableEq

inductive LatchOp
    (ι : Type)
| get (latch : ι) (mode : LatchMode)
| release (latch : ι) (mode : LatchMode)
deriving DecidableEq

------------------------------------------------------------
-- Own Holdings
------------------------------------------------------------

/- The latches that a call holds. -/
abbrev Held
    (ι : Type) : Type :=
  List (ι × LatchMode)

section Owns

variable {ι : Type} [DecidableEq ι]

/- One operation, if the call can make it. -/
def LatchOp.own
    (held : Held ι) : LatchOp ι → Option (Held ι)
| .get l mode =>
    -- it would wait for itself
    if l ∈ held.map Prod.fst then none
    else some ((l, mode) :: held)
| .release l mode =>
    if (l, mode) ∈ held then some (held.erase (l, mode))
    else none

/- What is held behind some operations. -/
def owns :
    Held ι → List (LatchOp ι) → Option (Held ι)
| held, [] => some held
| held, op :: ops =>
    (op.own held).bind (fun next => owns next ops)

theorem owns_append
    (held : Held ι)
    (front back : List (LatchOp ι)) :
    owns held (front ++ back) =
      (owns held front).bind (fun next => owns next back) := by
  induction front generalizing held with
  | nil => rfl
  | cons op front ih =>
      simp only [List.cons_append, owns]
      cases op.own held with
      | none => rfl
      | some next => exact ih next

------------------------------------------------------------
-- Holder Counts
------------------------------------------------------------

/- How many threads hold a latch, in each mode. -/
abbrev Holders
    (ι : Type) : Type :=
  ι → LatchMode → Nat

def LatchOp.count
    (c : Holders ι) : LatchOp ι → Holders ι
| .get l mode => fun l' mode' =>
    if l' = l ∧ mode' = mode then c l' mode' + 1
    else c l' mode'
| .release l mode => fun l' mode' =>
    if l' = l ∧ mode' = mode then c l' mode' - 1
    else c l' mode'

def counts
    (c : Holders ι)
    (ops : List (LatchOp ι)) : Holders ι :=
  ops.foldl LatchOp.count c

/- The counts of other threads and of one call. -/
def joined
    (others : Holders ι)
    (held : Held ι) : Holders ι :=
  fun l mode => others l mode + held.count (l, mode)

theorem joined_nil (others : Holders ι) :
    joined others [] = others := by
  rfl

/- An operation changes the counts by what it does itself. -/
theorem count_of_own
    {held held' : Held ι}
    {op : LatchOp ι}
    (hOwn : op.own held = some held')
    (others : Holders ι) :
    op.count (joined others held) =
      joined others held' := by
  funext l' mode'
  cases op with
  | get l mode =>
      rw [LatchOp.own] at hOwn
      by_cases hHeld : l ∈ held.map Prod.fst
      · rw [if_pos hHeld] at hOwn
        exact absurd hOwn (by simp)
      · rw [if_neg hHeld, Option.some.injEq] at hOwn
        rw [← hOwn]
        simp only [LatchOp.count, joined, List.count_cons,
          beq_iff_eq, Prod.mk.injEq]
        by_cases hHere : l' = l ∧ mode' = mode
        · rw [if_pos hHere,
            if_pos ⟨hHere.1.symm, hHere.2.symm⟩]
          rfl
        · have hOther : ¬ (l = l' ∧ mode = mode') :=
            fun h => hHere ⟨h.1.symm, h.2.symm⟩
          rw [if_neg hHere, if_neg hOther]
          rfl
  | release l mode =>
      rw [LatchOp.own] at hOwn
      by_cases hHeld : (l, mode) ∈ held
      · rw [if_pos hHeld, Option.some.injEq] at hOwn
        rw [← hOwn]
        simp only [LatchOp.count, joined]
        by_cases hHere : l' = l ∧ mode' = mode
        · rcases hHere with ⟨rfl, rfl⟩
          have hPositive := List.count_pos_iff.mpr hHeld
          rw [if_pos ⟨rfl, rfl⟩, List.count_erase_self]
          omega
        · have hOther : (l', mode') ≠ (l, mode) := by
            simpa using hHere
          rw [if_neg hHere, List.count_erase_of_ne hOther]
      · rw [if_neg hHeld] at hOwn
        exact absurd hOwn (by simp)

theorem counts_of_owns
    {held held' : Held ι}
    {ops : List (LatchOp ι)}
    (hOwns : owns held ops = some held')
    (others : Holders ι) :
    counts (joined others held) ops =
      joined others held' := by
  induction ops generalizing held with
  | nil =>
      rw [owns, Option.some.injEq] at hOwns
      rw [← hOwns]
      rfl
  | cons op ops ih =>
      rw [owns, Option.bind_eq_some_iff] at hOwns
      rcases hOwns with ⟨next, hOwn, hRest⟩
      have hStep := count_of_own hOwn others
      unfold counts at ih ⊢
      rw [List.foldl_cons, hStep]
      exact ih hRest

end Owns

------------------------------------------------------------
-- Traced Calls
------------------------------------------------------------

/- What a call does to the latches, and how it ends. -/
structure Traced
    (ι ε α : Type) where
  ops : List (LatchOp ι)
  result : Except ε α

namespace Traced

variable {ι ε α β : Type}

def lift (result : Except ε α) : Traced ι ε α :=
  ⟨[], result⟩

/- A call that throws makes no operation behind. -/
protected def bind
    (x : Traced ι ε α)
    (f : α → Traced ι ε β) : Traced ι ε β :=
  match x.result with
  | .error e => ⟨x.ops, .error e⟩
  | .ok a => ⟨x.ops ++ (f a).ops, (f a).result⟩

instance : Monad (Traced ι ε) where
  pure a := ⟨[], .ok a⟩
  bind := Traced.bind

def get
    (l : ι)
    (mode : LatchMode) : Traced ι ε Unit :=
  ⟨[.get l mode], .ok ()⟩

def release
    (l : ι)
    (mode : LatchMode) : Traced ι ε Unit :=
  ⟨[.release l mode], .ok ()⟩

theorem bind_eq
    {x : Traced ι ε α}
    {a : α}
    (hResult : x.result = .ok a)
    (f : α → Traced ι ε β) :
    x >>= f = ⟨x.ops ++ (f a).ops, (f a).result⟩ := by
  show Traced.bind x f = _
  unfold Traced.bind
  rw [hResult]

theorem bind_error
    {x : Traced ι ε α}
    {e : ε}
    (hResult : x.result = .error e)
    (f : α → Traced ι ε β) :
    x >>= f = ⟨x.ops, .error e⟩ := by
  show Traced.bind x f = _
  unfold Traced.bind
  rw [hResult]

theorem result_bind_ok
    {x : Traced ι ε α}
    {a : α}
    (hResult : x.result = .ok a)
    (f : α → Traced ι ε β) :
    (x >>= f).result = (f a).result := by
  rw [bind_eq hResult]

theorem result_bind_error
    {x : Traced ι ε α}
    {e : ε}
    (hResult : x.result = .error e)
    (f : α → Traced ι ε β) :
    (x >>= f).result = .error e := by
  rw [bind_error hResult]

/- A call that returns is a part that returns and the rest. -/
theorem returns_of_bind
    {x : Traced ι ε α}
    {f : α → Traced ι ε β}
    {b : β}
    (hReturns : (x >>= f).result = .ok b) :
    ∃ a, x.result = .ok a ∧ (f a).result = .ok b := by
  cases hResult : x.result with
  | error e =>
      rw [result_bind_error hResult] at hReturns
      exact absurd hReturns (by simp)
  | ok a =>
      rw [result_bind_ok hResult] at hReturns
      exact ⟨a, rfl, hReturns⟩

/- The result does not depend on the latches. -/
theorem result_bind
    (x : Traced ι ε α)
    (f : α → Traced ι ε β) :
    (x >>= f).result =
      x.result.bind (fun a => (f a).result) := by
  cases hResult : x.result with
  | error e =>
      rw [bind_error hResult]
      rfl
  | ok a =>
      rw [bind_eq hResult]
      rfl

@[simp] theorem result_get_bind
    (l : ι)
    (mode : LatchMode)
    (f : Unit → Traced ι ε β) :
    (get l mode >>= f).result = (f ()).result := by
  rfl

@[simp] theorem result_release_bind
    (l : ι)
    (mode : LatchMode)
    (f : Unit → Traced ι ε β) :
    (release l mode >>= f).result = (f ()).result := by
  rfl

@[simp] theorem result_pure (a : α) :
    (pure a : Traced ι ε α).result = .ok a := by
  rfl

section Balanced

variable [DecidableEq ι]

theorem owns_bind
    {x : Traced ι ε α}
    {a : α}
    (hResult : x.result = .ok a)
    {held next : Held ι}
    (hOwns : owns held x.ops = some next)
    (f : α → Traced ι ε β) :
    owns held (x >>= f).ops = owns next (f a).ops := by
  rw [bind_eq hResult]
  show owns held (x.ops ++ (f a).ops) = _
  rw [owns_append, hOwns]
  rfl

/- A call that throws keeps what it holds. -/
theorem owns_bind_error
    {x : Traced ι ε α}
    {e : ε}
    (hResult : x.result = .error e)
    (held : Held ι)
    (f : α → Traced ι ε β) :
    owns held (x >>= f).ops = owns held x.ops := by
  rw [bind_error hResult]

/- What waits for itself goes on no further. -/
theorem owns_bind_none
    {x : Traced ι ε α}
    {held : Held ι}
    (hNone : owns held x.ops = none)
    (f : α → Traced ι ε β) :
    owns held (x >>= f).ops = none := by
  cases hResult : x.result with
  | error e => rw [owns_bind_error hResult, hNone]
  | ok a =>
      rw [bind_eq hResult]
      show owns held (x.ops ++ (f a).ops) = none
      rw [owns_append, hNone]
      rfl

theorem owns_get_bind
    {l : ι}
    {held : Held ι}
    (hFree : l ∉ held.map Prod.fst)
    (mode : LatchMode)
    (f : Unit → Traced ι ε β) :
    owns held (get l mode >>= f).ops =
      owns ((l, mode) :: held) (f ()).ops := by
  apply owns_bind rfl
  show (LatchOp.own held (.get l mode)).bind _ = _
  rw [LatchOp.own, if_neg hFree]
  rfl

@[simp] theorem owns_release_bind
    (l : ι)
    (mode : LatchMode)
    (held : Held ι)
    (f : Unit → Traced ι ε β) :
    owns ((l, mode) :: held) (release l mode >>= f).ops =
      owns held (f ()).ops := by
  apply owns_bind rfl
  show (LatchOp.own ((l, mode) :: held)
    (.release l mode)).bind _ = _
  rw [LatchOp.own, if_pos List.mem_cons_self,
    List.erase_cons_head]
  rfl

/- Nothing releases a latch that is not held. -/
theorem owns_release_bind_none
    {l : ι}
    {mode : LatchMode}
    {held : Held ι}
    (hNot : (l, mode) ∉ held)
    (f : Unit → Traced ι ε β) :
    owns held (release l mode >>= f).ops = none := by
  show (LatchOp.own held (.release l mode)).bind _ = none
  rw [LatchOp.own, if_neg hNot]
  rfl

@[simp] theorem owns_pure
    (held : Held ι)
    (a : α) :
    owns held (pure a : Traced ι ε α).ops = some held := by
  rfl

------------------------------------------------------------
-- Rules
------------------------------------------------------------

/- From `held`, the call returns with `next` held. -/
structure Leaves
    (held next : Held ι)
    (x : Traced ι ε α) : Prop where
  returns : ∃ a, x.result = .ok a
  holds : owns held x.ops = some next

theorem leaves_pure
    (held : Held ι)
    (a : α) :
    Leaves held held (pure a : Traced ι ε α) :=
  ⟨⟨a, rfl⟩, rfl⟩

theorem leaves_lift
    {result : Except ε α}
    {a : α}
    (hResult : result = .ok a)
    (held : Held ι) :
    Leaves held held (lift result : Traced ι ε α) :=
  ⟨⟨a, hResult⟩, rfl⟩

namespace Leaves

variable {held mid next : Held ι}

theorem owns_bind
    {x : Traced ι ε α}
    {f : α → Traced ι ε β}
    (hFirst : Leaves held mid x)
    (hThen : ∀ a, x.result = .ok a →
      owns mid (f a).ops = some next) :
    owns held (x >>= f).ops = some next := by
  rcases hFirst.returns with ⟨a, hResult⟩
  rw [Traced.owns_bind hResult hFirst.holds]
  exact hThen a hResult

theorem bind
    {x : Traced ι ε α}
    {f : α → Traced ι ε β}
    (hFirst : Leaves held mid x)
    (hThen : ∀ a, x.result = .ok a →
      Leaves mid next (f a)) :
    Leaves held next (x >>= f) := by
  rcases hFirst.returns with ⟨a, hResult⟩
  rcases (hThen a hResult).returns with ⟨b, hEnd⟩
  refine ⟨⟨b, ?_⟩, ?_⟩
  · rw [result_bind, hResult]
    exact hEnd
  · exact hFirst.owns_bind
      (fun c hSame => (hThen c hSame).holds)

theorem get
    {l : ι}
    {mode : LatchMode}
    {f : Unit → Traced ι ε β}
    (hFree : l ∉ held.map Prod.fst)
    (hThen : Leaves ((l, mode) :: held) next (f ())) :
    Leaves held next (Traced.get l mode >>= f) := by
  refine ⟨hThen.returns, ?_⟩
  rw [owns_get_bind hFree]
  exact hThen.holds

theorem release
    {l : ι}
    {mode : LatchMode}
    {f : Unit → Traced ι ε β}
    (hThen : Leaves held next (f ())) :
    Leaves ((l, mode) :: held) next
      (Traced.release l mode >>= f) := by
  refine ⟨hThen.returns, ?_⟩
  rw [owns_release_bind]
  exact hThen.holds

end Leaves

/- The last operation of a call. -/
theorem leaves_release_pure
    (l : ι)
    (mode : LatchMode)
    (held : Held ι)
    (a : α) :
    Leaves ((l, mode) :: held) held
      (do release l mode; return a : Traced ι ε α) :=
  .release (leaves_pure held a)

structure Balanced (x : Traced ι ε α) : Prop where
  owned : owns [] x.ops ≠ none
  restored : ∀ c : Holders ι, counts c x.ops = c

theorem balanced_iff (x : Traced ι ε α) :
    x.Balanced ↔ owns [] x.ops = some [] := by
  constructor
  · intro hBalanced
    rcases Option.ne_none_iff_exists'.mp hBalanced.owned with
      ⟨held, hOwns⟩
    have hCounts := counts_of_owns hOwns (fun _ _ => 0)
    have hSame := hBalanced.restored
      (joined (fun _ _ => 0) [])
    rw [hSame] at hCounts
    rw [hOwns]
    cases held with
    | nil => rfl
    | cons entry held =>
        have hEntry := congrFun (congrFun hCounts entry.1)
          entry.2
        simp [joined] at hEntry
  · intro hOwns
    refine ⟨by rw [hOwns]; simp, ?_⟩
    intro c
    have hCounts := counts_of_owns hOwns c
    rw [joined_nil] at hCounts
    exact hCounts

theorem Leaves.balanced
    {x : Traced ι ε α}
    (hLeaves : Leaves [] [] x) :
    x.Balanced :=
  (balanced_iff x).mpr hLeaves.holds

end Balanced

end Traced
