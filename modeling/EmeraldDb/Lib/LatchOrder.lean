import EmeraldDb.Lib.LatchTrace
import EmeraldDb.Lib.Transition
import Mathlib.Algebra.BigOperators.Group.Finset.Piecewise

/-
  Threads that get latches in an order.

  A trace climbs when it gets a latch only above all that it
  holds, and holds nothing at its end.  Any number of threads
  with traces that climb never block each other for good: of
  a thread that waits and the one that it waits for, the
  other one waits higher up, if at all.

  Key definitions include:
    * `climbs`
    * `Traced.Climbs`
    * `LatchThreads.Step`
    * `Woven`

  Key results include:
    * `climbs_woven`
    * `LatchThreads.Sound.step`
    * `LatchThreads.Sound.free`
    * `LatchThreads.Sound.completes`
-/

------------------------------------------------------------
-- Traces That Climb
------------------------------------------------------------

section Climbs

variable {ι : Type} [DecidableEq ι]

/- The latch of an operation. -/
def LatchOp.latch : LatchOp ι → ι
| .get l _ => l
| .release l _ => l

/- What is held behind an operation. -/
def LatchOp.after
    (held : Held ι) : LatchOp ι → Held ι
| .get l mode => (l, mode) :: held
| .release l mode => held.erase (l, mode)

/-
  May the operation come next in a trace that climbs?  A latch
  is got above all that are held, and only what is held is
  released.
-/
def LatchOp.Next
    (rank : ι → Nat)
    (held : Held ι) : LatchOp ι → Prop
| .get l _ => ∀ e ∈ held, rank e.1 < rank l
| .release l mode => (l, mode) ∈ held

/- The trace climbs from what is held to what is held then. -/
def climbs
    (rank : ι → Nat)
    (held : Held ι) :
    List (LatchOp ι) → Held ι → Prop
| [], next => next = held
| op :: ops, next =>
    op.Next rank held ∧ climbs rank (op.after held) ops next

theorem climbs_append
    {rank : ι → Nat}
    {held mid next : Held ι}
    {front back : List (LatchOp ι)}
    (hFront : climbs rank held front mid)
    (hBack : climbs rank mid back next) :
    climbs rank held (front ++ back) next := by
  induction front generalizing held with
  | nil =>
      have hSame : mid = held := hFront
      rw [← hSame]
      exact hBack
  | cons op front ih => exact ⟨hFront.1, ih hFront.2⟩

/- Traces that climb and leave nothing follow each other. -/
theorem climbs_flatMap
    {α : Type}
    {rank : ι → Nat}
    {f : α → List (LatchOp ι)}
    {as : List α}
    (hAll : ∀ a ∈ as, climbs rank [] (f a) []) :
    climbs rank [] (as.flatMap f) [] := by
  induction as with
  | nil => rfl
  | cons a as ih =>
      rw [List.flatMap_cons]
      exact climbs_append (hAll a List.mem_cons_self)
        (ih (fun b hb => hAll b (List.mem_cons_of_mem _ hb)))

/- What was held before stays below, and is held behind. -/
theorem climbs_frame
    {rank : ι → Nat}
    {front next : Held ι}
    {ops : List (LatchOp ι)}
    (hClimbs : climbs rank front ops next)
    {held : Held ι}
    (hBelow : ∀ e ∈ held, ∀ op ∈ ops,
      rank e.1 < rank op.latch) :
    climbs rank (front ++ held) ops (next ++ held) := by
  induction ops generalizing front with
  | nil =>
      have hSame : next = front := hClimbs
      rw [hSame]
      rfl
  | cons op ops ih =>
      rcases hClimbs with ⟨hNext, hRest⟩
      have hThen := ih hRest
        (fun e hIn o hOp => hBelow e hIn o
          (List.mem_cons_of_mem _ hOp))
      cases op with
      | get l mode =>
          refine ⟨?_, hThen⟩
          intro e hIn
          rcases List.mem_append.mp hIn with hFront | hHeld
          · exact hNext e hFront
          · exact hBelow e hHeld _ List.mem_cons_self
      | release l mode =>
          have hOwn : (l, mode) ∈ front := hNext
          refine ⟨List.mem_append_left held hOwn, ?_⟩
          rw [LatchOp.after, List.erase_append_left held hOwn]
          exact hThen

/- A latch that is free when it is got is the only one held. -/
theorem climbs_of_owns
    {rank : ι → Nat}
    (hOne : ∀ l l' : ι, l = l')
    {held next : Held ι}
    {ops : List (LatchOp ι)}
    (hOwns : owns held ops = some next) :
    climbs rank held ops next := by
  induction ops generalizing held with
  | nil =>
      rw [owns, Option.some.injEq] at hOwns
      exact hOwns.symm
  | cons op ops ih =>
      rw [owns, Option.bind_eq_some_iff] at hOwns
      rcases hOwns with ⟨mid, hOwn, hRest⟩
      cases op with
      | get l mode =>
          rw [LatchOp.own] at hOwn
          by_cases hHeld : l ∈ held.map Prod.fst
          · rw [if_pos hHeld] at hOwn
            cases hOwn
          · rw [if_neg hHeld, Option.some.injEq] at hOwn
            rw [← hOwn] at hRest
            refine ⟨?_, ih hRest⟩
            intro e hIn
            exact absurd (List.mem_map.mpr
              ⟨e, hIn, hOne _ _⟩) hHeld
      | release l mode =>
          rw [LatchOp.own] at hOwn
          by_cases hHeld : (l, mode) ∈ held
          · rw [if_pos hHeld, Option.some.injEq] at hOwn
            rw [← hOwn] at hRest
            exact ⟨hHeld, ih hRest⟩
          · rw [if_neg hHeld] at hOwn
            cases hOwn

end Climbs

------------------------------------------------------------
-- Latches of a Larger System
------------------------------------------------------------

section Map

variable {ι κ : Type} [DecidableEq ι] [DecidableEq κ]

/- The operation on the latch that stands for its latch. -/
def LatchOp.map
    (f : ι → κ) : LatchOp ι → LatchOp κ
| .get l mode => .get (f l) mode
| .release l mode => .release (f l) mode

def heldAt
    (f : ι → κ)
    (held : Held ι) : Held κ :=
  held.map (Prod.map f id)

theorem heldAt_erase
    {f : ι → κ}
    (hInj : Function.Injective f)
    (held : Held ι)
    (e : ι × LatchMode) :
    heldAt f (held.erase e) =
      (heldAt f held).erase (Prod.map f id e) :=
  List.map_erase (hInj.prodMap Function.injective_id) held

theorem climbs_map
    {f : ι → κ}
    (hInj : Function.Injective f)
    {rank : κ → Nat}
    {held next : Held ι}
    {ops : List (LatchOp ι)}
    (hClimbs : climbs (fun l => rank (f l)) held ops next) :
    climbs rank (heldAt f held) (ops.map (LatchOp.map f))
      (heldAt f next) := by
  induction ops generalizing held with
  | nil =>
      have hSame : next = held := hClimbs
      rw [hSame]
      rfl
  | cons op ops ih =>
      rcases hClimbs with ⟨hNext, hRest⟩
      have hThen := ih hRest
      cases op with
      | get l mode =>
          refine ⟨?_, hThen⟩
          intro e hIn
          rcases List.mem_map.mp hIn with ⟨e', hOld, rfl⟩
          exact hNext e' hOld
      | release l mode =>
          refine ⟨List.mem_map_of_mem hNext, ?_⟩
          rw [LatchOp.after, heldAt_erase hInj] at hThen
          exact hThen

end Map

------------------------------------------------------------
-- Sections above All Others
------------------------------------------------------------

section Woven

variable {ι : Type} [DecidableEq ι]

/- The trace with further `parts` put in anywhere. -/
inductive Woven
    (parts : List (LatchOp ι) → Prop) :
    List (LatchOp ι) → List (LatchOp ι) → Prop
| nil : Woven parts [] []
| op
    {ops ops' : List (LatchOp ι)}
    (op : LatchOp ι)
    (hRest : Woven parts ops ops') :
    Woven parts (op :: ops) (op :: ops')
| part
    {ops ops' part : List (LatchOp ι)}
    (hPart : parts part)
    (hRest : Woven parts ops ops') :
    Woven parts ops (part ++ ops')

/- Parts on latches above the others do not stop a climb. -/
theorem climbs_woven
    {parts : List (LatchOp ι) → Prop}
    {rank : ι → Nat}
    {top : Nat}
    (hParts : ∀ part, parts part →
      climbs rank [] part [] ∧
        ∀ op ∈ part, top ≤ rank op.latch)
    {held next : Held ι}
    {ops ops' : List (LatchOp ι)}
    (hWoven : Woven parts ops ops')
    (hOps : ∀ op ∈ ops, rank op.latch < top)
    (hHeld : ∀ e ∈ held, rank e.1 < top)
    (hClimbs : climbs rank held ops next) :
    climbs rank held ops' next := by
  induction hWoven generalizing held with
  | nil => exact hClimbs
  | @op ops ops' op hRest ih =>
      refine ⟨hClimbs.1, ih
        (fun o hIn => hOps o (List.mem_cons_of_mem _ hIn))
        ?_ hClimbs.2⟩
      cases op with
      | get l mode =>
          intro e hIn
          rcases List.mem_cons.mp hIn with rfl | hOld
          · exact hOps _ List.mem_cons_self
          · exact hHeld e hOld
      | release l mode =>
          exact fun e hIn => hHeld e (List.mem_of_mem_erase hIn)
  | @part ops ops' part hPart hRest ih =>
      have hAbove : ∀ e ∈ held, ∀ op ∈ part,
          rank e.1 < rank op.latch :=
        fun e hIn op hOp => Nat.lt_of_lt_of_le (hHeld e hIn)
          ((hParts part hPart).2 op hOp)
      exact climbs_append
        (climbs_frame (hParts part hPart).1 hAbove)
        (ih hOps hHeld hClimbs)

end Woven

------------------------------------------------------------
-- Rules for Calls
------------------------------------------------------------

namespace Traced

variable {ι ε α β : Type} [DecidableEq ι]

/- From `held`, the call climbs and returns with `next`. -/
structure Climbs
    (rank : ι → Nat)
    (held next : Held ι)
    (x : Traced ι ε α) : Prop where
  returns : ∃ a, x.result = .ok a
  ops : climbs rank held x.ops next

theorem climbs_pure
    (rank : ι → Nat)
    (held : Held ι)
    (a : α) :
    Climbs rank held held (pure a : Traced ι ε α) :=
  ⟨⟨a, rfl⟩, rfl⟩

theorem climbs_lift
    {result : Except ε α}
    {a : α}
    (hResult : result = .ok a)
    (rank : ι → Nat)
    (held : Held ι) :
    Climbs rank held held (lift result : Traced ι ε α) :=
  ⟨⟨a, hResult⟩, rfl⟩

section Rules

variable {rank : ι → Nat} {held mid next : Held ι}

theorem climbs_get
    {l : ι}
    {mode : LatchMode}
    {f : Unit → Traced ι ε β}
    (hAbove : ∀ e ∈ held, rank e.1 < rank l)
    (hThen : climbs rank ((l, mode) :: held) (f ()).ops next) :
    climbs rank held (Traced.get l mode >>= f).ops next :=
  ⟨hAbove, hThen⟩

theorem climbs_release
    {l : ι}
    {mode : LatchMode}
    {f : Unit → Traced ι ε β}
    (hThen : climbs rank held (f ()).ops next) :
    climbs rank ((l, mode) :: held)
      (Traced.release l mode >>= f).ops next := by
  refine ⟨List.mem_cons_self, ?_⟩
  simp only [LatchOp.after, List.erase_cons_head]
  exact hThen

namespace Climbs

/- The trace goes on behind a call that returns. -/
theorem before
    {x : Traced ι ε α}
    {f : α → Traced ι ε β}
    (hFirst : Climbs rank held mid x)
    (hThen : ∀ a, x.result = .ok a →
      climbs rank mid (f a).ops next) :
    climbs rank held (x >>= f).ops next := by
  rcases hFirst.returns with ⟨a, hResult⟩
  rw [Traced.bind_eq hResult]
  exact climbs_append hFirst.ops (hThen a hResult)

theorem bind
    {x : Traced ι ε α}
    {f : α → Traced ι ε β}
    (hFirst : Climbs rank held mid x)
    (hThen : ∀ a, x.result = .ok a →
      Climbs rank mid next (f a)) :
    Climbs rank held next (x >>= f) := by
  refine ⟨?_, hFirst.before
    (fun a hResult => (hThen a hResult).ops)⟩
  rcases hFirst.returns with ⟨a, hResult⟩
  rw [result_bind_ok hResult]
  exact (hThen a hResult).returns

theorem get
    {l : ι}
    {mode : LatchMode}
    {f : Unit → Traced ι ε β}
    (hAbove : ∀ e ∈ held, rank e.1 < rank l)
    (hThen : Climbs rank ((l, mode) :: held) next (f ())) :
    Climbs rank held next (Traced.get l mode >>= f) :=
  ⟨hThen.returns, climbs_get hAbove hThen.ops⟩

theorem release
    {l : ι}
    {mode : LatchMode}
    {f : Unit → Traced ι ε β}
    (hThen : Climbs rank held next (f ())) :
    Climbs rank ((l, mode) :: held) next
      (Traced.release l mode >>= f) :=
  ⟨hThen.returns, climbs_release hThen.ops⟩

end Climbs

end Rules

/- The last operation of a call. -/
theorem climbs_release_pure
    (rank : ι → Nat)
    (l : ι)
    (mode : LatchMode)
    (held : Held ι)
    (a : α) :
    Climbs rank ((l, mode) :: held) held
      (do release l mode; return a : Traced ι ε α) :=
  .release (climbs_pure rank held a)

end Traced

------------------------------------------------------------
-- Threads
------------------------------------------------------------

/- What a thread holds and the operations it has left. -/
structure LatchThread (ι : Type) where
  held : Held ι
  ops : List (LatchOp ι)

abbrev LatchThreads (τ ι : Type) : Type :=
  τ → LatchThread ι

namespace LatchThreads

variable {τ ι : Type} [DecidableEq τ] [DecidableEq ι]

/- The threads with their traces and no latch. -/
def start
    (traces : τ → List (LatchOp ι)) : LatchThreads τ ι :=
  fun i => ⟨[], traces i⟩

/-
  A latch has several threads in shared mode or one in
  exclusive mode.
-/
def Grants
    (s : LatchThreads τ ι)
    (i : τ) : LatchOp ι → Prop
| .get l .shared => ∀ j, (l, .exclusive) ∉ (s j).held
| .get l .exclusive => ∀ j mode, (l, mode) ∉ (s j).held
| .release l mode => (l, mode) ∈ (s i).held

/- A thread makes its next operation. -/
inductive Step
    (s : LatchThreads τ ι) :
    τ × LatchOp ι → LatchThreads τ ι → Prop
| make
    (i : τ)
    (op : LatchOp ι)
    (ops : List (LatchOp ι))
    (hNext : (s i).ops = op :: ops)
    (hGrants : s.Grants i op) :
    Step s (i, op)
      (Function.update s i ⟨op.after (s i).held, ops⟩)

/-
  The thread's next operation does not wait: nobody holds the
  latch that it gets, in any mode, so that it goes on whoever
  else waits for the latch.
-/
def Free
    (s : LatchThreads τ ι)
    (i : τ) : Prop :=
  ∃ op ops, (s i).ops = op :: ops ∧
    ∀ l mode, op = .get l mode → ∀ j mode',
      (l, mode') ∉ (s j).held

/-
  Every trace climbs, and an exclusive holder is alone.
-/
structure Sound
    (rank : ι → Nat)
    (s : LatchThreads τ ι) : Prop where
  climbs : ∀ i, climbs rank (s i).held (s i).ops []
  alone : ∀ i j l mode, (l, .exclusive) ∈ (s i).held →
    (l, mode) ∈ (s j).held → i = j

variable {rank : ι → Nat} {s t : LatchThreads τ ι}

omit [DecidableEq τ] in
theorem sound_start
    {traces : τ → List (LatchOp ι)}
    (hAll : ∀ i, climbs rank [] (traces i) []) :
    Sound rank (start traces) := by
  refine ⟨hAll, ?_⟩
  intro i j l mode hIn
  cases hIn

theorem Sound.step
    {a : τ × LatchOp ι}
    (hSound : Sound rank s)
    (hStep : Step s a t) :
    Sound rank t := by
  cases hStep with
  | make i op ops hNext hGrants =>
  have hOwn := hSound.climbs i
  rw [hNext] at hOwn
  refine ⟨?_, ?_⟩
  · intro j
    by_cases hEq : j = i
    · rw [hEq, Function.update_self]
      exact hOwn.2
    · rw [Function.update_of_ne hEq]
      exact hSound.climbs j
  · intro j k l mode hJ hK
    -- what a thread holds it has held, or it has just got it
    have hBack : ∀ (m : τ) (e : ι × LatchMode),
        e ∈ (Function.update s i
          ⟨op.after (s i).held, ops⟩ m).held →
        e ∈ (s m).held ∨ m = i ∧ op = .get e.1 e.2 := by
      intro m e hIn
      by_cases hEq : m = i
      · rw [hEq, Function.update_self] at hIn
        cases op with
        | get l' mode' =>
            rcases List.mem_cons.mp hIn with rfl | hOld
            · exact Or.inr ⟨hEq, rfl⟩
            · exact Or.inl (hEq ▸ hOld)
        | release l' mode' =>
            exact Or.inl (hEq ▸ List.mem_of_mem_erase hIn)
      · rw [Function.update_of_ne hEq] at hIn
        exact Or.inl hIn
    rcases hBack j _ hJ with hOldJ | ⟨rfl, hGetJ⟩
    · rcases hBack k _ hK with hOldK | ⟨rfl, hGetK⟩
      · exact hSound.alone j k l mode hOldJ hOldK
      · rw [hGetK] at hGrants
        cases mode with
        | shared => exact absurd hOldJ (hGrants j)
        | exclusive => exact absurd hOldJ (hGrants j .exclusive)
    · rcases hBack k _ hK with hOldK | ⟨rfl, hGetK⟩
      · rw [hGetJ] at hGrants
        exact absurd hOldK (hGrants k mode)
      · rfl

omit [DecidableEq τ] in
/-
  A thread that is not done goes on, or one further up does.
-/
theorem Sound.free
    {top : Nat}
    (hSound : Sound rank s)
    (hTop : ∀ l, rank l ≤ top)
    {i : τ}
    (hBusy : (s i).ops ≠ []) :
    ∃ j, s.Free j := by
  -- on how far the latch that the thread waits for is below
  have hWaits : ∀ n i l mode ops,
      (s i).ops = .get l mode :: ops → top - rank l = n →
        ∃ j, s.Free j := by
    intro n
    induction n using Nat.strong_induction_on with
    | _ n ih =>
    intro i l mode ops hNext hRank
    by_cases hFree : ∀ j mode', (l, mode') ∉ (s j).held
    · refine ⟨i, _, ops, hNext, ?_⟩
      intro l' mode' hGet
      cases hGet
      exact hFree
    · push Not at hFree
      rcases hFree with ⟨j, mode', hHolds⟩
      have hClimbs := hSound.climbs j
      cases hOps : (s j).ops with
      | nil =>
          rw [hOps] at hClimbs
          have hNone : [] = (s j).held := hClimbs
          rw [← hNone] at hHolds
          cases hHolds
      | cons op rest =>
          rw [hOps] at hClimbs
          cases op with
          | release l' m =>
              exact ⟨j, _, rest, hOps,
                fun l'' m' hGet => by cases hGet⟩
          | get l' m =>
              have hAbove : rank l < rank l' :=
                hClimbs.1 (l, mode') hHolds
              have hMost := hTop l'
              exact ih (top - rank l') (by omega) j l' m rest
                hOps rfl
  cases hOps : (s i).ops with
  | nil => exact absurd hOps hBusy
  | cons op rest =>
      cases op with
      | get l mode => exact hWaits _ i l mode rest hOps rfl
      | release l mode =>
          exact ⟨i, _, rest, hOps,
            fun l' m hGet => by cases hGet⟩

/- A thread that does not wait makes its operation. -/
theorem Sound.moves
    (hSound : Sound rank s)
    {i : τ}
    (hFree : s.Free i) :
    ∃ op ops, (s i).ops = op :: ops ∧
      Step s (i, op)
        (Function.update s i ⟨op.after (s i).held, ops⟩) := by
  rcases hFree with ⟨op, ops, hNext, hNobody⟩
  refine ⟨op, ops, hNext, .make i op ops hNext ?_⟩
  have hClimbs := hSound.climbs i
  rw [hNext] at hClimbs
  cases op with
  | get l mode =>
      cases mode with
      | shared => exact fun j => hNobody l _ rfl j _
      | exclusive => exact hNobody l _ rfl
  | release l mode => exact hClimbs.1

section Completes

variable [Fintype τ]

/- The operations that are left in all. -/
def left (s : LatchThreads τ ι) : Nat :=
  ∑ i, (s i).ops.length

omit [DecidableEq ι] in
theorem left_update
    {i : τ}
    {op : LatchOp ι}
    {ops : List (LatchOp ι)}
    (hNext : (s i).ops = op :: ops)
    (held : Held ι) :
    left (Function.update s i ⟨held, ops⟩) < left s := by
  unfold left
  have hMoved : (fun j =>
      (Function.update s i ⟨held, ops⟩ j).ops.length) =
      Function.update (fun j => (s j).ops.length) i
        ops.length := by
    funext j
    by_cases hEq : j = i
    · rw [hEq, Function.update_self, Function.update_self]
    · rw [Function.update_of_ne hEq, Function.update_of_ne hEq]
  rw [hMoved, Finset.sum_update_of_mem (Finset.mem_univ i),
    Finset.sum_eq_add_sum_sdiff_singleton_of_mem
      (Finset.mem_univ i) (fun j => (s j).ops.length), hNext,
    List.length_cons]
  omega

/- The threads can go on until all are done. -/
theorem Sound.completes
    {top : Nat}
    (hSound : Sound rank s)
    (hTop : ∀ l, rank l ≤ top) :
    ∃ as t, Steps Step s as t ∧ ∀ i, t i = ⟨[], []⟩ := by
  induction hLeft : left s using Nat.strong_induction_on
    generalizing s with
  | _ n ih =>
  by_cases hDone : ∀ i, (s i).ops = []
  · refine ⟨[], s, .nil s, ?_⟩
    intro i
    have hClimbs := hSound.climbs i
    rw [hDone i] at hClimbs
    have hNone : [] = (s i).held := hClimbs
    show LatchThread.mk (s i).held (s i).ops = _
    rw [← hNone, hDone i]
  · push Not at hDone
    rcases hDone with ⟨i, hBusy⟩
    rcases hSound.free hTop hBusy with ⟨j, hFree⟩
    rcases hSound.moves hFree with ⟨op, ops, hNext, hStep⟩
    have hLess := left_update hNext (op.after (s j).held)
    rw [hLeft] at hLess
    rcases ih _ hLess (hSound.step hStep) rfl with
      ⟨as, t, hRun, hEnd⟩
    exact ⟨_, t, .cons hStep hRun, hEnd⟩

end Completes

end LatchThreads
