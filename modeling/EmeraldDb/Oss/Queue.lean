import EmeraldDb.Lib.Transition
import Mathlib.Algebra.BigOperators.Group.Finset.Piecewise
import Mathlib.Algebra.Order.BigOperators.Group.Finset

/-
  The queue that threads share.

  Any number of threads push to the queue and wait for what
  others push.  Every operation of the mutex, of the condition
  variable and of the container is a step of its own; reading
  the container and writing it back are two steps.  A thread
  that waits may also wake up without a notification, or when
  its time has passed.

  Key definitions include:
    * `OssQueue`
    * `QueueStep`
    * `OssQueue.Sound`
    * `OssQueue.Tended`

  Key results include:
    * `OssQueue.Sound.step`
    * `OssQueue.Tended.step`
    * `queue_fifo`
    * `queue_serves`
-/

namespace EmeraldDb

------------------------------------------------------------
-- Threads in Calls
------------------------------------------------------------

/-
  Where a thread is in a call of the queue.  `timed` tells
  `timed_wait_and_pop` from `wait_and_pop`.
-/
inductive QueuePlace (α : Type)
| outside
| pushing (data : α)
| storing (data : α)
| writing (data : α) (found : List α)
| stored
| notifying
| locking (timed : Bool)
| checking (timed : Bool)
| reading (value : α)
| taken
| waiting (timed : Bool)
| expired
| failing

namespace QueuePlace

variable {α : Type}

/- Does a thread at the place hold the mutex? -/
def holds : QueuePlace α → Bool
| storing _ => true
| writing _ _ => true
| stored => true
| checking _ => true
| reading _ => true
| taken => true
| failing => true
| _ => false

/- The place behind the lock that a thread asks for. -/
def locked : QueuePlace α → Option (QueuePlace α)
| pushing data => some (storing data)
| locking timed => some (checking timed)
| expired => some failing
| _ => none

/- A lock leads to the places with the mutex. -/
theorem locked_cases
    {p q : QueuePlace α}
    (hLocked : p.locked = some q) :
    p.holds = false ∧ q.holds = true ∧
      (∀ data found, q ≠ .writing data found) ∧
      ∀ value, q ≠ .reading value := by
  cases p <;>
    simp only [QueuePlace.locked, reduceCtorEq,
      Option.some.injEq] at hLocked
  all_goals
    subst hLocked
    simp [QueuePlace.holds]

end QueuePlace

/- The container, the owner of the mutex and the threads. -/
structure OssQueue (ι α : Type) where
  queue : List α
  owner : Option ι
  place : ι → QueuePlace α

namespace OssQueue

variable {ι α : Type} [DecidableEq ι]

/- A new queue, with no thread in a call. -/
def init : OssQueue ι α where
  queue := []
  owner := none
  place := fun _ => .outside

/- A thread moves to another place. -/
def put
    (s : OssQueue ι α)
    (i : ι)
    (p : QueuePlace α) : OssQueue ι α :=
  { s with place := Function.update s.place i p }

end OssQueue

/-
  What a step is to an observer: the begin of a call, a push
  or a removal that takes effect, a wait that ends without a
  notification or without success, or nothing.
-/
inductive QueueAct (α : Type)
| call
| inner
| pushed (data : α)
| popped (value : α)
| woken
| expired
| timedOut

inductive QueueStep
    {ι α : Type}
    [DecidableEq ι] :
    OssQueue ι α → ι × QueueAct α → OssQueue ι α → Prop
| push
    {s : OssQueue ι α}
    {i : ι}
    (data : α)
    (hPlace : s.place i = .outside) :
    QueueStep s (i, .call) (s.put i (.pushing data))
| pop
    {s : OssQueue ι α}
    {i : ι}
    (timed : Bool)
    (hPlace : s.place i = .outside) :
    QueueStep s (i, .call) (s.put i (.locking timed))
| lock
    {s : OssQueue ι α}
    {i : ι}
    {p : QueuePlace α}
    (hPlace : (s.place i).locked = some p)
    (hFree : s.owner = none) :
    QueueStep s (i, .inner)
      { s.put i p with owner := some i }
| load
    {s : OssQueue ι α}
    {i : ι}
    {data : α}
    (hPlace : s.place i = .storing data) :
    QueueStep s (i, .inner) (s.put i (.writing data s.queue))
| write
    {s : OssQueue ι α}
    {i : ι}
    {data : α}
    {found : List α}
    (hPlace : s.place i = .writing data found) :
    QueueStep s (i, .pushed data)
      { s.put i .stored with queue := found ++ [data] }
| unlock
    {s : OssQueue ι α}
    {i : ι}
    (hPlace : s.place i = .stored) :
    QueueStep s (i, .inner)
      { s.put i .notifying with owner := none }
| notifyNone
    {s : OssQueue ι α}
    {i : ι}
    (hPlace : s.place i = .notifying)
    (hNone : ∀ j timed, s.place j ≠ .waiting timed) :
    QueueStep s (i, .inner) (s.put i .outside)
| notifyOne
    {s : OssQueue ι α}
    {i j : ι}
    {timed : Bool}
    (hPlace : s.place i = .notifying)
    (hWaits : s.place j = .waiting timed) :
    QueueStep s (i, .inner)
      ((s.put i .outside).put j (.locking timed))
| sleep
    {s : OssQueue ι α}
    {i : ι}
    {timed : Bool}
    (hPlace : s.place i = .checking timed)
    (hEmpty : s.queue = []) :
    QueueStep s (i, .inner)
      { s.put i (.waiting timed) with owner := none }
| front
    {s : OssQueue ι α}
    {i : ι}
    {timed : Bool}
    {value : α}
    {rest : List α}
    (hPlace : s.place i = .checking timed)
    (hFull : s.queue = value :: rest) :
    QueueStep s (i, .inner) (s.put i (.reading value))
| remove
    {s : OssQueue ι α}
    {i : ι}
    {value : α}
    (hPlace : s.place i = .reading value) :
    QueueStep s (i, .popped value)
      { s.put i .taken with queue := s.queue.tail }
| leave
    {s : OssQueue ι α}
    {i : ι}
    (hPlace : s.place i = .taken) :
    QueueStep s (i, .inner)
      { s.put i .outside with owner := none }
| spurious
    {s : OssQueue ι α}
    {i : ι}
    {timed : Bool}
    (hPlace : s.place i = .waiting timed) :
    QueueStep s (i, .woken) (s.put i (.locking timed))
| expire
    {s : OssQueue ι α}
    {i : ι}
    (hPlace : s.place i = .waiting true) :
    QueueStep s (i, .expired) (s.put i .expired)
| fail
    {s : OssQueue ι α}
    {i : ι}
    (hPlace : s.place i = .failing) :
    QueueStep s (i, .timedOut)
      { s.put i .outside with owner := none }

------------------------------------------------------------
-- Mutual Exclusion
------------------------------------------------------------

namespace OssQueue

variable {ι α : Type} [DecidableEq ι]
variable {s t : OssQueue ι α} {a : ι × QueueAct α}

@[simp] theorem put_queue
    (s : OssQueue ι α)
    (i : ι)
    (p : QueuePlace α) :
    (s.put i p).queue = s.queue :=
  rfl

theorem put_self
    (s : OssQueue ι α)
    (i : ι)
    (p : QueuePlace α) :
    (s.put i p).place i = p := by
  simp [put]

theorem put_of_ne
    (s : OssQueue ι α)
    {i j : ι}
    (p : QueuePlace α)
    (hNe : j ≠ i) :
    (s.put i p).place j = s.place j := by
  simp [put, hNe]

/-
  The owner of the mutex is the thread behind a lock.  What
  it has read from the container is still there.
-/
structure Sound (s : OssQueue ι α) : Prop where
  holder : ∀ i, s.owner = some i ↔ (s.place i).holds = true
  writing : ∀ i data found,
    s.place i = .writing data found → found = s.queue
  reading : ∀ i value,
    s.place i = .reading value → s.queue.head? = some value

omit [DecidableEq ι] in
/- Only the owner is behind a lock. -/
theorem Sound.only
    (hSound : Sound s)
    {i j : ι}
    (hI : (s.place i).holds = true)
    (hJ : (s.place j).holds = true) :
    i = j := by
  have hOwner := (hSound.holder i).mpr hI
  rw [(hSound.holder j).mpr hJ] at hOwner
  exact (Option.some.inj hOwner).symm

/-
  A thread that moves: it owns the mutex behind a lock, and
  changes the container only if it owned the mutex.
-/
theorem Sound.moved
    (hSound : Sound s)
    {i : ι}
    {p : QueuePlace α}
    {queue : List α}
    {owner : Option ι}
    (hOwner : p.holds = true ∧ owner = some i ∧
          ((s.place i).holds = true ∨ s.owner = none) ∨
        p.holds = false ∧
          ((s.place i).holds = true ∧ owner = none ∨
            (s.place i).holds = false ∧ owner = s.owner))
    (hQueue : queue = s.queue ∨ (s.place i).holds = true)
    (hWriting : ∀ data found,
      p = .writing data found → found = queue)
    (hReading : ∀ value,
      p = .reading value → queue.head? = some value) :
    Sound ⟨queue, owner, Function.update s.place i p⟩ := by
  have hHolder := hSound.holder
  have hOther : ∀ j, j ≠ i → (s.place j).holds = true →
      queue = s.queue := by
    intro j hNe hHolds
    rcases hQueue with hSame | hSelf
    · exact hSame
    · exact absurd (hSound.only hHolds hSelf) hNe
  refine ⟨?_, ?_, ?_⟩
  · intro j
    by_cases hEq : j = i
    · subst hEq
      simp only [Function.update_self]
      grind
    · simp only [Function.update_of_ne hEq]
      grind
  · intro j data found hPlace
    by_cases hEq : j = i
    · subst hEq
      simp only [Function.update_self] at hPlace
      exact hWriting data found hPlace
    · simp only [Function.update_of_ne hEq] at hPlace
      rw [hOther j hEq (by rw [hPlace]; rfl)]
      exact hSound.writing j data found hPlace
  · intro j value hPlace
    by_cases hEq : j = i
    · subst hEq
      simp only [Function.update_self] at hPlace
      exact hReading value hPlace
    · simp only [Function.update_of_ne hEq] at hPlace
      rw [hOther j hEq (by rw [hPlace]; rfl)]
      exact hSound.reading j value hPlace

/- A thread that moves between places without the mutex. -/
theorem Sound.put
    (hSound : Sound s)
    {i : ι}
    {p : QueuePlace α}
    (hOld : (s.place i).holds = false)
    (hNew : p.holds = false) :
    Sound (s.put i p) := by
  apply hSound.moved (Or.inr ⟨hNew, Or.inr ⟨hOld, rfl⟩⟩)
    (Or.inl rfl)
  · rintro data found rfl
    cases hNew
  · rintro value rfl
    cases hNew

/- A thread that moves on with the mutex. -/
theorem Sound.putLocked
    (hSound : Sound s)
    {i : ι}
    {p : QueuePlace α}
    {queue : List α}
    (hOld : (s.place i).holds = true)
    (hNew : p.holds = true)
    (hWriting : ∀ data found,
      p = .writing data found → found = queue)
    (hReading : ∀ value,
      p = .reading value → queue.head? = some value) :
    Sound { s.put i p with queue := queue } :=
  hSound.moved
    (Or.inl ⟨hNew, (hSound.holder i).mpr hOld, Or.inl hOld⟩)
    (Or.inr hOld) hWriting hReading

/- A thread that gives the mutex back. -/
theorem Sound.release
    (hSound : Sound s)
    {i : ι}
    {p : QueuePlace α}
    (hOld : (s.place i).holds = true)
    (hNew : p.holds = false) :
    Sound { s.put i p with owner := none } := by
  apply hSound.moved (Or.inr ⟨hNew, Or.inl ⟨hOld, rfl⟩⟩)
    (Or.inl rfl)
  · rintro data found rfl
    cases hNew
  · rintro value rfl
    cases hNew

/- Every step keeps the threads apart. -/
theorem Sound.step
    (hSound : Sound s)
    (hStep : QueueStep s a t) :
    Sound t := by
  cases hStep with
  | push data hPlace =>
      exact hSound.put (by rw [hPlace]; rfl) rfl
  | pop timed hPlace =>
      exact hSound.put (by rw [hPlace]; rfl) rfl
  | lock hPlace hFree =>
      rcases QueuePlace.locked_cases hPlace with
        ⟨_, hHolds, hWriting, hReading⟩
      exact hSound.moved
        (Or.inl ⟨hHolds, rfl, Or.inr hFree⟩) (Or.inl rfl)
        (fun data found hEq => absurd hEq (hWriting _ _))
        (fun value hEq => absurd hEq (hReading _))
  | @load i data hPlace =>
      change Sound { s.put i _ with queue := s.queue }
      apply hSound.putLocked (by rw [hPlace]; rfl) rfl
      · intro data found hEq
        exact (QueuePlace.writing.inj hEq).2.symm
      · intro value hEq
        cases hEq
  | write hPlace =>
      apply hSound.putLocked (by rw [hPlace]; rfl) rfl
      · intro data found hEq
        cases hEq
      · intro value hEq
        cases hEq
  | unlock hPlace =>
      exact hSound.release (by rw [hPlace]; rfl) rfl
  | notifyNone hPlace hNone =>
      exact hSound.put (by rw [hPlace]; rfl) rfl
  | notifyOne hPlace hWaits =>
      rename_i i j timed
      have hNe : j ≠ i := by
        intro hEq
        rw [hEq, hPlace] at hWaits
        cases hWaits
      have hFirst : Sound (s.put i .outside) :=
        hSound.put (by rw [hPlace]; rfl) rfl
      apply hFirst.put _ rfl
      rw [put_of_ne s _ hNe, hWaits]
      rfl
  | sleep hPlace hEmpty =>
      exact hSound.release (by rw [hPlace]; rfl) rfl
  | @front i timed value rest hPlace hFull =>
      change Sound { s.put i _ with queue := s.queue }
      apply hSound.putLocked (by rw [hPlace]; rfl) rfl
      · intro data found hEq
        cases hEq
      · intro value hEq
        rw [hFull, ← QueuePlace.reading.inj hEq]
        rfl
  | remove hPlace =>
      apply hSound.putLocked (by rw [hPlace]; rfl) rfl
      · intro data found hEq
        cases hEq
      · intro value hEq
        cases hEq
  | leave hPlace =>
      exact hSound.release (by rw [hPlace]; rfl) rfl
  | spurious hPlace =>
      exact hSound.put (by rw [hPlace]; rfl) rfl
  | expire hPlace =>
      exact hSound.put (by rw [hPlace]; rfl) rfl
  | fail hPlace =>
      exact hSound.release (by rw [hPlace]; rfl) rfl

omit [DecidableEq ι] in
theorem sound_init :
    Sound (init : OssQueue ι α) := by
  refine ⟨?_, ?_, ?_⟩
  · intro i
    simp [init, QueuePlace.holds]
  · intro i data found hPlace
    simp [init] at hPlace
  · intro i value hPlace
    simp [init] at hPlace

end OssQueue

------------------------------------------------------------
-- First In, First Out
------------------------------------------------------------

/- The value that a step pushes. -/
def QueueAct.push?
    {α : Type} : QueueAct α → Option α
| pushed data => some data
| _ => none

/- The value that a step removes. -/
def QueueAct.pop?
    {α : Type} : QueueAct α → Option α
| popped value => some value
| _ => none

section Fifo

variable {ι α : Type} [DecidableEq ι]
variable {s t : OssQueue ι α}

/- A step appends what it pushes and removes the front. -/
theorem OssQueue.Sound.step_queue
    {a : ι × QueueAct α}
    (hSound : s.Sound)
    (hStep : QueueStep s a t) :
    s.queue ++ a.2.push?.toList =
      a.2.pop?.toList ++ t.queue := by
  cases hStep with
  | write hPlace =>
      rw [hSound.writing _ _ _ hPlace]
      rfl
  | remove hPlace =>
      have hFront := hSound.reading _ _ hPlace
      simp only [QueueAct.push?, QueueAct.pop?,
        Option.toList, List.append_nil, List.cons_append,
        List.nil_append]
      rw [List.head?_eq_some_iff] at hFront
      rcases hFront with ⟨rest, hQueue⟩
      rw [hQueue]
      rfl
  | _ =>
      simp [QueueAct.push?, QueueAct.pop?, OssQueue.put]

/- The values that a run pushes, in order. -/
def pushes (as : List (ι × QueueAct α)) : List α :=
  as.flatMap (·.2.push?.toList)

/- The values that a run removes, in order. -/
def pops (as : List (ι × QueueAct α)) : List α :=
  as.flatMap (·.2.pop?.toList)

theorem OssQueue.Sound.run
    {as : List (ι × QueueAct α)}
    (hRun : Steps QueueStep s as t)
    (hSound : s.Sound) :
    t.Sound ∧ s.queue ++ pushes as = pops as ++ t.queue := by
  induction hRun with
  | nil s => exact ⟨hSound, by simp [pushes, pops]⟩
  | @cons s u t a as hStep _ ih =>
      have hOne := hSound.step_queue hStep
      rcases ih (hSound.step hStep) with ⟨hEnd, hRest⟩
      refine ⟨hEnd, ?_⟩
      calc s.queue ++ pushes (a :: as)
          = (s.queue ++ a.2.push?.toList) ++ pushes as := by
            simp [pushes]
        _ = a.2.pop?.toList ++ (u.queue ++ pushes as) := by
            rw [hOne, List.append_assoc]
        _ = pops (a :: as) ++ t.queue := by
            rw [hRest]
            simp [pops]

/-
  In every run what is pushed comes out once and in order, or
  is still in the queue, and only one thread at a time is
  between lock and unlock.
-/
theorem queue_fifo
    {as : List (ι × QueueAct α)}
    (hRun : Steps QueueStep OssQueue.init as t) :
    pushes as = pops as ++ t.queue ∧
      ∀ i j, (t.place i).holds = true →
        (t.place j).holds = true → i = j := by
  rcases OssQueue.Sound.run hRun OssQueue.sound_init with
    ⟨hSound, hQueue⟩
  exact ⟨hQueue, fun i j hI hJ => hSound.only hI hJ⟩

/-
  One thread waits, and another one has pushed a value and
  not yet notified it.
-/
theorem push_while_waiting :
    ∃ s : OssQueue Bool Nat,
      Steps QueueStep OssQueue.init
        [(false, .call), (false, .inner), (false, .inner),
          (true, .call), (true, .inner), (true, .inner),
          (true, .pushed 7)] s ∧
        s.queue = [7] ∧ s.place false = .waiting false := by
  refine ⟨_,
    .cons (.pop false rfl)
      (.cons (.lock rfl rfl)
        (.cons (.sleep rfl rfl)
          (.cons (.push 7 rfl)
            (.cons (.lock rfl rfl)
              (.cons (.load rfl)
                (.cons (.write rfl) (.nil _))))))),
    rfl, rfl⟩

theorem queue_fifo_waiting :
    ∃ s : OssQueue Bool Nat, s.place false = .waiting false ∧
      ∀ i j, (s.place i).holds = true →
        (s.place j).holds = true → i = j := by
  rcases push_while_waiting with ⟨s, hRun, _, hWaits⟩
  exact ⟨s, hWaits, (queue_fifo hRun).2⟩

end Fifo

------------------------------------------------------------
-- Wake-Ups
------------------------------------------------------------

namespace QueuePlace

variable {α : Type}

/-
  One for a thread that will notify another one or look for a
  value itself.
-/
def awake : QueuePlace α → Nat
| stored => 1
| notifying => 1
| locking _ => 1
| checking _ => 1
| reading _ => 1
| _ => 0

/- Is the thread in a call that asks for a value? -/
def asks : QueuePlace α → Bool
| locking _ => true
| checking _ => true
| reading _ => true
| waiting _ => true
| _ => false

/-
  Number of steps that a thread still makes, with those of
  the thread that it will notify.
-/
def work : QueuePlace α → Nat
| pushing _ => 9
| storing _ => 8
| writing _ _ => 7
| stored => 6
| notifying => 5
| locking _ => 4
| checking _ => 3
| reading _ => 2
| expired => 2
| taken => 1
| failing => 1
| _ => 0

theorem work_le (p : QueuePlace α) :
    p.work ≤ 9 := by
  cases p <;> simp [work]

end QueuePlace

/-
  Does a thread go on with its call by itself or because it
  was notified?
-/
def QueueAct.prompted
    {α : Type} : QueueAct α → Bool
| call => false
| woken => false
| expired => false
| _ => true

section WakeUps

variable {ι α : Type} [DecidableEq ι] [Fintype ι]
variable {s t : OssQueue ι α}

namespace OssQueue

/- A sum over the threads when one of them moves. -/
theorem sum_put
    (s : OssQueue ι α)
    (i : ι)
    (p : QueuePlace α)
    (w : QueuePlace α → Nat) :
    (∑ j, w ((s.put i p).place j)) + w (s.place i) =
      (∑ j, w (s.place j)) + w p := by
  have hMoved : (fun j => w ((s.put i p).place j)) =
      Function.update (fun j => w (s.place j)) i (w p) := by
    funext j
    by_cases hEq : j = i
    · rw [hEq, put_self, Function.update_self]
    · rw [put_of_ne s p hEq, Function.update_of_ne hEq]
  rw [hMoved, Finset.sum_update_of_mem (Finset.mem_univ i),
    Finset.sum_eq_add_sum_sdiff_singleton_of_mem
      (Finset.mem_univ i) (fun j => w (s.place j))]
  omega

/-
  While a thread waits there are at least as many threads
  awake as there are values.
-/
def Tended (s : OssQueue ι α) : Prop :=
  (∃ j timed, s.place j = .waiting timed) →
    s.queue.length ≤ ∑ j, (s.place j).awake

/- Threads that do not wait move and change the container. -/
theorem Tended.moved
    (hTended : Tended s)
    {i : ι}
    {p : QueuePlace α}
    {queue : List α}
    {owner : Option ι}
    (hPlace : ∀ timed, p ≠ .waiting timed)
    (hLength : queue.length + (s.place i).awake ≤
      s.queue.length + p.awake) :
    Tended ⟨queue, owner, (s.put i p).place⟩ := by
  rintro ⟨j, timed, hWaits⟩
  have hSum := s.sum_put i p QueuePlace.awake
  have hNe : j ≠ i := by
    rintro rfl
    exact hPlace timed ((put_self s j p).symm.trans hWaits)
  have hOld := hTended
    ⟨j, timed, (put_of_ne s p hNe).symm.trans hWaits⟩
  simp only
  omega

theorem Tended.step
    {a : ι × QueueAct α}
    (hTended : Tended s)
    (hSound : Sound s)
    (hStep : QueueStep s a t) :
    Tended t := by
  cases hStep with
  | push data hPlace =>
      apply hTended.moved (by simp)
      simp [hPlace, QueuePlace.awake]
  | pop timed hPlace =>
      apply hTended.moved (by simp)
      simp [hPlace, QueuePlace.awake]
  | @lock i p hPlace hFree =>
      rcases QueuePlace.locked_cases hPlace with
        ⟨_, hHolds, _, _⟩
      apply hTended.moved
      · rintro timed rfl
        cases hHolds
      · cases hAt : s.place i <;>
          simp only [hAt, QueuePlace.locked, reduceCtorEq,
            Option.some.injEq] at hPlace
        all_goals
          subst hPlace
          simp [QueuePlace.awake]
  | load hPlace =>
      apply hTended.moved (by simp)
      simp [hPlace, QueuePlace.awake]
  | write hPlace =>
      apply hTended.moved (by simp)
      simp [hPlace, QueuePlace.awake,
        hSound.writing _ _ _ hPlace]
  | unlock hPlace =>
      apply hTended.moved (by simp)
      simp [hPlace, QueuePlace.awake]
  | notifyNone hPlace hNone =>
      rename_i i
      rintro ⟨j, timed, hWaits⟩
      exfalso
      by_cases hEq : j = i
      · rw [hEq, put_self] at hWaits
        cases hWaits
      · rw [put_of_ne s _ hEq] at hWaits
        exact hNone j timed hWaits
  | @notifyOne i j timed hPlace hWaits =>
      -- one thread is done, and the one it wakes is awake
      have hNe : j ≠ i := by
        intro hEq
        rw [hEq, hPlace] at hWaits
        cases hWaits
      have hFirst := s.sum_put i .outside QueuePlace.awake
      have hSecond := (s.put i .outside).sum_put j
        (.locking timed) QueuePlace.awake
      have hOld := hTended ⟨j, timed, hWaits⟩
      rw [put_of_ne s _ hNe, hWaits] at hSecond
      rw [hPlace] at hFirst
      simp only [QueuePlace.awake] at hFirst hSecond hOld
      intro _
      simp only [QueuePlace.awake, put_queue]
      omega
  | sleep hPlace hEmpty =>
      intro _
      simp [put, hEmpty]
  | front hPlace hFull =>
      apply hTended.moved (by simp)
      simp [hPlace, QueuePlace.awake]
  | @remove i value hPlace =>
      have hFront := hSound.reading _ _ hPlace
      rw [List.head?_eq_some_iff] at hFront
      rcases hFront with ⟨rest, hQueue⟩
      apply hTended.moved (by simp)
      simp [hPlace, QueuePlace.awake, hQueue]
  | leave hPlace =>
      apply hTended.moved (by simp)
      simp [hPlace, QueuePlace.awake]
  | spurious hPlace =>
      apply hTended.moved (by simp)
      simp [hPlace, QueuePlace.awake]
  | expire hPlace =>
      apply hTended.moved (by simp)
      simp [hPlace, QueuePlace.awake]
  | fail hPlace =>
      apply hTended.moved (by simp)
      simp [hPlace, QueuePlace.awake]

/-
  The threads that are in calls can go on until a value is
  removed.
-/
def Serves
    (s : OssQueue ι α)
    (value : α) : Prop :=
  ∃ as t i, Steps QueueStep s as t ∧
    (i, QueueAct.popped value) ∈ as ∧
      ∀ a ∈ as, a.2.prompted = true

omit [Fintype ι] in
theorem Serves.after
    {a : ι × QueueAct α}
    {value : α}
    (hStep : QueueStep s a t)
    (hPrompted : a.2.prompted = true)
    (hServes : Serves t value) :
    Serves s value := by
  rcases hServes with ⟨as, u, i, hRun, hIn, hAll⟩
  refine ⟨a :: as, u, i, .cons hStep hRun,
    List.mem_cons_of_mem _ hIn, ?_⟩
  intro b hb
  rcases List.mem_cons.mp hb with rfl | hRest
  · exact hPrompted
  · exact hAll b hRest

omit [Fintype ι] in
/- A thread that has read the front removes it. -/
theorem serves_of_reading
    {i : ι}
    {value : α}
    (hPlace : s.place i = .reading value) :
    Serves s value := by
  refine ⟨[(i, .popped value)], _, i,
    .cons (.remove hPlace) (.nil _), List.mem_singleton_self _,
    ?_⟩
  intro a ha
  rw [List.mem_singleton.mp ha]
  rfl

omit [Fintype ι] in
theorem serves_of_checking
    {i : ι}
    {timed : Bool}
    {value : α}
    {rest : List α}
    (hPlace : s.place i = .checking timed)
    (hFull : s.queue = value :: rest) :
    Serves s value :=
  (serves_of_reading (s := s.put i (.reading value))
    (put_self s i _)).after (.front hPlace hFull) rfl

omit [Fintype ι] in
theorem serves_of_locking
    {i : ι}
    {timed : Bool}
    {value : α}
    {rest : List α}
    (hPlace : s.place i = .locking timed)
    (hFree : s.owner = none)
    (hFull : s.queue = value :: rest) :
    Serves s value :=
  (serves_of_checking
    (s := { s.put i (.checking timed) with owner := some i })
    (i := i) (put_self s i _) hFull).after
      (.lock (by rw [hPlace]; rfl) hFree) rfl

omit [Fintype ι] in
/-
  A thread that asks is still there when a thread has moved
  that does not stop asking.
-/
theorem asks_put
    {i j : ι}
    {p : QueuePlace α}
    (hAsks : (s.place j).asks = true)
    (hMoved : (s.place i).asks = true → p.asks = true) :
    ((s.put i p).place j).asks = true := by
  by_cases hEq : j = i
  · subst hEq
    rw [put_self]
    exact hMoved hAsks
  · rw [put_of_ne s p hEq]
    exact hAsks

/- There is less work when a thread moves on. -/
theorem work_put
    {i : ι}
    {p : QueuePlace α}
    (hLess : p.work < (s.place i).work) :
    (∑ j, ((s.put i p).place j).work) <
      ∑ j, (s.place j).work := by
  have hSum := s.sum_put i p QueuePlace.work
  omega

/- Every step of a thread that goes on does some work. -/
theorem work_step
    {a : ι × QueueAct α}
    (hStep : QueueStep s a t)
    (hPrompted : a.2.prompted = true) :
    (∑ j, (t.place j).work) < ∑ j, (s.place j).work := by
  cases hStep with
  | push data hPlace => cases hPrompted
  | pop timed hPlace => cases hPrompted
  | @lock i p hPlace hFree =>
      apply work_put
      cases hAt : s.place i <;>
        simp only [hAt, QueuePlace.locked, reduceCtorEq,
          Option.some.injEq] at hPlace
      all_goals
        subst hPlace
        simp [QueuePlace.work]
  | @notifyOne i j timed hPlace hWaits =>
      -- the thread that is woken has less left than this one
      have hNe : j ≠ i := by
        intro hEq
        rw [hEq, hPlace] at hWaits
        cases hWaits
      have hFirst := s.sum_put i .outside QueuePlace.work
      have hSecond := (s.put i .outside).sum_put j
        (.locking timed) QueuePlace.work
      rw [put_of_ne s _ hNe, hWaits] at hSecond
      rw [hPlace] at hFirst
      simp only [QueuePlace.work] at hFirst hSecond ⊢
      omega
  | spurious hPlace => cases hPrompted
  | expire hPlace => cases hPrompted
  | load hPlace
  | write hPlace
  | unlock hPlace
  | notifyNone hPlace _
  | sleep hPlace _
  | front hPlace _
  | remove hPlace
  | leave hPlace
  | fail hPlace =>
      exact work_put (by simp [hPlace, QueuePlace.work])

theorem work_run
    {as : List (ι × QueueAct α)}
    (hRun : Steps QueueStep s as t)
    (hPrompted : ∀ a ∈ as, a.2.prompted = true) :
    as.length + ∑ j, (t.place j).work ≤
      ∑ j, (s.place j).work := by
  induction hRun with
  | nil s => simp
  | @cons s u t a as hStep _ ih =>
      have hOne := work_step hStep
        (hPrompted a List.mem_cons_self)
      have hRest := ih (fun b hb =>
        hPrompted b (List.mem_cons_of_mem _ hb))
      rw [List.length_cons]
      omega

omit [Fintype ι] in
/-
  Until the front is removed it stays, and so does a thread
  that asks.
-/
theorem Sound.asks_step
    {a : ι × QueueAct α}
    (hSound : Sound s)
    (hStep : QueueStep s a t)
    (hPrompted : a.2.prompted = true)
    {value : α}
    (hFull : s.queue.head? = some value)
    {j : ι}
    (hAsks : (s.place j).asks = true) :
    a.2 = .popped value ∨
      t.queue.head? = some value ∧
        (t.place j).asks = true := by
  cases hStep with
  | push data hPlace => cases hPrompted
  | pop timed hPlace => cases hPrompted
  | @lock i p hPlace hFree =>
      refine Or.inr ⟨hFull, asks_put hAsks ?_⟩
      intro hOld
      cases hAt : s.place i <;>
        simp only [hAt, QueuePlace.locked, reduceCtorEq,
          Option.some.injEq] at hPlace
      all_goals
        subst hPlace
        simp_all [QueuePlace.asks]
  | @write i data found hPlace =>
      refine Or.inr ⟨?_, asks_put hAsks
        (by simp [hPlace, QueuePlace.asks])⟩
      rw [hSound.writing _ _ _ hPlace, List.head?_append,
        hFull]
      rfl
  | @notifyOne i j' timed hPlace hWaits =>
      refine Or.inr ⟨hFull, asks_put (asks_put hAsks ?_)
        (fun _ => rfl)⟩
      simp [hPlace, QueuePlace.asks]
  | sleep hPlace hEmpty =>
      rw [hEmpty] at hFull
      cases hFull
  | @remove i value' hPlace =>
      have hFront := hSound.reading _ _ hPlace
      rw [hFull, Option.some.injEq] at hFront
      exact Or.inl (by rw [hFront])
  | spurious hPlace => cases hPrompted
  | expire hPlace => cases hPrompted
  | front hPlace _ =>
      exact Or.inr ⟨hFull, asks_put hAsks (fun _ => rfl)⟩
  | load hPlace
  | unlock hPlace
  | notifyNone hPlace _
  | leave hPlace
  | fail hPlace =>
      exact Or.inr ⟨hFull, asks_put hAsks
        (by simp [hPlace, QueuePlace.asks])⟩

omit [DecidableEq ι] in
/-
  While the mutex is free and a thread asks for a value that
  is there, some thread is about to lock or to notify.
-/
theorem Tended.awakens
    (hSound : Sound s)
    (hTended : Tended s)
    (hOwner : s.owner = none)
    (hFull : s.queue ≠ [])
    {j : ι}
    (hAsks : (s.place j).asks = true) :
    (∃ k timed, s.place k = .locking timed) ∨
      ∃ i, s.place i = .notifying := by
  have hFree : ∀ k, (s.place k).holds = false := by
    intro k
    by_contra hHolds
    have hOwns := (hSound.holder k).mpr (by simpa using hHolds)
    rw [hOwner] at hOwns
    cases hOwns
  by_contra hNeither
  rcases not_or.mp hNeither with ⟨hLocking, hNotifying⟩
  -- the thread that asks waits, and nobody is awake
  have hWaits : ∃ timed, s.place j = .waiting timed := by
    have hOut := hFree j
    cases hPlace : s.place j with
    | waiting timed => exact ⟨timed, rfl⟩
    | locking timed =>
        exact absurd ⟨j, timed, hPlace⟩ hLocking
    | _ =>
        rw [hPlace] at hAsks hOut
        simp [QueuePlace.asks, QueuePlace.holds] at hAsks hOut
  rcases hWaits with ⟨timed, hWaiting⟩
  have hBusy := hTended ⟨j, timed, hWaiting⟩
  have hNobody : ∑ k, (s.place k).awake = 0 := by
    apply Finset.sum_eq_zero
    intro k _
    have hOut := hFree k
    cases hPlace : s.place k with
    | notifying => exact absurd ⟨k, hPlace⟩ hNotifying
    | locking timed =>
        exact absurd ⟨k, timed, hPlace⟩ hLocking
    | _ =>
        rw [hPlace] at hOut
        simp_all [QueuePlace.awake, QueuePlace.holds]
  have hSome := List.length_pos_iff.mpr hFull
  omega

/-
  While a thread asks and the queue is not empty, the threads
  that are in calls can serve the front.
-/
theorem Sound.serves
    (hSound : Sound s)
    (hTended : Tended s)
    {value : α}
    {rest : List α}
    (hFull : s.queue = value :: rest)
    {j : ι}
    (hAsks : (s.place j).asks = true) :
    Serves s value := by
  induction hWork : (∑ k, (s.place k).work) using
    Nat.strong_induction_on generalizing s rest j with
  | _ n ih =>
  subst hWork
  -- a step of a thread to a lower place, and then the others
  have hMove : ∀ {i : ι} {p : QueuePlace α}
      {queue : List α} {owner : Option ι} {act : QueueAct α},
      QueueStep s (i, act)
        ⟨queue, owner, (s.put i p).place⟩ →
      act.prompted = true → p.work < (s.place i).work →
      (s.place i).asks = false →
      (∃ more, queue = value :: more) → Serves s value := by
    intro i p queue owner act hStep hInner hLess hOther hMore
    rcases hMore with ⟨more, hQueue⟩
    exact (ih _ (work_put hLess) (hSound.step hStep)
      (hTended.step hSound hStep) hQueue
      (asks_put hAsks (by simp [hOther])) rfl).after hStep
        hInner
  cases hOwner : s.owner with
  | some i =>
      have hHolds := (hSound.holder i).mp hOwner
      cases hPlace : s.place i with
      | storing data =>
          exact hMove (.load hPlace) rfl
            (by simp [hPlace, QueuePlace.work])
            (by rw [hPlace]; rfl) ⟨rest, hFull⟩
      | writing data found =>
          have hFound := hSound.writing _ _ _ hPlace
          exact hMove (.write hPlace) rfl
            (by simp [hPlace, QueuePlace.work])
            (by rw [hPlace]; rfl)
            ⟨rest ++ [data], by rw [hFound, hFull]; rfl⟩
      | stored =>
          exact hMove (.unlock hPlace) rfl
            (by simp [hPlace, QueuePlace.work])
            (by rw [hPlace]; rfl) ⟨rest, hFull⟩
      | checking timed => exact serves_of_checking hPlace hFull
      | reading v =>
          have hFront := hSound.reading _ _ hPlace
          rw [hFull, List.head?_cons, Option.some.injEq]
            at hFront
          exact hFront ▸ serves_of_reading hPlace
      | taken =>
          exact hMove (.leave hPlace) rfl
            (by simp [hPlace, QueuePlace.work])
            (by rw [hPlace]; rfl) ⟨rest, hFull⟩
      | failing =>
          exact hMove (.fail hPlace) rfl
            (by simp [hPlace, QueuePlace.work])
            (by rw [hPlace]; rfl) ⟨rest, hFull⟩
      | _ =>
          rw [hPlace] at hHolds
          cases hHolds
  | none =>
      rcases hTended.awakens hSound hOwner (by simp [hFull])
          hAsks with ⟨k, timed, hPlace⟩ | ⟨i, hPlace⟩
      · exact serves_of_locking hPlace hOwner hFull
      · by_cases hWaits : ∃ k timed, s.place k = .waiting timed
        · rcases hWaits with ⟨k, timed, hWaiting⟩
          have hStep := QueueStep.notifyOne hPlace hWaiting
          exact (serves_of_locking
            (s := (s.put i .outside).put k (.locking timed))
            (put_self _ k _) hOwner hFull).after hStep rfl
        · have hNone : ∀ k timed,
              s.place k ≠ .waiting timed :=
            fun k timed hEq => hWaits ⟨k, timed, hEq⟩
          exact hMove (.notifyNone hPlace hNone) rfl
            (by simp [hPlace, QueuePlace.work])
            (by rw [hPlace]; rfl) ⟨rest, hFull⟩

/-
  However the threads go on, they do so until the front is
  removed.
-/
theorem Sound.serves_run
    {bs : List (ι × QueueAct α)}
    (hRun : Steps QueueStep s bs t)
    (hSound : Sound s)
    (hTended : Tended s)
    (hPrompted : ∀ b ∈ bs, b.2.prompted = true)
    {value : α}
    (hFull : s.queue.head? = some value)
    {j : ι}
    (hAsks : (s.place j).asks = true) :
    (∃ i, (i, QueueAct.popped value) ∈ bs) ∨
      ∃ b u, QueueStep t b u ∧ b.2.prompted = true := by
  induction hRun with
  | nil s =>
      -- some run serves, and it starts with a step
      rcases List.head?_eq_some_iff.mp hFull with
        ⟨rest, hQueue⟩
      rcases hSound.serves hTended hQueue hAsks with
        ⟨as, u, i, hServing, hIn, hAll⟩
      cases hServing with
      | nil => cases hIn
      | cons hStep _ =>
          exact Or.inr ⟨_, _, hStep,
            hAll _ List.mem_cons_self⟩
  | @cons s u t b bs hStep _ ih =>
      rcases hSound.asks_step hStep
          (hPrompted b List.mem_cons_self) hFull hAsks with
        hPopped | ⟨hStays, hStill⟩
      · exact Or.inl ⟨b.1, by
          rw [← hPopped]
          exact List.mem_cons_self⟩
      · rcases ih (hSound.step hStep)
            (hTended.step hSound hStep)
            (fun c hc =>
              hPrompted c (List.mem_cons_of_mem _ hc))
            hStays hStill with ⟨i, hIn⟩ | hNext
        · exact Or.inl ⟨i, List.mem_cons_of_mem _ hIn⟩
        · exact Or.inr hNext

omit [DecidableEq ι] in
theorem tended_init :
    Tended (init : OssQueue ι α) := by
  rintro ⟨j, timed, hWaits⟩
  cases hWaits

end OssQueue

end WakeUps

end EmeraldDb
