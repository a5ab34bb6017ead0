import EmeraldDb.Pmd.Latches

/-
  Which calls of the manager give back its latch.

  All calls do but the creation of an EDU without a thread,
  which the latch stays held by.  The return of an EDU that
  is not registered reads an end iterator when it has no
  pointer to report to, and a start reads an entry that it
  has looked up before it had the latch.

  Key definitions include:
    * `EduMgr.Allocated`
    * `EduMgr.Lawful`
    * `EduMgr.LatchedCall.Safe`

  Key results include:
    * `EduMgr.createNewEDULatched_lawful_iff`
    * `EduMgr.startEDULatched_lawful_iff`
    * `EduMgr.returnEDULatched_lawful_iff`
    * `EduMgr.LatchedCall.latch_lawful_iff`
-/

namespace EmeraldDb

open Traced

namespace EduMgr

------------------------------------------------------------
-- Lawful Calls
------------------------------------------------------------

/- The entries of the queues point to blocks. -/
def Allocated (m : EduMgr) : Prop :=
  ∀ id p, m.Holds id p → ∃ c, m.blocks[p]? = some c

/- A manager as every run of its calls leaves it. -/
abbrev Live : Type :=
  { m : EduMgr // m.Allocated }

theorem Registry.allocated
    {m : EduMgr}
    (hReg : Registry m) :
    m.Allocated :=
  fun _ _ hHolds => hReg.block hHolds

/-
  The latch is as at the start, nothing was released that was
  not held, and the call returns, so that it has read no end
  iterator.
-/
structure Lawful
    {α : Type}
    (x : MgrCall α) : Prop where
  balanced : x.Balanced
  returns : ∃ a, x.result = .ok a

theorem lawful_iff
    {α : Type}
    (x : MgrCall α) :
    Lawful x ↔
      owns [] x.ops = some [] ∧ ∃ a, x.result = .ok a := by
  rw [← balanced_iff]
  exact ⟨fun h => ⟨h.1, h.2⟩, fun h => ⟨h.1, h.2⟩⟩

theorem lawful_of_leaves
    {α : Type}
    {x : MgrCall α}
    (hLeaves : Leaves [] [] x) :
    Lawful x :=
  ⟨hLeaves.balanced, hLeaves.returns⟩

theorem leaves_part
    {α : Type}
    {x : Except Fault α}
    (hReturns : ∃ a, x = .ok a)
    (held : Held EduLatch) :
    Leaves held held (part x) := by
  rcases hReturns with ⟨a, rfl⟩
  exact leaves_lift rfl held

/- The end of a critical section with one write. -/
theorem leaves_part_release
    {α β : Type}
    {x : Except Fault α}
    (hReturns : ∃ a, x = .ok a)
    (f : α → β) :
    Leaves [(.mutex, .exclusive)] [] (do
      let a ← part x
      releaseMutex
      return f a : MgrCall β) :=
  (leaves_part hReturns _).bind
    (fun _ _ => leaves_release_pure _ _ [] _)

------------------------------------------------------------
-- Calls in One Critical Section
------------------------------------------------------------

section Section

variable (m : Live)

theorem activateEDULatched_leaves
    (eduID : Nat) :
    Leaves [] [] (m.1.activateEDULatched eduID) := by
  unfold activateEDULatched
  apply Leaves.get (by simp)
  cases hIdle : m.1.idleQueue[eduID]? with
  | none =>
      cases hRun : m.1.runQueue[eduID]? with
      | none => exact leaves_release_pure _ _ [] _
      | some p =>
          have hBlock := m.2 eduID p (Or.inl hRun)
          exact leaves_part_release
            (write_returns hBlock _) _
  | some p =>
      have hBlock := m.2 eduID p (Or.inr hIdle)
      exact leaves_part_release
        (@write_returns (m.1.takeIdle eduID p) _ hBlock _) _

theorem waitEDULatched_leaves
    (id : Nat) :
    Leaves [] [] (m.1.waitEDULatched id) := by
  unfold waitEDULatched
  apply Leaves.get (by simp)
  cases hRun : m.1.runQueue[id]? with
  | none => exact leaves_release_pure _ _ [] _
  | some p =>
      rcases m.2 id p (Or.inl hRun) with ⟨c, hBlock⟩
      apply (leaves_part ⟨c, cb_of_block hBlock⟩ _).bind
      intro c' _
      by_cases hWaiting : c'.status = .waitting
      · rw [if_pos hWaiting]
        exact leaves_release_pure _ _ [] _
      · rw [if_neg hWaiting]
        by_cases hRunning : c'.status ≠ .running
        · rw [if_pos hRunning]
          exact leaves_release_pure _ _ [] _
        · rw [if_neg hRunning]
          exact leaves_part_release
            (write_returns ⟨c, hBlock⟩ _) _

theorem destoryEDULatched_leaves
    (eduID : Nat) :
    Leaves [] [] (m.1.destoryEDULatched eduID) := by
  unfold destoryEDULatched
  apply Leaves.get (by simp)
  cases hRun : m.1.runQueue[eduID]? with
  | none =>
      cases hIdle : m.1.idleQueue[eduID]? with
      | none => exact leaves_release_pure _ _ [] _
      | some p =>
          have hBlock := m.2 eduID p (Or.inr hIdle)
          exact leaves_part_release
            (write_returns hBlock _) _
  | some p =>
      have hBlock := m.2 eduID p (Or.inl hRun)
      exact leaves_part_release (write_returns hBlock _) _

theorem deactiveEDULatched_leaves
    (eduID : Nat) :
    Leaves [] [] (m.1.deactiveEDULatched eduID) := by
  unfold deactiveEDULatched
  apply Leaves.get (by simp)
  cases hRun : m.1.runQueue[eduID]? with
  | none =>
      cases hIdle : m.1.idleQueue[eduID]? with
      | none => exact leaves_release_pure _ _ [] _
      | some p =>
          have hBlock := m.2 eduID p (Or.inr hIdle)
          exact leaves_part_release
            (write_returns hBlock _) _
  | some p =>
      have hBlock := m.2 eduID p (Or.inl hRun)
      exact leaves_part_release (write_returns hBlock _) _

theorem postEDUPostLatched_leaves
    (eduID : Nat)
    (type : EduEventType)
    (release : Bool)
    (data : Nat) :
    Leaves [] [] (m.1.postEDUPostLatched eduID type release
      data) := by
  unfold postEDUPostLatched
  apply Leaves.get (by simp)
  cases hFind : m.1.find eduID with
  | none => exact leaves_release_pure _ _ [] _
  | some p =>
      have hBlock := m.2 eduID p (holds_of_find hFind)
      exact leaves_part_release (write_returns hBlock _) _

end Section

------------------------------------------------------------
-- Returning an EDU
------------------------------------------------------------

theorem destroysLatched_leaves
    (m : EduMgr)
    (maxPool : UInt32)
    (type : EduType)
    (force : Bool) :
    Leaves [] []
      (m.destroysLatched maxPool type force) := by
  unfold destroysLatched
  cases !isPoolable type || force || m.isDestroyed with
  | true => exact leaves_pure [] _
  | false =>
      have hSize : Leaves [] [] m.sizeLatched :=
        .get (by simp) (leaves_release_pure _ _ [] _)
      exact hSize.bind (fun num _ => leaves_pure [] _)

/-
  A return is lawful unless the EDU is not registered and the
  pointer is null.
-/
theorem returnEDULatched_lawful_iff
    (m : Live)
    (count : EduMgr)
    (change : Live)
    (maxPool : UInt32)
    (eduID : Nat)
    (force : Bool)
    (destroyed : Option Bool) :
    Lawful (returnEDULatched m.1 count change.1 maxPool eduID
      force destroyed) ↔
        m.1.Registered eduID ∨ destroyed ≠ none := by
  unfold returnEDULatched
  cases hFind : m.1.find eduID with
  | none =>
      have hOut := find_none.mp hFind
      cases destroyed with
      | none =>
          refine iff_of_false ?_ (by simp [hOut])
          intro hLawful
          rcases hLawful.returns with ⟨a, hResult⟩
          exact absurd hResult (by simp [lift])
      | some b =>
          refine iff_of_true ?_ (Or.inr (by simp))
          exact lawful_of_leaves
            (.get (by simp) (leaves_release_pure _ _ [] _))
  | some p =>
      have hHolds := holds_of_find hFind
      have hIn := (registered_iff m.1 eduID).mpr ⟨p, hHolds⟩
      refine iff_of_true ?_ (Or.inl hIn)
      rcases m.2 eduID p hHolds with ⟨c, hBlock⟩
      apply lawful_of_leaves
      apply Leaves.get (by simp)
      apply (leaves_part ⟨c, cb_of_block hBlock⟩ _).bind
      intro c' _
      apply Leaves.release
      apply (count.destroysLatched_leaves maxPool c'.type
        force).bind
      intro destroys _
      cases destroys with
      | true =>
          exact (destoryEDULatched_leaves change eduID).bind
            (fun r _ => leaves_pure [] _)
      | false =>
          exact (deactiveEDULatched_leaves change eduID).bind
            (fun r _ => leaves_pure [] _)

------------------------------------------------------------
-- Starting an EDU
------------------------------------------------------------

/- The creation is refused or does not lack a thread. -/
def GivesThread
    (check : EduMgr)
    (new : NewEdu) : Prop :=
  check.isQuiesced = true ∨ ∀ p, new ≠ .noThread p

theorem createNewEDULatched_leaves
    {check : EduMgr}
    {new : NewEdu}
    (hThread : GivesThread check new)
    (m : EduMgr)
    (type : EduType)
    (arg : Nat)
    (eduid : Option Nat) :
    Leaves [] [] (createNewEDULatched check m type arg new
      eduid) := by
  unfold createNewEDULatched
  by_cases hQuiesced : check.isQuiesced = true
  · rw [if_pos hQuiesced]
    exact leaves_pure [] _
  · rw [if_neg hQuiesced]
    have hAny := hThread.resolve_left hQuiesced
    cases new with
    | oom => exact leaves_pure [] _
    | noThread p => exact absurd rfl (hAny p)
    | started p =>
        apply Leaves.get (by simp)
        apply Leaves.release
        have hBlock : ∃ c, (m.addEDU type p).blocks[p]? =
            some c :=
          ⟨EduCB.created type m.eduID, by simp [addEDU]⟩
        exact (leaves_part (write_returns hBlock _) _).bind
          (fun m' _ => leaves_pure [] _)

/- The creation keeps the latch when there is no thread. -/
theorem createNewEDULatched_lawful_iff
    (check m : EduMgr)
    (type : EduType)
    (arg : Nat)
    (new : NewEdu)
    (eduid : Option Nat) :
    Lawful (createNewEDULatched check m type arg new eduid) ↔
      GivesThread check new := by
  constructor
  · intro hLawful
    by_contra hNot
    rcases not_or.mp hNot with ⟨hQuiesced, hSome⟩
    cases new with
    | oom => exact hSome (by simp)
    | started p => exact hSome (by simp)
    | noThread p =>
        have hOwns := (balanced_iff _).mp hLawful.balanced
        unfold createNewEDULatched at hOwns
        rw [if_neg hQuiesced] at hOwns
        have hKept : some [(EduLatch.mutex,
            LatchMode.exclusive)] = some [] := hOwns
        exact absurd hKept (by decide)
  · intro hThread
    exact lawful_of_leaves
      (createNewEDULatched_leaves hThread m type arg eduid)

/-
  The entry that was looked up without the latch is there and
  has stayed, and the pointer to report to is not null.
-/
def Reuses
    (entry m : EduMgr)
    (kept : Bool)
    (eduid : Option Nat) : Prop :=
  kept = true ∧ eduid ≠ none ∧
    ∃ e, entry.firstIdle = some e ∧
      m.idleQueue[e.1]? = some e.2

/- The start goes to the creation of an EDU. -/
def StartsNew
    (m : EduMgr)
    (type : EduType) : Prop :=
  m.idleQueue.isEmpty ∨ ¬ isPoolable type

theorem takeFirst_ok_iff
    (entry m : EduMgr)
    (kept : Bool)
    (e : Nat × Nat) :
    (takeFirst entry m kept).result = .ok e ↔
      entry.firstIdle = some e ∧ kept = true ∧
        m.idleQueue[e.1]? = some e.2 := by
  unfold takeFirst
  cases entry.firstIdle with
  | none => simp [lift]
  | some e' =>
      dsimp only
      by_cases hThere : kept = true ∧
          m.idleQueue[e'.1]? = some e'.2
      · rw [if_pos hThere, result_pure, Except.ok.injEq,
          Option.some.injEq]
        constructor
        · rintro rfl
          exact ⟨rfl, hThere⟩
        · exact fun hAll => hAll.1
      · rw [if_neg hThere]
        refine iff_of_false (by simp [lift]) ?_
        rintro ⟨hSame, hAll⟩
        rw [Option.some.injEq] at hSame
        rw [← hSame] at hAll
        exact hThere hAll

theorem takeFirst_leaves
    {entry m : EduMgr}
    {kept : Bool}
    {e : Nat × Nat}
    (hTake : (takeFirst entry m kept).result = .ok e)
    (held : Held EduLatch) :
    Leaves held held (takeFirst entry m kept) := by
  have hAll := (takeFirst_ok_iff entry m kept e).mp hTake
  unfold takeFirst
  rw [hAll.1]
  dsimp only
  rw [if_pos hAll.2]
  exact leaves_pure held e

/- Under the latch, the reuse of an entry that is there. -/
theorem reuseEDU_returns
    (m : Live)
    (type : EduType)
    {e : Nat × Nat}
    (hThere : m.1.idleQueue[e.1]? = some e.2)
    (event : EduEvent) :
    ∃ m', m.1.reuseEDU type e.1 e.2 = .ok m' ∧
      ∃ m'', m'.write e.2 (·.postEvent event) = .ok m'' := by
  rcases m.2 e.1 e.2 (Or.inr hThere) with ⟨c, hBlock⟩
  have hTaken : (m.1.takeIdle e.1 e.2).blocks[e.2]? =
      some c := hBlock
  refine ⟨_, write_of_block _ hTaken, ?_⟩
  apply write_returns
  exact ⟨_, by simp; rfl⟩

theorem startEDULatched_reuse
    (entry : EduMgr)
    (m : Live)
    (kept : Bool)
    (check create : EduMgr)
    {type : EduType}
    (arg : Nat)
    (new : NewEdu)
    (eduid : Option Nat)
    (hActive : ¬ entry.isQuiesced = true)
    (hOld : ¬ m.1.StartsNew type) :
    Lawful (startEDULatched entry m.1 kept check create type
      arg new eduid) ↔ Reuses entry m.1 kept eduid := by
  unfold startEDULatched
  rw [if_neg hActive]
  have hBranch : ¬ (m.1.idleQueue.isEmpty ∨
      ¬ isPoolable type) := hOld
  constructor
  · intro hLawful
    rcases hLawful.returns with ⟨r, hReturns⟩
    rw [result_get_bind, if_neg hBranch] at hReturns
    rcases returns_of_bind hReturns with ⟨e, hTake, hRest⟩
    have hAll := (takeFirst_ok_iff entry m.1 kept e).mp hTake
    rcases returns_of_bind hRest with ⟨m', _, hEnd⟩
    cases eduid with
    | none => exact absurd hEnd (by simp [lift])
    | some id =>
        exact ⟨hAll.2.1, by simp, e, hAll.1, hAll.2.2⟩
  · rintro ⟨hKept, hPointer, e, hFirst, hThere⟩
    have hTake := (takeFirst_ok_iff entry m.1 kept e).mpr
      ⟨hFirst, hKept, hThere⟩
    rcases reuseEDU_returns m type hThere (resumeEvent arg)
      with ⟨m', hReuse, hPost⟩
    apply lawful_of_leaves
    apply Leaves.get (by simp)
    rw [if_neg hBranch]
    apply (takeFirst_leaves hTake _).bind
    intro e' hSame
    rw [hTake, Except.ok.injEq] at hSame
    rw [← hSame]
    apply (leaves_part ⟨m', hReuse⟩ _).bind
    intro n hPart
    have hEqual : m' = n := by
      rw [part, hReuse] at hPart
      exact Except.ok.inj hPart
    rw [← hEqual]
    cases eduid with
    | none => exact absurd rfl hPointer
    | some id =>
        apply Leaves.release
        exact (leaves_part hPost _).bind
          (fun m'' _ => leaves_pure [] _)

/-
  A start is lawful when it is refused, when it creates an
  EDU with a thread, or when it reuses an entry that was and
  is idle.
-/
theorem startEDULatched_lawful_iff
    (entry : EduMgr)
    (m : Live)
    (kept : Bool)
    (check create : EduMgr)
    (type : EduType)
    (arg : Nat)
    (new : NewEdu)
    (eduid : Option Nat) :
    Lawful (startEDULatched entry m.1 kept check create type
      arg new eduid) ↔
        entry.isQuiesced = true ∨
        (m.1.StartsNew type ∧ GivesThread check new) ∨
        (¬ m.1.StartsNew type ∧
          Reuses entry m.1 kept eduid) := by
  by_cases hQuiesced : entry.isQuiesced = true
  · refine iff_of_true ?_ (Or.inl hQuiesced)
    apply lawful_of_leaves
    unfold startEDULatched
    rw [if_pos hQuiesced]
    exact leaves_pure [] _
  · by_cases hNew : m.1.StartsNew type
    · have hBranch : m.1.idleQueue.isEmpty ∨
          ¬ isPoolable type := hNew
      have hCreate : Lawful (startEDULatched entry m.1 kept
          check create type arg new eduid) ↔
            Lawful (createNewEDULatched check create type arg
              new eduid) := by
        -- the latch is free again before the creation
        rw [lawful_iff, lawful_iff]
        unfold startEDULatched
        rw [if_neg hQuiesced, owns_get_bind (by simp),
          result_get_bind, if_pos hBranch, owns_release_bind,
          result_release_bind]
      rw [hCreate, createNewEDULatched_lawful_iff]
      simp [hQuiesced, hNew]
    · rw [startEDULatched_reuse entry m kept check create arg
        new eduid hQuiesced hNew]
      simp [hQuiesced, hNew]

------------------------------------------------------------
-- All Calls
------------------------------------------------------------

/- A call of the manager and the managers that it finds. -/
inductive LatchedCall
| startEDU (entry : EduMgr) (m : Live) (kept : Bool)
    (check create : EduMgr) (type : EduType) (arg : Nat)
    (new : NewEdu) (eduid : Option Nat)
| createNewEDU (check m : EduMgr) (type : EduType)
    (arg : Nat) (new : NewEdu) (eduid : Option Nat)
| activateEDU (m : Live) (eduID : Nat)
| waitEDU (m : Live) (id : Nat)
| returnEDU (m : Live) (count : EduMgr) (change : Live)
    (maxPool : UInt32) (eduID : Nat) (force : Bool)
    (destroyed : Option Bool)
| destoryEDU (m : Live) (eduID : Nat)
| deactiveEDU (m : Live) (eduID : Nat)
| postEDUPost (m : Live) (eduID : Nat) (type : EduEventType)
    (release : Bool) (data : Nat)

namespace LatchedCall

/- The call gives the latch back and reads no end iterator. -/
def Lawful : LatchedCall → Prop
| .startEDU entry m kept check create type arg new eduid =>
    EduMgr.Lawful (startEDULatched entry m.1 kept check create
      type arg new eduid)
| .createNewEDU check m type arg new eduid =>
    EduMgr.Lawful
      (createNewEDULatched check m type arg new eduid)
| .activateEDU m eduID =>
    EduMgr.Lawful (m.1.activateEDULatched eduID)
| .waitEDU m id => EduMgr.Lawful (m.1.waitEDULatched id)
| .returnEDU m count change maxPool eduID force destroyed =>
    EduMgr.Lawful (returnEDULatched m.1 count change.1 maxPool
      eduID force destroyed)
| .destoryEDU m eduID =>
    EduMgr.Lawful (m.1.destoryEDULatched eduID)
| .deactiveEDU m eduID =>
    EduMgr.Lawful (m.1.deactiveEDULatched eduID)
| .postEDUPost m eduID type release data =>
    EduMgr.Lawful
      (m.1.postEDUPostLatched eduID type release data)

/- What a call has to meet to be lawful. -/
def Safe : LatchedCall → Prop
| .startEDU entry m kept check _ type _ new eduid =>
    entry.isQuiesced = true ∨
      (m.1.StartsNew type ∧ GivesThread check new) ∨
      (¬ m.1.StartsNew type ∧ Reuses entry m.1 kept eduid)
| .createNewEDU check _ _ _ new _ => GivesThread check new
| .activateEDU _ _ => True
| .waitEDU _ _ => True
| .returnEDU m _ _ _ eduID _ destroyed =>
    m.1.Registered eduID ∨ destroyed ≠ none
| .destoryEDU _ _ => True
| .deactiveEDU _ _ => True
| .postEDUPost _ _ _ _ _ => True

theorem latch_lawful_iff
    (c : LatchedCall) :
    c.Lawful ↔ c.Safe := by
  cases c with
  | startEDU entry m kept check create type arg new eduid =>
      exact startEDULatched_lawful_iff entry m kept check
        create type arg new eduid
  | createNewEDU check m type arg new eduid =>
      exact createNewEDULatched_lawful_iff check m type arg
        new eduid
  | activateEDU m eduID =>
      exact iff_of_true (lawful_of_leaves
        (activateEDULatched_leaves m eduID)) True.intro
  | waitEDU m id =>
      exact iff_of_true (lawful_of_leaves
        (waitEDULatched_leaves m id)) True.intro
  | returnEDU m count change maxPool eduID force destroyed =>
      exact returnEDULatched_lawful_iff m count change maxPool
        eduID force destroyed
  | destoryEDU m eduID =>
      exact iff_of_true (lawful_of_leaves
        (destoryEDULatched_leaves m eduID)) True.intro
  | deactiveEDU m eduID =>
      exact iff_of_true (lawful_of_leaves
        (deactiveEDULatched_leaves m eduID)) True.intro
  | postEDUPost m eduID type release data =>
      exact iff_of_true (lawful_of_leaves
        (postEDUPostLatched_leaves m eduID type release
          data)) True.intro

/-
  In a manager without EDUs: a creation without a thread ends
  with the latch held, and a return reads an end iterator.
-/
theorem latch_not_lawful :
    let m : EduMgr := {}
    owns [] (createNewEDULatched m m .agent 0 (.noThread 1)
      (some 0)).ops = some [(.mutex, .exclusive)] ∧
    ¬ (createNewEDU m m .agent 0 (.noThread 1)
      (some 0)).Lawful ∧
    (returnEDULatched m m m 10 1 false none).result =
      .error .endIterator := by
  intro m
  have hKept : owns [] (createNewEDULatched m m .agent 0
      (.noThread 1) (some 0)).ops =
        some [(.mutex, .exclusive)] := by
    rfl
  refine ⟨hKept, ?_, ?_⟩
  · intro hLawful
    have hOwns := ((lawful_iff _).mp hLawful).1
    rw [hKept] at hOwns
    exact absurd hOwns (by decide)
  · have hFind : m.find 1 = none := by
      unfold find
      simp [m]
    unfold returnEDULatched
    rw [hFind]
    rfl

end LatchedCall

end EduMgr

end EmeraldDb
