import EmeraldDb.Pmd.EduThread
import EmeraldDb.Pmd.LatchBalance

/-
  The other calls of the manager with its latch.

  What only reads the manager does so under the shared latch.
  The call that waits for an event of an EDU does that too,
  and a post of the event needs the latch exclusively: when
  the event is not there yet, it never comes.

  Key definitions include:
    * `EduMgr.waitEDUPostLatched`
    * `EduMgr.ManagerCall`

  Key results include:
    * `EduMgr.waitEDUPostLatched_lawful_iff`
    * `EduMgr.ManagerCall.Safe.owns`
-/

namespace EmeraldDb

open Traced

namespace EduMgr

------------------------------------------------------------
-- Reading
------------------------------------------------------------

/- How many EDUs have the property. -/
def getEDUCount
    (m : EduMgr)
    (property : Nat) : UInt32 :=
  UInt32.ofNat (m.runQueue.toList.countP
      (fun e => m.hasProperty property e.1)) +
    UInt32.ofNat (m.idleQueue.toList.countP
      (fun e => m.hasProperty property e.1))

/- What is read under the shared latch. -/
def readLatched
    {α : Type}
    (a : α) : MgrCall α := do
  getShared
  releaseShared
  return a

def sizeRunLatched (m : EduMgr) : MgrCall UInt32 :=
  readLatched (UInt32.ofNat m.runQueue.size)

def sizeIdleLatched (m : EduMgr) : MgrCall UInt32 :=
  readLatched (UInt32.ofNat m.idleQueue.size)

def isSystemEDULatched
    (m : EduMgr)
    (eduID : Nat) : MgrCall Bool :=
  readLatched (m.isSystemEDU eduID)

def getEDUCountLatched
    (m : EduMgr)
    (property : Nat) : MgrCall UInt32 :=
  readLatched (m.getEDUCount property)

theorem readLatched_leaves
    {α : Type}
    (a : α) :
    Leaves [] [] (readLatched a) := by
  unfold readLatched
  exact .get (by simp) (leaves_release_pure _ _ [] a)

theorem sizeLatched_leaves
    (m : EduMgr) :
    Leaves [] [] m.sizeLatched := by
  unfold sizeLatched
  exact .get (by simp) (leaves_release_pure _ _ [] _)

------------------------------------------------------------
-- Forcing
------------------------------------------------------------

def forceEDUsLatched
    (m : EduMgr)
    (property : Nat) : MgrCall (Int × EduMgr) := do
  getMutex
  let r ← part (m.forceEDUs property)
  releaseMutex
  return r

theorem forceEDUsLatched_leaves
    {m : EduMgr}
    (hReg : Registry m)
    (property : Nat) :
    Leaves [] [] (m.forceEDUsLatched property) := by
  unfold forceEDUsLatched
  apply Leaves.get (by simp)
  exact leaves_part_release
    (forceEDUs_returns hReg property) id

------------------------------------------------------------
-- Waiting for Events
------------------------------------------------------------

/-
  There is no result while the call waits, and the latch is
  then held.
-/
def waitEDUPostLatched
    (m : EduMgr)
    (eduID : Nat)
    (millsec : Int)
    (late : Bool) :
    MgrCall (Option (Int × Option EduEvent × EduMgr)) := do
  getShared
  match m.find eduID with
  | none =>
      releaseShared
      return some (edbSys, none, m)
  | some p =>
      let c ← part (m.cb p)
      match c.waitEvent millsec late with
      | none => return none
      | some (event, c') =>
          let m' ← part (m.write p (fun _ => c'))
          releaseShared
          match event with
          | none => return some (edbTimeout, none, m')
          | some e => return some (edbOk, some e, m')

/- The wait of the EDU, if it is registered, is over. -/
def WaitEnds
    (m : EduMgr)
    (eduID : Nat)
    (millsec : Int)
    (late : Bool) : Prop :=
  ∀ p c, m.find eduID = some p → m.blocks[p]? = some c →
    c.waitEvent millsec late ≠ none

theorem waitEDUPostLatched_lawful_iff
    (m : Live)
    (eduID : Nat)
    (millsec : Int)
    (late : Bool) :
    Lawful (m.1.waitEDUPostLatched eduID millsec late) ↔
      m.1.WaitEnds eduID millsec late := by
  unfold waitEDUPostLatched WaitEnds
  cases hFind : m.1.find eduID with
  | none =>
      refine iff_of_true (lawful_of_leaves ?_) (by simp)
      exact .get (by simp) (leaves_release_pure _ _ [] _)
  | some p =>
      rcases m.2 eduID p (holds_of_find hFind) with
        ⟨c, hBlock⟩
      have hPart : (part (m.1.cb p)).result = .ok c := by
        rw [part, cb_of_block hBlock]
        rfl
      have hOnly : (∀ q d, some p = some q →
          m.1.blocks[q]? = some d →
            d.waitEvent millsec late ≠ none) ↔
          c.waitEvent millsec late ≠ none := by
        constructor
        · exact fun hAll => hAll p c rfl hBlock
        · rintro hEnds q d ⟨⟩ hSame
          rw [hBlock, Option.some.injEq] at hSame
          rwa [← hSame]
      rw [hOnly]
      constructor
      · intro hLawful hWaits
        have hOwns := ((lawful_iff _).mp hLawful).1
        rw [owns_get_bind (by simp)] at hOwns
        dsimp only at hOwns
        rw [owns_bind hPart (by rfl), hWaits] at hOwns
        cases hOwns
      · intro hEnds
        rcases Option.ne_none_iff_exists'.mp hEnds with
          ⟨⟨event, c'⟩, hWait⟩
        apply lawful_of_leaves
        apply Leaves.get (by simp)
        apply (leaves_part ⟨c, cb_of_block hBlock⟩ _).bind
        intro d hSame
        rw [hPart, Except.ok.injEq] at hSame
        rw [← hSame, hWait]
        apply (leaves_part (write_returns ⟨c, hBlock⟩ _)
          _).bind
        intro m' _
        apply Leaves.release
        cases event with
        | none => exact leaves_pure [] _
        | some e => exact leaves_pure [] _

------------------------------------------------------------
-- All Calls
------------------------------------------------------------

/- Any call of the manager and what it finds. -/
inductive ManagerCall
| latched (c : LatchedCall)
| size (m : EduMgr)
| sizeRun (m : EduMgr)
| sizeIdle (m : EduMgr)
| isSystemEDU (m : EduMgr) (eduID : Nat)
| getEDUCount (m : EduMgr) (property : Nat)
| forceEDUs (m : EduMgr) (hReg : Registry m) (property : Nat)
| waitEDUPost (m : Live) (eduID : Nat) (millsec : Int)
    (late : Bool)

/- The operations of a call on the latch of the manager. -/
def LatchedCall.ops :
    LatchedCall → List (LatchOp EduLatch)
| .startEDU entry m kept check create type arg new eduid =>
    (startEDULatched entry m.1 kept check create type arg new
      eduid).ops
| .createNewEDU check m type arg new eduid =>
    (createNewEDULatched check m type arg new eduid).ops
| .activateEDU m eduID => (m.1.activateEDULatched eduID).ops
| .waitEDU m id => (m.1.waitEDULatched id).ops
| .returnEDU m count change maxPool eduID force destroyed =>
    (returnEDULatched m.1 count change.1 maxPool eduID force
      destroyed).ops
| .destoryEDU m eduID => (m.1.destoryEDULatched eduID).ops
| .deactiveEDU m eduID => (m.1.deactiveEDULatched eduID).ops
| .postEDUPost m eduID type release data =>
    (m.1.postEDUPostLatched eduID type release data).ops

theorem LatchedCall.Safe.owns
    {c : LatchedCall}
    (hSafe : c.Safe) :
    owns [] c.ops = some [] := by
  cases c with
  | startEDU entry m kept check create type arg new eduid =>
      exact ((lawful_iff _).mp
        ((startEDULatched_lawful_iff entry m kept check create
          type arg new eduid).mpr hSafe)).1
  | createNewEDU check m type arg new eduid =>
      exact (createNewEDULatched_leaves hSafe m type arg
        eduid).holds
  | activateEDU m eduID =>
      exact (activateEDULatched_leaves m eduID).holds
  | waitEDU m id => exact (waitEDULatched_leaves m id).holds
  | returnEDU m count change maxPool eduID force destroyed =>
      exact ((lawful_iff _).mp
        ((returnEDULatched_lawful_iff m count change maxPool
          eduID force destroyed).mpr hSafe)).1
  | destoryEDU m eduID =>
      exact (destoryEDULatched_leaves m eduID).holds
  | deactiveEDU m eduID =>
      exact (deactiveEDULatched_leaves m eduID).holds
  | postEDUPost m eduID type release data =>
      exact (postEDUPostLatched_leaves m eduID type release
        data).holds

namespace ManagerCall

def ops : ManagerCall → List (LatchOp EduLatch)
| .latched c => c.ops
| .size m => m.sizeLatched.ops
| .sizeRun m => m.sizeRunLatched.ops
| .sizeIdle m => m.sizeIdleLatched.ops
| .isSystemEDU m eduID => (m.isSystemEDULatched eduID).ops
| .getEDUCount m property =>
    (m.getEDUCountLatched property).ops
| .forceEDUs m _ property => (m.forceEDUsLatched property).ops
| .waitEDUPost m eduID millsec late =>
    (m.1.waitEDUPostLatched eduID millsec late).ops

/- What a call has to meet to give back the latch. -/
def Safe : ManagerCall → Prop
| .latched c => c.Safe
| .size _ => True
| .sizeRun _ => True
| .sizeIdle _ => True
| .isSystemEDU _ _ => True
| .getEDUCount _ _ => True
| .forceEDUs _ _ _ => True
| .waitEDUPost m eduID millsec late =>
    m.1.WaitEnds eduID millsec late

theorem Safe.owns
    {c : ManagerCall}
    (hSafe : c.Safe) :
    owns [] c.ops = some [] := by
  cases c with
  | latched c => exact LatchedCall.Safe.owns hSafe
  | size m => exact m.sizeLatched_leaves.holds
  | sizeRun m => exact (readLatched_leaves _).holds
  | sizeIdle m => exact (readLatched_leaves _).holds
  | isSystemEDU m eduID => exact (readLatched_leaves _).holds
  | getEDUCount m property =>
      exact (readLatched_leaves _).holds
  | forceEDUs m hReg property =>
      exact (forceEDUsLatched_leaves hReg property).holds
  | waitEDUPost m eduID millsec late =>
      exact ((lawful_iff _).mp
        ((waitEDUPostLatched_lawful_iff m eduID millsec
          late).mpr hSafe)).1

end ManagerCall

end EduMgr

end EmeraldDb
