import EmeraldDb.Lib.LatchTrace
import EmeraldDb.Pmd.Registry

/-
  The latch of the manager of the threads.

  Each call is given again with the operations it makes on
  the latch.  A call that does not hold the latch finds the
  manager that other threads have left, so a call that gets
  it more than once has one manager for each time.

  A pointer that a call writes its result to is given by what
  it points to, `none` for a null pointer.

  Key definitions include:
    * `EduFault`
    * `EduMgr.startEDULatched`
    * `EduMgr.createNewEDULatched`
    * `EduMgr.returnEDULatched`

  Key results include:
    * `EduMgr.startEDULatched_result`
    * `EduMgr.createNewEDULatched_result`
    * `EduMgr.returnEDULatched_result`
-/

namespace EmeraldDb

open Traced

inductive EduLatch
| mutex
deriving DecidableEq

/- A fault of the model, or an end iterator is read. -/
inductive EduFault
| fault (f : Fault)
| endIterator
deriving DecidableEq

abbrev MgrCall
    (α : Type) : Type :=
  Traced EduLatch EduFault α

namespace EduMgr

abbrev getMutex : MgrCall Unit :=
  Traced.get .mutex .exclusive

abbrev releaseMutex : MgrCall Unit :=
  Traced.release .mutex .exclusive

abbrev getShared : MgrCall Unit :=
  Traced.get .mutex .shared

abbrev releaseShared : MgrCall Unit :=
  Traced.release .mutex .shared

/- A part of a call that makes no operation on the latch. -/
def part
    {α : Type}
    (x : Except Fault α) : MgrCall α :=
  lift (x.mapError EduFault.fault)

------------------------------------------------------------
-- Start
------------------------------------------------------------

/-
  `check` is the manager at the test of `_isQuiesced`.  What
  the creation of the thread throws is caught, and the call
  then ends behind the statement that releases the latch.
-/
def createNewEDULatched
    (check m : EduMgr)
    (type : EduType)
    (arg : Nat)
    (new : NewEdu)
    (eduid : Option Nat) :
    MgrCall (Int × Option Nat × EduMgr) :=
  if check.isQuiesced then return (edbQuiesced, eduid, m)
  else
    match new with
    | .oom => return (edbOom, eduid, m)
    | .noThread p => do
        getMutex
        return (edbSys, eduid.map (fun _ => m.eduID),
          (m.addEDU type p).dropEDU m.eduID p)
    | .started p => do
        getMutex
        releaseMutex
        let m' ← part ((m.addEDU type p).write p
          (·.postEvent (resumeEvent arg)))
        return (edbOk, eduid.map (fun _ => m.eduID), m')

/-
  The first entry of the idle queue is looked up at the call,
  without the latch, and read under it.  `kept` says whether
  it has stayed in the queue.
-/
def takeFirst
    (entry m : EduMgr)
    (kept : Bool) : MgrCall (Nat × Nat) :=
  match entry.firstIdle with
  | none => lift (.error .endIterator)
  | some e =>
      if kept = true ∧ m.idleQueue[e.1]? = some e.2 then
        return e
      else lift (.error (.fault .stray))

/-
  `entry` is the manager at the call and `m` the one under
  the latch, `check` and `create` are those of the creation.
-/
def startEDULatched
    (entry m : EduMgr)
    (kept : Bool)
    (check create : EduMgr)
    (type : EduType)
    (arg : Nat)
    (new : NewEdu)
    (eduid : Option Nat) :
    MgrCall (Int × Option Nat × EduMgr) :=
  if entry.isQuiesced then return (edbQuiesced, eduid, entry)
  else do
    getMutex
    if m.idleQueue.isEmpty ∨ ¬ isPoolable type then
      releaseMutex
      createNewEDULatched check create type arg new eduid
    else
      let (eduID, p) ← takeFirst entry m kept
      let m' ← part (m.reuseEDU type eduID p)
      match eduid with
      | none => lift (.error (.fault .stray))
      | some _ =>
          releaseMutex
          let m'' ← part (m'.write p
            (·.postEvent (resumeEvent arg)))
          return (edbOk, some eduID, m'')

------------------------------------------------------------
-- Status
------------------------------------------------------------

def activateEDULatched
    (m : EduMgr)
    (eduID : Nat) : MgrCall (Int × EduMgr) := do
  getMutex
  match m.idleQueue[eduID]? with
  | none =>
      match m.runQueue[eduID]? with
      | none =>
          releaseMutex
          return (edbSys, m)
      | some p =>
          let m' ← part (m.write p (·.setStatus .running))
          releaseMutex
          return (edbOk, m')
  | some p =>
      let m' ← part ((m.takeIdle eduID p).write p
        (·.setStatus .running))
      releaseMutex
      return (edbOk, m')

def waitEDULatched
    (m : EduMgr)
    (id : Nat) : MgrCall (Int × EduMgr) := do
  getMutex
  match m.runQueue[id]? with
  | none =>
      releaseMutex
      return (edbSys, m)
  | some p =>
      let c ← part (m.cb p)
      if c.status = .waitting then
        releaseMutex
        return (edbOk, m)
      else if c.status ≠ .running then
        releaseMutex
        return (edbEduInvalStatus, m)
      else
        let m' ← part (m.write p (·.setStatus .waitting))
        releaseMutex
        return (edbOk, m')

------------------------------------------------------------
-- Return
------------------------------------------------------------

def destoryEDULatched
    (m : EduMgr)
    (eduID : Nat) : MgrCall (Int × EduMgr) := do
  getMutex
  match m.runQueue[eduID]? with
  | none =>
      match m.idleQueue[eduID]? with
      | none =>
          releaseMutex
          return (edbSys, m)
      | some p =>
          let m' ← part (m.write p (·.setStatus .destroy))
          releaseMutex
          return (edbOk, { m' with
            idleQueue := m'.idleQueue.erase eduID
            tidEduidMap := m'.dropTid eduID
            blocks := m'.blocks.erase p })
  | some p =>
      let m' ← part (m.write p (·.setStatus .destroy))
      releaseMutex
      return (edbOk, { m' with
        runQueue := m'.runQueue.erase eduID
        tidEduidMap := m'.dropTid eduID
        blocks := m'.blocks.erase p })

def deactiveEDULatched
    (m : EduMgr)
    (eduID : Nat) : MgrCall (Int × EduMgr) := do
  getMutex
  match m.runQueue[eduID]? with
  | none =>
      match m.idleQueue[eduID]? with
      | none =>
          releaseMutex
          return (edbSys, m)
      | some p =>
          let m' ← part (m.write p (·.setStatus .waitting))
          releaseMutex
          return (edbOk, m')
  | some p =>
      let m' ← part (m.write p (·.setStatus .waitting))
      releaseMutex
      return (edbOk, { m' with
        runQueue := m'.runQueue.erase eduID
        idleQueue := m'.idleQueue.insert eduID p })

def sizeLatched (m : EduMgr) : MgrCall UInt32 := do
  getShared
  let num := m.size
  releaseShared
  return num

/- The size is asked for last, if it decides. -/
def destroysLatched
    (m : EduMgr)
    (maxPool : UInt32)
    (type : EduType)
    (force : Bool) : MgrCall Bool :=
  if !isPoolable type || force || m.isDestroyed then
    return true
  else do
    let num ← m.sizeLatched
    return decide (num < maxPool)

/-
  Without an entry the call goes on with an end iterator when
  the pointer `destroyed` is null.  `m` is the manager of the
  lookup, `count` that of the size and `change` that of the
  removal.
-/
def returnEDULatched
    (m count change : EduMgr)
    (maxPool : UInt32)
    (eduID : Nat)
    (force : Bool)
    (destroyed : Option Bool) :
    MgrCall (Int × Option Bool × EduMgr) := do
  getShared
  match m.find eduID with
  | none =>
      match destroyed with
      | none => lift (.error .endIterator)
      | some _ =>
          releaseShared
          return (edbSys, some false, m)
  | some p =>
      let c ← part (m.cb p)
      releaseShared
      let destroys ← count.destroysLatched maxPool c.type force
      if destroys then
        let (rc, m') ← change.destoryEDULatched eduID
        return (rc, reportDestroyed destroyed rc, m')
      else
        let (rc, m') ← change.deactiveEDULatched eduID
        return (rc, reportDestroyed destroyed rc, m')

------------------------------------------------------------
-- Events
------------------------------------------------------------

def postEDUPostLatched
    (m : EduMgr)
    (eduID : Nat)
    (type : EduEventType)
    (release : Bool)
    (data : Nat) : MgrCall (Int × EduMgr) := do
  getMutex
  match m.find eduID with
  | none =>
      releaseMutex
      return (edbSys, m)
  | some p =>
      let m' ← part (m.write p
        (·.postEvent ⟨type, release, data⟩))
      releaseMutex
      return (edbOk, m')

------------------------------------------------------------
-- The Calls without Their Latch
------------------------------------------------------------

/- What the pointer has after a call that may write to it. -/
def written
    (eduid : Option Nat)
    (id : Option Nat) : Option Nat :=
  match id with
  | none => eduid
  | some id => eduid.map (fun _ => id)

theorem createNewEDULatched_result
    (m : EduMgr)
    (type : EduType)
    (arg : Nat)
    (new : NewEdu)
    (eduid : Option Nat) :
    (createNewEDULatched m m type arg new eduid).result =
      ((m.createNewEDU type arg new).mapError .fault).map
        (fun r => (r.1, written eduid r.2.1, r.2.2)) := by
  unfold createNewEDULatched createNewEDU
  by_cases hQuiesced : m.isQuiesced = true
  · rw [if_pos hQuiesced, if_pos hQuiesced]
    rfl
  · rw [if_neg hQuiesced, if_neg hQuiesced]
    cases new with
    | oom => rfl
    | noThread p => rfl
    | started p =>
        dsimp only
        rw [result_get_bind, result_release_bind, result_bind]
        cases (m.addEDU type p).write p
            (·.postEvent (resumeEvent arg)) with
        | error e => rfl
        | ok m' => rfl

theorem startEDULatched_result
    (m : EduMgr)
    (type : EduType)
    (arg : Nat)
    (new : NewEdu)
    (eduid : Nat) :
    (startEDULatched m m true m m type arg new
      (some eduid)).result =
      ((m.startEDU type arg new).mapError .fault).map
        (fun r =>
          (r.1, written (some eduid) r.2.1, r.2.2)) := by
  have hCreate := m.createNewEDULatched_result type arg new
    (some eduid)
  unfold startEDULatched startEDU
  by_cases hQuiesced : m.isQuiesced = true
  · rw [if_pos hQuiesced, if_pos hQuiesced]
    rfl
  · rw [if_neg hQuiesced, if_neg hQuiesced, result_get_bind]
    by_cases hNew : m.idleQueue.isEmpty ∨ ¬ isPoolable type
    · rw [if_pos hNew, if_pos hNew, result_release_bind]
      exact hCreate
    · rw [if_neg hNew, if_neg hNew]
      cases hFirst : m.firstIdle with
      | none =>
          have hEmpty := isEmpty_of_firstIdle hFirst
          exact absurd (Or.inl hEmpty) hNew
      | some e =>
          have hTake : (takeFirst m m true).result = .ok e := by
            unfold takeFirst
            rw [hFirst]
            dsimp only
            rw [if_pos ⟨rfl, firstIdle_some hFirst⟩]
            rfl
          rw [result_bind_ok hTake]
          rcases e with ⟨eduID, p⟩
          dsimp only
          cases m.reuseEDU type eduID p with
          | error f => rfl
          | ok m' =>
              have hPart : (part (.ok m')).result = .ok m' :=
                rfl
              rw [result_bind_ok hPart, result_release_bind]
              have hBind : ∀ g : EduMgr →
                  Except Fault (Int × Option Nat × EduMgr),
                  (Except.ok m' >>= g) = g m' :=
                fun _ => rfl
              rw [hBind]
              cases m'.write p
                  (·.postEvent (resumeEvent arg)) with
              | error f => rfl
              | ok m'' => rfl

section Results

variable (m : EduMgr)

/- A part behind which the results agree. -/
theorem result_part_bind
    {α β : Type}
    {x : Except Fault α}
    {f : α → MgrCall β}
    {g : α → Except Fault β}
    (hNext : ∀ a, x = .ok a →
      (f a).result = (g a).mapError .fault) :
    (part x >>= f).result = (x >>= g).mapError .fault := by
  cases x with
  | error e => rfl
  | ok a => exact hNext a rfl

theorem activateEDULatched_result
    (eduID : Nat) :
    (m.activateEDULatched eduID).result =
      (m.activateEDU eduID).mapError .fault := by
  unfold activateEDULatched activateEDU
  rw [result_get_bind]
  cases m.idleQueue[eduID]? with
  | none =>
      cases m.runQueue[eduID]? with
      | none => rfl
      | some p => exact result_part_bind (fun _ _ => rfl)
  | some p => exact result_part_bind (fun _ _ => rfl)

theorem waitEDULatched_result
    (id : Nat) :
    (m.waitEDULatched id).result =
      (m.waitEDU id).mapError .fault := by
  unfold waitEDULatched waitEDU
  rw [result_get_bind]
  cases m.runQueue[id]? with
  | none => rfl
  | some p =>
      apply result_part_bind
      intro c _
      by_cases hWaiting : c.status = .waitting
      · rw [if_pos hWaiting, if_pos hWaiting]
        rfl
      · rw [if_neg hWaiting, if_neg hWaiting]
        by_cases hRunning : c.status ≠ .running
        · rw [if_pos hRunning, if_pos hRunning]
          rfl
        · rw [if_neg hRunning, if_neg hRunning]
          exact result_part_bind (fun _ _ => rfl)

theorem destoryEDULatched_result
    (eduID : Nat) :
    (m.destoryEDULatched eduID).result =
      (m.destoryEDU eduID).mapError .fault := by
  unfold destoryEDULatched destoryEDU
  rw [result_get_bind]
  cases m.runQueue[eduID]? with
  | none =>
      cases m.idleQueue[eduID]? with
      | none => rfl
      | some p => exact result_part_bind (fun _ _ => rfl)
  | some p => exact result_part_bind (fun _ _ => rfl)

theorem deactiveEDULatched_result
    (eduID : Nat) :
    (m.deactiveEDULatched eduID).result =
      (m.deactiveEDU eduID).mapError .fault := by
  unfold deactiveEDULatched deactiveEDU
  rw [result_get_bind]
  cases m.runQueue[eduID]? with
  | none =>
      cases m.idleQueue[eduID]? with
      | none => rfl
      | some p => exact result_part_bind (fun _ _ => rfl)
  | some p => exact result_part_bind (fun _ _ => rfl)

theorem destroysLatched_result
    (maxPool : UInt32)
    (type : EduType)
    (force : Bool) :
    (m.destroysLatched maxPool type force).result =
      .ok (m.destroys maxPool type force) := by
  unfold destroysLatched destroys
  cases hFirst : !isPoolable type || force || m.isDestroyed with
  | true => rfl
  | false => rfl

/- A call behind which the results agree. -/
theorem result_bind_eq
    {α β : Type}
    {x : MgrCall α}
    {y : Except Fault α}
    {f : α → MgrCall β}
    {g : α → Except Fault β}
    (hFirst : x.result = y.mapError .fault)
    (hNext : ∀ a, (f a).result = (g a).mapError .fault) :
    (x >>= f).result = (y >>= g).mapError .fault := by
  cases y with
  | error e => exact result_bind_error hFirst f
  | ok a => exact (result_bind_ok hFirst f).trans (hNext a)

theorem returnEDULatched_result
    (maxPool : UInt32)
    (eduID : Nat)
    (force destroyed : Bool) :
    (returnEDULatched m m m maxPool eduID force
      (some destroyed)).result =
        (m.returnEDU maxPool eduID force
          (some destroyed)).mapError .fault := by
  unfold returnEDULatched returnEDU
  rw [result_get_bind]
  cases m.find eduID with
  | none => rfl
  | some p =>
      apply result_part_bind
      intro c _
      rw [result_release_bind, result_bind_ok
        (m.destroysLatched_result maxPool c.type force)]
      cases m.destroys maxPool c.type force with
      | true =>
          exact result_bind_eq (m.destoryEDULatched_result _)
            (fun _ => rfl)
      | false =>
          exact result_bind_eq (m.deactiveEDULatched_result _)
            (fun _ => rfl)

theorem postEDUPostLatched_result
    (eduID : Nat)
    (type : EduEventType)
    (release : Bool)
    (data : Nat) :
    (m.postEDUPostLatched eduID type release data).result =
      (m.postEDUPost eduID type release data).mapError
        .fault := by
  unfold postEDUPostLatched postEDUPost
  rw [result_get_bind]
  cases m.find eduID with
  | none => rfl
  | some p => exact result_part_bind (fun _ _ => rfl)

end Results

end EduMgr

end EmeraldDb
