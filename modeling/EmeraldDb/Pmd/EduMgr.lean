import EmeraldDb.Core

/-
  The manager of the server's threads.

  An EDU is a thread with a control block.  The manager keeps
  the blocks of the EDUs that work in its run queue and those
  of pooled EDUs in its idle queue, both ordered by the id of
  the EDU.  The queues hold pointers: a call that reads or
  writes a block which has been freed ends with a fault.

  A call of the manager is one function here.  A latch is
  held in parts of a call only; the parts under the latch
  that a call has more than one of are functions of their own.

  Key definitions include:
    * `EduCB`
    * `EduMgr`
    * `EduMgr.startEDU`
    * `EduMgr.activateEDU`
    * `EduMgr.returnEDU`
    * `EduMgr.waitEDU`
    * `EduMgr.postEDUPost`
    * `EduMgr.forceEDUs`
-/

namespace EmeraldDb

------------------------------------------------------------
-- Control Blocks
------------------------------------------------------------

inductive EduType
| tcpListener
| agent
| unknown
deriving DecidableEq, Repr

inductive EduStatus
| creating
| running
| waitting
| idle
| destroy
| unknown
deriving DecidableEq, Repr

inductive EduEventType
| none
| term
| resume
| active
| deactive
| msg
| timeout
| lockwakeup
deriving DecidableEq, Repr

/- An event; its data is a pointer or a socket. -/
structure EduEvent where
  eventType : EduEventType
  release : Bool
  data : Nat
deriving DecidableEq, Repr

abbrev eduMaxIdleTime : Int := 1000

/- The control block of an EDU. -/
structure EduCB where
  type : EduType
  status : EduStatus := .creating
  id : Nat := 0
  isForced : Bool := false
  isDisconnected : Bool := false
  maxIdleTime : Int := eduMaxIdleTime
  queue : List EduEvent := []
deriving DecidableEq, Repr

namespace EduCB

/- The block of an EDU that is being created. -/
def created
    (type : EduType)
    (id : Nat) : EduCB :=
  { type := type, status := .creating, id := id }

def postEvent
    (cb : EduCB)
    (data : EduEvent) : EduCB :=
  { cb with queue := cb.queue ++ [data] }

def force (cb : EduCB) : EduCB :=
  { cb with isForced := true }

def setType
    (type : EduType)
    (cb : EduCB) : EduCB :=
  { cb with type := type }

def setStatus
    (status : EduStatus)
    (cb : EduCB) : EduCB :=
  { cb with status := status }

end EduCB

------------------------------------------------------------
-- State
------------------------------------------------------------

/- A `std::map` with unsigned keys. -/
abbrev EduMap (α : Type) : Type :=
  Std.TreeMap Nat α compare

abbrev eduidRange : Nat := 18446744073709551616

/-
  The manager.  The queues map an id to the pointer of its
  block, `blocks` has the blocks that are allocated, and
  `eduID` is the id that the next EDU gets.
-/
structure EduMgr where
  runQueue : EduMap Nat := ∅
  idleQueue : EduMap Nat := ∅
  tidEduidMap : EduMap Nat := ∅
  eduID : Nat := 1
  mapSystemEDUs : EduMap Nat := ∅
  isQuiesced : Bool := false
  isDestroyed : Bool := false
  blocks : EduMap EduCB := ∅

/-
  What the system answers to the creation of an EDU: there is
  no memory for the block, the block is at `p` and there is no
  thread, or the block is at `p` and the thread runs.
-/
inductive NewEdu
| oom
| noThread (p : Nat)
| started (p : Nat)
deriving DecidableEq, Repr

/- The pointer of the block that was allocated. -/
def NewEdu.block : NewEdu → Option Nat
| .oom => none
| .noThread p => some p
| .started p => some p

def isPoolable (type : EduType) : Bool :=
  type = .agent

abbrev eduSystem : Nat := 1
abbrev eduUser : Nat := 2
abbrev eduAll : Nat := 3

namespace EduMgr

def size (m : EduMgr) : UInt32 :=
  UInt32.ofNat m.runQueue.size +
    UInt32.ofNat m.idleQueue.size

def isSystemEDU
    (m : EduMgr)
    (eduID : Nat) : Bool :=
  m.mapSystemEDUs.toList.any (fun e => e.2 = eduID)

/- The block behind a pointer. -/
def cb
    (m : EduMgr)
    (p : Nat) : Except Fault EduCB :=
  match m.blocks[p]? with
  | none => .error .stray
  | some c => .ok c

/- Change the block behind a pointer. -/
def write
    (m : EduMgr)
    (p : Nat)
    (f : EduCB → EduCB) : Except Fault EduMgr :=
  match m.blocks[p]? with
  | none => .error .stray
  | some c => .ok { m with blocks := m.blocks.insert p (f c) }

/- The entry of an id, in the run queue or else idle. -/
def find
    (m : EduMgr)
    (eduID : Nat) : Option Nat :=
  match m.runQueue[eduID]? with
  | none => m.idleQueue[eduID]?
  | some p => some p

------------------------------------------------------------
-- Start
------------------------------------------------------------

def resumeEvent (arg : Nat) : EduEvent :=
  ⟨.resume, false, arg⟩

/- The new block gets the next id and enters the run queue. -/
def addEDU
    (m : EduMgr)
    (type : EduType)
    (p : Nat) : EduMgr :=
  { m with
    runQueue := m.runQueue.insert m.eduID p
    eduID := (m.eduID + 1) % eduidRange
    blocks := m.blocks.insert p (EduCB.created type m.eduID) }

/- The thread was not created: `id` and its block go again. -/
def dropEDU
    (m : EduMgr)
    (id p : Nat) : EduMgr :=
  { m with
    runQueue := m.runQueue.erase id
    blocks := m.blocks.erase p }

/-
  The result code, what is written to `eduid`, and the
  manager.  When there is no thread the call returns with the
  latch still held, so that no later call gets it; here later
  calls go on as if it were free.
-/
def createNewEDU
    (m : EduMgr)
    (type : EduType)
    (arg : Nat)
    (new : NewEdu) : Except Fault (Int × Option Nat × EduMgr) :=
  if m.isQuiesced then .ok (edbQuiesced, none, m)
  else
    match new with
    | .oom => .ok (edbOom, none, m)
    | .noThread p =>
        .ok (edbSys, some m.eduID,
          (m.addEDU type p).dropEDU m.eduID p)
    | .started p => do
        let m' ← (m.addEDU type p).write p
          (·.postEvent (resumeEvent arg))
        .ok (edbOk, some m.eduID, m')

/- Take the entry of `eduID` from the idle to the run queue. -/
def takeIdle
    (m : EduMgr)
    (eduID p : Nat) : EduMgr :=
  { m with
    idleQueue := m.idleQueue.erase eduID
    runQueue := m.runQueue.insert eduID p }

/-
  The block of an idle EDU gets its new type and status as
  its entry moves to the run queue.
-/
def reuseEDU
    (m : EduMgr)
    (type : EduType)
    (eduID p : Nat) : Except Fault EduMgr :=
  (m.takeIdle eduID p).write p
    (fun c => (c.setType type).setStatus .waitting)

/- The first entry of the idle queue, with the smallest id. -/
def firstIdle (m : EduMgr) : Option (Nat × Nat) :=
  m.idleQueue.toList.head?

def startEDU
    (m : EduMgr)
    (type : EduType)
    (arg : Nat)
    (new : NewEdu) : Except Fault (Int × Option Nat × EduMgr) :=
  if m.isQuiesced then .ok (edbQuiesced, none, m)
  else if m.idleQueue.isEmpty ∨ ¬ isPoolable type then
    m.createNewEDU type arg new
  else
    match m.firstIdle with
    | none => .error .stray
    | some (eduID, p) => do
        let m' ← m.reuseEDU type eduID p
        let m'' ← m'.write p (·.postEvent (resumeEvent arg))
        .ok (edbOk, some eduID, m'')

------------------------------------------------------------
-- Status
------------------------------------------------------------

/- From the idle queue to the run queue, with its status. -/
def activateEDU
    (m : EduMgr)
    (eduID : Nat) : Except Fault (Int × EduMgr) :=
  match m.idleQueue[eduID]? with
  | none =>
      match m.runQueue[eduID]? with
      | none => .ok (edbSys, m)
      | some p => do
          let m' ← m.write p (·.setStatus .running)
          .ok (edbOk, m')
  | some p => do
      let m' ← (m.takeIdle eduID p).write p
        (·.setStatus .running)
      .ok (edbOk, m')

/- From running to waiting. -/
def waitEDU
    (m : EduMgr)
    (id : Nat) : Except Fault (Int × EduMgr) :=
  match m.runQueue[id]? with
  | none => .ok (edbSys, m)
  | some p => do
      let c ← m.cb p
      if c.status = .waitting then .ok (edbOk, m)
      else if c.status ≠ .running then
        .ok (edbEduInvalStatus, m)
      else
        let m' ← m.write p (·.setStatus .waitting)
        .ok (edbOk, m')

------------------------------------------------------------
-- Return
------------------------------------------------------------

/- Remove the first thread entry that has the id. -/
def dropTid
    (m : EduMgr)
    (eduID : Nat) : EduMap Nat :=
  match m.tidEduidMap.toList.find? (fun e => e.2 = eduID) with
  | none => m.tidEduidMap
  | some e => m.tidEduidMap.erase e.1

/- Remove the EDU from its queue and free its block. -/
def destoryEDU
    (m : EduMgr)
    (eduID : Nat) : Except Fault (Int × EduMgr) :=
  match m.runQueue[eduID]? with
  | none =>
      match m.idleQueue[eduID]? with
      | none => .ok (edbSys, m)
      | some p => do
          let m' ← m.write p (·.setStatus .destroy)
          .ok (edbOk, { m' with
            idleQueue := m'.idleQueue.erase eduID
            tidEduidMap := m'.dropTid eduID
            blocks := m'.blocks.erase p })
  | some p => do
      let m' ← m.write p (·.setStatus .destroy)
      .ok (edbOk, { m' with
        runQueue := m'.runQueue.erase eduID
        tidEduidMap := m'.dropTid eduID
        blocks := m'.blocks.erase p })

/- Return the EDU to the pool. -/
def deactiveEDU
    (m : EduMgr)
    (eduID : Nat) : Except Fault (Int × EduMgr) :=
  match m.runQueue[eduID]? with
  | none =>
      match m.idleQueue[eduID]? with
      | none => .ok (edbSys, m)
      | some p => do
          let m' ← m.write p (·.setStatus .waitting)
          .ok (edbOk, m')
  | some p => do
      let m' ← m.write p (·.setStatus .waitting)
      .ok (edbOk, { m' with
        runQueue := m'.runQueue.erase eduID
        idleQueue := m'.idleQueue.insert eduID p })

/- Whether `returnEDU` destroys an EDU of this type. -/
def destroys
    (m : EduMgr)
    (maxPool : UInt32)
    (type : EduType)
    (force : Bool) : Bool :=
  !isPoolable type || force || m.isDestroyed ||
    decide (m.size < maxPool)

/-
  What the branches for destroying and for pooling an EDU,
  each in the same way, leave behind a pointer that is not
  null.
-/
def reportDestroyed
    (destroyed : Option Bool)
    (rc : Int) : Option Bool :=
  destroyed.map (fun _ => decide (rc = edbOk ∨ rc = edbSys))

/-
  Put the EDU to the pool or destroy it.  `destroyed` is what
  the pointer of that name points to, `none` for a null
  pointer; the result has the code, what it points to after
  the call, and the manager.
-/
def returnEDU
    (m : EduMgr)
    (maxPool : UInt32)
    (eduID : Nat)
    (force : Bool)
    (destroyed : Option Bool) :
    Except Fault (Int × Option Bool × EduMgr) :=
  match m.find eduID with
  | none =>
      match destroyed with
      | none => .error .stray
      | some _ => .ok (edbSys, some false, m)
  | some p => do
      let c ← m.cb p
      if m.destroys maxPool c.type force then
        let (rc, m') ← m.destoryEDU eduID
        .ok (rc, reportDestroyed destroyed rc, m')
      else
        let (rc, m') ← m.deactiveEDU eduID
        .ok (rc, reportDestroyed destroyed rc, m')

------------------------------------------------------------
-- Events
------------------------------------------------------------

def postEDUPost
    (m : EduMgr)
    (eduID : Nat)
    (type : EduEventType)
    (release : Bool)
    (data : Nat) : Except Fault (Int × EduMgr) :=
  match m.find eduID with
  | none => .ok (edbSys, m)
  | some p => do
      let m' ← m.write p (·.postEvent ⟨type, release, data⟩)
      .ok (edbOk, m')

/- Whether an id has the property that is asked for. -/
def hasProperty
    (m : EduMgr)
    (property eduID : Nat) : Bool :=
  (eduSystem &&& property ≠ 0 && m.isSystemEDU eduID) ||
    (eduUser &&& property ≠ 0 && !m.isSystemEDU eduID)

/- Force the EDU of one entry if it has the property. -/
def forceEDU
    (property : Nat)
    (m : EduMgr)
    (entry : Nat × Nat) : Except Fault EduMgr :=
  if m.hasProperty property entry.1 then
    m.write entry.2 EduCB.force
  else .ok m

def forceEDUs
    (m : EduMgr)
    (property : Nat) : Except Fault (Int × EduMgr) := do
  let m₁ ← m.runQueue.toList.foldlM (forceEDU property) m
  let m₂ ← m₁.idleQueue.toList.foldlM (forceEDU property) m₁
  .ok (edbOk, m₂)

/- The first two statements of `_destroyAll`. -/
def setDestroyed (m : EduMgr) : EduMgr :=
  { m with isDestroyed := true, isQuiesced := true }

end EduMgr

end EmeraldDb
