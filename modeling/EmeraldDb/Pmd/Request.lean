import EmeraldDb.Bson.Document
import EmeraldDb.Msg.RoundTrip
import EmeraldDb.Pmd.Agent
import EmeraldDb.Pmd.Insert
import EmeraldDb.Rtn.Calls
import EmeraldDb.Rtn.Ends

/-
  The requests of an agent and their replies.

  A request names a command by its operation code.  The
  command reads its object behind the header, prints it and
  calls the record store; what it returns goes into a reply.
  Only the insertion catches what the library throws.  The
  other commands let it through, and then there is no reply.
  Nor is there one where an object reaches out of the receive
  buffer, or where a record to insert has no room for a field
  and an assertion of its iterator fails.

  Key definitions include:
    * `pmdDeleteCommand`
    * `pmdQueryCommand`
    * `pmdProcessAgentRequest`
    * `InBuffer`
    * `Replied`
    * `Answerable`

  Key results include:
    * `runCommand_returns_iff`
    * `request_replied_iff`
    * `answerable_of_agrees`
-/

namespace EmeraldDb

abbrev opSnapshot : Int := 8

------------------------------------------------------------
-- Commands
------------------------------------------------------------

/- Handle a delete request; what is thrown is not caught. -/
def pmdDeleteCommand
    (h : List UInt8 → Nat)
    (prints : BSONObj → Bool)
    (rtnMgr : Rtn)
    (pReceiveBuffer : Memory) : Except Fault (Int × Rtn) := do
  let (_, key) ← msgExtractDelete pReceiveBuffer
  match key with
  | none => return (edbInvalidArg, rtnMgr)
  | some recordID =>
      if ¬ prints recordID then .error .assertion
      else rtnMgr.rtnRemove h recordID

/-
  Handle a query request.  The object that is found, or an
  empty one, is written to `obj`, unless that is null.
-/
def pmdQueryCommand
    (h : List UInt8 → Nat)
    (prints : BSONObj → Bool)
    (rtnMgr : Rtn)
    (pReceiveBuffer : Memory) :
    Option BSONObj → Except Fault (Int × Option BSONObj)
| none => .ok (edbSys, none)
| some obj => do
    let (_, key) ← msgExtractQuery pReceiveBuffer
    match key with
    | none => return (edbInvalidArg, some obj)
    | some recordID =>
        if ¬ prints recordID then .error .assertion
        else
          let (rc, findObj) ← rtnMgr.rtnFind h recordID
          return (rc, some (findObj.getD .empty))

inductive PmdCommandFunc
| pmdInsertCommand
| pmdDeleteCommand
| pmdQueryCommand
deriving DecidableEq

/- The commands by their operation codes. -/
def commandMap : List (Int × PmdCommandFunc) :=
  [(opInsert, .pmdInsertCommand),
    (opDelete, .pmdDeleteCommand),
    (opQuery, .pmdQueryCommand)]

def getCommand (opCode : Int) : Option PmdCommandFunc :=
  commandMap.lookup opCode

/- Size of the message of a command without its object. -/
def PmdCommandFunc.size : PmdCommandFunc → Nat
| .pmdInsertCommand => sizeofMsgInsert
| .pmdDeleteCommand => sizeofMsgDelete
| .pmdQueryCommand => sizeofMsgQuery

/-
  What a command leaves: its code, the object for the reply
  and the store, unless that is unknown.
-/
structure Handled where
  rc : Int
  retObj : BSONObj
  rtnMgr : Option Rtn

/-
  Everything that a request is handled with: the hash and the
  printing of the library, the outcomes of the file's
  extensions, and the store.
-/
structure EdbKrcb where
  h : List UInt8 → Nat
  prints : BSONObj → Bool
  exts : List DmsFile.Extension
  rtnMgr : Rtn

/- Call a command with the object `obj` for its reply. -/
def PmdCommandFunc.call
    (s : EdbKrcb)
    (pReceiveBuffer : Memory)
    (obj : BSONObj) :
    PmdCommandFunc → Except Fault Handled
| .pmdInsertCommand => do
    let (rc, t) ← EmeraldDb.pmdInsertCommand s.h s.prints
      s.exts s.rtnMgr pReceiveBuffer
    return ⟨rc, obj, t⟩
| .pmdDeleteCommand => do
    let (rc, t) ← EmeraldDb.pmdDeleteCommand s.h s.prints
      s.rtnMgr pReceiveBuffer
    return ⟨rc, obj, some t⟩
| .pmdQueryCommand => do
    let (rc, retObj) ← EmeraldDb.pmdQueryCommand s.h s.prints
      s.rtnMgr pReceiveBuffer (some obj)
    return ⟨rc, retObj.getD obj, some s.rtnMgr⟩

/- The command of a request, or the error that it has none. -/
def runCommand
    (s : EdbKrcb)
    (pRecvBuffer : Memory) : Except Fault Handled :=
  match getCommand (msgOpCode pRecvBuffer) with
  | none => .ok ⟨edbInvalidArg, .empty, some s.rtnMgr⟩
  | some commandFunc =>
      commandFunc.call s pRecvBuffer .empty

------------------------------------------------------------
-- Replies
------------------------------------------------------------

/- The reply to this request has an object. -/
def RepliesObject (pRecvBuffer : Memory) : Prop :=
  msgOpCode pRecvBuffer = opSnapshot ∨
    msgOpCode pRecvBuffer = opQuery

instance (pRecvBuffer : Memory) :
    Decidable (RepliesObject pRecvBuffer) :=
  inferInstanceAs (Decidable (_ ∨ _))

/- The object that is handed to the builder of the reply. -/
def Handled.objReturn
    (r : Handled)
    (pRecvBuffer : Memory) : Option BSONObj :=
  if RepliesObject pRecvBuffer then some r.retObj else none

/- Handle a request and build its reply. -/
def pmdProcessAgentRequest
    (s : EdbKrcb)
    (realloc : Option Memory)
    (pRecvBuffer : Memory)
    (result : MsgBuffer)
    (disconnect : Bool) :
    Except Fault (Int × MsgBuffer × Option Rtn) := do
  let r ← runCommand s pRecvBuffer
  if disconnect then return (r.rc, result, r.rtnMgr)
  else
    let (rc, result) := msgBuildReply realloc result r.rc
      (r.objReturn pRecvBuffer)
    return (rc, result, r.rtnMgr)

------------------------------------------------------------
-- When Requests Are Answered
------------------------------------------------------------

/- The library accepts the object and prints it. -/
def Printed
    (prints : BSONObj → Bool)
    (o : BSONObj) : Prop :=
  o.isValid = true ∧ prints o = true

instance
    (prints : BSONObj → Bool)
    (o : BSONObj) :
    Decidable (Printed prints o) :=
  inferInstanceAs (Decidable (_ ∧ _))

/- The command of the request gets the address of an object. -/
def ReadsPayload
    (pRecvBuffer : Memory)
    (c : PmdCommandFunc) : Prop :=
  getCommand (msgOpCode pRecvBuffer) = some c ∧
    ¬ msgLen pRecvBuffer < c.size ∧
    ¬ (c = .pmdInsertCommand ∧ pRecvBuffer.int 8 = 0)

instance
    (pRecvBuffer : Memory)
    (c : PmdCommandFunc) :
    Decidable (ReadsPayload pRecvBuffer c) :=
  inferInstanceAs (Decidable (_ ∧ _))

/- The object that the command of the request gets. -/
def payload (pRecvBuffer : Memory) : Option BSONObj :=
  match getCommand (msgOpCode pRecvBuffer) with
  | none => none
  | some c =>
      if ReadsPayload pRecvBuffer c then
        some ⟨pRecvBuffer, c.size⟩
      else none

/- The receive buffer of an agent, with its size. -/
structure RecvBuffer where
  mem : Memory
  size : Nat
  large : pmdAgentRecvBufferSz ≤ size

/-
  How far an object is read: up to where its printing comes
  (`reads`), and to its end if it is printed.
-/
def readLength
    (prints : BSONObj → Bool)
    (reads : BSONObj → Nat)
    (o : BSONObj) : Nat :=
  if prints o then max o.length (reads o) else reads o

/-
  What is read of the request's object is in the buffer; of
  one with a length out of range no more than that is read.
-/
def InBuffer
    (prints : BSONObj → Bool)
    (reads : BSONObj → Nat)
    (b : RecvBuffer) : Prop :=
  ∀ o ∈ payload b.mem, o.isValid = true →
    o.objdata + readLength prints reads o ≤ b.size

instance
    (prints : BSONObj → Bool)
    (reads : BSONObj → Nat)
    (b : RecvBuffer) :
    Decidable (InBuffer prints reads b) :=
  inferInstanceAs (Decidable (∀ o ∈ payload b.mem, _))

/- Handle a request in a receive buffer that has an end. -/
def pmdProcessBuffer
    (s : EdbKrcb)
    (reads : BSONObj → Nat)
    (realloc : Option Memory)
    (b : RecvBuffer)
    (result : MsgBuffer)
    (disconnect : Bool) :
    Except Fault (Int × MsgBuffer × Option Rtn) :=
  if InBuffer s.prints reads b then
    pmdProcessAgentRequest s realloc b.mem result disconnect
  else .error .stray

/- The code is of no command, or the object is refused. -/
def Malformed
    (prints : BSONObj → Bool)
    (pRecvBuffer : Memory) : Prop :=
  ∀ commandFunc,
    getCommand (msgOpCode pRecvBuffer) = some commandFunc →
    msgLen pRecvBuffer < commandFunc.size ∨
      ¬ Printed prints ⟨pRecvBuffer, commandFunc.size⟩

/-
  One reply has been built: all its bytes are counted and in
  the buffer, it has the code of the command, which is an
  error for a request that is malformed, and it has an object
  for a query and for a snapshot only.
-/
def Replied
    (s : EdbKrcb)
    (reads : BSONObj → Nat)
    (realloc : Option Memory)
    (b : RecvBuffer)
    (pResultBuffer : Memory) : Prop :=
  ∃ r reply, runCommand s b.mem = .ok r ∧
    pmdProcessBuffer s reads realloc b
        ⟨pResultBuffer, sizeofMsgReply⟩ false =
      .ok (edbOk, reply, r.rtnMgr) ∧
    HoldsBytes reply.mem opReply
      [r.rc, if RepliesObject b.mem then 1 else 0]
      (r.objReturn b.mem) ∧
    msgLen reply.mem ≤ reply.size ∧
    (Malformed s.prints b.mem → r.rc < 0)

/-
  The record that an insert request has for the store: it is
  printed and its first element is its `_id`.
-/
def Insertor
    (prints : BSONObj → Bool)
    (o : BSONObj) : Prop :=
  Printed prints o ∧ 5 ≤ o.objsize ∧
    BSONElement.hasName ⟨o.mem, o.objdata + 4⟩ gKeyFieldName =
      true

instance
    (prints : BSONObj → Bool)
    (o : BSONObj) :
    Decidable (Insertor prints o) :=
  inferInstanceAs (Decidable (_ ∧ _))

/-
  An object to insert announces a record that, if the library
  prints it, has room for a field; the record that it then
  has for the store can be compared and placed.
-/
structure RecordSettled
    (s : EdbKrcb)
    (o : BSONObj) : Prop where
  room : Printed s.prints o → 5 ≤ o.objsize
  settles : Insertor s.prints o →
    s.rtnMgr.Settles s.h s.exts o

/-
  The library prints an object with a key, and the entries
  under the key can be compared with it.
-/
def KeySearched
    (s : EdbKrcb)
    (o : BSONObj) : Prop :=
  Printed s.prints o ∧
    IxmBucketManager.Searchable s.h s.rtnMgr.dmsFile.file
      s.rtnMgr.ixmBucketMgr o

/-
  The record that the first entry under the key leads to has
  a length word in range, if it is still there.
-/
def KeyReadable
    (s : EdbKrcb)
    (o : BSONObj) : Prop :=
  ∀ e k v page, IdElement o e k →
    FirstWithKey s.rtnMgr.dmsFile.file e
      (s.rtnMgr.ixmBucketMgr.range (s.h k.2)) v →
    s.rtnMgr.dmsFile.pageToOffset v.recordID.pageID =
      some page →
    s.rtnMgr.dmsFile.Readable page v.recordID

/-
  The command of the request comes to an end: an insert
  request has a record, and the store can take it or refuse
  it; a delete or a query request has an object that the
  library prints and whose key can be searched, and what a
  query finds can be read.
-/
structure Settled
    (s : EdbKrcb)
    (pRecvBuffer : Memory) : Prop where
  insert : msgOpCode pRecvBuffer = opInsert →
    sizeofMsgInsert ≤ msgLen pRecvBuffer →
    pRecvBuffer.int 8 ≠ 0 ∧
      RecordSettled s ⟨pRecvBuffer, sizeofMsgInsert⟩
  delete : msgOpCode pRecvBuffer = opDelete →
    sizeofMsgDelete ≤ msgLen pRecvBuffer →
    KeySearched s ⟨pRecvBuffer, sizeofMsgDelete⟩
  query : msgOpCode pRecvBuffer = opQuery →
    sizeofMsgQuery ≤ msgLen pRecvBuffer →
    KeySearched s ⟨pRecvBuffer, sizeofMsgQuery⟩ ∧
      KeyReadable s ⟨pRecvBuffer, sizeofMsgQuery⟩

/- The object is in the buffer, and the command ends. -/
structure Answerable
    (s : EdbKrcb)
    (reads : BSONObj → Nat)
    (b : RecvBuffer) : Prop where
  inBuffer : InBuffer s.prints reads b
  settled : Settled s b.mem

/-
  The library prints an object by reading its length word and
  its bytes, element by element, and throws when an element
  is not within the object.
-/
structure ReadsObject (prints : BSONObj → Bool) : Prop where
  congr : ∀ o o' : BSONObj, o.isValid = true →
    Memory.Same o.mem o.objdata o'.mem o'.objdata
      (max 4 o.length) →
    prints o' = prints o
  walk : ∀ o : BSONObj, o.isValid = true →
    prints o = true → o.Walkable

------------------------------------------------------------
-- The Insert Command
------------------------------------------------------------

/- What the handler for exceptions makes of an insertion. -/
def catchInsert :
    Except Fault (Int × Rtn) → Except Fault (Int × Option Rtn)
| .error .assertion => .ok (edbInvalidArg, none)
| .error fault => .error fault
| .ok (rc, t) => .ok (rc, some t)

theorem catchInsert_returns_iff
    {x : Except Fault (Int × Rtn)} :
    Returns (catchInsert x) ↔ Caught .assertion x := by
  cases x with
  | error fault => cases fault <;> simp [catchInsert]
  | ok r => simp [catchInsert]

theorem catchInsert_ok
    {x : Except Fault (Int × Rtn)}
    {t : Option Rtn}
    (hCall : catchInsert x = .ok (edbOk, t)) :
    ∃ u, x = .ok (edbOk, u) ∧ t = some u := by
  have hInvalid : edbInvalidArg ≠ edbOk := by decide
  unfold catchInsert at hCall
  split at hCall
  · exact absurd (Prod.mk.inj (Except.ok.inj hCall)).1
      hInvalid
  · cases hCall
  · rename_i rc u
    obtain ⟨rfl, rfl⟩ := Prod.mk.inj (Except.ok.inj hCall)
    exact ⟨u, rfl, rfl⟩

theorem msgCheckHeader_of_code
    {m : Memory}
    {size : Nat}
    {c : Int}
    (hCode : msgOpCode m = c) :
    msgCheckHeader m size (some c) =
      if msgLen m < size then edbInvalidArg else edbOk := by
  unfold msgCheckHeader
  simp only [hCode, ne_eq, not_true_eq_false, if_false]

/- A call that is made for messages of some size only. -/
theorem returns_iff_of_size
    {α : Type}
    {m : Memory}
    {size : Nat}
    {x : Except Fault α}
    {P : Prop}
    (hShort : msgLen m < size → Returns x)
    (hLong : ¬ msgLen m < size → (Returns x ↔ P)) :
    Returns x ↔ (size ≤ msgLen m → P) := by
  by_cases hSize : msgLen m < size
  · constructor
    · intro _ hLe
      omega
    · intro _
      exact hShort hSize
  · rw [hLong hSize]
    constructor
    · intro hP _
      exact hP
    · intro hAll
      exact hAll (not_lt.mp hSize)

section Insert

variable {h : List UInt8 → Nat} {prints : BSONObj → Bool}
variable {exts : List DmsFile.Extension} {s : Rtn}
variable {m : Memory}

theorem pmdInsertCommand_short
    (hCode : msgOpCode m = opInsert)
    (hShort : msgLen m < sizeofMsgInsert) :
    pmdInsertCommand h prints exts s m =
      .ok (edbInvalidArg, some s) := by
  have hExtract : msgExtractInsert m =
      (edbInvalidArg, none) := by
    unfold msgExtractInsert
    simp only [msgCheckHeader_of_code hCode, if_pos hShort]
    rfl
  unfold pmdInsertCommand
  rw [hExtract]

theorem msgExtractInsert_long
    (hCode : msgOpCode m = opInsert)
    (hLong : ¬ msgLen m < sizeofMsgInsert) :
    msgExtractInsert m = (edbOk, some (m.int 8,
      objStart (m.int 8) sizeofMsgInsert)) := by
  unfold msgExtractInsert
  simp only [msgCheckHeader_of_code hCode, if_neg hLong]
  rfl

/- A request that announces no record reads a null pointer. -/
theorem pmdInsertCommand_none
    (hCode : msgOpCode m = opInsert)
    (hLong : ¬ msgLen m < sizeofMsgInsert)
    (hNone : m.int 8 = 0) :
    pmdInsertCommand h prints exts s m =
      .error .nullObject := by
  unfold pmdInsertCommand
  rw [msgExtractInsert_long hCode hLong, hNone]
  rfl

/-
  What is behind the number of records is refused, with a
  code of its own if it lacks only the `_id`, or fails the
  assertion, or goes to the store.
-/
theorem pmdInsertCommand_some
    (hCode : msgOpCode m = opInsert)
    (hLong : ¬ msgLen m < sizeofMsgInsert)
    (hSome : m.int 8 ≠ 0) :
    (Insertor prints ⟨m, sizeofMsgInsert⟩ →
      pmdInsertCommand h prints exts s m =
        catchInsert
          (s.rtnInsert h exts ⟨m, sizeofMsgInsert⟩)) ∧
    (¬ Insertor prints ⟨m, sizeofMsgInsert⟩ →
      pmdInsertCommand h prints exts s m =
        if ¬ Printed prints ⟨m, sizeofMsgInsert⟩ then
          .ok (edbInvalidArg, some s)
        else if 5 ≤ BSONObj.objsize ⟨m, sizeofMsgInsert⟩ then
          .ok (edbNoId, some s)
        else .error .aborted) := by
  have hStart : objStart (m.int 8) sizeofMsgInsert =
      some sizeofMsgInsert := if_neg hSome
  unfold pmdInsertCommand Insertor Printed
  rw [msgExtractInsert_long hCode hLong, hStart]
  simp only [objectAt]
  by_cases hValid :
      BSONObj.isValid ⟨m, sizeofMsgInsert⟩ = true
  · rw [BSONObj.ofData_of_isValid hValid]
    simp only
    by_cases hPrints : prints ⟨m, sizeofMsgInsert⟩ = true
    · by_cases hFive :
          5 ≤ BSONObj.objsize ⟨m, sizeofMsgInsert⟩
      · have hFirst : firstElement ⟨m, sizeofMsgInsert⟩ =
            .ok ⟨m, sizeofMsgInsert + 4⟩ :=
          if_pos (by omega)
        rw [hFirst]
        simp only [hValid, hPrints, hFive, and_self, true_and,
          not_true_eq_false, if_false, if_true]
        constructor
        · intro hName
          simp only [hName, not_true_eq_false, if_false]
          cases s.rtnInsert h exts ⟨m, sizeofMsgInsert⟩ with
          | error fault => cases fault <;> rfl
          | ok r => rfl
        · intro hName
          exact if_pos hName
      · have hFirst : firstElement ⟨m, sizeofMsgInsert⟩ =
            .error .aborted :=
          if_neg (by omega)
        rw [hFirst]
        simp [hValid, hPrints, hFive]
    · simp [hPrints]
  · have hThrows : BSONObj.ofData m sizeofMsgInsert =
        .error .assertion := by
      unfold BSONObj.ofData
      simp only [hValid]
      rfl
    rw [hThrows]
    simp [hValid]

/- When an insert request returns. -/
theorem pmdInsertCommand_returns_iff
    (hCode : msgOpCode m = opInsert) :
    Returns (pmdInsertCommand h prints exts s m) ↔
      (sizeofMsgInsert ≤ msgLen m →
        m.int 8 ≠ 0 ∧
          (Printed prints ⟨m, sizeofMsgInsert⟩ →
            5 ≤ BSONObj.objsize ⟨m, sizeofMsgInsert⟩) ∧
          (Insertor prints ⟨m, sizeofMsgInsert⟩ →
            s.InsertEnds h exts ⟨m, sizeofMsgInsert⟩)) := by
  apply returns_iff_of_size
  · intro hShort
    rw [pmdInsertCommand_short hCode hShort]
    exact returns_ok _
  · intro hLong
    by_cases hNone : m.int 8 = 0
    · rw [pmdInsertCommand_none hCode hLong hNone]
      simp [hNone]
    · rcases @pmdInsertCommand_some h prints exts s m hCode
        hLong hNone with ⟨hAccepted, hRefused⟩
      by_cases hRecord : Insertor prints ⟨m, sizeofMsgInsert⟩
      · rw [hAccepted hRecord, catchInsert_returns_iff,
          Rtn.rtnInsert_caught_iff]
        simp [hNone, hRecord, hRecord.2.1]
      · rw [hRefused hRecord]
        by_cases hPrinted :
            Printed prints ⟨m, sizeofMsgInsert⟩
        · by_cases hFive :
              5 ≤ BSONObj.objsize ⟨m, sizeofMsgInsert⟩
          · simp [hNone, hRecord, hPrinted, hFive]
          · simp [hNone, hPrinted, hFive]
        · simp [hNone, hRecord, hPrinted]

end Insert

------------------------------------------------------------
-- The Commands for a Key
------------------------------------------------------------

section Key

variable {c : Int} {size : Nat} {m : Memory}

theorem msgExtractKey_short
    (hCode : msgOpCode m = c)
    (hShort : msgLen m < size) :
    msgExtractKey c size m = .ok (edbInvalidArg, none) := by
  unfold msgExtractKey
  simp only [msgCheckHeader_of_code hCode, if_pos hShort]
  rfl

/- The length of the object is not compared with the request's. -/
theorem msgExtractKey_long
    (hCode : msgOpCode m = c)
    (hLong : ¬ msgLen m < size) :
    msgExtractKey c size m =
      if BSONObj.isValid ⟨m, size⟩ then
        .ok (edbOk, some ⟨m, size⟩)
      else .error .assertion := by
  unfold msgExtractKey BSONObj.ofData
  simp only [msgCheckHeader_of_code hCode, if_neg hLong]
  rw [if_neg (by decide)]
  split
  · rfl
  · rfl

end Key

section Delete

variable {h : List UInt8 → Nat} {prints : BSONObj → Bool}
variable {s : Rtn} {m : Memory}

theorem pmdDeleteCommand_short
    (hCode : msgOpCode m = opDelete)
    (hShort : msgLen m < sizeofMsgDelete) :
    pmdDeleteCommand h prints s m =
      .ok (edbInvalidArg, s) := by
  unfold pmdDeleteCommand msgExtractDelete
  rw [msgExtractKey_short hCode hShort]
  rfl

/- An object that the library refuses ends the command. -/
theorem pmdDeleteCommand_long
    (hCode : msgOpCode m = opDelete)
    (hLong : ¬ msgLen m < sizeofMsgDelete) :
    pmdDeleteCommand h prints s m =
      if Printed prints ⟨m, sizeofMsgDelete⟩ then
        s.rtnRemove h ⟨m, sizeofMsgDelete⟩
      else .error .assertion := by
  unfold pmdDeleteCommand msgExtractDelete
  rw [msgExtractKey_long hCode hLong]
  by_cases hValid :
      BSONObj.isValid ⟨m, sizeofMsgDelete⟩ = true
  · rw [if_pos hValid]
    by_cases hPrints : prints ⟨m, sizeofMsgDelete⟩ = true
    · have hPrinted : Printed prints ⟨m, sizeofMsgDelete⟩ :=
        ⟨hValid, hPrints⟩
      rw [if_pos hPrinted]
      exact if_neg (not_not.mpr hPrints)
    · rw [if_neg (fun hBoth : Printed _ _ => hPrints hBoth.2)]
      exact if_pos hPrints
  · rw [if_neg hValid,
      if_neg (fun hBoth : Printed _ _ => hValid hBoth.1)]
    rfl

theorem pmdQueryCommand_short
    (hCode : msgOpCode m = opQuery)
    (hShort : msgLen m < sizeofMsgQuery)
    (obj : BSONObj) :
    pmdQueryCommand h prints s m (some obj) =
      .ok (edbInvalidArg, some obj) := by
  unfold pmdQueryCommand msgExtractQuery
  simp only [msgExtractKey_short hCode hShort]
  rfl

theorem pmdQueryCommand_long
    (hCode : msgOpCode m = opQuery)
    (hLong : ¬ msgLen m < sizeofMsgQuery)
    (obj : BSONObj) :
    pmdQueryCommand h prints s m (some obj) =
      if Printed prints ⟨m, sizeofMsgQuery⟩ then
        (s.rtnFind h ⟨m, sizeofMsgQuery⟩).map
          (fun r => (r.1, some (r.2.getD .empty)))
      else .error .assertion := by
  unfold pmdQueryCommand msgExtractQuery
  simp only [msgExtractKey_long hCode hLong]
  by_cases hValid :
      BSONObj.isValid ⟨m, sizeofMsgQuery⟩ = true
  · rw [if_pos hValid]
    by_cases hPrints : prints ⟨m, sizeofMsgQuery⟩ = true
    · have hPrinted : Printed prints ⟨m, sizeofMsgQuery⟩ :=
        ⟨hValid, hPrints⟩
      rw [if_pos hPrinted]
      simp only [bind, Except.bind, hPrints,
        not_true_eq_false, if_false]
      cases s.rtnFind h ⟨m, sizeofMsgQuery⟩ with
      | error fault => rfl
      | ok r => rfl
    · rw [if_neg (fun hBoth : Printed _ _ => hPrints hBoth.2)]
      exact if_pos hPrints
  · rw [if_neg hValid,
      if_neg (fun hBoth : Printed _ _ => hValid hBoth.1)]
    rfl

/- When a delete request returns. -/
theorem pmdDeleteCommand_returns_iff
    (hCode : msgOpCode m = opDelete) :
    Returns (pmdDeleteCommand h prints s m) ↔
      (sizeofMsgDelete ≤ msgLen m →
        Printed prints ⟨m, sizeofMsgDelete⟩ ∧
          IxmBucketManager.Searches h s.dmsFile.file
            s.ixmBucketMgr ⟨m, sizeofMsgDelete⟩) := by
  apply returns_iff_of_size
  · intro hShort
    rw [pmdDeleteCommand_short hCode hShort]
    exact returns_ok _
  · intro hLong
    rw [pmdDeleteCommand_long hCode hLong, returns_ite,
      Rtn.rtnRemove_returns_iff]

/- When a query request returns. -/
theorem pmdQueryCommand_returns_iff
    (hCode : msgOpCode m = opQuery)
    (obj : BSONObj) :
    Returns (pmdQueryCommand h prints s m (some obj)) ↔
      (sizeofMsgQuery ≤ msgLen m →
        Printed prints ⟨m, sizeofMsgQuery⟩ ∧
          Returns (s.rtnFind h ⟨m, sizeofMsgQuery⟩)) := by
  apply returns_iff_of_size
  · intro hShort
    rw [pmdQueryCommand_short hCode hShort]
    exact returns_ok _
  · intro hLong
    rw [pmdQueryCommand_long hCode hLong, returns_ite,
      returns_map]

end Delete

------------------------------------------------------------
-- What a Command Does with Its Object
------------------------------------------------------------

namespace PmdCommandFunc

/-
  A command gets to the fields of an object that is printed
  and, where it is to be inserted, has room for them.
-/
def Shows
    (prints : BSONObj → Bool)
    (o : BSONObj)
    (c : PmdCommandFunc) : Prop :=
  Printed prints o ∧
    (c = .pmdInsertCommand → 5 ≤ o.objsize)

instance
    (prints : BSONObj → Bool)
    (o : BSONObj)
    (c : PmdCommandFunc) :
    Decidable (c.Shows prints o) :=
  inferInstanceAs (Decidable (_ ∧ _))

/-
  From there it goes on to the store, unless it is to insert
  an object whose first field is not the `_id`.
-/
def Accepts
    (prints : BSONObj → Bool)
    (o : BSONObj)
    (c : PmdCommandFunc) : Prop :=
  c.Shows prints o ∧
    (c = .pmdInsertCommand →
      BSONElement.hasName ⟨o.mem, o.objdata + 4⟩
        gKeyFieldName = true)

instance
    (prints : BSONObj → Bool)
    (o : BSONObj)
    (c : PmdCommandFunc) :
    Decidable (c.Accepts prints o) :=
  inferInstanceAs (Decidable (_ ∧ _))

/- The call of the store with an object. -/
def storeCall
    (s : EdbKrcb)
    (o : BSONObj) :
    PmdCommandFunc → Except Fault Handled
| .pmdInsertCommand =>
    (catchInsert (s.rtnMgr.rtnInsert s.h s.exts o)).map
      (fun r => ⟨r.1, .empty, r.2⟩)
| .pmdDeleteCommand =>
    (s.rtnMgr.rtnRemove s.h o).map
      (fun r => ⟨r.1, .empty, some r.2⟩)
| .pmdQueryCommand =>
    (s.rtnMgr.rtnFind s.h o).map
      (fun r => ⟨r.1, r.2.getD .empty, some s.rtnMgr⟩)

/-
  What becomes of an object that is not for the store.  An
  insertion is not ended by the exception, but by the
  assertion of the iterator.
-/
def refusal
    (s : EdbKrcb)
    (o : BSONObj)
    (c : PmdCommandFunc) : Except Fault Handled :=
  if c = .pmdInsertCommand then
    if ¬ Printed s.prints o then
      .ok ⟨edbInvalidArg, .empty, some s.rtnMgr⟩
    else if c.Shows s.prints o then
      .ok ⟨edbNoId, .empty, some s.rtnMgr⟩
    else .error .aborted
  else .error .assertion

/- A command from the point on where it has its object. -/
def onObject
    (s : EdbKrcb)
    (o : BSONObj)
    (c : PmdCommandFunc) : Except Fault Handled :=
  if c.Accepts s.prints o then c.storeCall s o
  else c.refusal s o

variable {prints : BSONObj → Bool} {o : BSONObj}
variable {c : PmdCommandFunc}

theorem shows_insert :
    pmdInsertCommand.Shows prints o ↔
      Printed prints o ∧ 5 ≤ o.objsize := by
  unfold Shows
  rw [forall_prop_of_true rfl]

theorem accepts_insert :
    pmdInsertCommand.Accepts prints o ↔
      Insertor prints o := by
  unfold Accepts Insertor
  rw [shows_insert, and_assoc, forall_prop_of_true rfl]

/- The other commands accept all that is printed. -/
theorem accepts_of_ne
    (hOther : c ≠ .pmdInsertCommand) :
    c.Accepts prints o ↔ Printed prints o := by
  unfold Accepts Shows
  simp [hOther]

end PmdCommandFunc

------------------------------------------------------------
-- What a Request Leaves
------------------------------------------------------------

section Run

variable {s : EdbKrcb} {m : Memory} {r : Handled}

/- An operation code is that of one command or of none. -/
theorem getCommand_cases (c : Int) :
    c = opInsert ∧ getCommand c = some .pmdInsertCommand ∨
      c = opDelete ∧ getCommand c = some .pmdDeleteCommand ∨
      c = opQuery ∧ getCommand c = some .pmdQueryCommand ∨
      (c ≠ opInsert ∧ c ≠ opDelete ∧ c ≠ opQuery) ∧
        getCommand c = none := by
  by_cases hInsert : c = opInsert
  · left
    exact ⟨hInsert, by rw [hInsert]; rfl⟩
  · by_cases hDelete : c = opDelete
    · right; left
      exact ⟨hDelete, by rw [hDelete]; rfl⟩
    · by_cases hQuery : c = opQuery
      · right; right; left
        exact ⟨hQuery, by rw [hQuery]; rfl⟩
      · right; right; right
        refine ⟨⟨hInsert, hDelete, hQuery⟩, ?_⟩
        unfold getCommand commandMap
        simp only [List.lookup_cons, List.lookup_nil,
          beq_eq_false_iff_ne.mpr hInsert,
          beq_eq_false_iff_ne.mpr hDelete,
          beq_eq_false_iff_ne.mpr hQuery]

theorem runCommand_none
    (hNone : getCommand (msgOpCode m) = none) :
    runCommand s m =
      .ok ⟨edbInvalidArg, .empty, some s.rtnMgr⟩ := by
  unfold runCommand
  rw [hNone]

theorem insert_call
    (hCode : msgOpCode m = opInsert) :
    PmdCommandFunc.pmdInsertCommand.call s m .empty =
      if msgLen m < sizeofMsgInsert then
        .ok ⟨edbInvalidArg, .empty, some s.rtnMgr⟩
      else if m.int 8 = 0 then .error .nullObject
      else PmdCommandFunc.pmdInsertCommand.onObject s
        ⟨m, sizeofMsgInsert⟩ := by
  simp only [PmdCommandFunc.call]
  by_cases hShort : msgLen m < sizeofMsgInsert
  · rw [if_pos hShort, pmdInsertCommand_short hCode hShort]
    rfl
  · rw [if_neg hShort]
    by_cases hNone : m.int 8 = 0
    · rw [if_pos hNone,
        pmdInsertCommand_none hCode hShort hNone]
      rfl
    · rw [if_neg hNone]
      rcases @pmdInsertCommand_some s.h s.prints s.exts
        s.rtnMgr m hCode hShort hNone with
        ⟨hAccepted, hRefused⟩
      rw [PmdCommandFunc.onObject]
      by_cases hRecord : Insertor s.prints ⟨m, sizeofMsgInsert⟩
      · rw [if_pos (PmdCommandFunc.accepts_insert.mpr hRecord),
          hAccepted hRecord]
        simp only [PmdCommandFunc.storeCall]
        cases catchInsert (s.rtnMgr.rtnInsert s.h s.exts
          ⟨m, sizeofMsgInsert⟩) with
        | error fault => rfl
        | ok r => rfl
      · rw [if_neg (fun hIs => hRecord
            (PmdCommandFunc.accepts_insert.mp hIs)),
          hRefused hRecord, PmdCommandFunc.refusal, if_pos rfl,
          if_congr PmdCommandFunc.shows_insert rfl rfl]
        by_cases hPrinted :
            Printed s.prints ⟨m, sizeofMsgInsert⟩
        · by_cases hFive :
              5 ≤ BSONObj.objsize ⟨m, sizeofMsgInsert⟩
          · simp only [hPrinted, hFive, not_true_eq_false,
              if_false, and_self, if_true]
            rfl
          · simp only [hPrinted, hFive, not_true_eq_false,
              if_false, and_false]
            rfl
        · simp only [hPrinted, not_false_eq_true, if_true]
          rfl

theorem delete_call
    (hCode : msgOpCode m = opDelete) :
    PmdCommandFunc.pmdDeleteCommand.call s m .empty =
      if msgLen m < sizeofMsgDelete then
        .ok ⟨edbInvalidArg, .empty, some s.rtnMgr⟩
      else PmdCommandFunc.pmdDeleteCommand.onObject s
        ⟨m, sizeofMsgDelete⟩ := by
  have hAccepts := @PmdCommandFunc.accepts_of_ne s.prints
    ⟨m, sizeofMsgDelete⟩ .pmdDeleteCommand (by decide)
  simp only [PmdCommandFunc.call]
  by_cases hShort : msgLen m < sizeofMsgDelete
  · rw [if_pos hShort, pmdDeleteCommand_short hCode hShort]
    rfl
  · rw [if_neg hShort, pmdDeleteCommand_long hCode hShort,
      PmdCommandFunc.onObject]
    by_cases hPrinted : Printed s.prints ⟨m, sizeofMsgDelete⟩
    · rw [if_pos hPrinted, if_pos (hAccepts.mpr hPrinted)]
      simp only [PmdCommandFunc.storeCall]
      cases s.rtnMgr.rtnRemove s.h ⟨m, sizeofMsgDelete⟩ with
      | error fault => rfl
      | ok r => rfl
    · rw [if_neg hPrinted,
        if_neg (fun hIs => hPrinted (hAccepts.mp hIs))]
      rfl

theorem query_call
    (hCode : msgOpCode m = opQuery) :
    PmdCommandFunc.pmdQueryCommand.call s m .empty =
      if msgLen m < sizeofMsgQuery then
        .ok ⟨edbInvalidArg, .empty, some s.rtnMgr⟩
      else PmdCommandFunc.pmdQueryCommand.onObject s
        ⟨m, sizeofMsgQuery⟩ := by
  have hAccepts := @PmdCommandFunc.accepts_of_ne s.prints
    ⟨m, sizeofMsgQuery⟩ .pmdQueryCommand (by decide)
  simp only [PmdCommandFunc.call]
  by_cases hShort : msgLen m < sizeofMsgQuery
  · rw [if_pos hShort, pmdQueryCommand_short hCode hShort]
    rfl
  · rw [if_neg hShort, pmdQueryCommand_long hCode hShort,
      PmdCommandFunc.onObject]
    by_cases hPrinted : Printed s.prints ⟨m, sizeofMsgQuery⟩
    · rw [if_pos hPrinted, if_pos (hAccepts.mpr hPrinted)]
      simp only [PmdCommandFunc.storeCall]
      cases s.rtnMgr.rtnFind s.h ⟨m, sizeofMsgQuery⟩ with
      | error fault => rfl
      | ok r => rfl
    · rw [if_neg hPrinted,
        if_neg (fun hIs => hPrinted (hAccepts.mp hIs))]
      rfl

/-
  A command refuses a request that is too short, reads a null
  pointer where no record is announced, and else goes on with
  the object behind the header.
-/
theorem runCommand_some
    {c : PmdCommandFunc}
    (hSome : getCommand (msgOpCode m) = some c) :
    runCommand s m =
      if msgLen m < c.size then
        .ok ⟨edbInvalidArg, .empty, some s.rtnMgr⟩
      else if c = .pmdInsertCommand ∧ m.int 8 = 0 then
        .error .nullObject
      else c.onObject s ⟨m, c.size⟩ := by
  unfold runCommand
  rw [hSome]
  rcases getCommand_cases (msgOpCode m) with
    ⟨hCode, hCommand⟩ | ⟨hCode, hCommand⟩ |
      ⟨hCode, hCommand⟩ | ⟨_, hCommand⟩
  · obtain rfl := Option.some.inj (hSome.symm.trans hCommand)
    simp only [insert_call hCode, true_and]
    rfl
  · obtain rfl := Option.some.inj (hSome.symm.trans hCommand)
    simp only [delete_call hCode, reduceCtorEq, false_and,
      if_false]
    rfl
  · obtain rfl := Option.some.inj (hSome.symm.trans hCommand)
    simp only [query_call hCode, reduceCtorEq, false_and,
      if_false]
    rfl
  · exact absurd (hSome.symm.trans hCommand) (by simp)

theorem storeCall_isValid
    {c : PmdCommandFunc}
    {o : BSONObj}
    (hRun : c.storeCall s o = .ok r) :
    r.retObj.isValid = true := by
  have hEmpty : BSONObj.isValid .empty = true := by decide
  cases c with
  | pmdInsertCommand =>
      rcases map_ok hRun with ⟨_, _, rfl⟩
      exact hEmpty
  | pmdDeleteCommand =>
      rcases map_ok hRun with ⟨_, _, rfl⟩
      exact hEmpty
  | pmdQueryCommand =>
      rcases map_ok hRun with ⟨⟨rc, _ | o⟩, hFind, rfl⟩
      · exact hEmpty
      · exact Rtn.rtnFind_isValid hFind

/- Where a refusal returns, it has an error code. -/
theorem refusal_ok
    {c : PmdCommandFunc}
    {o : BSONObj}
    (hRun : c.refusal s o = .ok r) :
    c = .pmdInsertCommand ∧ r.retObj = .empty ∧
      r.rc = if Printed s.prints o then edbNoId
        else edbInvalidArg := by
  unfold PmdCommandFunc.refusal at hRun
  split at hRun
  · rename_i hInsert
    split at hRun
    · rename_i hHidden
      obtain rfl := Except.ok.inj hRun
      exact ⟨hInsert, rfl, by rw [if_neg hHidden]⟩
    · rename_i hPrinted
      rw [not_not] at hPrinted
      split at hRun
      · obtain rfl := Except.ok.inj hRun
        exact ⟨hInsert, rfl, by rw [if_pos hPrinted]⟩
      · cases hRun
  · cases hRun

section Settled

variable {o : BSONObj} (hPrints : ReadsObject s.prints)
include hPrints

theorem walkable_of_printed
    (hPrinted : Printed s.prints o) :
    o.Walkable ∧ 0 < o.length := by
  have hValid := hPrinted.1
  refine ⟨hPrints.walk o hValid hPrinted.2, ?_⟩
  simp only [BSONObj.isValid, decide_eq_true_eq] at hValid
  unfold BSONObj.length
  omega

/- The search for a key is read off the index. -/
theorem keySearched_iff :
    KeySearched s o ↔ Printed s.prints o ∧
      IxmBucketManager.Searches s.h s.rtnMgr.dmsFile.file
        s.rtnMgr.ixmBucketMgr o := by
  unfold KeySearched
  apply and_congr_right
  intro hPrinted
  rcases walkable_of_printed hPrints hPrinted with
    ⟨hWalk, hPositive⟩
  exact (searches_iff hWalk hPositive).symm

/- What is found is the record of the first entry. -/
theorem keyReadable_iff
    (hSearched : KeySearched s o) :
    KeyReadable s o ↔ ∀ rc rid,
      IxmBucketManager.findIndex s.h s.rtnMgr.dmsFile.file
          s.rtnMgr.ixmBucketMgr o = .ok (rc, some rid) →
        Returns (s.rtnMgr.dmsFile.find rid) := by
  rcases walkable_of_printed hPrints hSearched.1 with
    ⟨hWalk, hPositive⟩
  have hFound := fun rid => findIndex_some_iff hWalk hPositive
    hSearched.2 rid
  constructor
  · intro hReads rc rid hCall
    rcases (hFound rid).mp ⟨rc, hCall⟩ with
      ⟨e, k, v, hId, hFirst, rfl⟩
    rw [DmsFile.find_returns_iff]
    intro page hOffset
    exact hReads e k v page hId hFirst hOffset
  · intro hReturns e k v page hId hFirst hOffset
    rcases (hFound v.recordID).mpr
      ⟨e, k, v, hId, hFirst, rfl⟩ with ⟨rc, hCall⟩
    exact DmsFile.find_returns_iff.mp
      (hReturns rc v.recordID hCall) page hOffset

/- The end of an insertion is read off the store. -/
theorem recordSettled_iff :
    RecordSettled s o ↔
      (Printed s.prints o → 5 ≤ o.objsize) ∧
        (Insertor s.prints o →
          s.rtnMgr.InsertEnds s.h s.exts o) := by
  have hEnds : Insertor s.prints o →
      (s.rtnMgr.InsertEnds s.h s.exts o ↔
        s.rtnMgr.Settles s.h s.exts o) := by
    intro hInsertor
    have hPrinted := hInsertor.1
    have hFive := hInsertor.2.1
    apply Rtn.insertEnds_iff
      (walkable_of_printed hPrints hPrinted).1 hPrinted.1
    unfold BSONObj.length
    omega
  constructor
  · intro hSettled
    exact ⟨hSettled.room, fun hInsertor =>
      (hEnds hInsertor).mpr (hSettled.settles hInsertor)⟩
  · rintro ⟨hRoom, hAll⟩
    exact ⟨hRoom, fun hInsertor =>
      (hEnds hInsertor).mp (hAll hInsertor)⟩

/- A command returns exactly when its request is settled. -/
theorem runCommand_returns_iff :
    Returns (runCommand s m) ↔ Settled s m := by
  unfold runCommand
  rcases getCommand_cases (msgOpCode m) with
    ⟨hCode, hCommand⟩ | ⟨hCode, hCommand⟩ |
      ⟨hCode, hCommand⟩ | ⟨⟨hInsert, hDelete, hQuery⟩, hCommand⟩
  · rw [hCommand]
    simp only [PmdCommandFunc.call]
    rw [returns_bind_pure, pmdInsertCommand_returns_iff hCode,
      ← recordSettled_iff hPrints]
    constructor
    · intro hEnds
      exact ⟨fun _ => hEnds,
        fun hOther => absurd (hCode.symm.trans hOther)
          (by decide),
        fun hOther => absurd (hCode.symm.trans hOther)
          (by decide)⟩
    · intro hSettled
      exact hSettled.insert hCode
  · rw [hCommand]
    simp only [PmdCommandFunc.call]
    rw [returns_bind_pure, pmdDeleteCommand_returns_iff hCode,
      ← keySearched_iff hPrints]
    constructor
    · intro hEnds
      exact ⟨fun hOther => absurd (hCode.symm.trans hOther)
          (by decide),
        fun _ => hEnds,
        fun hOther => absurd (hCode.symm.trans hOther)
          (by decide)⟩
    · intro hSettled
      exact hSettled.delete hCode
  · rw [hCommand]
    simp only [PmdCommandFunc.call]
    rw [returns_bind_pure, pmdQueryCommand_returns_iff hCode,
      Rtn.rtnFind_returns_iff]
    constructor
    · intro hEnds
      refine ⟨fun hOther => absurd (hCode.symm.trans hOther)
          (by decide),
        fun hOther => absurd (hCode.symm.trans hOther)
          (by decide), ?_⟩
      intro _ hLong
      rcases hEnds hLong with ⟨hPrinted, hSearches, hRead⟩
      have hSearched : KeySearched s ⟨m, sizeofMsgQuery⟩ :=
        (keySearched_iff hPrints).mpr ⟨hPrinted, hSearches⟩
      exact ⟨hSearched,
        (keyReadable_iff hPrints hSearched).mpr hRead⟩
    · intro hSettled hLong
      rcases hSettled.query hCode hLong with
        ⟨hSearched, hReadable⟩
      rcases (keySearched_iff hPrints).mp hSearched with
        ⟨hPrinted, hSearches⟩
      exact ⟨hPrinted, hSearches,
        (keyReadable_iff hPrints hSearched).mp hReadable⟩
  · rw [hCommand]
    constructor
    · intro _
      exact ⟨fun hCode => absurd hCode hInsert,
        fun hCode => absurd hCode hDelete,
        fun hCode => absurd hCode hQuery⟩
    · intro _
      exact returns_ok _

end Settled

/- A malformed request that is answered gets an error. -/
theorem runCommand_malformed
    (hMalformed : Malformed s.prints m)
    (hRun : runCommand s m = .ok r) :
    r.rc < 0 := by
  have hInvalid : edbInvalidArg < 0 := by decide
  cases hCommand : getCommand (msgOpCode m) with
  | none =>
      rw [runCommand_none hCommand] at hRun
      cases hRun
      exact hInvalid
  | some c =>
      have hRefused := hMalformed c hCommand
      rw [runCommand_some hCommand] at hRun
      split at hRun
      · cases hRun
        exact hInvalid
      · rename_i hLong
        have hPrinted := hRefused.resolve_left hLong
        split at hRun
        · cases hRun
        · rw [PmdCommandFunc.onObject,
            if_neg (fun hIs => hPrinted hIs.1.1)] at hRun
          rw [(refusal_ok hRun).2.2, if_neg hPrinted]
          exact hInvalid

/- The object for the reply has a valid length word. -/
theorem runCommand_isValid
    (hRun : runCommand s m = .ok r) :
    r.retObj.isValid = true := by
  have hEmpty : BSONObj.isValid .empty = true := by decide
  cases hCommand : getCommand (msgOpCode m) with
  | none =>
      rw [runCommand_none hCommand] at hRun
      cases hRun
      exact hEmpty
  | some c =>
      rw [runCommand_some hCommand] at hRun
      split at hRun
      · cases hRun
        exact hEmpty
      · split at hRun
        · cases hRun
        · unfold PmdCommandFunc.onObject at hRun
          split at hRun
          · exact storeCall_isValid hRun
          · rw [(refusal_ok hRun).2.1]
            exact hEmpty

end Run

------------------------------------------------------------
-- Every Request
------------------------------------------------------------

section Replies

variable {s : EdbKrcb} {realloc : Option Memory}
variable {m mem : Memory} {r : Handled}

theorem objReturn_isValid
    (hRun : runCommand s m = .ok r)
    (o : BSONObj)
    (hObj : r.objReturn m = some o) :
    o.isValid = true := by
  unfold Handled.objReturn at hObj
  split at hObj
  · rw [← Option.some.inj hObj]
    exact runCommand_isValid hRun
  · cases hObj

theorem isSome_objReturn (r : Handled) (m : Memory) :
    (r.objReturn m).isSome = decide (RepliesObject m) := by
  unfold Handled.objReturn
  split
  · simp [*]
  · simp [*]

/-
  A reply with an object does not fit the buffer that the
  agent has for it, one without does.
-/
theorem msgBuildReply_ok_iff
    (hRun : runCommand s m = .ok r) :
    (msgBuildReply realloc ⟨mem, sizeofMsgReply⟩ r.rc
        (r.objReturn m)).1 = edbOk ↔
      (RepliesObject m → realloc.isSome) := by
  have hFew : [r.rc, if (r.objReturn m).isSome then (1 : Int)
      else 0].length ≤ 2 := le_refl 2
  have hValid := objReturn_isValid hRun
  unfold msgBuildReply
  rw [msgBuild_ok_iff hValid hFew,
    (messageSize_eq hValid hFew).1]
  have hSmall : (sizeofMsgReply : Int) <
      sizeofMsgReply + bodySize (r.objReturn m) ↔
        RepliesObject m := by
    unfold Handled.objReturn
    split
    · rename_i hReplies
      have hLow := runCommand_isValid hRun
      simp only [BSONObj.isValid, decide_eq_true_eq] at hLow
      simp only [bodySize, hReplies, iff_true]
      omega
    · rename_i hReplies
      simp [bodySize, hReplies]
  exact imp_congr_left hSmall

/- A request that comes to an end is answered. -/
theorem request_of_run
    (realloc : Option Memory)
    (mem : Memory)
    (hRun : runCommand s m = .ok r)
    (hMemory : RepliesObject m → realloc.isSome) :
    ∃ b, pmdProcessAgentRequest s realloc m
        ⟨mem, sizeofMsgReply⟩ false =
          .ok (edbOk, b, r.rtnMgr) ∧
      HoldsBytes b.mem opReply
        [r.rc, if RepliesObject m then 1 else 0]
        (r.objReturn m) ∧
      msgLen b.mem ≤ b.size := by
  have hCode : (msgBuildReply realloc ⟨mem, sizeofMsgReply⟩
      r.rc (r.objReturn m)).1 = edbOk :=
    (msgBuildReply_ok_iff hRun).mpr hMemory
  rcases hBuild : msgBuildReply realloc ⟨mem, sizeofMsgReply⟩
      r.rc (r.objReturn m) with ⟨rc, b⟩
  rw [hBuild] at hCode
  obtain rfl : rc = edbOk := hCode
  rcases msgBuild_bytes (objReturn_isValid hRun) (le_refl 2)
    hBuild with ⟨hHolds, hFits⟩
  refine ⟨b, ?_, ?_, hFits⟩
  · simp only [pmdProcessAgentRequest, hRun, hBuild, bind,
      Except.bind]
    rfl
  · simpa only [isSome_objReturn, decide_eq_true_eq]
      using hHolds

end Replies

------------------------------------------------------------
-- Single Requests
------------------------------------------------------------

/-
  The printing of objects that have no room for a field or
  nothing but an `_id` that is a number.
-/
def printsIdOnly (o : BSONObj) : Bool :=
  decide (o.objsize ≤ 5 ∨ o.length = 14 ∧
    o.mem.bytes (o.objdata + 4) 5 = [16, 95, 105, 100, 0] ∧
    o.mem (o.objdata + 13) = 0)

theorem within_id
    {m : Memory}
    {a l : Nat}
    (hBytes : m.bytes a 5 = [16, 95, 105, 100, 0])
    (hFits : 9 ≤ l) :
    BSONElement.Within ⟨m, a⟩ 9 4 l := by
  have hByte : m a = 16 ∧ m (a + 1) = 95 ∧ m (a + 2) = 105 ∧
      m (a + 3) = 100 ∧ m (a + 4) = 0 := by
    simpa [Memory.bytes, List.range, List.range.loop]
      using hBytes
  have hType : BSONElement.type ⟨m, a⟩ = 16 := hByte.1
  have hNotEoo : BSONElement.type ⟨m, a⟩ ≠ 0 := by
    rw [hType]
    decide
  have hName : BSONElement.fieldNameSize ⟨m, a⟩ = .ok 4 := by
    apply BSONElement.fieldNameSize_of_strnlen hNotEoo
      (by omega)
    apply Memory.strnlen_of_bytes (by decide)
    · intro i hi
      obtain rfl | rfl | rfl : i = 0 ∨ i = 1 ∨ i = 2 := by
        omega
      · simp [hByte]
      · simp [Nat.add_assoc, hByte]
      · simp [Nat.add_assoc, hByte]
    · simp [Nat.add_assoc, hByte]
  have hEoo : BSONElement.eoo ⟨m, a⟩ = false := by
    simpa [BSONElement.eoo] using hNotEoo
  refine ⟨hNotEoo, hName, ⟨.numberInt, ?_, ?_, ?_⟩, ?_,
    by omega, hFits⟩
  · rw [hType]
    rfl
  · simp only [BSONType.lead]
    omega
  · intro hIs
    cases hIs
  · unfold BSONElement.size
    rw [hEoo, hName, hType]
    rfl

theorem readsObject_idOnly : ReadsObject printsIdOnly := by
  constructor
  · intro o o' _ hSame
    have hSize : o'.objsize = o.objsize := by
      unfold BSONObj.objsize Memory.int
      rw [hSame.word (le_max_left _ _)]
    have hLength : o'.length = o.length := by
      unfold BSONObj.length
      rw [hSize]
    simp only [printsIdOnly, hSize, hLength]
    apply decide_eq_decide.mpr
    apply or_congr_right
    apply and_congr_right
    intro hFourteen
    rw [hFourteen] at hSame
    have hName := (hSame.slice (k := 4) (l := 5)
      (by decide)).bytes
    have hLast := hSame 13 (by decide)
    rw [hName, hLast]
  · intro o _ hPrints
    simp only [printsIdOnly, decide_eq_true_eq] at hPrints
    unfold BSONObj.Walkable
    rcases hPrints with hSmall | ⟨hLength, hBytes, _⟩
    · apply BSONObj.Walk.done
      unfold BSONObj.length
      omega
    · rw [hLength]
      exact .element (within_id hBytes (by decide))
        (.done (by decide))

/- How far `printsIdOnly` reads an object. -/
def readsIdOnly (o : BSONObj) : Nat :=
  min o.length 14

/- A server with an empty store. -/
def emptyKrcb : EdbKrcb where
  h := fun _ => 0
  prints := printsIdOnly
  exts := [.success]
  rtnMgr := Rtn.created (fun _ => 0)

/- The receive buffer of an agent, with a request in it. -/
def firstBuffer (request : List UInt8) : RecvBuffer where
  mem := Memory.store (fun _ => 0) 0 request
  size := pmdAgentRecvBufferSz
  large := le_refl _

/- An insert request for a document with the key 2. -/
def insertTwo : List UInt8 :=
  [26, 0, 0, 0, 2, 0, 0, 0, 1, 0, 0, 0,
    14, 0, 0, 0, 16, 95, 105, 100, 0, 2, 0, 0, 0, 0]

/- A delete request whose object has the length 0. -/
def emptyDelete : List UInt8 :=
  [12, 0, 0, 0, 3, 0, 0, 0, 0, 0, 0, 0]

/-
  On a store whose live records are all indexed, a request
  with a well-formed object that is printed is answerable, if
  the object is in the buffer and an inserted record can be
  placed.
-/
theorem answerable_of_agrees
    {s : EdbKrcb}
    {reads : BSONObj → Nat}
    {b : RecvBuffer}
    (hAgrees : Rtn.Agrees s.h s.rtnMgr ∅)
    (hPrints : ReadsObject s.prints)
    (hInside : InBuffer s.prints reads b)
    (hObject : ∀ commandFunc,
      getCommand (msgOpCode b.mem) = some commandFunc →
      BSONObj.WellFormed ⟨b.mem, commandFunc.size⟩ ∧
        s.prints ⟨b.mem, commandFunc.size⟩ = true)
    (hCount : msgOpCode b.mem = opInsert → b.mem.int 8 ≠ 0)
    (hInsert : msgOpCode b.mem = opInsert →
      Rtn.Insertable s.h s.rtnMgr
          ⟨b.mem, sizeofMsgInsert⟩ ∧
        ∃ ext exts, s.exts = ext :: exts ∧ ext.Clean) :
    Answerable s reads b := by
  have hPrinted : ∀ commandFunc,
      getCommand (msgOpCode b.mem) = some commandFunc →
      Printed s.prints ⟨b.mem, commandFunc.size⟩ := by
    intro commandFunc hCommand
    rcases hObject commandFunc hCommand with ⟨hForm, hShown⟩
    exact ⟨hForm.isValid_eq_true, hShown⟩
  refine ⟨hInside, ?_, ?_, ?_⟩
  · intro hCode _
    have hCommand : getCommand (msgOpCode b.mem) =
        some .pmdInsertCommand := by
      rw [hCode]
      rfl
    have hForm : BSONObj.WellFormed
        ⟨b.mem, sizeofMsgInsert⟩ :=
      (hObject .pmdInsertCommand hCommand).1
    rcases hInsert hCode with
      ⟨hInsertable, ext, exts, hExts, hClean⟩
    refine ⟨hCount hCode, ?_⟩
    apply (recordSettled_iff hPrints).mpr
    refine ⟨fun _ => hForm.five_le, fun _ => ?_⟩
    rw [hExts]
    exact hAgrees.insertEnds hForm hInsertable hClean exts
  · intro hCode _
    have hCommand : getCommand (msgOpCode b.mem) =
        some .pmdDeleteCommand := by
      rw [hCode]
      rfl
    have hKey : Printed s.prints ⟨b.mem, sizeofMsgDelete⟩ :=
      hPrinted .pmdDeleteCommand hCommand
    have hForm : BSONObj.WellFormed
        ⟨b.mem, sizeofMsgDelete⟩ :=
      (hObject .pmdDeleteCommand hCommand).1
    have hReturns := hAgrees.rtnRemove_returns hForm
    exact (keySearched_iff hPrints).mpr
      ⟨hKey, Rtn.rtnRemove_returns_iff.mp hReturns⟩
  · intro hCode _
    have hCommand : getCommand (msgOpCode b.mem) =
        some .pmdQueryCommand := by
      rw [hCode]
      rfl
    have hKey : Printed s.prints ⟨b.mem, sizeofMsgQuery⟩ :=
      hPrinted .pmdQueryCommand hCommand
    have hForm : BSONObj.WellFormed ⟨b.mem, sizeofMsgQuery⟩ :=
      (hObject .pmdQueryCommand hCommand).1
    have hReturns := hAgrees.rtnFind_returns hForm
    rcases Rtn.rtnFind_returns_iff.mp hReturns with
      ⟨hSearches, hRead⟩
    have hSearched : KeySearched s ⟨b.mem, sizeofMsgQuery⟩ :=
      (keySearched_iff hPrints).mpr ⟨hKey, hSearches⟩
    exact ⟨hSearched,
      (keyReadable_iff hPrints hSearched).mpr hRead⟩

end EmeraldDb
