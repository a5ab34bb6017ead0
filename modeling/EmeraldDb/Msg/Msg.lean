import EmeraldDb.Bson.Object

/-
  The messages between client and agent.

  A message is a header of two words, the words of its kind
  and at most one object.  Messages are built in a buffer
  that is used again and grows when it is too small.
  Addresses are offsets from the start of the buffer.

  Key definitions include:
    * `MsgBuffer`
    * `msgCheckBuffer`
    * `msgBuildInsert` and the other builders
    * `msgExtractInsert` and the other extractors
-/

namespace EmeraldDb

------------------------------------------------------------
-- Layout
------------------------------------------------------------

abbrev opReply : Int := 1
abbrev opInsert : Int := 2
abbrev opDelete : Int := 3
abbrev opQuery : Int := 4

/- Size of the length and the operation code. -/
abbrev sizeofMsgHeader : Nat := 8

/- Size of a message with `n` words and no object. -/
abbrev sizeofMsg (n : Nat) : Nat :=
  sizeofMsgHeader + 4 * n

abbrev sizeofMsgReply : Nat := sizeofMsg 2
abbrev sizeofMsgInsert : Nat := sizeofMsg 1
abbrev sizeofMsgDelete : Nat := sizeofMsg 0
abbrev sizeofMsgQuery : Nat := sizeofMsg 0

def msgLen (m : Memory) : Int :=
  m.int 0

def msgOpCode (m : Memory) : Int :=
  m.int 4

------------------------------------------------------------
-- Buffers
------------------------------------------------------------

/- A buffer and the size its owner has noted for it. -/
structure MsgBuffer where
  mem : Memory
  size : Int

/-
  Make room for `length` bytes.  A `realloc` that succeeds
  keeps the bytes up to the old size; what lies behind them
  is the content `fresh`.
-/
def msgCheckBuffer
    (b : MsgBuffer)
    (length : Int)
    (realloc : Option Memory) : Int × MsgBuffer :=
  if b.size < length then
    if length < 0 then (edbInvalidArg, b)
    else
      match realloc with
      | none => (edbOom, b)
      | some fresh =>
          (edbOk, {
            mem := fun i =>
              if (i : Int) < b.size then b.mem i else fresh i
            size := length })
  else (edbOk, b)

------------------------------------------------------------
-- Builders
------------------------------------------------------------

/- Size of a message with these words and this object. -/
def messageSize
    (fields : List Int)
    (obj : Option BSONObj) : Int :=
  match obj with
  | some o => wrapInt (sizeofMsg fields.length + o.objsize)
  | none => sizeofMsg fields.length

/- Store words one behind the other. -/
def writeFields
    (m : Memory)
    (a : Nat) :
    List Int → Memory
| [] => m
| v :: vs => writeFields (m.setWord a (ofSigned v)) (a + 4) vs

def writeMessage
    (m : Memory)
    (opCode : Int)
    (fields : List Int)
    (obj : Option BSONObj) : Memory :=
  let m := m.setWord 0 (ofSigned (messageSize fields obj))
  let m := m.setWord 4 (ofSigned opCode)
  let m := writeFields m sizeofMsgHeader fields
  match obj with
  | some o =>
      m.copy (sizeofMsg fields.length) o.mem o.objdata
        o.length
  | none => m

/- Build a message of one kind. -/
def msgBuild
    (opCode : Int)
    (fields : List Int)
    (obj : Option BSONObj)
    (realloc : Option Memory)
    (b : MsgBuffer) : Int × MsgBuffer :=
  let (rc, b) :=
    msgCheckBuffer b (messageSize fields obj) realloc
  if rc ≠ 0 then (rc, b)
  else
    (edbOk, { b with
      mem := writeMessage b.mem opCode fields obj })

def msgBuildInsert
    (realloc : Option Memory)
    (b : MsgBuffer)
    (obj : BSONObj) : Int × MsgBuffer :=
  msgBuild opInsert [1] (some obj) realloc b

def msgBuildQuery
    (realloc : Option Memory)
    (b : MsgBuffer)
    (key : BSONObj) : Int × MsgBuffer :=
  msgBuild opQuery [] (some key) realloc b

def msgBuildDelete
    (realloc : Option Memory)
    (b : MsgBuffer)
    (key : BSONObj) : Int × MsgBuffer :=
  msgBuild opDelete [] (some key) realloc b

def msgBuildReply
    (realloc : Option Memory)
    (b : MsgBuffer)
    (returnCode : Int)
    (objReturn : Option BSONObj) : Int × MsgBuffer :=
  msgBuild opReply
    [returnCode, if objReturn.isSome then 1 else 0]
    objReturn realloc b

------------------------------------------------------------
-- Extractors
------------------------------------------------------------

/- The checks of the length and, if any, of the code. -/
def msgCheckHeader
    (m : Memory)
    (size : Nat)
    (opCode : Option Int) : Int :=
  if msgLen m < size then edbInvalidArg
  else
    match opCode with
    | some c => if msgOpCode m ≠ c then edbInvalidArg else edbOk
    | none => edbOk

/- Where the objects start, if there are any. -/
def objStart
    (count : Int)
    (data : Nat) : Option Nat :=
  if count = 0 then none else some data

/- Return code, number of objects and their start. -/
def msgExtractReply
    (m : Memory) : Int × Option (Int × Int × Option Nat) :=
  let rc := msgCheckHeader m sizeofMsgReply none
  if rc ≠ 0 then (rc, none)
  else
    let numReturn := m.int 12
    (edbOk, some (m.int 8, numReturn,
      objStart numReturn sizeofMsgReply))

/- Number of objects and their start. -/
def msgExtractInsert
    (m : Memory) : Int × Option (Int × Option Nat) :=
  let rc := msgCheckHeader m sizeofMsgInsert (some opInsert)
  if rc ≠ 0 then (rc, none)
  else
    let numInsert := m.int 8
    (edbOk, some (numInsert,
      objStart numInsert sizeofMsgInsert))

/- The key object of a message of one kind. -/
def msgExtractKey
    (opCode : Int)
    (size : Nat)
    (m : Memory) : Except Fault (Int × Option BSONObj) :=
  let rc := msgCheckHeader m size (some opCode)
  if rc ≠ 0 then .ok (rc, none)
  else do
    let key ← BSONObj.ofData m size
    return (edbOk, some key)

def msgExtractDelete
    (m : Memory) : Except Fault (Int × Option BSONObj) :=
  msgExtractKey opDelete sizeofMsgDelete m

def msgExtractQuery
    (m : Memory) : Except Fault (Int × Option BSONObj) :=
  msgExtractKey opQuery sizeofMsgQuery m

end EmeraldDb
