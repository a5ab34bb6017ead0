import EmeraldDb.Msg.Msg
import EmeraldDb.Rtn.Rtn

/-
  The insert request of an agent.

  The handler reads the number of records and never looks at
  it again: it takes the bytes behind the number for one
  record.  A request without records has no address there.

  Key definitions include:
    * `firstElement`
    * `pmdInsertCommand`
-/

namespace EmeraldDb

abbrev gKeyFieldName : List UInt8 := ixmKeyFieldName

------------------------------------------------------------
-- The Handler
------------------------------------------------------------

/- The object at the address that was extracted, if any. -/
def objectAt
    (m : Memory) :
    Option Nat → Except Fault BSONObj
| none => .error .nullObject
| some a => BSONObj.ofData m a

/-
  The first element of an object.  The iterator asserts that
  it lies before the object's end; this is the assertion of
  the C library, which ends the process.
-/
def firstElement
    (o : BSONObj) : Except Fault BSONElement :=
  if 4 ≤ o.objsize - 1 then .ok ⟨o.mem, o.objdata + 4⟩
  else .error .aborted

/-
  Handle an insert request.  An exception, also one while the
  record is printed (`prints` says when that succeeds), is
  caught and reported; the store is then as it was when the
  exception was thrown, which is not part of the result.
-/
def pmdInsertCommand
    (h : List UInt8 → Nat)
    (prints : BSONObj → Bool)
    (exts : List DmsFile.Extension)
    (rtnMgr : Rtn)
    (pReceiveBuffer : Memory) :
    Except Fault (Int × Option Rtn) :=
  match msgExtractInsert pReceiveBuffer with
  | (_, none) => .ok (edbInvalidArg, some rtnMgr)
  | (_, some (_, pInsertToBuffer)) =>
      match objectAt pReceiveBuffer pInsertToBuffer with
      | .error .assertion => .ok (edbInvalidArg, some rtnMgr)
      | .error fault => .error fault
      | .ok insertor =>
          if ¬ prints insertor then
            .ok (edbInvalidArg, some rtnMgr)
          else
            match firstElement insertor with
            | .error fault => .error fault
            | .ok ele =>
                if ¬ ele.hasName gKeyFieldName then
                  .ok (edbNoId, some rtnMgr)
                else
                  match rtnMgr.rtnInsert h exts insertor with
                  | .error .assertion =>
                      .ok (edbInvalidArg, none)
                  | .error fault => .error fault
                  | .ok (rc, t) => .ok (rc, some t)

end EmeraldDb
