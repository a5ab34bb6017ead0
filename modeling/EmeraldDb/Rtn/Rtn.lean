import EmeraldDb.Dms.File

/-
  The record store: the data file and its index.

  Key definitions include:
    * `Rtn`
    * `Rtn.init`
    * `Rtn.rtnInsert`
    * `Rtn.rtnFind`
    * `Rtn.rtnRemove`
-/

namespace EmeraldDb

structure Rtn where
  dmsFile : DmsFile
  ixmBucketMgr : IxmBucketManager

namespace Rtn

variable (h : List UInt8 → Nat)

/- Start the store on a file image. -/
def init
    (creation : DmsFile.HeaderCreation)
    (failure : Nat → Option Errno)
    (file : Memory)
    (fileSize : Nat) : Except Fault (Int × Rtn) := do
  let (rc, dms, ixm) ←
    DmsFile.init h creation failure file fileSize
  return (rc, ⟨dms, ixm⟩)

/- Insert a record unless its `_id` is in the index. -/
def rtnInsert
    (exts : List DmsFile.Extension)
    (s : Rtn)
    (record : BSONObj) : Except Fault (Int × Rtn) := do
  let rc ← s.ixmBucketMgr.isIDExist h s.dmsFile.file record
  if rc ≠ 0 then return (rc, s)
  else
    let r ← s.dmsFile.insert exts record
    let t : Rtn := { s with dmsFile := r.state }
    if r.rc ≠ 0 then return (r.rc, t)
    else
      match r.written with
      | none => return (r.rc, t)
      | some (data, recordID) =>
          let (rc, ixm) ← t.ixmBucketMgr.createIndex h
            ⟨r.state.file, data⟩ recordID
          return (rc, { t with ixmBucketMgr := ixm })

/- Find the record with the `_id` of the argument. -/
def rtnFind
    (s : Rtn)
    (inRecord : BSONObj) :
    Except Fault (Int × Option BSONObj) := do
  let (rc, found) ←
    s.ixmBucketMgr.findIndex h s.dmsFile.file inRecord
  match found with
  | none => return (rc, none)
  | some recordID => s.dmsFile.find recordID

/- Remove the record with the `_id` of the argument. -/
def rtnRemove
    (s : Rtn)
    (record : BSONObj) : Except Fault (Int × Rtn) := do
  let (rc, found, ixm) ←
    s.ixmBucketMgr.removeIndex h s.dmsFile.file record
  match found with
  | none => return (rc, s)
  | some recordID =>
      let (rc, dms) := s.dmsFile.remove recordID
      return (rc, { dmsFile := dms, ixmBucketMgr := ixm })

end Rtn

end EmeraldDb
