import EmeraldDb.Bson.Object
import EmeraldDb.Lib.MultiMap
import Mathlib.Data.List.FinRange
import Mathlib.Logic.Function.Basic

/-
  The hash index on `_id`.

  The index keeps, for every record, the address of the
  record's `_id` element in the mapped data file and the
  record id.  Entries are spread over buckets by the hash of
  the `_id` value; a lookup compares type, size and bytes of
  the elements under the hash of the requested key.

  Key definitions include:
    * `IxmEleHash`
    * `IxmBucketManager`
    * `IxmBucketManager.processData`
    * `IxmBucketManager.isIDExist`
    * `IxmBucketManager.createIndex`
    * `IxmBucketManager.findIndex`
    * `IxmBucketManager.removeIndex`
    * `IxmBucketManager.entries`
-/

namespace EmeraldDb

------------------------------------------------------------
-- Index Entries
------------------------------------------------------------

/- A record is named by its page and its slot. -/
structure DmsRecordID where
  pageID : Nat
  slotID : Nat
deriving DecidableEq, Repr

/- One index entry: a pointer to an `_id` element. -/
structure IxmEleHash where
  data : Nat
  recordID : DmsRecordID
deriving DecidableEq, Repr

/- The field name `_id`. -/
abbrev ixmKeyFieldName : List UInt8 :=
  [95, 105, 100]

abbrev ixmHashMapSize : Nat := 1000

/- The hash function: the value bytes do not matter. -/
def hashFunc (_ : List UInt8) : Nat := 5

/- A bucket maps hash numbers to entries. -/
abbrev IxmBucket :=
  MultiMap Nat IxmEleHash

structure IxmBucketManager where
  bucket : Fin ixmHashMapSize → IxmBucket

namespace IxmBucketManager

------------------------------------------------------------
-- Bucket Operations
------------------------------------------------------------

/-
  The loop over an equal range: the first entry whose element
  in the mapped file `m` has the key of `src`.
-/
def firstMatch
    (m : Memory)
    (src : BSONElement) :
    List IxmEleHash → Except Fault (Option IxmEleHash)
| [] => .ok none
| v :: vs => do
    let same ← src.sameKey ⟨m, v.data⟩
    if same then return some v else firstMatch m src vs

/- Bucket number of a hash number. -/
def bucketIdx (hashNum : Nat) : Fin ixmHashMapSize :=
  ⟨hashNum % ixmHashMapSize, Nat.mod_lt _ (by decide)⟩

/- The entries of one bucket under one hash number. -/
def range
    (mgr : IxmBucketManager)
    (hashNum : Nat) : List IxmEleHash :=
  (mgr.bucket (bucketIdx hashNum)).equalRange hashNum

/- Replace the bucket of a hash number. -/
def setBucket
    (mgr : IxmBucketManager)
    (hashNum : Nat)
    (b : IxmBucket) : IxmBucketManager where
  bucket := Function.update mgr.bucket (bucketIdx hashNum) b

/- All buckets empty, as after `init`. -/
def init : IxmBucketManager where
  bucket := fun _ => MultiMap.empty

------------------------------------------------------------
-- Manager Operations
------------------------------------------------------------

/- The `_id` element of a record, if it may be indexed. -/
def processData
    (record : BSONObj) :
    Except Fault (Option BSONElement) := do
  let element ← record.getField ixmKeyFieldName
  match element with
  | none => return none
  | some e =>
      if BSONType.ofByte e.type ≠ some .numberInt ∧
          BSONType.ofByte e.type ≠ some .string then
        return none
      else return some e

/- Hash number of an element's value under `h`. -/
def hashNum
    (h : List UInt8 → Nat)
    (e : BSONElement) : Except Fault Nat := do
  let k ← e.key
  return h k.2

def isIDExist
    (h : List UInt8 → Nat)
    (m : Memory)
    (mgr : IxmBucketManager)
    (record : BSONObj) : Except Fault Int := do
  match ← processData record with
  | none => return edbInvalidArg
  | some e =>
      let n ← hashNum h e
      match ← firstMatch m e (mgr.range n) with
      | some _ => return edbIxmIdExist
      | none => return edbOk

def createIndex
    (h : List UInt8 → Nat)
    (mgr : IxmBucketManager)
    (record : BSONObj)
    (recordID : DmsRecordID) :
    Except Fault (Int × IxmBucketManager) := do
  match ← processData record with
  | none => return (edbInvalidArg, mgr)
  | some e =>
      let n ← hashNum h e
      let b := (mgr.bucket (bucketIdx n)).insert n
        ⟨e.data, recordID⟩
      return (edbOk, mgr.setBucket n b)

def findIndex
    (h : List UInt8 → Nat)
    (m : Memory)
    (mgr : IxmBucketManager)
    (record : BSONObj) :
    Except Fault (Int × Option DmsRecordID) := do
  match ← processData record with
  | none => return (edbInvalidArg, none)
  | some e =>
      let n ← hashNum h e
      match ← firstMatch m e (mgr.range n) with
      | some v => return (edbOk, some v.recordID)
      | none => return (edbInvalidArg, none)

/-
  The erased entry is the first equal to the match: an equal
  entry has the same pointer, so none comes before it.
-/
def removeIndex
    (h : List UInt8 → Nat)
    (m : Memory)
    (mgr : IxmBucketManager)
    (record : BSONObj) :
    Except Fault
      (Int × Option DmsRecordID × IxmBucketManager) := do
  match ← processData record with
  | none => return (edbInvalidArg, none, mgr)
  | some e =>
      let n ← hashNum h e
      match ← firstMatch m e (mgr.range n) with
      | some v =>
          let b := (mgr.bucket (bucketIdx n)).eraseFirst n
            (fun w => decide (w = v))
          return (edbOk, some v.recordID, mgr.setBucket n b)
      | none => return (edbInvalidArg, none, mgr)

------------------------------------------------------------
-- All Entries
------------------------------------------------------------

/- The entries of all buckets. -/
def entries (mgr : IxmBucketManager) : List IxmEleHash :=
  (List.finRange ixmHashMapSize).flatMap
    (fun i => (mgr.bucket i).entries.map Prod.snd)

end IxmBucketManager

end EmeraldDb
