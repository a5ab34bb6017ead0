import EmeraldDb.Ixm.Bucket
import EmeraldDb.Lib.LatchOrder

/-
  The latches of the buckets.

  Each call of the index is given again with the operations
  it makes on the latch of its bucket.  The key of the record
  is found before the latch is got, and the entries are read
  and changed under it.

  Key definitions include:
    * `IxmBucketManager.inBucket`
    * `IxmBucketManager.findIndexLatched`
    * `IxmBucketManager.removeIndexLatched`

  Key results include:
    * `IxmBucketManager.inBucket_climbs`
    * `IxmBucketManager.removeIndexLatched_result`
-/

namespace EmeraldDb

open Traced

/- The `_mutex` of a bucket. -/
abbrev IxmCall
    (α : Type) : Type :=
  Traced (Fin ixmHashMapSize) Fault α

namespace IxmBucketManager

/-
  A call on the bucket of a record.  What the comparison of
  keys throws is not caught, and the latch stays held then.
-/
def inBucket
    {α : Type}
    (mode : LatchMode)
    (h : List UInt8 → Nat)
    (record : BSONObj)
    (refused : α)
    (body : BSONElement → Nat → Except Fault α) :
    IxmCall α := do
  let element ← lift (processData record)
  match element with
  | none => return refused
  | some e =>
      let n ← lift (hashNum h e)
      get (bucketIdx n) mode
      let r ← lift (body e n)
      release (bucketIdx n) mode
      return r

section Calls

variable (h : List UInt8 → Nat) (m : Memory)
variable (mgr : IxmBucketManager) (record : BSONObj)

def isIDExistLatched : IxmCall Int :=
  inBucket .shared h record edbInvalidArg (fun e n => do
    match ← firstMatch m e (mgr.range n) with
    | some _ => return edbIxmIdExist
    | none => return edbOk)

def createIndexLatched
    (recordID : DmsRecordID) :
    IxmCall (Int × IxmBucketManager) :=
  inBucket .exclusive h record (edbInvalidArg, mgr)
    (fun e n =>
      let b := (mgr.bucket (bucketIdx n)).insert n
        ⟨e.data, recordID⟩
      .ok (edbOk, mgr.setBucket n b))

def findIndexLatched :
    IxmCall (Int × Option DmsRecordID) :=
  inBucket .shared h record (edbInvalidArg, none)
    (fun e n => do
      match ← firstMatch m e (mgr.range n) with
      | some v => return (edbOk, some v.recordID)
      | none => return (edbInvalidArg, none))

def removeIndexLatched :
    IxmCall (Int × Option DmsRecordID × IxmBucketManager) :=
  inBucket .exclusive h record (edbInvalidArg, none, mgr)
    (fun e n => do
      match ← firstMatch m e (mgr.range n) with
      | some v =>
          let b := (mgr.bucket (bucketIdx n)).eraseFirst n
            (fun w => decide (w = v))
          return (edbOk, some v.recordID, mgr.setBucket n b)
      | none => return (edbInvalidArg, none, mgr))

------------------------------------------------------------
-- The Calls without Their Latch
------------------------------------------------------------

theorem inBucket_result
    {α : Type}
    (mode : LatchMode)
    (refused : α)
    (body : BSONElement → Nat → Except Fault α) :
    (inBucket mode h record refused body).result = (do
      match ← processData record with
      | none => return refused
      | some e =>
          let n ← hashNum h e
          body e n) := by
  unfold inBucket
  rw [result_bind]
  cases hElement : processData record with
  | error f => rfl
  | ok element =>
      cases element with
      | none => rfl
      | some e =>
          show (lift (hashNum h e) >>= _ : IxmCall α).result =
            (hashNum h e).bind (fun n => body e n)
          rw [result_bind]
          cases hashNum h e with
          | error f => rfl
          | ok n =>
              show (Traced.get _ _ >>= _ : IxmCall α).result =
                body e n
              rw [result_get_bind, result_bind]
              cases body e n with
              | error f => rfl
              | ok r => rfl

theorem isIDExistLatched_result :
    (isIDExistLatched h m mgr record).result =
      isIDExist h m mgr record :=
  inBucket_result h record _ _ _

theorem createIndexLatched_result
    (recordID : DmsRecordID) :
    (createIndexLatched h mgr record recordID).result =
      createIndex h mgr record recordID :=
  inBucket_result h record _ _ _

theorem findIndexLatched_result :
    (findIndexLatched h m mgr record).result =
      findIndex h m mgr record :=
  inBucket_result h record _ _ _

theorem removeIndexLatched_result :
    (removeIndexLatched h m mgr record).result =
      removeIndex h m mgr record :=
  inBucket_result h record _ _ _

end Calls

/- A call that returns has given its latch back. -/
theorem inBucket_climbs
    {α : Type}
    {mode : LatchMode}
    {h : List UInt8 → Nat}
    {record : BSONObj}
    {refused : α}
    {body : BSONElement → Nat → Except Fault α}
    (rank : Fin ixmHashMapSize → Nat)
    (hReturns : ∃ r,
      (inBucket mode h record refused body).result = .ok r) :
    Climbs rank [] []
      (inBucket mode h record refused body) := by
  rcases hReturns with ⟨r, hResult⟩
  unfold inBucket at hResult ⊢
  rcases returns_of_bind hResult with
    ⟨element, hElement, hRest⟩
  apply (climbs_lift hElement rank []).bind
  intro element' hSame
  have hEqual : element' = element :=
    Except.ok.inj (hSame.symm.trans hElement)
  rw [hEqual]
  cases element with
  | none => exact climbs_pure rank [] _
  | some e =>
      rcases returns_of_bind hRest with ⟨n, hHash, hThen⟩
      apply (climbs_lift hHash rank []).bind
      intro n' hSameHash
      have hEqualHash : n' = n :=
        Except.ok.inj (hSameHash.symm.trans hHash)
      rw [hEqualHash]
      rcases returns_of_bind hThen with ⟨_, _, hBody⟩
      rcases returns_of_bind hBody with ⟨v, hValue, _⟩
      apply Climbs.get (by simp)
      apply (climbs_lift hValue rank _).bind
      intro v' _
      exact climbs_release_pure rank _ _ [] _

end IxmBucketManager

end EmeraldDb
