import EmeraldDb.Dms.Load
import EmeraldDb.Rtn.Rtn

/-
  Agreement of the index with the records of the data file.

  `Rtn.Agrees h s P` says that the index covers the live
  records of the file except those in `P`: records written
  but not yet indexed, or taken out of the index but not yet
  removed.  Each of the five primitive steps of the store
  keeps the agreement and changes `P` by its own record.

  Key definitions include:
    * `DmsFile.addr`
    * `Rtn.Agrees`

  Key results include:
    * `Rtn.Agrees.unchanged`
    * `Rtn.Agrees.added`
    * `Rtn.Agrees.created`
    * `Rtn.Agrees.unindexed`
    * `Rtn.Agrees.removed`
-/

namespace EmeraldDb

open IxmBucketManager

------------------------------------------------------------
-- Records in Place
------------------------------------------------------------

namespace DmsFile

variable {s t : DmsFile} {rid : DmsRecordID}

/- Where the object of a record is. -/
def addr (s : DmsFile) : Addresses :=
  recordAddress s.file

/- The key of a record. -/
def HasKey
    (s : DmsFile)
    (rid : DmsRecordID)
    (k : BSONElement.Key) : Prop :=
  KeyAt s.file (s.addr rid) k

theorem Kept.keyAt
    (hKept : Kept s t rid)
    (hForm : (s.object rid).WellFormed)
    {k : BSONElement.Key}
    (hKey : s.HasKey rid k) :
    t.HasKey rid k := by
  rcases hKey with ⟨off, hId⟩
  exact ⟨off, hId.congr hForm _ hKept.same⟩

/- A kept record with a key has that key alone. -/
theorem Kept.keyAt_iff
    (hKept : Kept s t rid)
    (hForm : (s.object rid).WellFormed)
    (hKeyed : ∃ k, s.HasKey rid k)
    (k : BSONElement.Key) :
    t.HasKey rid k ↔ s.HasKey rid k := by
  rcases hKeyed with ⟨k', hOld⟩
  have hNew := hKept.keyAt hForm hOld
  constructor
  · intro hKey
    exact hNew.unique hKey ▸ hOld
  · exact hKept.keyAt hForm

theorem Kept.document_eq
    (hKept : Kept s t rid)
    (hForm : (s.object rid).WellFormed) :
    (t.object rid).document = (s.object rid).document := by
  have hLength : (t.object rid).length =
      (s.object rid).length :=
    hForm.length_congr _ hKept.same
  unfold BSONObj.document
  rw [hLength]
  exact hKept.same.bytes.symm

/- An added record has the key and bytes it was given. -/
theorem Added.keyAt
    {record : BSONObj}
    (hAdded : Added s t rid record)
    (hForm : record.WellFormed)
    {off : Nat}
    {k : BSONElement.Key}
    (hId : HasId record off k) :
    HasId (t.object rid) off k :=
  hId.congr hForm _ hAdded.data

theorem Added.document_eq
    {record : BSONObj}
    (hAdded : Added s t rid record)
    (hForm : record.WellFormed) :
    (t.object rid).document = record.document := by
  have hLength : (t.object rid).length = record.length :=
    hForm.length_congr _ hAdded.data
  unfold BSONObj.document
  rw [hLength]
  exact hAdded.data.bytes.symm

end DmsFile

------------------------------------------------------------
-- Agreement
------------------------------------------------------------

namespace Rtn

variable {h : List UInt8 → Nat} {s : Rtn}
variable {P : Set DmsRecordID} {rid : DmsRecordID}

/- The live records that are not pending. -/
def settled
    (s : DmsFile)
    (P : Set DmsRecordID) : Set DmsRecordID :=
  { rid | s.Live rid ∧ rid ∉ P }

structure Agrees
    (h : List UInt8 → Nat)
    (s : Rtn)
    (P : Set DmsRecordID) : Prop where
  file : s.dmsFile.Good
  index : Covers h s.dmsFile.file s.dmsFile.addr
    s.ixmBucketMgr (settled s.dmsFile P)
  keyed : ∀ rid, s.dmsFile.Live rid →
    ∃ k, s.dmsFile.HasKey rid k
  pending : ∀ rid ∈ P, s.dmsFile.Live rid

namespace Agrees

/- The index over a file whose covered records are kept. -/
theorem index_frame
    (hAgrees : Agrees h s P)
    {t : DmsFile}
    {R : Set DmsRecordID}
    (hIndex : Covers h s.dmsFile.file s.dmsFile.addr
      s.ixmBucketMgr R)
    (hLive : ∀ rid ∈ R, s.dmsFile.Live rid)
    (hKept : ∀ rid ∈ R, DmsFile.Kept s.dmsFile t rid) :
    Covers h t.file t.addr s.ixmBucketMgr R := by
  apply hIndex.frame
  · intro rid hIn
    exact hAgrees.file.form (hLive rid hIn)
  · intro rid hIn
    exact (hKept rid hIn).place
  · intro rid hIn
    have hSame := (hKept rid hIn).same
    rw [(hKept rid hIn).place] at hSame
    exact hSame

/- A change of the file that touches no record. -/
theorem unchanged
    (hAgrees : Agrees h s P)
    {t : DmsFile}
    (hSame : DmsFile.Unchanged s.dmsFile t) :
    Agrees h ⟨t, s.ixmBucketMgr⟩ P := by
  refine ⟨hSame.good, ?_, ?_, ?_⟩
  · apply (hAgrees.index_frame hAgrees.index _ _).congr
    · intro rid
      exact and_congr_left (fun _ => (hSame.live rid).symm)
    · intro rid hIn
      exact hIn.1
    · intro rid hIn
      exact hSame.kept rid hIn.1
  · intro rid hLive
    have hOld := (hSame.live rid).mp hLive
    rcases hAgrees.keyed rid hOld with ⟨k, hKey⟩
    exact ⟨k, (hSame.kept rid hOld).keyAt
      (hAgrees.file.form hOld) hKey⟩
  · intro rid hIn
    exact (hSame.live rid).mpr (hAgrees.pending rid hIn)

/- A record written to the file is pending. -/
theorem added
    (hAgrees : Agrees h s P)
    {t : DmsFile}
    {record : BSONObj}
    (hAdded : DmsFile.Added s.dmsFile t rid record)
    (hForm : record.WellFormed)
    {off : Nat}
    {k : BSONElement.Key}
    (hId : HasId record off k) :
    Agrees h ⟨t, s.ixmBucketMgr⟩ (insert rid P) := by
  refine ⟨hAdded.good, ?_, ?_, ?_⟩
  · apply (hAgrees.index_frame hAgrees.index _ _).congr
    · intro r
      simp only [settled, Set.mem_ofPred_eq, hAdded.live,
        Set.mem_insert_iff, not_or]
      constructor
      · rintro ⟨hLive, hOut⟩
        refine ⟨Or.inr hLive, ?_, hOut⟩
        intro hEq
        exact hAdded.fresh (hEq ▸ hLive)
      · rintro ⟨hEq | hLive, hNe, hOut⟩
        · exact absurd hEq hNe
        · exact ⟨hLive, hOut⟩
    · intro r hIn
      exact hIn.1
    · intro r hIn
      exact hAdded.kept r hIn.1
  · intro r hLive
    rcases (hAdded.live r).mp hLive with rfl | hOld
    · exact ⟨k, off, hAdded.keyAt hForm hId⟩
    · rcases hAgrees.keyed r hOld with ⟨k', hKey⟩
      exact ⟨k', (hAdded.kept r hOld).keyAt
        (hAgrees.file.form hOld) hKey⟩
  · intro r hIn
    rcases hIn with rfl | hOld
    · exact (hAdded.live r).mpr (Or.inl rfl)
    · exact (hAdded.live r).mpr
        (Or.inr (hAgrees.pending r hOld))

/- Indexing a pending record settles it. -/
theorem created
    (hAgrees : Agrees h s P)
    (hPending : rid ∈ P) :
    ∃ mgr,
      createIndex h s.ixmBucketMgr (s.dmsFile.object rid)
        rid = .ok (edbOk, mgr) ∧
      Agrees h ⟨s.dmsFile, mgr⟩ (P \ {rid}) := by
  have hLive := hAgrees.pending rid hPending
  rcases hAgrees.keyed rid hLive with ⟨k, off, hId⟩
  rcases hAgrees.index.createIndex hId
      (fun hIn => hIn.2 hPending) with
    ⟨mgr, hResult, hCovers⟩
  refine ⟨mgr, hResult, hAgrees.file, ?_, hAgrees.keyed, ?_⟩
  · apply hCovers.congr
    intro r
    simp only [settled, Set.mem_insert_iff, Set.mem_ofPred_eq,
      Set.mem_sdiff, Set.mem_singleton_iff, not_and,
      not_not]
    constructor
    · rintro (rfl | ⟨hl, hOut⟩)
      · exact ⟨hLive, fun _ => rfl⟩
      · exact ⟨hl, fun hIn => absurd hIn hOut⟩
    · rintro ⟨hl, hOut⟩
      by_cases hIn : r ∈ P
      · exact Or.inl (hOut hIn)
      · exact Or.inr ⟨hl, hIn⟩
  · intro r hIn
    exact hAgrees.pending r hIn.1

/-
  Taking a key out of the index: a settled record with the
  key becomes pending, or there is none.
-/
theorem unindexed
    (hAgrees : Agrees h s P)
    {q : BSONObj}
    {off : Nat}
    {k : BSONElement.Key}
    (hId : HasId q off k) :
    (∃ rid mgr, rid ∈ settled s.dmsFile P ∧
        s.dmsFile.HasKey rid k ∧
        removeIndex h s.dmsFile.file s.ixmBucketMgr q =
          .ok (edbOk, some rid, mgr) ∧
        Agrees h ⟨s.dmsFile, mgr⟩ (insert rid P)) ∨
      ((∀ rid ∈ settled s.dmsFile P,
          ¬ s.dmsFile.HasKey rid k) ∧
        removeIndex h s.dmsFile.file s.ixmBucketMgr q =
          .ok (edbInvalidArg, none, s.ixmBucketMgr)) := by
  rcases hAgrees.index.removeIndex_cases hId with
    ⟨rid, hIn, mgr, hKey, hResult, hCovers⟩ | hAbsent
  · left
    refine ⟨rid, mgr, hIn, hKey, hResult, hAgrees.file, ?_,
      hAgrees.keyed, ?_⟩
    · apply hCovers.congr
      intro r
      simp only [settled, Set.mem_sdiff, Set.mem_ofPred_eq,
        Set.mem_singleton_iff, Set.mem_insert_iff, not_or]
      constructor
      · rintro ⟨⟨hl, hOut⟩, hNe⟩
        exact ⟨hl, hNe, hOut⟩
      · rintro ⟨hl, hNe, hOut⟩
        exact ⟨⟨hl, hOut⟩, hNe⟩
    · intro r hr
      rcases hr with rfl | hOld
      · exact hIn.1
      · exact hAgrees.pending r hOld
  · exact Or.inr hAbsent

/- Removing a pending record from the file. -/
theorem removed
    (hAgrees : Agrees h s P)
    (hPending : rid ∈ P) :
    ∃ t, s.dmsFile.remove rid = (edbOk, t) ∧
      DmsFile.Removed s.dmsFile t rid ∧
      t.body = s.dmsFile.body ∧
      Agrees h ⟨t, s.ixmBucketMgr⟩ (P \ {rid}) := by
  have hLive := hAgrees.pending rid hPending
  rcases hAgrees.file.remove hLive with
    ⟨t, hResult, hRemoved, hBody⟩
  refine ⟨t, hResult, hRemoved, hBody, hRemoved.good, ?_,
    ?_, ?_⟩
  · apply (hAgrees.index_frame hAgrees.index _ _).congr
    · intro r
      simp only [settled, Set.mem_ofPred_eq, hRemoved.live,
        Set.mem_sdiff, Set.mem_singleton_iff, not_and,
        not_not]
      constructor
      · rintro ⟨hl, hOut⟩
        refine ⟨⟨?_, hl⟩, fun hIn => absurd hIn hOut⟩
        intro hEq
        exact hOut (hEq ▸ hPending)
      · rintro ⟨⟨hNe, hl⟩, hOut⟩
        exact ⟨hl, fun hIn => hNe (hOut hIn)⟩
    · intro r hIn
      exact hIn.1
    · intro r hIn
      apply hRemoved.kept r _ hIn.1
      intro hEq
      exact hIn.2 (hEq ▸ hPending)
  · intro r hl
    have hOld := (hRemoved.live r).mp hl
    rcases hAgrees.keyed r hOld.2 with ⟨k, hKey⟩
    exact ⟨k, (hRemoved.kept r hOld.1 hOld.2).keyAt
      (hAgrees.file.form hOld.2) hKey⟩
  · intro r hIn
    exact (hRemoved.live r).mpr
      ⟨hIn.2, hAgrees.pending r hIn.1⟩

/- Without pending records every live record is settled. -/
theorem settled_empty
    (s : DmsFile)
    (rid : DmsRecordID) :
    rid ∈ settled s ∅ ↔ s.Live rid := by
  simp [settled]

end Agrees

end Rtn

end EmeraldDb
