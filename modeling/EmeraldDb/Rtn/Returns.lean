import EmeraldDb.Lib.Returns
import EmeraldDb.Rtn.Calls

/-
  When the calls of the record store return.

  A removal and a lookup return if the search of the index
  does and, for a lookup, the record that is found can be
  read.  An insertion is caught by a handler for exceptions
  if, beyond that, its retry loop comes to a page or to a
  failing extension.  The store may be in any state.

  Key definitions include:
    * `IxmBucketManager.Searches`
    * `DmsFile.PageFound`
    * `Rtn.InsertEnds`

  Key results include:
    * `Rtn.rtnRemove_returns_iff`
    * `Rtn.rtnFind_returns_iff`
    * `Rtn.rtnInsert_caught_iff`
    * `Rtn.Agrees.insertEnds`
-/

namespace EmeraldDb

------------------------------------------------------------
-- The Index
------------------------------------------------------------

namespace IxmBucketManager

variable {h : List UInt8 → Nat} {m : Memory}
variable {mgr : IxmBucketManager} {record : BSONObj}

/-
  The search for the record's `_id` ends, and so does the
  search for its key in the index.
-/
def Searches
    (h : List UInt8 → Nat)
    (m : Memory)
    (mgr : IxmBucketManager)
    (record : BSONObj) : Prop :=
  ∃ found, processData record = .ok found ∧
    ∀ e, found = some e → ∃ n, hashNum h e = .ok n ∧
      Returns (firstMatch m e (mgr.range n))

theorem removeIndex_returns_iff :
    Returns (removeIndex h m mgr record) ↔
      Searches h m mgr record := by
  unfold removeIndex Searches
  rw [returns_bind]
  apply exists_congr
  intro found
  apply and_congr_right
  intro _
  cases found with
  | none => simp [pure, Except.pure]
  | some e =>
      simp only [Option.some.injEq, forall_eq']
      rw [returns_bind]
      apply exists_congr
      intro n
      apply and_congr_right
      intro _
      rw [returns_bind]
      apply exists_congr
      intro v
      constructor
      · intro hMatch
        exact hMatch.1
      · intro hMatch
        refine ⟨hMatch, ?_⟩
        cases v <;> simp [pure, Except.pure]

/- A lookup finds the entry that a removal takes out. -/
theorem findIndex_eq_map :
    findIndex h m mgr record =
      (removeIndex h m mgr record).map
        (fun r => (r.1, r.2.1)) := by
  unfold findIndex removeIndex
  cases processData record with
  | error fault => rfl
  | ok found =>
      cases found with
      | none => rfl
      | some e =>
          simp only [bind, Except.bind]
          cases hashNum h e with
          | error fault => rfl
          | ok n =>
              simp only
              cases firstMatch m e (mgr.range n) with
              | error fault => rfl
              | ok v => cases v <;> rfl

theorem findIndex_returns_iff :
    Returns (findIndex h m mgr record) ↔
      Searches h m mgr record := by
  rw [← removeIndex_returns_iff, findIndex_eq_map]
  cases removeIndex h m mgr record <;> simp [Except.map]

/- An object without room for a field has no `_id`. -/
theorem processData_small
    (hSmall : record.length ≤ 5) :
    processData record = .ok none := by
  have hField : record.fieldOffset ixmKeyFieldName =
      .ok none := by
    unfold BSONObj.fieldOffset
    rw [BSONObj.fieldOffsetFrom, if_neg (by omega)]
  simp only [processData, BSONObj.getField, hField, bind,
    Except.bind, pure, Except.pure, Option.map_none]

end IxmBucketManager

------------------------------------------------------------
-- The Data File
------------------------------------------------------------

namespace DmsFile

/-
  The retry loop for `n` bytes comes to its end: a page is
  found, or an extension fails before one is.
-/
def PageFound
    (n : Nat) :
    List Extension → DmsFile → Prop
| [], s => s.findPage n ≠ dmsInvalidPageID
| ext :: exts, s =>
    s.findPage n ≠ dmsInvalidPageID ∨
      (s.extendSegment ext).1 ≠ edbOk ∨
        PageFound n exts (s.extendSegment ext).2

variable {s : DmsFile} {record : BSONObj}

theorem insertRecord_caught
    (s : DmsFile)
    (page pageID : Nat)
    (record : BSONObj)
    (rc : Int) :
    Caught .assertion
      (s.insertRecord page pageID record rc) := by
  unfold insertRecord
  rw [caught_bind]
  refine ⟨?_, by simp [pure, Except.pure]⟩
  unfold BSONObj.ofData
  simp only
  split
  · simp
  · simp

/- Once a page is found, only the library can throw. -/
theorem insertPage_caught
    (s : DmsFile)
    (pageID : Nat)
    (record : BSONObj)
    (rc : Int) :
    Caught .assertion (s.insertPage pageID record rc) := by
  unfold insertPage
  split
  · simp
  · rename_i page hPage
    by_cases hMagic : Page.magic s.file page ≠ dmsPageMagic
    · rw [if_pos hMagic]
      exact caught_ok _ _
    · rw [if_neg hMagic]
      by_cases hRecover :
          needsRecover s.file page record.length = true
      · simp only [if_pos hRecover]
        split
        · exact caught_ok _ _
        · apply insertRecord_caught
      · simp only [if_neg hRecover]
        split
        · exact caught_ok _ _
        · apply insertRecord_caught

theorem insertLoop_caught_iff
    (record : BSONObj)
    (exts : List Extension)
    (rc : Int)
    (s : DmsFile) :
    Caught .assertion (insertLoop record exts rc s) ↔
      PageFound record.length exts s := by
  induction exts generalizing rc s with
  | nil =>
      unfold insertLoop PageFound
      by_cases hPage : s.findPage record.length =
          dmsInvalidPageID
      · simp [hPage]
      · simp only [ne_eq, hPage, not_false_eq_true, iff_true]
        exact insertPage_caught s _ record rc
  | cons ext exts ih =>
      unfold insertLoop PageFound
      by_cases hPage : s.findPage record.length =
          dmsInvalidPageID
      · simp only [ne_eq, hPage, not_true_eq_false, false_or]
        by_cases hFails : (s.extendSegment ext).1 = edbOk
        · simp [hFails, ih]
        · simp [hFails]
      · simp only [ne_eq, hPage, not_false_eq_true, true_or,
          iff_true]
        exact insertPage_caught s _ record rc

theorem insert_caught_iff
    (exts : List Extension)
    (s : DmsFile)
    (record : BSONObj) :
    Caught .assertion (s.insert exts record) ↔
      PageFound record.length exts s :=
  insertLoop_caught_iff record exts _ s

/- What is found has a valid length word. -/
theorem find_isValid
    {rid : DmsRecordID}
    {rc : Int}
    {o : BSONObj}
    (hFind : s.find rid = .ok (rc, some o)) :
    o.isValid = true := by
  unfold find at hFind
  split at hFind
  · simp at hFind
  · simp only at hFind
    split at hFind
    · simp at hFind
    · split at hFind
      · simp at hFind
      · split at hFind
        · simp at hFind
        · unfold BSONObj.ofData at hFind
          simp only at hFind
          split at hFind
          · rename_i hValid
            simp only [bind, Except.bind, pure, Except.pure,
              Except.ok.injEq, Prod.mk.injEq,
              Option.some.injEq] at hFind
            rw [← hFind.2]
            exact hValid
          · cases hFind

end DmsFile

------------------------------------------------------------
-- The Store
------------------------------------------------------------

namespace Rtn

open IxmBucketManager

variable {h : List UInt8 → Nat} {s : Rtn}
variable {record : BSONObj} {exts : List DmsFile.Extension}

theorem rtnRemove_returns_iff :
    Returns (s.rtnRemove h record) ↔
      Searches h s.dmsFile.file s.ixmBucketMgr record := by
  rw [← removeIndex_returns_iff]
  unfold rtnRemove
  rw [returns_bind]
  apply exists_congr
  rintro ⟨rc, found, ixm⟩
  cases found <;> simp [pure, Except.pure]

/-
  A lookup returns if the search does, and a record that is
  found is read.
-/
theorem rtnFind_returns_iff :
    Returns (s.rtnFind h record) ↔
      Searches h s.dmsFile.file s.ixmBucketMgr record ∧
        ∀ rc rid,
          findIndex h s.dmsFile.file s.ixmBucketMgr record =
            .ok (rc, some rid) →
          Returns (s.dmsFile.find rid) := by
  rw [← findIndex_returns_iff]
  unfold rtnFind
  rw [returns_bind]
  constructor
  · rintro ⟨⟨rc, found⟩, hFound, hRest⟩
    refine ⟨⟨_, hFound⟩, ?_⟩
    intro rc' rid hOther
    rw [hFound, Except.ok.injEq, Prod.mk.injEq] at hOther
    rw [hOther.2] at hRest
    exact hRest
  · rintro ⟨⟨⟨rc, found⟩, hFound⟩, hRead⟩
    refine ⟨(rc, found), hFound, ?_⟩
    cases found with
    | none => simp [pure, Except.pure]
    | some rid => exact hRead rc rid hFound

theorem rtnFind_isValid
    {rc : Int}
    {o : BSONObj}
    (hFind : s.rtnFind h record = .ok (rc, some o)) :
    o.isValid = true := by
  unfold rtnFind at hFind
  cases hIndex : findIndex h s.dmsFile.file s.ixmBucketMgr
      record with
  | error fault =>
      rw [hIndex] at hFind
      cases hFind
  | ok r =>
      rcases r with ⟨rc', _ | rid⟩
      · rw [hIndex] at hFind
        cases hFind
      · rw [hIndex] at hFind
        exact DmsFile.find_isValid hFind

/-
  The id check ends, the retry loop does for a record that
  passes it, and so does the entry of the record that was
  written into the index.
-/
structure InsertEnds
    (h : List UInt8 → Nat)
    (exts : List DmsFile.Extension)
    (s : Rtn)
    (record : BSONObj) : Prop where
  check : Caught .assertion
    (isIDExist h s.dmsFile.file s.ixmBucketMgr record)
  page :
    isIDExist h s.dmsFile.file s.ixmBucketMgr record =
      .ok edbOk →
    DmsFile.PageFound record.length exts s.dmsFile
  index :
    isIDExist h s.dmsFile.file s.ixmBucketMgr record =
      .ok edbOk →
    ∀ r data rid, s.dmsFile.insert exts record = .ok r →
      r.rc = edbOk → r.written = some (data, rid) →
      Caught .assertion
        (createIndex h s.ixmBucketMgr ⟨r.state.file, data⟩ rid)

theorem rtnInsert_caught_iff :
    Caught .assertion (s.rtnInsert h exts record) ↔
      s.InsertEnds h exts record := by
  have hLoop := DmsFile.insert_caught_iff exts s.dmsFile record
  unfold rtnInsert
  rw [caught_bind]
  constructor
  · rintro ⟨hCheck, hRest⟩
    have hPassed :
        isIDExist h s.dmsFile.file s.ixmBucketMgr record =
          .ok edbOk →
        Caught .assertion (s.dmsFile.insert exts record) ∧
          ∀ r data rid,
            s.dmsFile.insert exts record = .ok r →
            r.rc = edbOk → r.written = some (data, rid) →
            Caught .assertion (createIndex h s.ixmBucketMgr
              ⟨r.state.file, data⟩ rid) := by
      intro hOk
      have hInsert := hRest edbOk hOk
      rw [if_neg (by decide), caught_bind] at hInsert
      refine ⟨hInsert.1, ?_⟩
      intro r data rid hResult hCode hWritten
      have hIndex := hInsert.2 r hResult
      simp only [hCode, hWritten] at hIndex
      rw [if_neg (by decide), caught_bind] at hIndex
      exact hIndex.1
    exact ⟨hCheck, fun hOk => hLoop.mp (hPassed hOk).1,
      fun hOk => (hPassed hOk).2⟩
  · intro hEnds
    refine ⟨hEnds.check, ?_⟩
    intro rc hOk
    by_cases hCode : rc = edbOk
    · subst hCode
      rw [if_neg (by decide), caught_bind]
      refine ⟨hLoop.mpr (hEnds.page hOk), ?_⟩
      intro r hResult
      by_cases hFailed : r.rc = edbOk
      · simp only [hFailed]
        rw [if_neg (by decide)]
        cases hWritten : r.written with
        | none => simp [pure, Except.pure]
        | some w =>
            rcases w with ⟨data, rid⟩
            simp only
            rw [caught_bind]
            refine ⟨hEnds.index hOk r data rid hResult hFailed
              hWritten, ?_⟩
            rintro ⟨rc', ixm⟩ _
            simp [pure, Except.pure]
      · simp only
        rw [if_pos hFailed]
        simp [pure, Except.pure]
    · rw [if_pos hCode]
      simp [pure, Except.pure]

/- On a store whose live records are indexed, calls return. -/
namespace Agrees

theorem rtnRemove_returns
    (hAgrees : Agrees h s ∅)
    (hForm : record.WellFormed) :
    Returns (s.rtnRemove h record) := by
  rcases hAgrees.rtnRemove_cases hForm with
    ⟨_, _, _, t, _, _, _, hResult, _⟩ | ⟨_, hResult⟩
  · exact ⟨(edbOk, t), hResult⟩
  · exact ⟨(edbInvalidArg, s), hResult⟩

theorem rtnFind_returns
    (hAgrees : Agrees h s ∅)
    (hForm : record.WellFormed) :
    Returns (s.rtnFind h record) := by
  rcases hAgrees.rtnFind_cases hForm with
    ⟨_, _, rid, _, _, _, hResult⟩ | ⟨_, hResult⟩
  · exact ⟨(edbOk, some (s.dmsFile.object rid)), hResult⟩
  · exact ⟨(edbInvalidArg, none), hResult⟩

theorem insertEnds
    (hAgrees : Agrees h s ∅)
    (hForm : record.WellFormed)
    (hInsert : Insertable h s record)
    {ext : DmsFile.Extension}
    (hClean : ext.Clean)
    (exts : List DmsFile.Extension) :
    s.InsertEnds h (ext :: exts) record := by
  rw [← rtnInsert_caught_iff]
  rcases hAgrees.rtnInsert hForm hInsert hClean exts with
    ⟨rc, t, hResult, _⟩
  exact Or.inl ⟨(rc, t), hResult⟩

end Agrees

end Rtn

end EmeraldDb
