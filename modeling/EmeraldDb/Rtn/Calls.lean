import EmeraldDb.Rtn.Agreement

/-
  What the calls of the record store do when every live
  record is indexed.

  Key definitions include:
    * `Rtn.Distinct`
    * `Rtn.Insertable`

  Key results include:
    * `Rtn.Agrees.rtnInsert`
    * `Rtn.Agrees.rtnFind_cases`
    * `Rtn.Agrees.rtnRemove_cases`
-/

namespace EmeraldDb

open IxmBucketManager

namespace Rtn

variable {h : List UInt8 → Nat} {s t : Rtn}
variable {record : BSONObj}

/- No two live records have the same key. -/
def Distinct (s : DmsFile) : Prop :=
  ∀ rid rid' k, s.Live rid → s.Live rid' →
    s.HasKey rid k → s.HasKey rid' k → rid = rid'

/-
  If the id check lets the record through, the data file can
  place it.
-/
def Insertable
    (h : List UInt8 → Nat)
    (s : Rtn)
    (record : BSONObj) : Prop :=
  isIDExist h s.dmsFile.file s.ixmBucketMgr record =
      .ok edbOk →
    s.dmsFile.Placeable record

/- How a call of `rtnInsert` that returns has ended. -/
inductive Inserted
    (h : List UInt8 → Nat)
    (s : Rtn)
    (record : BSONObj) :
    Int → Rtn → Prop
| added
    {t : Rtn}
    {rid : DmsRecordID}
    {off : Nat}
    {k : BSONElement.Key}
    (hId : HasId record off k)
    (hFresh : ∀ r, s.dmsFile.Live r →
      ¬ s.dmsFile.HasKey r k)
    (hAdded : DmsFile.Added s.dmsFile t.dmsFile rid record)
    (hAgrees : Agrees h t ∅) :
    Inserted h s record edbOk t
| refused
    {t : Rtn}
    {rc : Int}
    (hCode : rc ≠ edbOk)
    (hSame : DmsFile.Unchanged s.dmsFile t.dmsFile)
    (hAgrees : Agrees h t ∅) :
    Inserted h s record rc t

------------------------------------------------------------
-- New Stores
------------------------------------------------------------

/- The store on a new data file. -/
def created (file : Memory) : Rtn where
  dmsFile := DmsFile.created file
  ixmBucketMgr := IxmBucketManager.init

theorem init_created
    (h : List UInt8 → Nat)
    (file : Memory) :
    Rtn.init h .success (fun _ => none) file 0 =
      .ok (edbOk, created file) := by
  simp only [Rtn.init, DmsFile.init_created, bind,
    Except.bind, pure, Except.pure]
  rfl

theorem agrees_created
    (h : List UInt8 → Nat)
    (file : Memory) :
    Agrees h (created file) ∅ := by
  have hNone := DmsFile.created_not_live file
  refine ⟨DmsFile.good_created file, ?_, ?_, ?_⟩
  · apply (Covers.init h _ _).congr
    intro rid
    constructor
    · intro hIn
      exact absurd hIn (Set.notMem_empty rid)
    · intro hIn
      exact absurd hIn.1 (hNone rid)
  · intro rid hLive
    exact absurd hLive (hNone rid)
  · intro rid hIn
    exact absurd hIn (Set.notMem_empty rid)

------------------------------------------------------------
-- Calls
------------------------------------------------------------

/- A call that needed no extension ignores the list. -/
theorem rtnInsert_of_nil
    {rc : Int}
    (hCall : s.rtnInsert h [] record = .ok (rc, t))
    (exts : List DmsFile.Extension) :
    s.rtnInsert h exts record = .ok (rc, t) := by
  simp only [Rtn.rtnInsert, bind, Except.bind] at hCall ⊢
  cases hCheck : isIDExist h s.dmsFile.file s.ixmBucketMgr
      record with
  | error e => simp [hCheck] at hCall
  | ok v =>
      simp only [hCheck] at hCall ⊢
      by_cases hCode : v ≠ 0
      · rw [if_pos hCode] at hCall ⊢
        exact hCall
      · rw [if_neg hCode] at hCall ⊢
        cases hInsert : s.dmsFile.insert [] record with
        | error e => simp [hInsert] at hCall
        | ok r =>
            rw [hInsert] at hCall
            rw [DmsFile.insert_of_nil hInsert exts]
            exact hCall

namespace Agrees

/-
  The id check on a store without pending records: the record
  has a new key, or the check fails.
-/
theorem isIDExist_cases
    (hAgrees : Agrees h s ∅)
    (hForm : record.WellFormed) :
    (∃ off k, HasId record off k ∧
        (∀ r, s.dmsFile.Live r → ¬ s.dmsFile.HasKey r k) ∧
        isIDExist h s.dmsFile.file s.ixmBucketMgr record =
          .ok edbOk) ∨
      ∃ rc, rc ≠ edbOk ∧
        isIDExist h s.dmsFile.file s.ixmBucketMgr record =
          .ok rc := by
  rcases hForm.hasId_or_none with
    ⟨off, k, hId⟩ | ⟨hNone, _⟩
  · by_cases hTaken : ∃ rid, s.dmsFile.Live rid ∧
        s.dmsFile.HasKey rid k
    · right
      rcases hTaken with ⟨rid, hLive, hKey⟩
      exact ⟨edbIxmIdExist, by decide,
        hAgrees.index.isIDExist_of_mem hId
          ((settled_empty _ rid).mpr hLive) hKey⟩
    · left
      have hFresh : ∀ r, s.dmsFile.Live r →
          ¬ s.dmsFile.HasKey r k := by
        intro r hLive hKey
        exact hTaken ⟨r, hLive, hKey⟩
      exact ⟨off, k, hId, hFresh,
        hAgrees.index.isIDExist_of_fresh hId
          (fun r hIn => hFresh r hIn.1)⟩
  · right
    exact ⟨edbInvalidArg, by decide, isIDExist_of_none hNone⟩

/- Inserting an insertable record ends, in one of two ways. -/
theorem rtnInsert
    (hAgrees : Agrees h s ∅)
    (hForm : record.WellFormed)
    (hInsert : Insertable h s record)
    {ext : DmsFile.Extension}
    (hClean : ext.Clean)
    (exts : List DmsFile.Extension) :
    ∃ rc t, s.rtnInsert h (ext :: exts) record =
        .ok (rc, t) ∧
      t.dmsFile.body.length ≤ s.dmsFile.body.length + 1 ∧
      Inserted h s record rc t := by
  rcases hAgrees.isIDExist_cases hForm with
    ⟨off, k, hId, hFresh, hCheck⟩ | ⟨rc, hCode, hCheck⟩
  · rcases hAgrees.file.insert hForm (hInsert hCheck) hClean
        exts with ⟨r, hResult, hBody, hOutcome⟩
    simp only [Rtn.rtnInsert, hCheck, hResult, bind,
      Except.bind, ne_eq, not_true, if_false]
    cases hOutcome with
    | refused hCode hSame =>
        rw [if_pos hCode]
        exact ⟨_, _, rfl, hBody,
          .refused hCode hSame (hAgrees.unchanged hSame)⟩
    | added hAdded =>
        rename_i u rid
        have hPending := hAgrees.added hAdded hForm hId
        have hIn : rid ∈ (insert rid ∅ : Set DmsRecordID) :=
          Set.mem_insert _ _
        rcases hPending.created hIn with
          ⟨mgr, hCreate, hSettled⟩
        have hEmpty : (insert rid ∅ : Set DmsRecordID) \
            {rid} = ∅ := by
          simp
        rw [hEmpty] at hSettled
        rw [if_neg (by simp)]
        simp only
        rw [show createIndex h s.ixmBucketMgr
          ⟨u.file, (u.object rid).objdata⟩ rid =
            .ok (edbOk, mgr) from hCreate]
        exact ⟨_, _, rfl, hBody,
          .added hId hFresh hAdded hSettled⟩
  · simp only [Rtn.rtnInsert, hCheck, bind, Except.bind]
    rw [if_pos hCode]
    exact ⟨rc, s, rfl, by omega,
      .refused hCode (DmsFile.Unchanged.refl hAgrees.file)
        hAgrees⟩

/- What an insertion does, however many extensions it had. -/
theorem inserted_of_call
    (hAgrees : Agrees h s ∅)
    (hForm : record.WellFormed)
    (hInsert : Insertable h s record)
    {exts : List DmsFile.Extension}
    (hClean : ∀ ext ∈ exts, ext.Clean)
    {rc : Int}
    (hCall : s.rtnInsert h exts record = .ok (rc, t)) :
    t.dmsFile.body.length ≤ s.dmsFile.body.length + 1 ∧
      Inserted h s record rc t := by
  have hOne : ∃ ext exts', ext.Clean ∧
      s.rtnInsert h (ext :: exts') record = .ok (rc, t) := by
    cases exts with
    | nil =>
        exact ⟨.success, [], trivial, rtnInsert_of_nil hCall _⟩
    | cons ext exts =>
        exact ⟨ext, exts, hClean ext List.mem_cons_self, hCall⟩
  rcases hOne with ⟨ext, exts', hFirst, hCall'⟩
  rcases hAgrees.rtnInsert hForm hInsert hFirst exts' with
    ⟨rc', t', hResult, hBody, hInserted⟩
  rw [hCall'] at hResult
  simp only [Except.ok.injEq, Prod.mk.injEq] at hResult
  rw [hResult.1, hResult.2]
  exact ⟨hBody, hInserted⟩

/- A lookup finds the live record with the key, if any. -/
theorem rtnFind_cases
    (hAgrees : Agrees h s ∅)
    (hForm : record.WellFormed) :
    (∃ off k rid, HasId record off k ∧
        s.dmsFile.Live rid ∧ s.dmsFile.HasKey rid k ∧
        s.rtnFind h record =
          .ok (edbOk, some (s.dmsFile.object rid))) ∨
      ((∀ off k, HasId record off k →
          ∀ rid, s.dmsFile.Live rid →
            ¬ s.dmsFile.HasKey rid k) ∧
        s.rtnFind h record = .ok (edbInvalidArg, none)) := by
  rcases hForm.hasId_or_none with
    ⟨off, k, hId⟩ | ⟨hNone, _⟩
  · rcases hAgrees.index.findIndex_cases hId with
      ⟨rid, hIn, hKey, hFound⟩ | ⟨hAbsent, hMissed⟩
    · left
      refine ⟨off, k, rid, hId, hIn.1, hKey, ?_⟩
      simp only [Rtn.rtnFind, hFound, bind, Except.bind]
      exact hAgrees.file.find hIn.1
    · right
      refine ⟨?_, ?_⟩
      · intro off' k' hId' rid hLive hKey
        exact hAbsent rid ((settled_empty _ rid).mpr hLive)
          (hId'.unique hId ▸ hKey)
      · simp only [Rtn.rtnFind, hMissed, bind, Except.bind]
        rfl
  · right
    refine ⟨?_, ?_⟩
    · intro off k hId
      have hSome := hId.processData_eq.symm.trans hNone
      simp at hSome
    · have hMissed : findIndex h s.dmsFile.file
          s.ixmBucketMgr record = .ok (edbInvalidArg, none) :=
        findIndex_of_none hNone
      simp only [Rtn.rtnFind, hMissed, bind, Except.bind]
      rfl

/- A removal takes out the live record with the key, if any. -/
theorem rtnRemove_cases
    (hAgrees : Agrees h s ∅)
    (hForm : record.WellFormed) :
    (∃ off k rid t, HasId record off k ∧
        s.dmsFile.Live rid ∧ s.dmsFile.HasKey rid k ∧
        s.rtnRemove h record = .ok (edbOk, t) ∧
        t.dmsFile.body = s.dmsFile.body ∧
        DmsFile.Removed s.dmsFile t.dmsFile rid ∧
        Agrees h t ∅) ∨
      ((∀ off k, HasId record off k →
          ∀ rid, s.dmsFile.Live rid →
            ¬ s.dmsFile.HasKey rid k) ∧
        s.rtnRemove h record = .ok (edbInvalidArg, s)) := by
  rcases hForm.hasId_or_none with
    ⟨off, k, hId⟩ | ⟨hNone, _⟩
  · rcases hAgrees.unindexed hId with
      ⟨rid, mgr, hIn, hKey, hResult, hPending⟩ |
        ⟨hAbsent, hResult⟩
    · left
      rcases hPending.removed (Set.mem_insert _ _) with
        ⟨t, hRemove, hRemoved, hBody, hSettled⟩
      have hEmpty : (insert rid ∅ : Set DmsRecordID) \
          {rid} = ∅ := by
        simp
      rw [hEmpty] at hSettled
      refine ⟨off, k, rid, ⟨t, mgr⟩, hId, hIn.1, hKey, ?_,
        hBody, hRemoved, hSettled⟩
      simp only [Rtn.rtnRemove, hResult, bind, Except.bind]
      rw [show s.dmsFile.remove rid = (edbOk, t)
        from hRemove]
      rfl
    · right
      refine ⟨?_, ?_⟩
      · intro off' k' hId' rid hLive hKey
        exact hAbsent rid ((settled_empty _ rid).mpr hLive)
          (hId'.unique hId ▸ hKey)
      · simp only [Rtn.rtnRemove, hResult, bind, Except.bind]
        rfl
  · right
    refine ⟨?_, ?_⟩
    · intro off k hId
      have hSome := hId.processData_eq.symm.trans hNone
      simp at hSome
    · have hMissed : removeIndex h s.dmsFile.file
          s.ixmBucketMgr record =
            .ok (edbInvalidArg, none, s.ixmBucketMgr) :=
        removeIndex_of_none hNone
      simp only [Rtn.rtnRemove, hMissed, bind, Except.bind]
      rfl

end Agrees

end Rtn

end EmeraldDb
