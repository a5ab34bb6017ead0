import EmeraldDb.Dms.Crash
import EmeraldDb.Rtn.Store

/-
  Crashes of the record store.

  The process may die at any write of a call, also in the
  middle of a block copy.  The file that it leaves is loaded
  again, and the store is then the one from before the call
  or the one from after it.  A file whose page headers are
  consistent is a store that goes on.

  Key definitions include:
    * `StoreCrash`
    * `Recovered`
    * `DmsFile.Consistent`
    * `RecoverStep`

  Key results include:
    * `crash_atomic`
    * `crashes_refine_map`
-/

namespace EmeraldDb

open Disk IxmBucketManager

------------------------------------------------------------
-- Crashes
------------------------------------------------------------

namespace Rtn

/- The writes of an insertion; the index is not on the disk. -/
def insertWrites
    (h : List UInt8 → Nat)
    (exts : List DmsFile.Extension)
    (s : Rtn)
    (record : BSONObj) : List DiskWrite :=
  match s.ixmBucketMgr.isIDExist h s.dmsFile.file record with
  | .error _ => []
  | .ok rc =>
      if rc ≠ 0 then []
      else DmsFile.insertWrites exts s.dmsFile record

def removeWrites
    (h : List UInt8 → Nat)
    (s : Rtn)
    (record : BSONObj) : List DiskWrite :=
  match s.ixmBucketMgr.removeIndex h s.dmsFile.file record with
  | .ok (_, some recordID, _) =>
      s.dmsFile.removeWrites recordID
  | _ => []

variable {h : List UInt8 → Nat} {s t : Rtn}
variable {record : BSONObj} {rc : Int}

/- The writes of an insertion do what the insertion does. -/
theorem written_insertWrites
    {exts : List DmsFile.Extension}
    (hCall : s.rtnInsert h exts record = .ok (rc, t)) :
    written (s.insertWrites h exts record) s.dmsFile.disk =
      t.dmsFile.disk := by
  rcases bind_ok hCall with ⟨code, hCheck, hRest⟩
  unfold insertWrites
  simp only [hCheck]
  by_cases hCode : code ≠ 0
  · rw [if_pos hCode] at hRest ⊢
    obtain ⟨rfl, rfl⟩ := Prod.mk.inj (Except.ok.inj hRest)
    rfl
  rw [if_neg hCode] at hRest ⊢
  rcases bind_ok hRest with ⟨r, hInsert, hIndex⟩
  rw [DmsFile.written_insertWrites hInsert]
  by_cases hFailed : r.rc ≠ 0
  · simp only [if_pos hFailed] at hIndex
    obtain ⟨rfl, rfl⟩ := Prod.mk.inj (Except.ok.inj hIndex)
    rfl
  simp only [if_neg hFailed] at hIndex
  cases hWritten : r.written with
  | none =>
      simp only [hWritten] at hIndex
      obtain ⟨rfl, rfl⟩ := Prod.mk.inj (Except.ok.inj hIndex)
      rfl
  | some v =>
      rcases v with ⟨data, recordID⟩
      simp only [hWritten] at hIndex
      rcases bind_ok hIndex with ⟨c, _, hEnd⟩
      obtain ⟨rfl, rfl⟩ := Prod.mk.inj (Except.ok.inj hEnd)
      rfl

/- The writes of a removal do what the removal does. -/
theorem written_removeWrites
    (hCall : s.rtnRemove h record = .ok (rc, t)) :
    written (s.removeWrites h record) s.dmsFile.disk =
      t.dmsFile.disk := by
  rcases bind_ok hCall with ⟨⟨code, found, ixm⟩, hIndex, hRest⟩
  unfold removeWrites
  simp only [hIndex]
  cases found with
  | none =>
      obtain ⟨rfl, rfl⟩ := Prod.mk.inj (Except.ok.inj hRest)
      rfl
  | some recordID =>
      obtain ⟨rfl, rfl⟩ := Prod.mk.inj (Except.ok.inj hRest)
      exact DmsFile.written_removeWrites s.dmsFile recordID

end Rtn

/-
  The file that is left when the process dies during a call,
  before its first write, at one of its writes or after the
  last one.
-/
inductive StoreCrash
    (h : List UInt8 → Nat)
    (s : Rtn) :
    StoreOp → Disk → Prop
| insert
    {record : BSONObj}
    {d : Disk}
    (n : Nat)
    (hCrash : Crashed
      (s.insertWrites h (List.replicate n .success) record)
      s.dmsFile.disk d) :
    StoreCrash h s (.insert record) d
| find
    (inRecord : BSONObj) :
    StoreCrash h s (.find inRecord) s.dmsFile.disk
| remove
    {record : BSONObj}
    {d : Disk}
    (hCrash : Crashed (s.removeWrites h record)
      s.dmsFile.disk d) :
    StoreCrash h s (.remove record) d

/- A crash when the call has returned, or is about to. -/
theorem StoreStep.crashed
    {h : List UInt8 → Nat}
    {s t : Rtn}
    {op : StoreOp}
    {answer : StoreAnswer}
    (hStep : StoreStep h s (op, answer) t) :
    StoreCrash h s op t.dmsFile.disk := by
  cases hStep with
  | insert n hCall =>
      apply StoreCrash.insert n
      rw [← Rtn.written_insertWrites hCall]
      exact Cut.complete _ _
  | find hCall => exact .find _
  | remove hCall =>
      apply StoreCrash.remove
      rw [← Rtn.written_removeWrites hCall]
      exact Cut.complete _ _

------------------------------------------------------------
-- Loading What a Crash Left
------------------------------------------------------------

namespace DmsFile

variable {h : List UInt8 → Nat} {s t : DmsFile} {d : Disk}
variable {rid : DmsRecordID}

/- A file that shows the records of a good one is an image. -/
theorem Shows.image
    (hShows : Shows s d)
    (hGood : Good s)
    (hFew : s.body.length ≤ 16) :
    Image d.file d.fileSize s.body.length := by
  refine ⟨hFew, hShows.count, hShows.fits, ?_⟩
  intro p hp
  exact (hShows.page p hp).readable (hGood.page p hp)

/- A state on that file has the same live records. -/
theorem Shows.live_iff
    (hShows : Shows s d)
    (hFile : t.file = d.file)
    (hBody : t.body.length = s.body.length)
    (rid : DmsRecordID) :
    t.Live rid ↔ s.Live rid := by
  simp only [Live, numPages, hFile, hBody]
  constructor
  · rintro ⟨hIn, hLive⟩
    exact ⟨hIn, ((hShows.page _ hIn).live_iff _).mp hLive⟩
  · rintro ⟨hIn, hLive⟩
    exact ⟨hIn, ((hShows.page _ hIn).live_iff _).mpr hLive⟩

theorem Shows.kept
    (hShows : Shows s d)
    (hFile : t.file = d.file)
    (hLive : s.Live rid) :
    Kept s t rid := by
  apply kept_of_page
  rw [hFile]
  exact (hShows.page _ hLive.1).kept hLive.2

/- The records that show have distinct keys if they had. -/
theorem Shows.distinctKeys
    (hShows : Shows s d)
    (hGood : Good s)
    (hKeyed : ∀ rid, s.Live rid → ∃ k, s.HasKey rid k)
    (hDistinct : Rtn.Distinct s) :
    DistinctKeys d.file s.body.length := by
  have hLive : ∀ rid, rid ∈ liveIn d.file s.body.length ↔
      s.Live rid :=
    hShows.live_iff (t := { s with file := d.file }) rfl rfl
  have hKey : ∀ rid, s.Live rid → ∀ k,
      (KeyAt d.file (recordAddress d.file rid) k ↔
        s.HasKey rid k) :=
    fun rid hl k => (hShows.kept
      (t := { s with file := d.file }) rfl hl).keyAt_iff
      (hGood.form hl) (hKeyed rid hl) k
  refine ⟨?_, ?_⟩
  · intro rid hIn
    rw [hLive] at hIn
    rcases hKeyed rid hIn with ⟨k, hHas⟩
    exact ⟨k, (hKey rid hIn k).mpr hHas⟩
  · intro rid hIn rid' hIn' k hHas hHas'
    rw [hLive] at hIn hIn'
    rw [hKey rid hIn] at hHas
    rw [hKey rid' hIn'] at hHas'
    exact hDistinct rid rid' k hIn hIn' hHas hHas'

/- What the load of a file that shows good records builds. -/
structure Reloaded
    (h : List UInt8 → Nat)
    (s : DmsFile)
    (d : Disk)
    (t : DmsFile)
    (mgr : IxmBucketManager) : Prop where
  shown : Shows s d
  few : s.body.length ≤ 16
  loaded : LoadedTo h d.file d.fileSize (t, mgr)
    s.body.length (s.body.length * dmsPagesPerSegment)
    (liveIn d.file s.body.length)

namespace Reloaded

variable {mgr : IxmBucketManager}

theorem body
    (hLoad : Reloaded h s d t mgr) :
    t.body = (List.range s.body.length).map segmentOffset :=
  hLoad.loaded.body

theorem length
    (hLoad : Reloaded h s d t mgr) :
    t.body.length = s.body.length := by
  rw [hLoad.body, List.length_map, List.length_range]

theorem live_iff
    (hLoad : Reloaded h s d t mgr)
    (rid : DmsRecordID) :
    t.Live rid ↔ s.Live rid :=
  hLoad.shown.live_iff hLoad.loaded.file hLoad.length rid

theorem kept
    (hLoad : Reloaded h s d t mgr)
    (hLive : s.Live rid) :
    Kept s t rid :=
  hLoad.shown.kept hLoad.loaded.file hLive

/- The index covers the live records. -/
theorem covers
    (hLoad : Reloaded h s d t mgr) :
    Covers h t.file t.addr mgr { rid | t.Live rid } := by
  have hFile : t.file = d.file := hLoad.loaded.file
  have hIndex := hLoad.loaded.index
  simp only [addr, hFile]
  apply hIndex.congr
  intro rid
  simp only [liveIn, Set.mem_ofPred_eq, Live, InUse, numPages,
    hLoad.length, hFile]

/- A live record is found with its own bytes. -/
theorem find
    (hLoad : Reloaded h s d t mgr)
    (hGood : Good s)
    (hLive : t.Live rid) :
    t.find rid = .ok (edbOk, some (t.object rid)) := by
  have hFew := hLoad.few
  have hOld := (hLoad.live_iff rid).mp hLive
  have hFile : t.file = d.file := hLoad.loaded.file
  have hFlag := (hLoad.shown.page _ hOld.1).flag
    (hGood.page _ hOld.1) hOld.2
  have hForm : (t.object rid).WellFormed :=
    (hGood.form hOld).congr _ (hLoad.kept hOld).same
  -- ids of pages are translated whatever the file's length
  have hLayout : Layout
      { t with
        file := s.file
        fileSize := segmentOffset t.body.length } := by
    refine ⟨hLoad.loaded.header, ?_, rfl, ?_, ?_⟩
    · rw [hLoad.length]
      exact hLoad.body
    · have hCount := hGood.count
      simp only [headerSize, numPages] at hCount ⊢
      rw [hLoad.length]
      exact hCount
    · rw [hLoad.length]
      simp only [maxSegments]
      omega
  have hOffset : t.pageToOffset rid.pageID =
      some (pageAddress rid.pageID) :=
    hLayout.pageToOffset_of_lt hLive.1
  unfold DmsFile.find
  simp only [hOffset, searchSlot_of_live hLive]
  rw [if_neg (by simp), if_neg hLive.2.2,
    if_neg (by rw [hFile, hFlag]; decide)]
  simp only [bind, Except.bind, pure, Except.pure]
  rw [show BSONObj.ofData t.file
    (pageAddress rid.pageID + Page.slot t.file
      (pageAddress rid.pageID) rid.slotID + sizeofRecord) =
    .ok (t.object rid) from hForm.ofData_eq]

end Reloaded

end DmsFile

/-
  A store that holds the documents of a map and answers
  lookups from it.
-/
structure Recovered
    (h : List UInt8 → Nat)
    (t : Rtn)
    (f : Contents) : Prop where
  map : Represents t.dmsFile f
  finds : ∀ inRecord, inRecord.WellFormed →
    ∃ answer, StoreStep h t (.find inRecord, answer) t ∧
      MapStep f (.find inRecord, answer) f

section Reloading

variable {h : List UInt8 → Nat} {s t : Rtn} {d : Disk}
variable {f : Contents}

/- A reloaded store answers from the map of the old one. -/
theorem Simulates.recovered
    (hSim : Simulates h s f)
    (hLoad : DmsFile.Reloaded h s.dmsFile d t.dmsFile
      t.ixmBucketMgr) :
    Recovered h t f := by
  have hGood := hSim.agrees.file
  have hMap : Represents t.dmsFile f :=
    hSim.map.of_kept hGood hSim.agrees.keyed hLoad.live_iff
      (fun rid hLive => hLoad.kept hLive)
  refine ⟨hMap, ?_⟩
  intro q hForm
  rcases hForm.hasId_or_none with
    ⟨off, k, hId⟩ | ⟨hNone, hNoKey⟩
  · rcases hLoad.covers.findIndex_cases hId with
      ⟨rid, hLive, hKey, hFound⟩ | ⟨hAbsent, hMissed⟩
    · have hCall : t.rtnFind h q =
          .ok (edbOk, some (t.dmsFile.object rid)) := by
        simp only [Rtn.rtnFind, hFound, bind, Except.bind]
        exact hLoad.find hGood hLive
      exact ⟨_, .find hCall, .found hId.idKey_eq
        ((hMap.mem k _).mpr ⟨rid, hLive, hKey, rfl⟩)⟩
    · have hCall : t.rtnFind h q =
          .ok (edbInvalidArg, none) := by
        simp only [Rtn.rtnFind, hMissed, bind, Except.bind]
        rfl
      refine ⟨_, .find hCall, .missed ?_ (by decide)⟩
      intro k' hKey
      obtain rfl : k = k' :=
        Option.some.inj (hId.idKey_eq.symm.trans hKey)
      exact hMap.absent_iff.mpr (fun rid hLive =>
        hAbsent rid hLive)
  · have hMissed : findIndex h t.dmsFile.file
        t.ixmBucketMgr q = .ok (edbInvalidArg, none) :=
      findIndex_of_none hNone
    have hCall : t.rtnFind h q =
        .ok (edbInvalidArg, none) := by
      simp only [Rtn.rtnFind, hMissed, bind, Except.bind]
      rfl
    refine ⟨_, .find hCall, .missed ?_ (by decide)⟩
    intro k' hKey
    rw [hNoKey] at hKey
    simp at hKey

/- Starting the store opens its data file. -/
theorem Rtn.dmsFile_of_init
    {creation : DmsFile.HeaderCreation}
    {failure : Nat → Option Errno}
    (hInit : Rtn.init h creation failure d.file d.fileSize =
      .ok (edbOk, t)) :
    DmsFile.init h creation failure d.file d.fileSize =
      .ok (edbOk, (t.dmsFile, t.ixmBucketMgr)) := by
  rcases bind_ok hInit with ⟨⟨rc, dms, ixm⟩, hResult, hRest⟩
  obtain ⟨rfl, rfl⟩ := Prod.mk.inj (Except.ok.inj hRest)
  exact hResult

/- A file with a header is opened by loading it. -/
theorem DmsFile.Shows.init_eq
    {s : DmsFile}
    (hShows : DmsFile.Shows s d)
    (creation : DmsFile.HeaderCreation)
    (failure : Nat → Option Errno) :
    DmsFile.init h creation failure d.file d.fileSize =
      DmsFile.loadData h failure
        (DmsFile.opened d.file d.fileSize,
          IxmBucketManager.init) := by
  have hFits := hShows.fits
  simp only [DmsFile.segmentOffset, dmsFileHeaderSize]
    at hFits
  rw [DmsFile.init, if_neg (by omega)]

/- A restart that succeeds has loaded the records shown. -/
theorem Simulates.reloaded_of_init
    (hSim : Simulates h s f)
    (hShows : DmsFile.Shows s.dmsFile d)
    (hFew : s.dmsFile.body.length ≤ 16)
    {creation : DmsFile.HeaderCreation}
    {failure : Nat → Option Errno}
    (hInit : Rtn.init h creation failure d.file d.fileSize =
      .ok (edbOk, t)) :
    DmsFile.Reloaded h s.dmsFile d t.dmsFile
      t.ixmBucketMgr := by
  have hImage := hShows.image hSim.agrees.file hFew
  have hLoad := Rtn.dmsFile_of_init hInit
  rw [hShows.init_eq] at hLoad
  rcases DmsFile.Image.loadData (h := h)
      (s := DmsFile.opened d.file d.fileSize) hImage failure
      rfl rfl with
    ⟨u, hResult, hDone⟩ | ⟨rc, u, hResult, hCode, _⟩
  · rw [hLoad] at hResult
    obtain rfl := (Prod.mk.inj (Except.ok.inj hResult)).2
    exact ⟨hShows, hFew, hDone⟩
  · rw [hLoad] at hResult
    exact absurd
      (Prod.mk.inj (Except.ok.inj hResult)).1.symm hCode

/- A restart in which no mapping fails succeeds. -/
theorem Simulates.restarts
    (hSim : Simulates h s f)
    (hShows : DmsFile.Shows s.dmsFile d)
    (hFew : s.dmsFile.body.length ≤ 16)
    (creation : DmsFile.HeaderCreation) :
    ∃ t, Rtn.init h creation (fun _ => none) d.file
        d.fileSize = .ok (edbOk, t) ∧ Recovered h t f := by
  have hGood := hSim.agrees.file
  have hImage := hShows.image hGood hFew
  have hDistinct := hShows.distinctKeys hGood
    hSim.agrees.keyed hSim.map.distinct
  rcases DmsFile.Image.loadData (h := h)
      (s := DmsFile.opened d.file d.fileSize) hImage
      (fun _ => none) rfl rfl with
    ⟨⟨dms, ixm⟩, hResult, _⟩ | ⟨_, _, _, _, hStop⟩
  · have hInit : Rtn.init h creation (fun _ => none) d.file
        d.fileSize = .ok (edbOk, ⟨dms, ixm⟩) := by
      simp only [Rtn.init, hShows.init_eq, hResult, bind,
        Except.bind, pure, Except.pure]
    exact ⟨_, hInit, hSim.recovered
      (hSim.reloaded_of_init hShows hFew hInit)⟩
  · rcases hStop with ⟨i, hFailure⟩ | hNot
    · exact absurd rfl hFailure
    · exact absurd hDistinct hNot

/- The file after a call is the one after its insertion. -/
theorem Rtn.rtnInsert_dmsFile
    {record : BSONObj}
    {exts : List DmsFile.Extension}
    {r : DmsFile.InsertResult}
    {rc : Int}
    (hCheck : s.ixmBucketMgr.isIDExist h s.dmsFile.file
      record = .ok edbOk)
    (hInsert : s.dmsFile.insert exts record = .ok r)
    (hCall : s.rtnInsert h exts record = .ok (rc, t)) :
    t.dmsFile = r.state := by
  simp only [rtnInsert, hCheck, hInsert, bind, Except.bind,
    ne_eq, not_true, if_false] at hCall
  split at hCall
  · rw [← (Prod.mk.inj (Except.ok.inj hCall)).2]
  · split at hCall
    · rw [← (Prod.mk.inj (Except.ok.inj hCall)).2]
    · split at hCall
      · cases hCall
      · rw [← (Prod.mk.inj (Except.ok.inj hCall)).2]

/- A crash of an insertion that the store admits. -/
theorem Simulates.crashed_insert
    (hSim : Simulates h s f)
    {record : BSONObj}
    (hForm : record.WellFormed)
    (hInsert : Rtn.Insertable h s record)
    {n : Nat}
    (hCrash : Crashed
      (s.insertWrites h (List.replicate n .success) record)
      s.dmsFile.disk d) :
    ∃ u g, DmsFile.Shows u.dmsFile d ∧ Simulates h u g ∧
      LossyStep f (.insert record, none) g := by
  have hGood := hSim.agrees.file
  have hKeyed := hSim.agrees.keyed
  unfold Rtn.insertWrites at hCrash
  rcases hSim.agrees.isIDExist_cases hForm with
    ⟨_, _, _, _, hCheck⟩ | ⟨rc, hCode, hCheck⟩
  · simp only [hCheck] at hCrash
    rcases hGood.crashed_insert hForm (hInsert hCheck) hCrash
      with ⟨u, hSame, _, hShows⟩ | ⟨r, hResult, hShows⟩
    · exact ⟨⟨u, s.ixmBucketMgr⟩, f, hShows,
        ⟨hSim.agrees.unchanged hSame,
          hSim.map.unchanged hGood hKeyed hSame⟩,
        .lostRequest f _⟩
    · have hOne : ∃ m, s.dmsFile.insert
          (List.replicate (m + 1) .success) record =
            .ok r := by
        cases n with
        | zero => exact ⟨0, DmsFile.insert_of_nil hResult _⟩
        | succ m => exact ⟨m, hResult⟩
      rcases hOne with ⟨m, hResult'⟩
      have hClean : DmsFile.Extension.success.Clean := trivial
      rcases hSim.agrees.rtnInsert hForm hInsert hClean
          (List.replicate m .success) with
        ⟨rc, t, hCall, _, _⟩
      have hStep : AdmissibleStep h s
          (.insert record, ⟨rc, none⟩) t :=
        ⟨⟨hForm, hInsert⟩, .insert (m + 1) hCall⟩
      rcases hSim.step hStep with ⟨g, hMap, hNext⟩
      refine ⟨t, g, ?_, hNext, .lostReply hMap⟩
      rw [Rtn.rtnInsert_dmsFile hCheck hResult' hCall]
      exact hShows
  · simp only [hCheck] at hCrash
    rw [if_pos hCode] at hCrash
    rw [hCrash.nil_eq]
    exact ⟨s, f, hGood.shows_self, hSim, .lostRequest f _⟩

/- A crash of a removal. -/
theorem Simulates.crashed_remove
    (hSim : Simulates h s f)
    {record : BSONObj}
    (hForm : record.WellFormed)
    (hCrash : Crashed (s.removeWrites h record)
      s.dmsFile.disk d) :
    ∃ u g, DmsFile.Shows u.dmsFile d ∧ Simulates h u g ∧
      LossyStep f (.remove record, none) g := by
  have hGood := hSim.agrees.file
  have hSelf : ∃ u g, DmsFile.Shows u.dmsFile
      s.dmsFile.disk ∧ Simulates h u g ∧
        LossyStep f (.remove record, none) g :=
    ⟨s, f, hGood.shows_self, hSim, .lostRequest f _⟩
  unfold Rtn.removeWrites at hCrash
  rcases hForm.hasId_or_none with
    ⟨off, k, hId⟩ | ⟨hNone, _⟩
  · rcases hSim.agrees.unindexed hId with
      ⟨rid, mgr, hIn, _, hIndex, _⟩ | ⟨_, hIndex⟩
    · simp only [hIndex] at hCrash
      rcases hGood.remove hIn.1 with ⟨u, hRemove, _⟩
      have hCall : s.rtnRemove h record =
          .ok (edbOk, ⟨u, mgr⟩) := by
        simp only [Rtn.rtnRemove, hIndex, hRemove, bind,
          Except.bind]
        rfl
      have hStep : AdmissibleStep h s
          (.remove record, ⟨edbOk, none⟩) ⟨u, mgr⟩ :=
        ⟨hForm, .remove hCall⟩
      rcases hSim.step hStep with ⟨g, hMap, hNext⟩
      rcases hGood.crashed_remove hIn.1 hCrash with
        hOld | hNew
      · exact ⟨s, f, hOld, hSim, .lostRequest f _⟩
      · exact ⟨⟨u, mgr⟩, g, hNew u hRemove, hNext,
          .lostReply hMap⟩
    · simp only [hIndex] at hCrash
      rw [hCrash.nil_eq]
      exact hSelf
  · rw [show removeIndex h s.dmsFile.file s.ixmBucketMgr
      record = .ok (edbInvalidArg, none, s.ixmBucketMgr)
      from removeIndex_of_none hNone] at hCrash
    rw [hCrash.nil_eq]
    exact hSelf

/-
  What a crash of an admissible call leaves shows the records
  of the store before the call or of the one after it.
-/
theorem Simulates.crashed
    (hSim : Simulates h s f)
    {op : StoreOp}
    (hGuard : Admissible h s op)
    (hCrash : StoreCrash h s op d) :
    ∃ u g, DmsFile.Shows u.dmsFile d ∧ Simulates h u g ∧
      LossyStep f (op, none) g := by
  cases hCrash with
  | insert n hCrash =>
      exact hSim.crashed_insert hGuard.1 hGuard.2 hCrash
  | find inRecord =>
      exact ⟨s, f, hSim.agrees.file.shows_self, hSim,
        .lostRequest f _⟩
  | remove hCrash => exact hSim.crashed_remove hGuard hCrash

end Reloading

------------------------------------------------------------
-- Stores That Go On
------------------------------------------------------------

/-
  The header of a page agrees with its slots: the slot offset
  is where the slots end, and no record lies below the free
  offset.
-/
structure Page.Consistent
    (m : Memory)
    (page : Nat) : Prop where
  magic : Page.magic m page = dmsPageMagic
  slots : Page.slotOffset m page = sizeofPageHeader +
    Page.numSlots m page * sizeofSlot
  room : Page.slotOffset m page ≤ Page.freeOffset m page
  bound : Page.freeOffset m page ≤ dmsPageSize
  low : ∀ k, Page.Live m page k →
    Page.freeOffset m page ≤ Page.slot m page k

/-
  The file has the length that its page count asks for, and
  all its pages are consistent.
-/
structure DmsFile.Consistent (d : Disk) : Prop where
  size : d.fileSize =
    dmsFileHeaderSize + d.file.word 4 * dmsPageSize
  page : ∀ p < d.file.word 4,
    Page.Consistent d.file (DmsFile.pageAddress p)

/- The file of a process that is in good order. -/
theorem DmsFile.Good.consistent
    {s : DmsFile}
    (hGood : DmsFile.Good s) :
    DmsFile.Consistent s.disk := by
  have hCount : s.disk.file.word 4 = s.numPages := hGood.count
  refine ⟨?_, ?_⟩
  · rw [hCount, show s.disk.fileSize = _ from hGood.size]
    simp only [DmsFile.numPages, DmsFile.segmentOffset,
      dmsPagesPerSegment, dmsPageSize, dmsFileSegmentSize]
    omega
  · intro p hp
    have hPage := hGood.page p (hCount ▸ hp)
    exact ⟨hPage.magic, hPage.slots, hPage.room,
      hPage.bound, fun k hk => (hPage.record k hk).low⟩

/- A consistent page with the records of a good one. -/
theorem Page.Looks.good
    {m m' : Memory}
    {page : Nat}
    (hLooks : Page.Looks m m' page)
    (hGood : Page.Good m page)
    (hPage : Page.Consistent m' page) :
    Page.Good m' page := by
  have hRecord : ∀ k, Page.Live m page k →
      Page.Record m' page k ∧
        (Page.object m' page k).length =
          (Page.object m page k).length := by
    intro k hk
    have hLow := hPage.low k ((hLooks.live_iff k).mpr hk)
    rw [hLooks.slot k hk.1] at hLow
    exact (hGood.record k hk).congr (hLooks.slot k hk.1) hLow
      (hLooks.same k hk)
  refine ⟨hPage.magic, hPage.slots, hPage.room, hPage.bound,
    ?_, ?_⟩
  · intro k hk
    exact (hRecord k ((hLooks.live_iff k).mp hk)).1
  · intro k l hLess hk hl
    rw [hLooks.live_iff] at hk hl
    rw [hLooks.slot k hk.1, hLooks.slot l hl.1,
      (hRecord l hl).2]
    exact hGood.order k l hLess hk hl

section Resuming

variable {h : List UInt8 → Nat} {s t : Rtn} {d : Disk}
variable {f : Contents}

/- A consistent file is laid out like the one it shows. -/
theorem DmsFile.Shows.layout
    {s : DmsFile}
    (hShows : DmsFile.Shows s d)
    (hGood : DmsFile.Good s)
    (hWhole : DmsFile.Consistent d) :
    DmsFile.Layout
      { s with file := d.file, fileSize := d.fileSize } := by
  refine ⟨hGood.mapped, hGood.body, ?_, hShows.count,
    hGood.bound⟩
  rw [hWhole.size, hShows.count]
  simp only [DmsFile.numPages, DmsFile.segmentOffset,
    dmsPagesPerSegment, dmsPageSize, dmsFileSegmentSize]
  omega

/- What is loaded from a consistent file is good. -/
theorem DmsFile.Reloaded.good
    {s t : DmsFile}
    {mgr : IxmBucketManager}
    (hLoad : DmsFile.Reloaded h s d t mgr)
    (hGood : DmsFile.Good s)
    (hWhole : DmsFile.Consistent d) :
    DmsFile.Good t := by
  have hLayout := hLoad.shown.layout hGood hWhole
  have hFile : t.file = d.file := hLoad.loaded.file
  have hSize : t.fileSize = d.fileSize := hLoad.loaded.size
  have hBody := hLoad.length
  have hPages : t.numPages = s.numPages := by
    rw [DmsFile.numPages, hBody]
    rfl
  have hCount := hLoad.shown.count
  refine ⟨⟨hLoad.loaded.header, ?_, ?_, ?_, ?_⟩, ?_, ?_⟩
  · rw [hBody]
    exact hLoad.body
  · rw [hBody, hSize]
    exact hLayout.size
  · rw [DmsFile.headerSize, hFile, hPages]
    exact hCount
  · rw [hBody]
    exact hGood.bound
  · intro p hp
    rw [hPages] at hp
    rw [hFile]
    exact (hLoad.shown.page p hp).good (hGood.page p hp)
      (hWhole.page p (hCount ▸ hp))
  · rw [hPages, hFile]
    exact hLoad.loaded.free

/- A store that is started on a consistent file goes on. -/
theorem Simulates.resumed
    (hSim : Simulates h s f)
    (hShows : DmsFile.Shows s.dmsFile d)
    (hWhole : DmsFile.Consistent d)
    {creation : DmsFile.HeaderCreation}
    {failure : Nat → Option Errno}
    (hInit : Rtn.init h creation failure d.file d.fileSize =
      .ok (edbOk, t)) :
    Simulates h t f := by
  have hGood := hSim.agrees.file
  have hLayout := hShows.layout hGood hWhole
  have hFew : s.dmsFile.body.length ≤ 16 :=
    (hLayout.loadSegments_of_init
      (Rtn.dmsFile_of_init hInit)).2
  have hLoad := hSim.reloaded_of_init hShows hFew hInit
  refine ⟨⟨hLoad.good hGood hWhole, ?_, ?_, ?_⟩,
    (hSim.recovered hLoad).map⟩
  · apply hLoad.covers.congr
    intro rid
    exact (Rtn.Agrees.settled_empty _ rid).symm
  · intro rid hLive
    rw [hLoad.live_iff] at hLive
    rcases hSim.agrees.keyed rid hLive with ⟨k, hKey⟩
    exact ⟨k, (hLoad.kept hLive).keyAt
      (hGood.form hLive) hKey⟩
  · intro rid hIn
    exact absurd hIn (Set.notMem_empty rid)

end Resuming

/-
  A call that returns, or one during which the process dies
  and leaves a consistent file, on which the next process is
  started.
-/
inductive RecoverStep
    (h : List UInt8 → Nat) :
    Rtn → StoreOp × Option StoreAnswer → Rtn → Prop
| call
    {s t : Rtn}
    {op : StoreOp}
    {answer : StoreAnswer}
    (hStep : StoreStep h s (op, answer) t) :
    RecoverStep h s (op, some answer) t
| crash
    {s t : Rtn}
    {op : StoreOp}
    {d : Disk}
    {creation : DmsFile.HeaderCreation}
    {failure : Nat → Option Errno}
    (hCrash : StoreCrash h s op d)
    (hWhole : DmsFile.Consistent d)
    (hInit : Rtn.init h creation failure d.file d.fileSize =
      .ok (edbOk, t)) :
    RecoverStep h s (op, none) t

/- Steps whose call is admissible. -/
abbrev AdmissibleRecover (h : List UInt8 → Nat) :
    Rtn → StoreOp × Option StoreAnswer → Rtn → Prop :=
  Guarded (fun s a => Admissible h s a.1) (RecoverStep h)

/- A call or a crash of one is a step of the map. -/
theorem Simulates.recoverStep
    {h : List UInt8 → Nat}
    {s t : Rtn}
    {f : Contents}
    {a : StoreOp × Option StoreAnswer}
    (hSim : Simulates h s f)
    (hStep : AdmissibleRecover h s a t) :
    ∃ g, LossyStep f a g ∧ Simulates h t g := by
  rcases hStep with ⟨hGuard, hStep⟩
  cases hStep with
  | call hCall =>
      rcases hSim.step ⟨hGuard, hCall⟩ with ⟨g, hMap, hNext⟩
      exact ⟨g, .answered hMap, hNext⟩
  | crash hCrash hWhole hInit =>
      rcases hSim.crashed hGuard hCrash with
        ⟨u, g, hShows, hNext, hMap⟩
      exact ⟨g, hMap, hNext.resumed hShows hWhole hInit⟩

theorem Simulates.recoverSteps
    {h : List UInt8 → Nat}
    {file : Memory}
    {s t : Rtn}
    {as : List (StoreOp × Option StoreAnswer)}
    (hInit : Rtn.init h .success (fun _ => none) file 0 =
      .ok (edbOk, s))
    (hRun : Steps (AdmissibleRecover h) s as t) :
    ∃ f, Steps LossyStep Contents.empty as f ∧
      Simulates h t f := by
  rw [Rtn.init_created] at hInit
  obtain rfl := (Prod.mk.inj (Except.ok.inj hInit)).2
  exact hRun.simulation
    (fun _ _ _ _ hSim hStep => hSim.recoverStep hStep)
    (Simulates.created h file)

/- The process that dies when the second one is inserted. -/
theorem twoDocuments_crash :
    AdmissibleRecover hashFunc
      (insertDocument emptyStore 1 22)
      (.insert (textDocument 2 22), none)
      (restartStore twoDocuments) := by
  rcases twoDocuments_steps with ⟨hFirst, hSecond⟩
  -- What the process has left is the file of a good store.
  rcases (Simulates.created hashFunc (fun _ => 0)).step
      hFirst with ⟨_, _, hSim⟩
  rcases hSim.step hSecond with ⟨_, _, hNext⟩
  exact ⟨hSecond.1, .crash hSecond.2.crashed
    hNext.agrees.file.consistent
    (call_eq (by decide +kernel))⟩

/-
  The process dies in the second insertion, right after the
  slot count of the page has been stored.
-/
def countedDisk : Disk :=
  written
    (((insertDocument emptyStore 1 22).insertWrites hashFunc
      [.success] (textDocument 2 22)).take 4)
    (insertDocument emptyStore 1 22).dmsFile.disk

-- The slot offset is behind.
example :
    (Page.numSlots countedDisk.file dmsFileHeaderSize,
      Page.slotOffset countedDisk.file dmsFileHeaderSize) =
        (2, sizeofPageHeader + sizeofSlot) := by
  decide +kernel

end EmeraldDb
