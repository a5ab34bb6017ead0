import EmeraldDb.Dms.FileInvariant
import EmeraldDb.Lib.Crash
import EmeraldDb.Lib.Returns

/-
  The writes of the data file, one after the other.

  The calls of the data file are functions from states to
  states; here are the stores, block copies and appends that
  each of them makes, in the order of the source.  Making all
  of them leaves the file that the call leaves.

  Key definitions include:
    * `DmsFile.extendWrites`
    * `Page.recoverWrites`
    * `DmsFile.recordWrites`
    * `DmsFile.insertWrites`
    * `DmsFile.removeWrites`

  Key results include:
    * `DmsFile.written_insertWrites`
    * `DmsFile.written_removeWrites`
-/

namespace EmeraldDb

open Disk

/- The file of a process, as it is on the disk. -/
def DmsFile.disk (s : DmsFile) : Disk :=
  ⟨s.file, s.fileSize⟩

------------------------------------------------------------
-- Extension
------------------------------------------------------------

namespace DmsFile

/- Copies of the page header to the first `n` pages. -/
def pageHeaderWrites
    (data : Nat) :
    Nat → List DiskWrite
| 0 => []
| n + 1 =>
    pageHeaderWrites data n ++
      [.block (data + n * dmsPageSize) Page.newHeader 0
        sizeofPageHeader]

/- Page headers of a segment, then the page count. -/
def segmentWrites
    (m : Memory)
    (data : Nat) : List DiskWrite :=
  pageHeaderWrites data dmsPagesPerSegment ++
    [.word 4 ((initPages m data dmsPagesPerSegment).word 4 +
      dmsPagesPerSegment)]

/- The writes of a segment that has been mapped, or none. -/
def mapWrites
    (s : DmsFile)
    (offset : Nat)
    (failure : Option Errno) : List DiskWrite :=
  match ossMmapFileMap s.fileSize offset
      dmsFileSegmentSize failure with
  | (_, none) => []
  | (_, some data) => segmentWrites s.file data

theorem mapWrites_some
    {s : DmsFile}
    {offset data : Nat}
    {failure : Option Errno}
    {rc : Int}
    (hMap : ossMmapFileMap s.fileSize offset
      dmsFileSegmentSize failure = (rc, some data)) :
    s.mapWrites offset failure =
      segmentWrites s.file data := by
  unfold mapWrites
  rw [hMap]

def extendWrites
    (s : DmsFile) :
    Extension → List DiskWrite
| .sizeFails _ => []
| .writeFails written _ =>
    [.append (min written dmsFileSegmentSize)]
| .statFails _ => [.append dmsFileSegmentSize]
| .mapFails errno =>
    .append dmsFileSegmentSize ::
      (s.grow dmsFileSegmentSize).mapWrites s.fileSize
        (some errno)
| .success =>
    .append dmsFileSegmentSize ::
      (s.grow dmsFileSegmentSize).mapWrites s.fileSize none

theorem written_pageHeaderWrites
    (d : Disk)
    (data n : Nat) :
    written (pageHeaderWrites data n) d =
      { d with file := initPages d.file data n } := by
  induction n with
  | zero => rfl
  | succ n ih =>
      rw [pageHeaderWrites, written_append, ih]
      rfl

theorem written_mapWrites
    (s : DmsFile)
    (offset : Nat)
    (failure : Option Errno) :
    written (s.mapWrites offset failure) s.disk =
      (s.mapSegment offset failure).2.disk := by
  unfold mapWrites mapSegment
  cases hMap : ossMmapFileMap s.fileSize offset
      dmsFileSegmentSize failure with
  | mk rc data =>
  cases data with
  | none => rfl
  | some data =>
      simp only [segmentWrites, written_append,
        written_pageHeaderWrites]
      rfl

/- An extended file, then the writes to it. -/
theorem written_grow
    (s : DmsFile)
    (n : Nat)
    (ws : List DiskWrite) :
    written (.append n :: ws) s.disk =
      written ws (s.grow n).disk :=
  rfl

theorem extendFile_success
    (s : DmsFile) :
    (s.extendFile dmsFileSegmentSize none).2 =
      s.grow dmsFileSegmentSize := by
  unfold extendFile
  rw [if_neg (by decide)]

/- A failing extension appends what was written before. -/
theorem extendFile_fails
    (s : DmsFile)
    (written : Nat)
    (errno : Errno) :
    (s.extendFile dmsFileSegmentSize
        (some (written, errno))).2 =
      s.grow (min written dmsFileSegmentSize) := by
  unfold extendFile
  rw [if_neg (by decide)]

theorem written_extendWrites
    (s : DmsFile)
    (ext : Extension) :
    written (s.extendWrites ext) s.disk =
      (s.extendSegment ext).2.disk := by
  cases ext with
  | sizeFails errno => rfl
  | writeFails written errno =>
      rw [extendSegment, extendFile_fails, extendWrites,
        written_grow]
      rfl
  | statFails errno => rfl
  | mapFails errno =>
      rw [extendSegment, extendFile_success, extendWrites,
        written_grow, written_mapWrites]
  | success =>
      rw [extendSegment, extendFile_success, extendWrites,
        written_grow, written_mapWrites]

end DmsFile

------------------------------------------------------------
-- Reorganisation
------------------------------------------------------------

namespace Page

/- The move and the slot of one round of the loop. -/
def recoverStepWrites
    (page : Nat)
    (st : Recover)
    (i : Nat) : List DiskWrite :=
  let off := slot st.mem page i
  if off ≠ dmsSlotEmpty then
    let recordSize := toSigned (recordSize st.mem (page + off))
    let pRight := st.pRight - recordSize
    if st.isRecover then
      [.block (page + pRight).toNat st.mem (page + off)
          recordSize.toNat,
        .word (slotAddress page i) (ofSigned pRight)]
    else []
  else []

/- The writes of the loop over a list of slots. -/
def recoverLoopWrites
    (page : Nat) :
    List Nat → Recover → List DiskWrite
| [], st => [.word (page + 24) (ofSigned st.pRight)]
| i :: is, st =>
    recoverStepWrites page st i ++
      recoverLoopWrites page is (recoverStep page st i)

def recoverWrites
    (m : Memory)
    (page : Nat) : List DiskWrite :=
  recoverLoopWrites page (List.range (numSlots m page))
    ⟨m, dmsPageSize, false⟩

theorem written_recoverStepWrites
    (page : Nat)
    (st : Recover)
    (i n : Nat) :
    written (recoverStepWrites page st i) ⟨st.mem, n⟩ =
      ⟨(recoverStep page st i).mem, n⟩ := by
  unfold recoverStepWrites recoverStep
  by_cases hFull : slot st.mem page i ≠ dmsSlotEmpty
  · simp only [if_pos hFull]
    cases st.isRecover <;> rfl
  · simp only [if_neg hFull]
    rfl

theorem written_recoverLoopWrites
    (page : Nat)
    (is : List Nat)
    (st : Recover)
    (n : Nat) :
    written (recoverLoopWrites page is st) ⟨st.mem, n⟩ =
      ⟨(is.foldl (recoverStep page) st).mem.setWord (page + 24)
        (ofSigned (is.foldl (recoverStep page) st).pRight),
        n⟩ := by
  induction is generalizing st with
  | nil => rfl
  | cons i is ih =>
      rw [recoverLoopWrites, written_append,
        written_recoverStepWrites, ih]
      rfl

/- The writes of a reorganisation do what it does. -/
theorem written_recoverWrites
    (m : Memory)
    (page n : Nat) :
    written (recoverWrites m page) ⟨m, n⟩ =
      ⟨recoverSpace m page, n⟩ :=
  written_recoverLoopWrites page _ ⟨m, dmsPageSize, false⟩ n

end Page

------------------------------------------------------------
-- Insertion
------------------------------------------------------------

namespace DmsFile

/- A record header on the stack of the call. -/
def recordHeader (n : Nat) : Memory :=
  Memory.setWord (Memory.setWord (fun _ => 0) 0 n) 4
    dmsRecordFlagNormal

/- Slot, record header and record data. -/
def dataWrites
    (m : Memory)
    (page : Nat)
    (record : BSONObj) : List DiskWrite :=
  let n := record.length
  let off := offsetData m page n
  [.word (page + Page.slotOffset m page) off,
    .block (page + off) (recordHeader n) 0 sizeofRecord,
    .block (page + off + sizeofRecord) record.mem
      record.objdata n]

/- Slot count, slot offset and free offset. -/
def metadataWrites
    (m : Memory)
    (page off : Nat) : List DiskWrite :=
  let counted :=
    m.setWord (page + 12) (Page.numSlots m page + 1)
  [.word (page + 12) (Page.numSlots m page + 1),
    .word (page + 16)
      (Page.slotOffset counted page + sizeofSlot),
    .word (page + 24) off]

/- The new free space of a page. -/
def freeSpaceWrites
    (m : Memory)
    (page : Nat)
    (changeSize : Int) : List DiskWrite :=
  [.word (page + 20)
    (ofSigned (Page.freeSpace m page + changeSize))]

/-
  The writes of a record to a page with room for it.  They
  end with the data when the data is not an object.
-/
def recordWrites
    (m : Memory)
    (page : Nat)
    (record : BSONObj) : List DiskWrite :=
  let n := record.length
  let off := offsetData m page n
  let data := writeRecord m page record
  dataWrites m page record ++
    match BSONObj.ofData data (page + off + sizeofRecord) with
    | .error _ => []
    | .ok _ =>
        metadataWrites data page off ++
          freeSpaceWrites (writeMetadata data page off) page
            (-(n + sizeofSlot + sizeofRecord : Int))

/- The writes of a reorganisation, if there is one. -/
def prepareWrites
    (s : DmsFile)
    (page n : Nat) : List DiskWrite :=
  if needsRecover s.file page n then
    Page.recoverWrites s.file page
  else []

def insertPageWrites
    (s : DmsFile)
    (pageID : Nat)
    (record : BSONObj) : List DiskWrite :=
  match s.pageToOffset pageID with
  | none => []
  | some page =>
      if Page.magic s.file page ≠ dmsPageMagic then []
      else
        let m := (s.prepared page record.length).file
        s.prepareWrites page record.length ++
          if noRoom m page record.length then []
          else recordWrites m page record

def insertLoopWrites
    (record : BSONObj) :
    List Extension → DmsFile → List DiskWrite
| [], s =>
    let pageID := s.findPage record.length
    if pageID = dmsInvalidPageID then []
    else s.insertPageWrites pageID record
| ext :: exts, s =>
    let pageID := s.findPage record.length
    if pageID = dmsInvalidPageID then
      s.extendWrites ext ++
        if (s.extendSegment ext).1 ≠ 0 then []
        else insertLoopWrites record exts
          (s.extendSegment ext).2
    else s.insertPageWrites pageID record

/- The writes of an insertion. -/
def insertWrites
    (exts : List Extension)
    (s : DmsFile)
    (record : BSONObj) : List DiskWrite :=
  insertLoopWrites record exts s

/- Copying a record header stores its two words. -/
theorem copy_recordHeader
    (m : Memory)
    (a n : Nat) :
    m.copy a (recordHeader n) 0 sizeofRecord =
      (m.setWord a n).setWord (a + 4) dmsRecordFlagNormal := by
  funext x
  by_cases hIn : a ≤ x ∧ x < a + sizeofRecord
  · rcases hIn with ⟨hLow, hHigh⟩
    obtain ⟨i, rfl⟩ := Nat.exists_eq_add_of_le hLow
    have hByte : i < 8 := by
      simp only [sizeofRecord] at hHigh
      omega
    rw [Memory.copy_inside _ _ _ _ _ hByte]
    have hCases : i = 0 ∨ i = 1 ∨ i = 2 ∨ i = 3 ∨ i = 4 ∨
        i = 5 ∨ i = 6 ∨ i = 7 := by
      omega
    rcases hCases with rfl | rfl | rfl | rfl | rfl | rfl |
      rfl | rfl
    all_goals
      simp [recordHeader, Memory.setWord, Nat.add_assoc]
  · rw [Memory.copy_of_disjoint _ _ _ _ _ (by omega)]
    simp only [sizeofRecord] at hIn
    rw [Memory.setWord_of_disjoint _ _ _ (by omega),
      Memory.setWord_of_disjoint _ _ _ (by omega)]

theorem written_dataWrites
    (m : Memory)
    (page n : Nat)
    (record : BSONObj) :
    written (dataWrites m page record) ⟨m, n⟩ =
      ⟨writeRecord m page record, n⟩ := by
  simp only [dataWrites, writeAll, DiskWrite.apply,
    copy_recordHeader]
  rfl

theorem written_metadataWrites
    (m : Memory)
    (page off n : Nat) :
    written (metadataWrites m page off) ⟨m, n⟩ =
      ⟨writeMetadata m page off, n⟩ :=
  rfl

variable {s : DmsFile} {record : BSONObj}

/- The writes of a record do what the call does. -/
theorem written_recordWrites
    {page pageID : Nat}
    {rc : Int}
    {r : InsertResult}
    (hCall : s.insertRecord page pageID record rc = .ok r) :
    written (recordWrites s.file page record) s.disk =
      r.state.disk := by
  unfold insertRecord at hCall
  rcases bind_ok hCall with ⟨o, hData, hRest⟩
  obtain rfl := Except.ok.inj hRest
  simp only [recordWrites, disk, written_append,
    written_dataWrites, hData, written_metadataWrites]
  rfl

theorem written_prepareWrites
    (s : DmsFile)
    (page n : Nat) :
    written (s.prepareWrites page n) s.disk =
      (s.prepared page n).disk := by
  unfold prepareWrites prepared
  split
  · exact Page.written_recoverWrites s.file page s.fileSize
  · rfl

theorem written_insertPageWrites
    {pageID : Nat}
    {rc : Int}
    {r : InsertResult}
    (hCall : s.insertPage pageID record rc = .ok r) :
    written (s.insertPageWrites pageID record) s.disk =
      r.state.disk := by
  unfold insertPageWrites
  cases hOffset : s.pageToOffset pageID with
  | none =>
      unfold insertPage at hCall
      simp only [hOffset] at hCall
      obtain rfl := Except.ok.inj hCall
      rfl
  | some page =>
  rw [insertPage_eq hOffset] at hCall
  simp only
  by_cases hMagic : Page.magic s.file page ≠ dmsPageMagic
  · rw [if_pos hMagic] at hCall ⊢
    obtain rfl := Except.ok.inj hCall
    rfl
  rw [if_neg hMagic] at hCall ⊢
  rw [written_append, written_prepareWrites]
  by_cases hFull : noRoom
      (s.prepared page record.length).file page record.length
  · rw [if_pos hFull] at hCall ⊢
    obtain rfl := Except.ok.inj hCall
    rfl
  · rw [if_neg hFull] at hCall ⊢
    exact written_recordWrites hCall

/- The writes of the loop on a page it finds at once. -/
theorem insertLoopWrites_found
    {exts : List Extension}
    (hFound : s.findPage record.length ≠ dmsInvalidPageID) :
    insertLoopWrites record exts s =
      s.insertPageWrites (s.findPage record.length)
        record := by
  cases exts with
  | nil => simp only [insertLoopWrites, if_neg hFound]
  | cons ext exts =>
      simp only [insertLoopWrites, if_neg hFound]

/- The writes of the loop after an extension. -/
theorem insertLoopWrites_extended
    {ext : Extension}
    {exts : List Extension}
    {t : DmsFile}
    (hInvalid : s.findPage record.length = dmsInvalidPageID)
    (hExtend : s.extendSegment ext = (edbOk, t)) :
    insertLoopWrites record (ext :: exts) s =
      s.extendWrites ext ++
        insertLoopWrites record exts t := by
  simp only [insertLoopWrites, if_pos hInvalid, hExtend]
  rfl

theorem insertLoopWrites_failed
    {ext : Extension}
    {exts : List Extension}
    {t : DmsFile}
    {rc : Int}
    (hInvalid : s.findPage record.length = dmsInvalidPageID)
    (hExtend : s.extendSegment ext = (rc, t))
    (hCode : rc ≠ 0) :
    insertLoopWrites record (ext :: exts) s =
      s.extendWrites ext := by
  simp only [insertLoopWrites, if_pos hInvalid, hExtend,
    if_pos hCode, List.append_nil]

theorem written_insertLoopWrites
    {exts : List Extension}
    {rc : Int}
    {r : InsertResult}
    (hCall : insertLoop record exts rc s = .ok r) :
    written (insertLoopWrites record exts s) s.disk =
      r.state.disk := by
  induction exts generalizing s rc with
  | nil =>
      by_cases hFound :
          s.findPage record.length = dmsInvalidPageID
      · simp [insertLoop, hFound] at hCall
      · rw [insertLoop_found hFound] at hCall
        rw [insertLoopWrites_found hFound]
        exact written_insertPageWrites hCall
  | cons ext exts ih =>
      by_cases hFound :
          s.findPage record.length = dmsInvalidPageID
      · cases hExtend : s.extendSegment ext with
        | mk rc' t =>
        have hWritten := s.written_extendWrites ext
        rw [hExtend] at hWritten
        by_cases hCode : rc' = edbOk
        · rw [hCode] at hExtend
          rw [insertLoop_extended hFound hExtend] at hCall
          rw [insertLoopWrites_extended hFound hExtend,
            written_append, hWritten]
          exact ih hCall
        · rw [insertLoop_failed hFound hExtend hCode] at hCall
          rw [insertLoopWrites_failed hFound hExtend hCode,
            hWritten, ← Except.ok.inj hCall]
      · rw [insertLoop_found hFound] at hCall
        rw [insertLoopWrites_found hFound]
        exact written_insertPageWrites hCall

/- The writes of an insertion do what the insertion does. -/
theorem written_insertWrites
    {exts : List Extension}
    {r : InsertResult}
    (hCall : s.insert exts record = .ok r) :
    written (insertWrites exts s record) s.disk =
      r.state.disk :=
  written_insertLoopWrites hCall

------------------------------------------------------------
-- Removal
------------------------------------------------------------

/- The slot, the flag of the record, the free space. -/
def dropWrites
    (m : Memory)
    (page slotID slot : Nat) : List DiskWrite :=
  let emptied :=
    m.setWord (Page.slotAddress page slotID) dmsSlotEmpty
  let flagged :=
    emptied.setWord (page + slot + 4) dmsRecordFlagDropped
  [.word (Page.slotAddress page slotID) dmsSlotEmpty,
    .word (page + slot + 4) dmsRecordFlagDropped] ++
    freeSpaceWrites flagged page
      (toSigned (Page.recordSize flagged (page + slot)))

/- The writes of a removal. -/
def removeWrites
    (s : DmsFile)
    (rid : DmsRecordID) : List DiskWrite :=
  match s.pageToOffset rid.pageID with
  | none => []
  | some page =>
      let (rc, slot) := s.searchSlot page rid
      if rc ≠ 0 then []
      else if slot = dmsSlotEmpty then []
      else dropWrites s.file page rid.slotID slot

/- The writes of a removal do what the removal does. -/
theorem written_removeWrites
    (s : DmsFile)
    (rid : DmsRecordID) :
    written (s.removeWrites rid) s.disk =
      (s.remove rid).2.disk := by
  unfold removeWrites remove
  cases hOffset : s.pageToOffset rid.pageID with
  | none => rfl
  | some page =>
  simp only
  by_cases hCode : (s.searchSlot page rid).1 ≠ 0
  · rw [if_pos hCode, if_pos hCode]
    rfl
  rw [if_neg hCode, if_neg hCode]
  by_cases hEmpty : (s.searchSlot page rid).2 = dmsSlotEmpty
  · rw [if_pos hEmpty, if_pos hEmpty]
    rfl
  · rw [if_neg hEmpty, if_neg hEmpty]
    rfl

end DmsFile

end EmeraldDb
