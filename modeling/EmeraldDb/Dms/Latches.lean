import EmeraldDb.Dms.File
import EmeraldDb.Lib.LatchTrace

/-
  The latches of the data file.

  Each call is given again with the operations it makes on
  its latches.  A call that does not hold a latch finds the
  state that other threads have left, so a call that gets a
  latch more than once has one state for each time.

  Key definitions include:
    * `ossMmapFileMapLatched`
    * `DmsFile.insertLatched`
    * `DmsFile.removeLatched`
    * `DmsFile.findLatched`

  Key results include:
    * `ossMmapFileMapLatched_result`
    * `DmsFile.insertLatched_result`
-/

namespace EmeraldDb

open Traced

/-
  `_mutex` and `_extendMutex` of the data file, and the
  `_mutex` of the mapped file below it.
-/
inductive DmsLatch
| mutex
| extendMutex
| mapMutex
deriving DecidableEq

abbrev DmsCall
    (α : Type) : Type :=
  Traced DmsLatch Fault α

------------------------------------------------------------
-- Mapping
------------------------------------------------------------

/- `getSize` leaves 0 when it fails. -/
def ossGetSize
    (fileSize : Except Errno Nat) : Int × Nat :=
  match fileSize with
  | .error errno => ((errno.1 : Int), 0)
  | .ok size => (edbOk, size)

/- The label `done` is behind the latch on every path. -/
def ossMmapFileMapLatched
    (fileSize : Except Errno Nat)
    (offset length : Nat)
    (failure : Option Errno) : DmsCall (Int × Option Nat) :=
  if length = 0 then do
    release .mapMutex .exclusive
    return (edbOk, none)
  else do
    get .mapMutex .exclusive
    let (rc, size) := ossGetSize fileSize
    if rc < 0 then
      release .mapMutex .exclusive
      return (rc, none)
    else if
        (length + offset) % 18446744073709551616 > size then
      release .mapMutex .exclusive
      return (edbInvalidArg, none)
    else
      match failure with
      | some errno =>
          release .mapMutex .exclusive
          return (mmapError errno, none)
      | none =>
          release .mapMutex .exclusive
          return (rc, some offset)

namespace DmsFile

/- A file whose size the system may fail to tell. -/
def sizeOf
    (s : DmsFile)
    (sizeFails : Option Errno) : Except Errno Nat :=
  match sizeFails with
  | some errno => .error errno
  | none => .ok s.fileSize

def mapSegmentLatched
    (s : DmsFile)
    (sizeFails : Option Errno)
    (offset : Nat)
    (failure : Option Errno) : DmsCall (Int × DmsFile) := do
  let (rc, data) ← ossMmapFileMapLatched (s.sizeOf sizeFails)
    offset dmsFileSegmentSize failure
  if rc ≠ edbOk then return (rc, s)
  else
    match data with
    | none => return (rc, s)
    | some data => return (rc, s.addSegment data)

def extendSegmentLatched
    (s : DmsFile)
    (sizeFails : Option Errno)
    (ext : Extension) : DmsCall (Int × DmsFile) :=
  match ext with
  | .sizeFails errno => return ((errno.1 : Int), s)
  | .writeFails written errno =>
      return s.extendFile dmsFileSegmentSize
        (some (written, errno))
  | .statFails errno => do
      let _ ← ossMmapFileMapLatched (.error errno)
        s.fileSize dmsFileSegmentSize none
      return (edbInvalidArg, s.grow dmsFileSegmentSize)
  | .mapFails errno =>
      let t := (s.extendFile dmsFileSegmentSize none).2
      t.mapSegmentLatched sizeFails s.fileSize (some errno)
  | .success =>
      let t := (s.extendFile dmsFileSegmentSize none).2
      t.mapSegmentLatched sizeFails s.fileSize none

------------------------------------------------------------
-- Insertion
------------------------------------------------------------

/- Insert on the page that was found, under `_mutex`. -/
def insertPageLatched
    (s : DmsFile)
    (pageID : Nat)
    (record : BSONObj)
    (rc : Int) : DmsCall InsertResult :=
  match s.pageToOffset pageID with
  | none => do
      release .mutex .exclusive
      return ⟨edbSys, s, none⟩
  | some page =>
      if Page.magic s.file page ≠ dmsPageMagic then do
        release .mutex .exclusive
        return ⟨edbSys, s, none⟩
      else
        let n := record.length
        let t : DmsFile :=
          if needsRecover s.file page n then
            { s with file := Page.recoverSpace s.file page }
          else s
        if noRoom t.file page n then do
          release .mutex .exclusive
          return ⟨edbSys, t, none⟩
        else do
          -- nothing catches what the constructor throws
          let r ← lift (t.insertRecord page pageID record rc)
          release .mutex .exclusive
          return r

/-
  What one round of the retry loop finds: the state when it
  has `_mutex`, whether `_extendMutex` is free, and the state
  and the system calls of the extension.
-/
structure Round where
  state : DmsFile
  free : Bool
  extending : DmsFile
  sizeFails : Option Errno
  ext : Extension

def insertLoopLatched
    (record : BSONObj) :
    List Round → Int → DmsCall InsertResult
| [], _ => lift (.error .starved)
| round :: rounds, rc => do
    get .mutex .exclusive
    let pageID := round.state.findPage record.length
    if pageID = dmsInvalidPageID then
      release .mutex .exclusive
      if round.free then
        get .extendMutex .exclusive
        let (rc, t) ← round.extending.extendSegmentLatched
          round.sizeFails round.ext
        if rc ≠ 0 then
          release .extendMutex .exclusive
          return ⟨rc, t, none⟩
        else
          release .extendMutex .exclusive
          insertLoopLatched record rounds rc
      else
        -- another thread extends the file
        get .extendMutex .exclusive
        release .extendMutex .exclusive
        insertLoopLatched record rounds rc
    else round.state.insertPageLatched pageID record rc

def insertLatched
    (rounds : List Round)
    (record : BSONObj) : DmsCall InsertResult :=
  let rc :=
    if dmsMaxRecord < record.length then edbInvalidArg
    else edbOk
  insertLoopLatched record rounds rc

------------------------------------------------------------
-- Removal and Lookup
------------------------------------------------------------

/- `s` is the state at the call, `t` under the latch. -/
def removeLatched
    (s t : DmsFile)
    (rid : DmsRecordID) : DmsCall (Int × DmsFile) :=
  match s.pageToOffset rid.pageID with
  | none => return (edbSys, s)
  | some page => do
      get .mutex .exclusive
      let (rc, slot) := t.searchSlot page rid
      if rc ≠ 0 then
        release .mutex .exclusive
        return (rc, t)
      else if slot = dmsSlotEmpty then
        release .mutex .exclusive
        return (edbSys, t)
      else
        let m := t.file.setWord
          (Page.slotAddress page rid.slotID) dmsSlotEmpty
        let m := m.setWord (page + slot + 4)
          dmsRecordFlagDropped
        let u : DmsFile := { t with file := m }
        release .mutex .exclusive
        return (edbOk, u.updateFreeSpace page
          (toSigned (Page.recordSize m (page + slot)))
          rid.pageID)

/- The label `done` is behind the latch on every path. -/
def findLatched
    (s t : DmsFile)
    (rid : DmsRecordID) : DmsCall (Int × Option BSONObj) :=
  match s.pageToOffset rid.pageID with
  | none => do
      release .mutex .shared
      return (edbSys, none)
  | some page => do
      get .mutex .shared
      let (rc, slot) := t.searchSlot page rid
      if rc ≠ 0 then
        release .mutex .shared
        return (edbSys, none)
      else if slot = dmsSlotEmpty then
        release .mutex .shared
        return (edbSys, none)
      else if Page.recordFlag t.file (page + slot) =
          dmsRecordFlagDropped then
        release .mutex .shared
        return (edbSys, none)
      else
        -- nothing catches what the constructor throws
        let o ← lift (BSONObj.ofData t.file
          (page + slot + sizeofRecord))
        release .mutex .shared
        return (edbOk, some o)

end DmsFile

------------------------------------------------------------
-- The Calls without Their Latches
------------------------------------------------------------

/- Without the length 0, `map` returns. -/
theorem ossMmapFileMapLatched_returns
    (fileSize : Except Errno Nat)
    (offset : Nat)
    {length : Nat}
    (hLength : length ≠ 0)
    (failure : Option Errno) :
    ∃ r, (ossMmapFileMapLatched fileSize offset length
      failure).result = .ok r := by
  unfold ossMmapFileMapLatched
  rw [if_neg hLength, result_get_bind]
  rcases ossGetSize fileSize with ⟨rc, size⟩
  dsimp only
  split
  · exact ⟨_, rfl⟩
  · split
    · exact ⟨_, rfl⟩
    · cases failure with
      | none => exact ⟨_, rfl⟩
      | some errno => exact ⟨_, rfl⟩

theorem ossMmapFileMapLatched_result
    (fileSize offset length : Nat)
    (failure : Option Errno) :
    (ossMmapFileMapLatched (.ok fileSize) offset length
      failure).result =
        .ok (ossMmapFileMap fileSize offset length failure) := by
  unfold ossMmapFileMapLatched ossMmapFileMap
  by_cases hEmpty : length = 0
  · rw [if_pos hEmpty, if_pos hEmpty]
    rfl
  · rw [if_neg hEmpty, if_neg hEmpty, result_get_bind]
    rcases hSize : ossGetSize (.ok fileSize) with ⟨rc, size⟩
    have hPair := Prod.mk.inj hSize
    rw [← hPair.1, ← hPair.2]
    dsimp only
    have hOk : ¬ (edbOk < 0) := by decide
    rw [if_neg hOk]
    by_cases hOutside :
        (length + offset) % 18446744073709551616 > fileSize
    · rw [if_pos hOutside, if_pos hOutside]
      rfl
    · rw [if_neg hOutside, if_neg hOutside]
      cases failure with
      | none => rfl
      | some errno => rfl

namespace DmsFile

theorem mapSegmentLatched_result
    (s : DmsFile)
    (offset : Nat)
    (failure : Option Errno) :
    (s.mapSegmentLatched none offset failure).result =
      .ok (s.mapSegment offset failure) := by
  have hMap := ossMmapFileMapLatched_result s.fileSize offset
    dmsFileSegmentSize failure
  have hPositive : 0 < dmsFileSegmentSize := by decide
  have hSize : s.sizeOf none = .ok s.fileSize := rfl
  rw [← hSize] at hMap
  unfold mapSegmentLatched mapSegment
  rw [bind_eq hMap]
  rcases ossMmapFileMap_cases s.fileSize offset hPositive
      failure with ⟨rc, hCode, hNone⟩ | hSome
  · rw [hNone]
    dsimp only
    rw [if_pos hCode]
    rfl
  · rw [hSome]
    rfl

theorem extendSegmentLatched_result
    (s : DmsFile)
    (ext : Extension) :
    (s.extendSegmentLatched none ext).result =
      .ok (s.extendSegment ext) := by
  cases ext with
  | sizeFails errno => rfl
  | writeFails written errno => rfl
  | statFails errno =>
      have hSegment : dmsFileSegmentSize ≠ 0 := by decide
      rcases ossMmapFileMapLatched_returns (.error errno)
        s.fileSize hSegment none with ⟨r, hMap⟩
      rw [extendSegmentLatched, bind_eq hMap]
      rfl
  | mapFails errno => exact mapSegmentLatched_result _ _ _
  | success => exact mapSegmentLatched_result _ _ _

theorem insertPageLatched_result
    (s : DmsFile)
    (pageID : Nat)
    (record : BSONObj)
    (rc : Int) :
    (s.insertPageLatched pageID record rc).result =
      s.insertPage pageID record rc := by
  unfold insertPageLatched insertPage
  cases s.pageToOffset pageID with
  | none => rfl
  | some page =>
      dsimp only
      by_cases hMagic : Page.magic s.file page ≠ dmsPageMagic
      · rw [if_pos hMagic, if_pos hMagic]
        rfl
      · rw [if_neg hMagic, if_neg hMagic]
        obtain ⟨t, hPage⟩ : ∃ t : DmsFile, t =
            if needsRecover s.file page record.length then
              { s with file := Page.recoverSpace s.file page }
            else s := ⟨_, rfl⟩
        rw [← hPage]
        by_cases hFull : noRoom t.file page record.length
        · rw [if_pos hFull, if_pos hFull]
          rfl
        · rw [if_neg hFull, if_neg hFull, result_bind]
          cases t.insertRecord page pageID record rc with
          | error e => rfl
          | ok r => rfl

/- The rounds of a call that no other thread disturbs. -/
def roundsAlone :
    List Extension → DmsFile → List Round
| [], s => [⟨s, false, s, none, .success⟩]
| ext :: exts, s =>
    ⟨s, true, s, none, ext⟩ ::
      roundsAlone exts (s.extendSegment ext).2

theorem insertLoopLatched_result
    (record : BSONObj)
    (exts : List Extension)
    (rc : Int)
    (s : DmsFile) :
    (insertLoopLatched record (roundsAlone exts s) rc).result =
      insertLoop record exts rc s := by
  induction exts generalizing rc s with
  | nil =>
      unfold roundsAlone insertLoopLatched insertLoop
      rw [result_get_bind]
      dsimp only
      by_cases hFound : s.findPage record.length =
          dmsInvalidPageID
      · rw [if_pos hFound, if_pos hFound]
        rfl
      · rw [if_neg hFound, if_neg hFound]
        exact s.insertPageLatched_result _ record rc
  | cons ext exts ih =>
      unfold roundsAlone insertLoopLatched insertLoop
      rw [result_get_bind]
      dsimp only
      by_cases hFound : s.findPage record.length =
          dmsInvalidPageID
      · rw [if_pos hFound, if_pos hFound,
          result_release_bind, if_pos rfl, result_get_bind,
          result_bind, s.extendSegmentLatched_result ext]
        rcases s.extendSegment ext with ⟨rc', t⟩
        show (if rc' ≠ 0 then _ else _ :
          DmsCall InsertResult).result = _
        dsimp only
        by_cases hCode : rc' ≠ 0
        · rw [if_pos hCode, if_pos hCode]
          rfl
        · rw [if_neg hCode, if_neg hCode,
            result_release_bind]
          exact ih rc' t
      · rw [if_neg hFound, if_neg hFound]
        exact s.insertPageLatched_result _ record rc

theorem insertLatched_result
    (exts : List Extension)
    (s : DmsFile)
    (record : BSONObj) :
    (insertLatched (roundsAlone exts s) record).result =
      s.insert exts record :=
  insertLoopLatched_result record exts _ s

theorem removeLatched_result
    (s : DmsFile)
    (rid : DmsRecordID) :
    (s.removeLatched s rid).result = .ok (s.remove rid) := by
  unfold removeLatched remove
  cases s.pageToOffset rid.pageID with
  | none => rfl
  | some page =>
      dsimp only
      rw [result_get_bind]
      rcases s.searchSlot page rid with ⟨rc, slot⟩
      dsimp only
      by_cases hCode : rc ≠ 0
      · rw [if_pos hCode, if_pos hCode]
        rfl
      · rw [if_neg hCode, if_neg hCode]
        by_cases hEmpty : slot = dmsSlotEmpty
        · rw [if_pos hEmpty, if_pos hEmpty]
          rfl
        · rw [if_neg hEmpty, if_neg hEmpty]
          rfl

theorem findLatched_result
    (s : DmsFile)
    (rid : DmsRecordID) :
    (s.findLatched s rid).result = s.find rid := by
  unfold findLatched find
  cases s.pageToOffset rid.pageID with
  | none => rfl
  | some page =>
      dsimp only
      rw [result_get_bind]
      rcases s.searchSlot page rid with ⟨rc, slot⟩
      dsimp only
      by_cases hCode : rc ≠ 0
      · rw [if_pos hCode, if_pos hCode]
        rfl
      · rw [if_neg hCode, if_neg hCode]
        by_cases hEmpty : slot = dmsSlotEmpty
        · rw [if_pos hEmpty, if_pos hEmpty]
          rfl
        · rw [if_neg hEmpty, if_neg hEmpty]
          by_cases hFlag : Page.recordFlag s.file
              (page + slot) = dmsRecordFlagDropped
          · rw [if_pos hFlag, if_pos hFlag]
            rfl
          · rw [if_neg hFlag, if_neg hFlag, result_bind]
            cases BSONObj.ofData s.file
                (page + slot + sizeofRecord) with
            | error e => rfl
            | ok o => rfl

end DmsFile

end EmeraldDb
