import EmeraldDb.Dms.FreeSpace
import EmeraldDb.Lib.Latch
import EmeraldDb.Lib.Transition

/-
  Threads that insert and remove records at the same time.

  `_mutex` guards the pages and the updates of the free-space
  map; `_extendMutex` guards the extension of the file, which
  enters its new pages into the same map without `_mutex`.
  Every latch operation and every call of the map is one
  step; what the code does in between belongs to the step
  before or behind it.

  Key definitions include:
    * `DmsFile.beginInsert`
    * `DmsFile.beginRemove`
    * `DmsFile.newSegment`
    * `DmsThreads.step`

  Key results include:
    * `DmsFile.insertPage_begun`
    * `DmsFile.remove_begun`
    * `DmsFile.extendSegment_steps`
-/

namespace EmeraldDb

namespace DmsFile

------------------------------------------------------------
-- Updates in Two Steps
------------------------------------------------------------

/- An entry of the free-space map. -/
abbrev Entry := Nat × Nat

/-
  Erase the entry of a page and set its free space; the new
  entry is still to be inserted.
-/
def startUpdate
    (s : DmsFile)
    (page : Nat)
    (changeSize : Int)
    (pageID : Nat) : DmsFile × Entry :=
  let freeSpace := Page.freeSpace s.file page
  let erased := s.freeSpaceMap.eraseFirst freeSpace
    (fun p => decide (p = pageID))
  let changed := ofSigned (freeSpace + changeSize)
  ({ s with
      file := s.file.setWord (page + 20) changed
      freeSpaceMap := erased },
    (changed, pageID))

/- Insert one entry into the free-space map. -/
def enter
    (s : DmsFile)
    (e : Entry) : DmsFile :=
  { s with freeSpaceMap := s.freeSpaceMap.insert e.1 e.2 }

theorem updateFreeSpace_eq
    (s : DmsFile)
    (page : Nat)
    (changeSize : Int)
    (pageID : Nat) :
    s.updateFreeSpace page changeSize pageID =
      (s.startUpdate page changeSize pageID).1.enter
        (s.startUpdate page changeSize pageID).2 := rfl

/-
  A call up to its map update: it ends without one, or the
  update has begun.
-/
inductive Begun
| done (r : InsertResult)
| updating
    (s : DmsFile)
    (e : Entry)
    (rc : Int)
    (written : Option (Nat × DmsRecordID))

/- The call brought to its end. -/
def Begun.finish : Begun → InsertResult
| .done r => r
| .updating s e rc written => ⟨rc, s.enter e, written⟩

/- Write a record up to the erasure of the page's entry. -/
def beginRecord
    (s : DmsFile)
    (page pageID : Nat)
    (record : BSONObj)
    (rc : Int) : Except Fault Begun := do
  let n := record.length
  let off := offsetData s.file page n
  let data := page + off + sizeofRecord
  let m := writeRecord s.file page record
  let _ ← BSONObj.ofData m data
  let rid : DmsRecordID := ⟨pageID, Page.numSlots m page⟩
  let t : DmsFile := { s with file := writeMetadata m page off }
  let (t, e) := t.startUpdate page
    (-(n + sizeofSlot + sizeofRecord : Int)) pageID
  return .updating t e rc (some (data, rid))

/- Insert on the page that was found, up to the erasure. -/
def beginInsert
    (s : DmsFile)
    (pageID : Nat)
    (record : BSONObj)
    (rc : Int) : Except Fault Begun :=
  match s.pageToOffset pageID with
  | none => .ok (.done ⟨edbSys, s, none⟩)
  | some page =>
      if Page.magic s.file page ≠ dmsPageMagic then
        .ok (.done ⟨edbSys, s, none⟩)
      else
        let n := record.length
        let t : DmsFile :=
          if needsRecover s.file page n then
            { s with file := Page.recoverSpace s.file page }
          else s
        if noRoom t.file page n then
          .ok (.done ⟨edbSys, t, none⟩)
        else t.beginRecord page pageID record rc

/- Remove a record, up to the erasure of the page's entry. -/
def beginRemove
    (s : DmsFile)
    (page : Nat)
    (rid : DmsRecordID) : Begun :=
  let (rc, slot) := s.searchSlot page rid
  if rc ≠ 0 then .done ⟨rc, s, none⟩
  else if slot = dmsSlotEmpty then .done ⟨edbSys, s, none⟩
  else
    let m := s.file.setWord
      (Page.slotAddress page rid.slotID) dmsSlotEmpty
    let m := m.setWord (page + slot + 4) dmsRecordFlagDropped
    let t : DmsFile := { s with file := m }
    let (t, e) := t.startUpdate page
      (toSigned (Page.recordSize m (page + slot))) rid.pageID
    .updating t e edbOk none

/- Both halves of an insertion are the insertion. -/
theorem insertPage_begun
    (s : DmsFile)
    (pageID : Nat)
    (record : BSONObj)
    (rc : Int) :
    s.insertPage pageID record rc =
      (s.beginInsert pageID record rc).map Begun.finish := by
  have hRecord : ∀ (t : DmsFile) (page : Nat),
      t.insertRecord page pageID record rc =
        (t.beginRecord page pageID record rc).map
          Begun.finish := by
    intro t page
    simp only [insertRecord, beginRecord, bind, Except.bind,
      pure, Except.pure]
    cases BSONObj.ofData (writeRecord t.file page record)
        (page + offsetData t.file page record.length +
          sizeofRecord) with
    | error e => rfl
    | ok o => rfl
  unfold insertPage beginInsert
  cases s.pageToOffset pageID with
  | none => rfl
  | some page =>
      simp only [hRecord]
      split
      · rfl
      · -- the page is reorganised or not, and has room or not
        split
        · split <;> rfl
        · split <;> rfl

theorem remove_begun
    (s : DmsFile)
    (rid : DmsRecordID) :
    s.remove rid =
      match s.pageToOffset rid.pageID with
      | none => (edbSys, s)
      | some page =>
          ((s.beginRemove page rid).finish.rc,
            (s.beginRemove page rid).finish.state) := by
  unfold remove beginRemove
  cases s.pageToOffset rid.pageID with
  | none => rfl
  | some page =>
      simp only
      split
      · rfl
      · split
        · rfl
        · rfl

------------------------------------------------------------
-- Extensions in Many Steps
------------------------------------------------------------

/- The same file over another memory. -/
def withFile
    (s : DmsFile)
    (m : Memory) : DmsFile :=
  { s with file := m }

theorem withFile_file
    (s : DmsFile)
    (m : Memory) :
    (s.withFile m).file = m := rfl

theorem withFile_fileSize
    (s : DmsFile)
    (m : Memory) :
    (s.withFile m).fileSize = s.fileSize := rfl

theorem withFile_header
    (s : DmsFile)
    (m : Memory) :
    (s.withFile m).header = s.header := rfl

theorem withFile_body
    (s : DmsFile)
    (m : Memory) :
    (s.withFile m).body = s.body := rfl

theorem withFile_freeSpaceMap
    (s : DmsFile)
    (m : Memory) :
    (s.withFile m).freeSpaceMap = s.freeSpaceMap := rfl

/- Step 4: copy the page header to the new pages. -/
def initHeaders
    (s : DmsFile)
    (data : Nat) : DmsFile :=
  s.withFile (initPages s.file data dmsPagesPerSegment)

/- Map the end of the file and write the page headers. -/
def initSegment
    (s : DmsFile)
    (offset : Nat)
    (failure : Option Errno) : Int × DmsFile × Option Nat :=
  match ossMmapFileMap s.fileSize offset
      dmsFileSegmentSize failure with
  | (rc, none) => (rc, s, none)
  | (rc, some data) => (rc, s.initHeaders data, some data)

/- Steps 1 to 4 of an extension, before the map is read. -/
def newSegment
    (s : DmsFile)
    (ext : Extension) : Int × DmsFile × Option Nat :=
  match ext with
  | .sizeFails errno => ((errno.1 : Int), s, none)
  | .writeFails written errno =>
      let (rc, t) :=
        s.extendFile dmsFileSegmentSize (some (written, errno))
      (rc, t, none)
  | .statFails _ =>
      (edbInvalidArg, s.grow dmsFileSegmentSize, none)
  | .mapFails errno =>
      let t := (s.extendFile dmsFileSegmentSize none).2
      t.initSegment s.fileSize (some errno)
  | .success =>
      let t := (s.extendFile dmsFileSegmentSize none).2
      t.initSegment s.fileSize none

/- The entry of a new page, by the size read before. -/
def newEntry (freeMapSize i : Nat) : Entry :=
  (dmsPageSize - sizeofPageHeader,
    (i + freeMapSize) % 4294967296)

/- Step 6: the segment joins the body. -/
def pushSegment
    (s : DmsFile)
    (data : Nat) : DmsFile :=
  { s with
    file := s.file.setWord 4
      (s.file.word 4 + dmsPagesPerSegment)
    body := s.body ++ [data] }

/- Steps 5 and 6: the new pages are entered one by one. -/
def enterSegment
    (s : DmsFile)
    (data : Nat) : DmsFile :=
  ((List.range dmsPagesPerSegment).foldl
    (fun t i => t.enter (newEntry s.freeSpaceMap.size i))
      s).pushSegment data

theorem foldl_enter
    (s : DmsFile)
    (base n : Nat) :
    (List.range n).foldl
        (fun t i => t.enter (newEntry base i)) s =
      { s with
        freeSpaceMap := addPages s.freeSpaceMap base n } := by
  induction n with
  | zero => rfl
  | succ n ih =>
      rw [List.range_succ, List.foldl_append, ih]
      simp only [List.foldl_cons, List.foldl_nil, enter,
        newEntry, addPages]

theorem pushSegment_mk
    (m : Memory)
    (fileSize : Nat)
    (header : Bool)
    (body : List Nat)
    (M : MultiMap Nat Nat)
    (data : Nat) :
    pushSegment ⟨m, fileSize, header, body, M⟩ data =
      ⟨m.setWord 4 (m.word 4 + dmsPagesPerSegment), fileSize,
        header, body ++ [data], M⟩ := rfl

theorem addSegment_eq
    (s : DmsFile)
    (data : Nat) :
    s.addSegment data =
      (s.initHeaders data).enterSegment data := by
  rw [enterSegment, foldl_enter, initHeaders]
  rw [withFile_file, withFile_fileSize, withFile_header,
    withFile_body, withFile_freeSpaceMap, pushSegment_mk,
    addSegment]

theorem mapSegment_steps
    (s : DmsFile)
    (offset : Nat)
    (failure : Option Errno) :
    s.mapSegment offset failure =
      match s.initSegment offset failure with
      | (rc, t, none) => (rc, t)
      | (rc, t, some data) => (rc, t.enterSegment data) := by
  simp only [mapSegment, initSegment, addSegment_eq]
  cases ossMmapFileMap s.fileSize offset dmsFileSegmentSize
      failure with
  | mk rc data =>
      cases data with
      | none => simp only
      | some data => simp only

/- The steps of an extension one after another. -/
theorem extendSegment_steps
    (s : DmsFile)
    (ext : Extension) :
    s.extendSegment ext =
      match s.newSegment ext with
      | (rc, t, none) => (rc, t)
      | (rc, t, some data) => (rc, t.enterSegment data) := by
  cases ext with
  | success =>
      rw [extendSegment, newSegment]
      exact mapSegment_steps _ _ _
  | sizeFails errno => rfl
  | writeFails written errno =>
      simp only [extendSegment, newSegment]
  | statFails errno => rfl
  | mapFails errno =>
      rw [extendSegment, newSegment]
      exact mapSegment_steps _ _ _

end DmsFile

------------------------------------------------------------
-- Threads
------------------------------------------------------------

/- The record of an insertion, and the code it has so far. -/
structure InsertCall where
  record : BSONObj
  rc : Int

/- The size check of `insert`, which does not stop it. -/
def InsertCall.start (record : BSONObj) : InsertCall where
  record := record
  rc :=
    if dmsMaxRecord < record.length then edbInvalidArg
    else edbOk

/- What a thread does next. -/
inductive Thread
| idle
/- `insert`: take `_mutex`, then search a page -/
| retry (call : InsertCall)
| finding (call : InsertCall)
/- no page: release `_mutex`, try `_extendMutex`, or wait -/
| full (call : InsertCall)
| extending (call : InsertCall)
| waiting (call : InsertCall)
/- `_extendSegment`: map, read the size, enter the pages -/
| mapping (call : InsertCall)
| mapped
    (call : InsertCall)
    (data : Nat)
| entering
    (call : InsertCall)
    (data freeMapSize i : Nat)
/- release `_extendMutex` and retry, or return the code -/
| extended (call : InsertCall)
| failed (rc : Int)
/- write the record on the page that was found -/
| found
    (call : InsertCall)
    (pageID : Nat)
/- `remove`: take `_mutex`, then drop the record -/
| removing
    (rid : DmsRecordID)
    (page : Nat)
| searching
    (rid : DmsRecordID)
    (page : Nat)
/- `_updateFreeSpace` between the erasure and the insert -/
| updating
    (e : DmsFile.Entry)
    (rc : Int)
    (written : Option (Nat × DmsRecordID))
/- release `_mutex` and return -/
| unlocking
    (rc : Int)
    (written : Option (Nat × DmsRecordID))

inductive ThreadOp
| insert (record : BSONObj)
| remove (rid : DmsRecordID)
| extend (ext : DmsFile.Extension)
| next

/- The data file, the owners of its latches, the threads. -/
structure DmsThreads where
  dmsFile : DmsFile
  mutex : Option Nat
  extendMutex : Option Nat
  thread : Nat → Thread

namespace DmsThreads

/- A thread moves on and leaves another data file. -/
def change
    (c : DmsThreads)
    (f : DmsFile)
    (a : Nat)
    (st : Thread) : DmsThreads :=
  { c with
    dmsFile := f
    thread := Function.update c.thread a st }

def move
    (c : DmsThreads)
    (a : Nat)
    (st : Thread) : DmsThreads :=
  c.change c.dmsFile a st

/- Take `_mutex` if it is free. -/
def getMutex
    (c : DmsThreads)
    (a : Nat)
    (st : Thread) : Option DmsThreads :=
  match c.mutex with
  | none => some { c.move a st with mutex := some a }
  | some _ => none

def releaseMutex
    (c : DmsThreads)
    (a : Nat)
    (st : Thread) : DmsThreads :=
  { c.move a st with mutex := none }

/- Take `_extendMutex` if it is free. -/
def getExtendMutex
    (c : DmsThreads)
    (a : Nat)
    (st : Thread) : Option DmsThreads :=
  match c.extendMutex with
  | none => some { c.move a st with extendMutex := some a }
  | some _ => none

def releaseExtendMutex
    (c : DmsThreads)
    (a : Nat)
    (st : Thread) : DmsThreads :=
  { c.move a st with extendMutex := none }

/- A call has ended or has begun its update. -/
def start
    (c : DmsThreads)
    (a : Nat) : DmsFile.Begun → DmsThreads
| .done r => c.change r.state a (.unlocking r.rc r.written)
| .updating s e rc written =>
    c.change s a (.updating e rc written)

/- One step of one thread, if it can be taken. -/
def step
    (c : DmsThreads) :
    Nat × ThreadOp → Option DmsThreads
| (a, op) =>
    match c.thread a, op with
    | .idle, .insert record =>
        some (c.move a (.retry (.start record)))
    | .idle, .remove rid =>
        match c.dmsFile.pageToOffset rid.pageID with
        | none => some c
        | some page => some (c.move a (.removing rid page))
    | .retry call, .next => c.getMutex a (.finding call)
    | .finding call, .next =>
        let pageID := c.dmsFile.findPage call.record.length
        if pageID = dmsInvalidPageID then
          some (c.move a (.full call))
        else some (c.move a (.found call pageID))
    | .full call, .next =>
        some (c.releaseMutex a (.extending call))
    | .extending call, .next =>
        match c.extendMutex with
        | none =>
            some { c.move a (.mapping call) with
              extendMutex := some a }
        | some _ => some (c.move a (.waiting call))
    | .waiting call, .next =>
        c.getExtendMutex a (.extended call)
    | .mapping call, .extend ext =>
        match c.dmsFile.newSegment ext with
        | (rc, f, none) => some (c.change f a (.failed rc))
        | (rc, f, some data) =>
            some (c.change f a
              (.mapped ⟨call.record, rc⟩ data))
    | .mapped call data, .next =>
        some (c.move a
          (.entering call data c.dmsFile.freeSpaceMap.size 0))
    | .entering call data freeMapSize i, .next =>
        if i < dmsPagesPerSegment then
          some (c.change
            (c.dmsFile.enter (DmsFile.newEntry freeMapSize i))
            a (.entering call data freeMapSize (i + 1)))
        else
          some (c.change (c.dmsFile.pushSegment data) a
            (.extended call))
    | .extended call, .next =>
        some (c.releaseExtendMutex a (.retry call))
    | .failed _, .next =>
        some (c.releaseExtendMutex a .idle)
    | .found call pageID, .next =>
        match c.dmsFile.beginInsert pageID call.record
            call.rc with
        | .error _ => none
        | .ok begun => some (c.start a begun)
    | .removing rid page, .next =>
        c.getMutex a (.searching rid page)
    | .searching rid page, .next =>
        some (c.start a (c.dmsFile.beginRemove page rid))
    | .updating e rc written, .next =>
        some (c.change (c.dmsFile.enter e) a
          (.unlocking rc written))
    | .unlocking _ _, .next =>
        some (c.releaseMutex a .idle)
    | _, _ => none

/- The steps of the threads as a relation. -/
def Step
    (c : DmsThreads)
    (op : Nat × ThreadOp)
    (t : DmsThreads) : Prop :=
  c.step op = some t

end DmsThreads

end EmeraldDb
