import EmeraldDb.Bson.Object
import EmeraldDb.Dms.Page
import EmeraldDb.Ixm.Bucket
import EmeraldDb.Lib.Loop
import EmeraldDb.Oss.MmapFile

/-
  The data file: segments of slotted pages.

  The state of a data file is its bytes and length together
  with what the process keeps about it: whether the file
  header is mapped, the segments mapped so far and the
  free-space map.  A segment is the file offset it is mapped
  at.

  Key definitions include:
    * `DmsFile`
    * `DmsFile.pageToOffset`
    * `DmsFile.extendSegment`
    * `DmsFile.insert`
    * `DmsFile.remove`
    * `DmsFile.find`
    * `DmsFile.loadData`
    * `DmsFile.init`
-/

namespace EmeraldDb

abbrev dmsExtendSize : Nat := 65536
abbrev dmsFileSegmentSize : Nat := 134217728
abbrev dmsFileHeaderSize : Nat := 65536
abbrev dmsPagesPerSegment : Nat := 32

/- The word that the magic `LTED` is stored as. -/
abbrev dmsHeaderMagic : Nat := 1145394252

structure DmsFile where
  file : Memory
  fileSize : Nat
  header : Bool
  body : List Nat
  freeSpaceMap : MultiMap Nat Nat

namespace DmsFile

------------------------------------------------------------
-- Pages
------------------------------------------------------------

def getNumSegments (s : DmsFile) : Nat :=
  s.body.length % 4294967296

def getNumPages (s : DmsFile) : Nat :=
  s.getNumSegments * dmsPagesPerSegment % 4294967296

/- Address of a page, if its id is in range. -/
def pageToOffset
    (s : DmsFile)
    (pageID : Nat) : Option Nat :=
  if s.getNumPages ≤ pageID then none
  else
    (s.body[pageID / dmsPagesPerSegment]?).map
      (fun segment =>
        segment + dmsPageSize * (pageID % dmsPagesPerSegment))

/- The page count of the file header. -/
def headerSize (s : DmsFile) : Nat :=
  s.file.word 4

/- First page with more free space than required. -/
def findPage
    (s : DmsFile)
    (requiredSize : Nat) : Nat :=
  match s.freeSpaceMap.upperBound requiredSize with
  | some e => e.2
  | none => dmsInvalidPageID

/- Move a page to its new place in the free-space map. -/
def updateFreeSpace
    (s : DmsFile)
    (page : Nat)
    (changeSize : Int)
    (pageID : Nat) : DmsFile :=
  let freeSpace := Page.freeSpace s.file page
  let erased := s.freeSpaceMap.eraseFirst freeSpace
    (fun p => decide (p = pageID))
  let changed := ofSigned (freeSpace + changeSize)
  { s with
    file := s.file.setWord (page + 20) changed
    freeSpaceMap := erased.insert changed pageID }

------------------------------------------------------------
-- Extension
------------------------------------------------------------

/-
  How the system calls of one extension end.  A write of a
  block to a regular file has no answer 0.
-/
inductive Extension
| success
| sizeFails (errno : Errno)
| writeFails (written : Nat) (errno : Errno)
| statFails (errno : Errno)
| mapFails (errno : Errno)

/- Append `n` zero bytes to the file. -/
def grow
    (s : DmsFile)
    (n : Nat) : DmsFile :=
  { s with
    file := s.file.fill s.fileSize n 0
    fileSize := s.fileSize + n }

/-
  Extend the file block by block.  A failing write leaves the
  bytes written before it in the file.
-/
def extendFile
    (s : DmsFile)
    (size : Nat)
    (failure : Option (Nat × Errno)) : Int × DmsFile :=
  if size % dmsExtendSize ≠ 0 then (edbSys, s)
  else
    match failure with
    | some (written, errno) =>
        ((errno.1 : Int), s.grow (min written size))
    | none => (edbOk, s.grow size)

/- Copy the page header to the first `n` pages at `data`. -/
def initPages
    (m : Memory)
    (data : Nat) :
    Nat → Memory
| 0 => m
| n + 1 =>
    Page.initHeader (initPages m data n)
      (data + n * dmsPageSize)

/- Enter the first `n` new pages into the free-space map. -/
def addPages
    (M : MultiMap Nat Nat)
    (freeMapSize : Nat) :
    Nat → MultiMap Nat Nat
| 0 => M
| n + 1 =>
    (addPages M freeMapSize n).insert
      (dmsPageSize - sizeofPageHeader)
      ((n + freeMapSize) % 4294967296)

/- Steps 3 to 6 of an extension, after a successful map. -/
def addSegment
    (s : DmsFile)
    (data : Nat) : DmsFile :=
  let m := initPages s.file data dmsPagesPerSegment
  let freeMapSize := s.freeSpaceMap.size
  { s with
    file := m.setWord 4 (m.word 4 + dmsPagesPerSegment)
    body := s.body ++ [data]
    freeSpaceMap := addPages s.freeSpaceMap freeMapSize
      dmsPagesPerSegment }

/- Map the last segment of the file and add it. -/
def mapSegment
    (s : DmsFile)
    (offset : Nat)
    (failure : Option Errno) : Int × DmsFile :=
  match ossMmapFileMap s.fileSize offset
      dmsFileSegmentSize failure with
  | (rc, none) => (rc, s)
  | (rc, some data) => (rc, s.addSegment data)

/- Extend the file by a segment of empty pages. -/
def extendSegment
    (s : DmsFile)
    (ext : Extension) : Int × DmsFile :=
  match ext with
  | .sizeFails errno => ((errno.1 : Int), s)
  | .writeFails written errno =>
      s.extendFile dmsFileSegmentSize (some (written, errno))
  -- `map` takes a size that it cannot read for 0.
  | .statFails _ =>
      (edbInvalidArg, s.grow dmsFileSegmentSize)
  | .mapFails errno =>
      let t := (s.extendFile dmsFileSegmentSize none).2
      t.mapSegment s.fileSize (some errno)
  | .success =>
      let t := (s.extendFile dmsFileSegmentSize none).2
      t.mapSegment s.fileSize none

------------------------------------------------------------
-- Insertion
------------------------------------------------------------

/-
  Result of an insertion: the code, the new state and, if a
  record was written, its address and its record id.
-/
structure InsertResult where
  rc : Int
  state : DmsFile
  written : Option (Nat × DmsRecordID)

/- Does an insertion of `n` bytes reorganise the page? -/
def needsRecover
    (m : Memory)
    (page n : Nat) : Bool :=
  decide
    (subWord (Page.freeOffset m page) (Page.slotOffset m page)
        < Page.freeSpace m page ∧
      Page.freeOffset m page <
        (Page.slotOffset m page + n) % 4294967296 +
          sizeofRecord + sizeofSlot)

/- Is there no room for `n` bytes on the page? -/
def noRoom
    (m : Memory)
    (page n : Nat) : Bool :=
  decide
    (Page.freeSpace m page < n + sizeofRecord + sizeofSlot ∨
      subWord (Page.freeOffset m page)
          (Page.slotOffset m page) <
        n + sizeofRecord + sizeofSlot)

/- Offset at which a record of `n` bytes is written. -/
def offsetData
    (m : Memory)
    (page n : Nat) : Nat :=
  subWord (subWord (Page.freeOffset m page) sizeofRecord) n

/- Append a slot and copy record header and data. -/
def writeRecord
    (m : Memory)
    (page : Nat)
    (record : BSONObj) : Memory :=
  let n := record.length
  let off := offsetData m page n
  let m := m.setWord (page + Page.slotOffset m page) off
  let m := m.setWord (page + off) n
  let m := m.setWord (page + off + 4) dmsRecordFlagNormal
  m.copy (page + off + sizeofRecord) record.mem
    record.objdata n

/- Update slot count, slot offset and free offset. -/
def writeMetadata
    (m : Memory)
    (page off : Nat) : Memory :=
  let m := m.setWord (page + 12) (Page.numSlots m page + 1)
  let m := m.setWord (page + 16)
    (Page.slotOffset m page + sizeofSlot)
  m.setWord (page + 24) off

/- Write a record to a page that has room for it. -/
def insertRecord
    (s : DmsFile)
    (page pageID : Nat)
    (record : BSONObj)
    (rc : Int) : Except Fault InsertResult := do
  let n := record.length
  let off := offsetData s.file page n
  let data := page + off + sizeofRecord
  let m := writeRecord s.file page record
  let _ ← BSONObj.ofData m data
  let rid : DmsRecordID := ⟨pageID, Page.numSlots m page⟩
  let t : DmsFile := { s with file := writeMetadata m page off }
  return {
    rc := rc
    state := t.updateFreeSpace page
      (-(n + sizeofSlot + sizeofRecord : Int)) pageID
    written := some (data, rid) }

/- Insert on the page that was found. -/
def insertPage
    (s : DmsFile)
    (pageID : Nat)
    (record : BSONObj)
    (rc : Int) : Except Fault InsertResult :=
  match s.pageToOffset pageID with
  | none => .ok ⟨edbSys, s, none⟩
  | some page =>
      if Page.magic s.file page ≠ dmsPageMagic then
        .ok ⟨edbSys, s, none⟩
      else
        let n := record.length
        let t : DmsFile :=
          if needsRecover s.file page n then
            { s with file := Page.recoverSpace s.file page }
          else s
        if noRoom t.file page n then .ok ⟨edbSys, t, none⟩
        else t.insertRecord page pageID record rc

/-
  The retry loop: find a page or extend the file and try
  again.  The list says how the extensions end.
-/
def insertLoop
    (record : BSONObj) :
    List Extension → Int → DmsFile →
      Except Fault InsertResult
| [], rc, s =>
    let pageID := s.findPage record.length
    if pageID = dmsInvalidPageID then .error .starved
    else s.insertPage pageID record rc
| ext :: exts, rc, s =>
    let pageID := s.findPage record.length
    if pageID = dmsInvalidPageID then
      let (rc, t) := s.extendSegment ext
      if rc ≠ 0 then .ok ⟨rc, t, none⟩
      else insertLoop record exts rc t
    else s.insertPage pageID record rc

/-
  Insert a record.  The size check sets the code and goes on
  with the search for a page.
-/
def insert
    (exts : List Extension)
    (s : DmsFile)
    (record : BSONObj) : Except Fault InsertResult :=
  let rc :=
    if dmsMaxRecord < record.length then edbInvalidArg
    else edbOk
  insertLoop record exts rc s

------------------------------------------------------------
-- Removal and Lookup
------------------------------------------------------------

/- Read a slot; the slot after the last one is let through. -/
def searchSlot
    (s : DmsFile)
    (page : Nat)
    (rid : DmsRecordID) : Int × Nat :=
  if Page.numSlots s.file page < rid.slotID then (edbSys, 0)
  else (edbOk, Page.slot s.file page rid.slotID)

def remove
    (s : DmsFile)
    (rid : DmsRecordID) : Int × DmsFile :=
  match s.pageToOffset rid.pageID with
  | none => (edbSys, s)
  | some page =>
      let (rc, slot) := s.searchSlot page rid
      if rc ≠ 0 then (rc, s)
      else if slot = dmsSlotEmpty then (edbSys, s)
      else
        let m := s.file.setWord
          (Page.slotAddress page rid.slotID) dmsSlotEmpty
        let m := m.setWord (page + slot + 4)
          dmsRecordFlagDropped
        let t : DmsFile := { s with file := m }
        (edbOk, t.updateFreeSpace page
          (toSigned (Page.recordSize m (page + slot)))
          rid.pageID)

def find
    (s : DmsFile)
    (rid : DmsRecordID) :
    Except Fault (Int × Option BSONObj) :=
  match s.pageToOffset rid.pageID with
  | none => .ok (edbSys, none)
  | some page =>
      let (rc, slot) := s.searchSlot page rid
      if rc ≠ 0 then .ok (edbSys, none)
      else if slot = dmsSlotEmpty then .ok (edbSys, none)
      else if Page.recordFlag s.file (page + slot) =
          dmsRecordFlagDropped then .ok (edbSys, none)
      else do
        let o ← BSONObj.ofData s.file
          (page + slot + sizeofRecord)
        return (edbOk, some o)

------------------------------------------------------------
-- Loading
------------------------------------------------------------

/- What loading builds: the data file and the index. -/
abbrev Loaded :=
  DmsFile × IxmBucketManager

/- Enter the record of one slot into the index. -/
def loadSlot
    (h : List UInt8 → Nat)
    (data i j : Nat)
    (st : Loaded)
    (k : Nat) : Except Fault (Int × Loaded) := do
  let page := data + j * dmsPageSize
  let slotOffset := Page.slot st.1.file page k
  if slotOffset = dmsSlotEmpty then return (edbOk, st)
  else
    let bson ← BSONObj.ofData st.1.file
      (page + slotOffset + sizeofRecord)
    let rc ← st.2.isIDExist h st.1.file bson
    if rc ≠ 0 then return (rc, st)
    else
      let (rc, ixm) ← st.2.createIndex h bson
        ⟨j + i * dmsPagesPerSegment, k⟩
      return (rc, (st.1, ixm))

/- Enter one page into the free-space map and the index. -/
def loadPage
    (h : List UInt8 → Nat)
    (data i : Nat)
    (st : Loaded)
    (j : Nat) : Except Fault (Int × Loaded) :=
  let page := data + j * dmsPageSize
  let M := st.1.freeSpaceMap.insert
    (Page.freeSpace st.1.file page)
    (j + dmsPagesPerSegment * i)
  forUntil (loadSlot h data i j)
    (List.range (Page.numSlots st.1.file page))
    ({ st.1 with freeSpaceMap := M }, st.2)

/-
  Offset that the load passes to map: the product is a
  32-bit signed one and is then widened to 64 bits.
-/
def loadOffset (i : Nat) : Nat :=
  (wrapInt (dmsFileHeaderSize + dmsFileSegmentSize * i) %
    18446744073709551616).toNat

/- Map one segment and load its pages. -/
def loadSegment
    (h : List UInt8 → Nat)
    (failure : Nat → Option Errno)
    (st : Loaded)
    (i : Nat) : Except Fault (Int × Loaded) :=
  match ossMmapFileMap st.1.fileSize (loadOffset i)
      dmsFileSegmentSize (failure i) with
  | (rc, none) => .ok (rc, st)
  | (_, some data) =>
      forUntil (loadPage h data i)
        (List.range dmsPagesPerSegment)
        ({ st.1 with body := st.1.body ++ [data] }, st.2)

/- Load the segments that the mapped header counts. -/
def loadSegments
    (h : List UInt8 → Nat)
    (failure : Nat → Option Errno)
    (st : Loaded) : Except Fault (Int × Loaded) :=
  let numPage := toSigned st.1.headerSize
  if numPage.tmod dmsPagesPerSegment ≠ 0 then
    .ok (edbSys, st)
  else
    let numSegments := numPage.tdiv dmsPagesPerSegment
    forUntil (loadSegment h failure)
      (List.range numSegments.toNat) st

/-
  Rebuild segments, free-space map and index from the file.
  The header is mapped first unless it is already; `failure`
  says which mapping calls fail, the header's first.
-/
def loadData
    (h : List UInt8 → Nat)
    (failure : Nat → Option Errno)
    (st : Loaded) : Except Fault (Int × Loaded) :=
  if st.1.header then
    loadSegments h (fun i => failure (i + 1)) st
  else
    match ossMmapFileMap st.1.fileSize 0
        dmsFileHeaderSize (failure 0) with
    | (rc, none) => .ok (rc, st)
    | (_, some _) =>
        loadSegments h (fun i => failure (i + 1))
          ({ st.1 with header := true }, st.2)

------------------------------------------------------------
-- Opening
------------------------------------------------------------

/- How the system calls that create the header end. -/
inductive HeaderCreation
| success
| writeFails (written : Nat) (errno : Errno)
| mapFails (errno : Errno)

/- Fill in the header of a new file. -/
def writeHeader (s : DmsFile) : DmsFile :=
  let m := s.file.setWord 0 dmsHeaderMagic
  let m := m.setWord 4 0
  let m := m.setWord 8 0
  let m := m.setWord 12 0
  { s with file := m, header := true }

/- Create the header of a new file. -/
def initHeader
    (s : DmsFile)
    (creation : HeaderCreation) : Int × DmsFile :=
  match creation with
  | .writeFails written errno =>
      s.extendFile dmsFileHeaderSize (some (written, errno))
  | .mapFails errno =>
      (mmapError errno,
        (s.extendFile dmsFileHeaderSize none).2)
  | .success =>
      (edbOk,
        (s.extendFile dmsFileHeaderSize none).2.writeHeader)

/- A process that has opened a file and mapped nothing. -/
def opened
    (file : Memory)
    (fileSize : Nat) : DmsFile where
  file := file
  fileSize := fileSize
  header := false
  body := []
  freeSpaceMap := MultiMap.empty

/- Open a file image: create the header, load the data. -/
def init
    (h : List UInt8 → Nat)
    (creation : HeaderCreation)
    (failure : Nat → Option Errno)
    (file : Memory)
    (fileSize : Nat) : Except Fault (Int × Loaded) :=
  let s := opened file fileSize
  if fileSize = 0 then
    let (rc, t) := s.initHeader creation
    if rc ≠ 0 then .ok (rc, (t, IxmBucketManager.init))
    else loadData h failure (t, IxmBucketManager.init)
  else loadData h failure (s, IxmBucketManager.init)

end DmsFile

end EmeraldDb
