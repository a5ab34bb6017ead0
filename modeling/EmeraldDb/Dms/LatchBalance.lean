import EmeraldDb.Dms.Latches
import EmeraldDb.Dms.PageInvariant

/-
  Which calls give back the latches of the data file.

  A removal always does.  A mapping of no bytes and a lookup
  of a page that is not there reach the label `done` without
  the latch and release it all the same.  What a constructor
  throws leaves a lookup or an insertion with the latch still
  held.

  Key definitions include:
    * `DmsFile.Readable`
    * `StorageCall.Balanced`
    * `StorageCall.Safe`

  Key results include:
    * `ossMmapFileMapLatched_balanced_iff`
    * `DmsFile.insertLatched_balanced`
    * `DmsFile.findLatched_balanced_iff`
    * `StorageCall.latches_balanced_iff`
-/

namespace EmeraldDb

open Traced

------------------------------------------------------------
-- Mapping
------------------------------------------------------------

theorem ossMmapFileMapLatched_leaves
    (fileSize : Except Errno Nat)
    (offset : Nat)
    {length : Nat}
    (hLength : length ≠ 0)
    (failure : Option Errno)
    {held : Held DmsLatch}
    (hFree : .mapMutex ∉ held.map Prod.fst) :
    Leaves held held (ossMmapFileMapLatched fileSize offset
      length failure) := by
  unfold ossMmapFileMapLatched
  rw [if_neg hLength]
  apply Leaves.get hFree
  rcases ossGetSize fileSize with ⟨rc, size⟩
  dsimp only
  by_cases hFails : rc < 0
  · rw [if_pos hFails]
    exact leaves_release_pure _ _ held _
  · rw [if_neg hFails]
    by_cases hOutside :
        (length + offset) % 18446744073709551616 > size
    · rw [if_pos hOutside]
      exact leaves_release_pure _ _ held _
    · rw [if_neg hOutside]
      cases failure with
      | none => exact leaves_release_pure _ _ held _
      | some errno => exact leaves_release_pure _ _ held _

/- `map` without a length releases a latch that is not held. -/
theorem ossMmapFileMapLatched_balanced_iff
    (fileSize : Except Errno Nat)
    (offset length : Nat)
    (failure : Option Errno) :
    (ossMmapFileMapLatched fileSize offset length
      failure).Balanced ↔ length ≠ 0 := by
  constructor
  · intro hBalanced hLength
    apply hBalanced.owned
    unfold ossMmapFileMapLatched
    rw [if_pos hLength]
    exact owns_release_bind_none (by simp) _
  · intro hLength
    exact (ossMmapFileMapLatched_leaves fileSize offset hLength
      failure (by simp)).balanced

namespace DmsFile

theorem mapSegmentLatched_leaves
    (s : DmsFile)
    (sizeFails : Option Errno)
    (offset : Nat)
    (failure : Option Errno)
    {held : Held DmsLatch}
    (hFree : .mapMutex ∉ held.map Prod.fst) :
    Leaves held held
      (s.mapSegmentLatched sizeFails offset failure) := by
  have hSegment : dmsFileSegmentSize ≠ 0 := by decide
  unfold mapSegmentLatched
  apply (ossMmapFileMapLatched_leaves (s.sizeOf sizeFails)
    offset hSegment failure hFree).bind
  rintro ⟨rc, data⟩ _
  dsimp only
  by_cases hCode : rc ≠ edbOk
  · rw [if_pos hCode]
    exact leaves_pure held _
  · rw [if_neg hCode]
    cases data with
    | none => exact leaves_pure held _
    | some data => exact leaves_pure held _

/- An extension gives back the latch of the mapped file. -/
theorem extendSegmentLatched_leaves
    (s : DmsFile)
    (sizeFails : Option Errno)
    (ext : Extension)
    {held : Held DmsLatch}
    (hFree : .mapMutex ∉ held.map Prod.fst) :
    Leaves held held
      (s.extendSegmentLatched sizeFails ext) := by
  cases ext with
  | sizeFails errno => exact leaves_pure held _
  | writeFails written errno => exact leaves_pure held _
  | statFails errno =>
      have hSegment : dmsFileSegmentSize ≠ 0 := by decide
      exact (ossMmapFileMapLatched_leaves (.error errno)
        s.fileSize hSegment none hFree).bind
          (fun _ _ => leaves_pure held _)
  | mapFails errno =>
      exact mapSegmentLatched_leaves _ _ _ _ hFree
  | success =>
      exact mapSegmentLatched_leaves _ _ _ _ hFree

------------------------------------------------------------
-- Insertion
------------------------------------------------------------

/- The copy of a record with a whole length word is valid. -/
theorem insertRecord_returns
    (s : DmsFile)
    (page pageID : Nat)
    {record : BSONObj}
    (hValid : record.isValid = true)
    (hFour : 4 ≤ record.objsize)
    (rc : Int) :
    ∃ r, s.insertRecord page pageID record rc = .ok r := by
  have hLength : 4 ≤ record.length := by
    unfold BSONObj.length
    omega
  have hCopy : BSONObj.ofData
      (writeRecord s.file page record)
      (page + offsetData s.file page record.length +
        sizeofRecord) =
        .ok ⟨writeRecord s.file page record,
          page + offsetData s.file page record.length +
            sizeofRecord⟩ :=
    BSONObj.ofData_of_same hLength hValid
      (Memory.same_copy _ _ _ _ _).symm
  unfold insertRecord
  dsimp only
  rw [hCopy]
  exact ⟨_, rfl⟩

theorem insertPageLatched_leaves
    (s : DmsFile)
    (pageID : Nat)
    {record : BSONObj}
    (hValid : record.isValid = true)
    (hFour : 4 ≤ record.objsize)
    (rc : Int) :
    Leaves [(.mutex, .exclusive)] []
      (s.insertPageLatched pageID record rc) := by
  unfold insertPageLatched
  cases s.pageToOffset pageID with
  | none => exact leaves_release_pure _ _ [] _
  | some page =>
      dsimp only
      by_cases hMagic : Page.magic s.file page ≠ dmsPageMagic
      · rw [if_pos hMagic]
        exact leaves_release_pure _ _ [] _
      · rw [if_neg hMagic]
        obtain ⟨t, hPage⟩ : ∃ t : DmsFile, t =
            if needsRecover s.file page record.length then
              { s with file := Page.recoverSpace s.file page }
            else s := ⟨_, rfl⟩
        rw [← hPage]
        by_cases hFull : noRoom t.file page record.length
        · rw [if_pos hFull]
          exact leaves_release_pure _ _ [] _
        · rw [if_neg hFull]
          rcases t.insertRecord_returns page pageID hValid
            hFour rc with ⟨r, hRecord⟩
          apply (leaves_lift hRecord _).bind
          intro r' _
          exact leaves_release_pure _ _ [] _

theorem insertLoopLatched_owns
    {record : BSONObj}
    (hValid : record.isValid = true)
    (hFour : 4 ≤ record.objsize)
    (rounds : List Round)
    (rc : Int) :
    owns [] (insertLoopLatched record rounds rc).ops =
      some [] := by
  induction rounds generalizing rc with
  | nil => rfl
  | cons round rounds ih =>
      unfold insertLoopLatched
      rw [owns_get_bind (by simp)]
      dsimp only
      by_cases hFound : round.state.findPage record.length =
          dmsInvalidPageID
      · rw [if_pos hFound, owns_release_bind]
        by_cases hFree : round.free = true
        · rw [if_pos hFree, owns_get_bind (by simp)]
          have hExtend : Leaves [(.extendMutex, .exclusive)]
              [(.extendMutex, .exclusive)]
              (round.extending.extendSegmentLatched
                round.sizeFails round.ext) :=
            extendSegmentLatched_leaves _ _ _ (by simp)
          apply hExtend.owns_bind
          rintro ⟨rc', t⟩ _
          dsimp only
          by_cases hCode : rc' ≠ 0
          · rw [if_pos hCode, owns_release_bind]
            rfl
          · rw [if_neg hCode, owns_release_bind]
            exact ih rc'
        · rw [if_neg hFree, owns_get_bind (by simp),
            owns_release_bind]
          exact ih rc
      · rw [if_neg hFound]
        exact (round.state.insertPageLatched_leaves _ hValid
          hFour rc).holds

theorem insertLatched_balanced
    {record : BSONObj}
    (hValid : record.isValid = true)
    (hFour : 4 ≤ record.objsize)
    (rounds : List Round) :
    (insertLatched rounds record).Balanced :=
  (balanced_iff _).mpr
    (insertLoopLatched_owns hValid hFour rounds _)

------------------------------------------------------------
-- Short Records
------------------------------------------------------------

/- A length word with a high byte is out of range. -/
theorem not_isValid_of_high
    {m : Memory}
    {a : Nat}
    (hHigh : 2 ≤ (m (a + 3)).toNat) :
    BSONObj.isValid ⟨m, a⟩ = false := by
  have hWord : 33554432 ≤ m.word a := by
    unfold Memory.word
    omega
  have hBound := m.word_lt a
  have hSize : BSONObj.objsize ⟨m, a⟩ =
      toSigned (m.word a) := rfl
  unfold BSONObj.isValid
  rw [hSize, decide_eq_false_iff_not]
  unfold toSigned
  simp only [bsonObjMaxInternalSize]
  split <;> omega

/- A segment with its first two pages. -/
def newPages : DmsFile where
  file := Page.initHeader
    (Page.initHeader (fun _ => 0) 0) dmsPageSize
  fileSize := dmsFileSegmentSize
  header := true
  body := [0]
  freeSpaceMap := MultiMap.empty.insert
    (dmsPageSize - sizeofPageHeader) 0

theorem newPages_header :
    Page.magic newPages.file 0 = dmsPageMagic ∧
      Page.slotOffset newPages.file 0 = sizeofPageHeader ∧
      Page.freeSpace newPages.file 0 =
        dmsPageSize - sizeofPageHeader ∧
      Page.freeOffset newPages.file 0 = dmsPageSize := by
  decide +kernel

/- The magic of the next page. -/
theorem newPages_next
    {n : Nat}
    (hPositive : 0 < n)
    (hShort : n < 4) :
    2 ≤ (newPages.file (dmsPageSize - n + 3)).toNat := by
  have hCases : n = 1 ∨ n = 2 ∨ n = 3 := by omega
  rcases hCases with rfl | rfl | rfl
  · decide +kernel
  · decide +kernel
  · decide +kernel

theorem newPages_offset
    {n : Nat}
    (hShort : n < 4) :
    offsetData newPages.file 0 n =
      dmsPageSize - sizeofRecord - n := by
  rcases newPages_header with ⟨_, _, _, hFree⟩
  unfold offsetData
  rw [hFree]
  simp only [subWord, dmsPageSize, sizeofRecord]
  omega

/-
  The length word of a short record is completed by the next
  page: the constructor throws.
-/
theorem insertRecord_newPages
    {record : BSONObj}
    (hPositive : 0 < record.length)
    (hShort : record.length < 4)
    (rc : Int) :
    newPages.insertRecord 0 0 record rc =
      .error .assertion := by
  have hOffset := newPages_offset hShort
  have hData : 0 + offsetData newPages.file 0 record.length +
      sizeofRecord = dmsPageSize - record.length := by
    rw [hOffset]
    simp only [dmsPageSize, sizeofRecord]
    omega
  have hFrame : (writeRecord newPages.file 0 record)
      (dmsPageSize - record.length + 3) =
        newPages.file (dmsPageSize - record.length + 3) := by
    rcases newPages_header with ⟨_, hSlot, _, _⟩
    unfold writeRecord
    rw [hOffset, hSlot]
    simp only [dmsPageSize, sizeofRecord, sizeofPageHeader]
    rw [Memory.copy_of_disjoint _ _ _ _ _ (by omega),
      Memory.setWord_of_disjoint _ _ _ (by omega),
      Memory.setWord_of_disjoint _ _ _ (by omega),
      Memory.setWord_of_disjoint _ _ _ (by omega)]
  have hNot := newPages_next hPositive hShort
  rw [← hFrame] at hNot
  have hInvalid := not_isValid_of_high hNot
  have hThrows : BSONObj.ofData
      (writeRecord newPages.file 0 record)
      (dmsPageSize - record.length) =
        .error .assertion :=
    if_neg (by rw [hInvalid]; decide)
  unfold insertRecord
  dsimp only
  rw [hData, hThrows]
  rfl

theorem insertLatched_newPages
    {record : BSONObj}
    (hPositive : 0 < record.length)
    (hShort : record.length < 4) :
    ¬ (insertLatched
      [⟨newPages, true, newPages, none, .success⟩]
      record).Balanced := by
  have hFind : newPages.findPage record.length = 0 := by
    have hBound : newPages.freeSpaceMap.upperBound
        record.length =
          some (dmsPageSize - sizeofPageHeader, 0) := by
      have hLess : record.length <
          dmsPageSize - sizeofPageHeader := by
        simp only [dmsPageSize, sizeofPageHeader]
        omega
      simp [newPages, MultiMap.upperBound, MultiMap.insert,
        MultiMap.empty, MultiMap.insertEntry, hLess]
    unfold findPage
    rw [hBound]
  have hPage : newPages.pageToOffset 0 = some 0 := by
    decide +kernel
  rcases newPages_header with ⟨hMagic, hSlot, hSpace, hFree⟩
  have hStay : needsRecover newPages.file 0 record.length =
      false := by
    have hNot : ¬ (subWord dmsPageSize sizeofPageHeader <
        dmsPageSize - sizeofPageHeader) := by
      decide
    simp only [needsRecover, hSlot, hSpace, hFree]
    exact decide_eq_false (fun hBoth => hNot hBoth.1)
  have hRoom : noRoom newPages.file 0 record.length =
      false := by
    simp only [noRoom, hSlot, hSpace, hFree,
      decide_eq_false_iff_not]
    simp only [subWord, dmsPageSize, sizeofPageHeader,
      sizeofRecord, sizeofSlot]
    omega
  have hHolds : ∀ rc, owns [(.mutex, .exclusive)]
      (newPages.insertPageLatched 0 record rc).ops =
        some [(.mutex, .exclusive)] := by
    intro rc
    have hThrows := insertRecord_newPages hPositive hShort rc
    unfold insertPageLatched
    rw [hPage]
    dsimp only
    rw [if_neg (not_not.mpr hMagic), hStay,
      if_neg Bool.false_ne_true, hRoom,
      if_neg Bool.false_ne_true, hThrows]
    rfl
  rw [balanced_iff]
  unfold insertLatched insertLoopLatched
  rw [owns_get_bind (by simp)]
  dsimp only
  rw [hFind, if_neg (by decide), hHolds]
  simp

/-
  The latches are given back in every state exactly when the
  record has a length word of its own.
-/
theorem insertLatched_balanced_iff
    {record : BSONObj}
    (hValid : record.isValid = true) :
    (∀ rounds, (insertLatched rounds record).Balanced) ↔
      4 ≤ record.objsize := by
  constructor
  · intro hAll
    by_contra hNot
    have hRange := hValid
    simp only [BSONObj.isValid, decide_eq_true_eq] at hRange
    have hPositive : 0 < record.length := by
      unfold BSONObj.length
      omega
    have hShort : record.length < 4 := by
      unfold BSONObj.length
      omega
    exact insertLatched_newPages hPositive hShort (hAll _)
  · exact fun hFour => insertLatched_balanced hValid hFour

------------------------------------------------------------
-- Removal and Lookup
------------------------------------------------------------

theorem removeLatched_balanced
    (s t : DmsFile)
    (rid : DmsRecordID) :
    (s.removeLatched t rid).Balanced := by
  apply Leaves.balanced
  unfold removeLatched
  cases s.pageToOffset rid.pageID with
  | none => exact leaves_pure [] _
  | some page =>
      apply Leaves.get (by simp)
      rcases t.searchSlot page rid with ⟨rc, slot⟩
      dsimp only
      by_cases hCode : rc ≠ 0
      · rw [if_pos hCode]
        exact leaves_release_pure _ _ [] _
      · rw [if_neg hCode]
        by_cases hEmpty : slot = dmsSlotEmpty
        · rw [if_pos hEmpty]
          exact leaves_release_pure _ _ [] _
        · rw [if_neg hEmpty]
          exact leaves_release_pure _ _ [] _

/-
  A lookup on the page finds no record, a dropped one, or one
  whose length word is in range.
-/
def Readable
    (s : DmsFile)
    (page : Nat)
    (rid : DmsRecordID) : Prop :=
  let (rc, slot) := s.searchSlot page rid
  rc = 0 → slot ≠ dmsSlotEmpty →
    Page.recordFlag s.file (page + slot) ≠
      dmsRecordFlagDropped →
    BSONObj.isValid
      ⟨s.file, page + slot + sizeofRecord⟩ = true

theorem findLatched_balanced_iff
    (s t : DmsFile)
    (rid : DmsRecordID) :
    (s.findLatched t rid).Balanced ↔
      ∃ page, s.pageToOffset rid.pageID = some page ∧
        t.Readable page rid := by
  unfold findLatched
  cases s.pageToOffset rid.pageID with
  | none =>
      refine iff_of_false ?_ (by simp)
      intro hBalanced
      apply hBalanced.owned
      exact owns_release_bind_none (by simp) _
  | some page =>
      simp only [Option.some.injEq, exists_eq_left']
      unfold Readable
      rw [balanced_iff, owns_get_bind (by simp)]
      rcases t.searchSlot page rid with ⟨rc, slot⟩
      dsimp only
      by_cases hCode : rc ≠ 0
      · rw [if_pos hCode, owns_release_bind]
        simp [hCode]
      · rw [if_neg hCode]
        by_cases hEmpty : slot = dmsSlotEmpty
        · rw [if_pos hEmpty, owns_release_bind]
          simp [hEmpty]
        · rw [if_neg hEmpty]
          by_cases hFlag : Page.recordFlag t.file
              (page + slot) = dmsRecordFlagDropped
          · rw [if_pos hFlag, owns_release_bind]
            simp [hFlag]
          · rw [if_neg hFlag]
            by_cases hValid : BSONObj.isValid
                ⟨t.file, page + slot + sizeofRecord⟩ = true
            · have hData := BSONObj.ofData_of_isValid hValid
              rw [(leaves_lift hData _).owns_bind
                (fun o _ => owns_release_bind _ _ [] _)]
              simp [hValid]
            · have hData : BSONObj.ofData t.file
                  (page + slot + sizeofRecord) =
                    .error .assertion :=
                if_neg hValid
              rw [owns_bind_error hData]
              refine iff_of_false (by simp [lift, owns]) ?_
              exact fun hAll => hValid (hAll
                (not_not.mp hCode) hEmpty hFlag)

end DmsFile

------------------------------------------------------------
-- All Calls
------------------------------------------------------------

/-
  A call on the storage and the states it finds.  The rounds
  of an insertion are left open.
-/
inductive StorageCall
| insert (record : { o : BSONObj // o.isValid = true })
| remove (s t : DmsFile) (rid : DmsRecordID)
| find (s t : DmsFile) (rid : DmsRecordID)
| map (fileSize : Except Errno Nat) (offset length : Nat)
    (failure : Option Errno)

namespace StorageCall

/- All latches are given back and nothing else is. -/
def Balanced : StorageCall → Prop
| .insert record =>
    ∀ rounds, (DmsFile.insertLatched rounds record.1).Balanced
| .remove s t rid => (s.removeLatched t rid).Balanced
| .find s t rid => (s.findLatched t rid).Balanced
| .map fileSize offset length failure =>
    (ossMmapFileMapLatched fileSize offset length
      failure).Balanced

/- What a call has to meet to be balanced. -/
def Safe : StorageCall → Prop
| .insert record => 4 ≤ record.1.objsize
| .remove _ _ _ => True
| .find s t rid =>
    ∃ page, s.pageToOffset rid.pageID = some page ∧
      t.Readable page rid
| .map _ _ length _ => length ≠ 0

theorem latches_balanced_iff
    (c : StorageCall) :
    c.Balanced ↔ c.Safe := by
  cases c with
  | insert record =>
      exact DmsFile.insertLatched_balanced_iff record.2
  | remove s t rid =>
      refine iff_of_true ?_ True.intro
      exact s.removeLatched_balanced t rid
  | find s t rid =>
      exact s.findLatched_balanced_iff t rid
  | map fileSize offset length failure =>
      exact ossMmapFileMapLatched_balanced_iff fileSize offset
        length failure

/-
  A lookup in a data file without segments, and a mapping of
  no bytes.
-/
theorem latches_not_balanced :
    let s : DmsFile := ⟨fun _ => 0, dmsFileHeaderSize, true,
      [], MultiMap.empty⟩
    (s.findLatched s ⟨0, 0⟩).result = .ok (edbSys, none) ∧
      ¬ (find s s ⟨0, 0⟩).Balanced ∧
      ¬ (map (.ok dmsFileHeaderSize) 0 0 none).Balanced := by
  intro s
  refine ⟨rfl, ?_, ?_⟩
  · intro hBalanced
    apply hBalanced.owned
    rfl
  · intro hBalanced
    apply hBalanced.owned
    rfl

end StorageCall

end EmeraldDb
