import EmeraldDb.Dms.FreeSpace
import EmeraldDb.Lib.Returns

/-
  Where an insertion puts its record.

  The retry loop asks the free-space map for a page, extends
  the file when it has none, and ends on a page with a code.
  The record is written if the page has room for it.  That
  enters one more record where the headers of the pages agree
  with their slots, also if the page, being well formed, is
  reorganised before.

  Key definitions include:
    * `DmsFile.PageOffered`
    * `DmsFile.PlacedOn`
    * `DmsFile.RoomFound`
    * `DmsFile.Orderly`
    * `DmsFile.Enters`

  Key results include:
    * `DmsFile.insertLoop_placed`
    * `DmsFile.insert_ok_iff`
    * `DmsFile.Sound.offered_iff`
    * `DmsFile.Orderly.insert_enters`
-/

namespace EmeraldDb

namespace DmsFile

------------------------------------------------------------
-- The Page for a Record
------------------------------------------------------------

/- The first entry for more than `n` bytes names a page. -/
def Offers
    (M : MultiMap Nat Nat)
    (n : Nat) : Prop :=
  ∃ k p, M.upperBound n = some (k, p) ∧
    p ≠ dmsInvalidPageID

/-
  The free-space map offers a page, or an extension fails, or
  the map offers one when the new pages are in it.
-/
def PageOffered
    (n : Nat) :
    List Extension → MultiMap Nat Nat → Prop
| [], M => Offers M n
| ext :: exts, M =>
    Offers M n ∨ ext ≠ .success ∨
      PageOffered n exts
        (addPages M M.size dmsPagesPerSegment)

/-
  The retry loop for `n` bytes ends with a code on a page: one
  that the file has, or one that it has when it is extended.
-/
inductive PlacedOn
    (n : Nat) :
    List Extension → Int → DmsFile → Int → DmsFile → Nat →
      Prop
| found {exts : List Extension} {rc : Int} {s : DmsFile}
    {p : Nat} :
    s.findPage n = p → p ≠ dmsInvalidPageID →
    PlacedOn n exts rc s rc s p
| extended {exts : List Extension} {rc rc' : Int}
    {s t : DmsFile} {p : Nat} :
    s.findPage n = dmsInvalidPageID →
    PlacedOn n exts edbOk s.extended rc' t p →
    PlacedOn n (.success :: exts) rc s rc' t p

variable {s t : DmsFile} {n p : Nat}
variable {exts : List Extension} {rc rc' : Int}
variable {record : BSONObj} {r : InsertResult}
variable {data : Nat} {rid : DmsRecordID}

/- A range in the file is refused if `mmap` fails. -/
theorem mapSegment_fails
    {offset : Nat}
    (errno : Errno)
    (hInside : offset + dmsFileSegmentSize ≤ s.fileSize) :
    (s.mapSegment offset (some errno)).1 ≠ edbOk := by
  unfold mapSegment
  rw [ossMmapFileMap_fails errno dmsFileSegmentSize_pos
    hInside]
  exact mmapError_ne_ok errno

/- An extension with a failing call fails. -/
theorem extendSegment_ne_ok
    (s : DmsFile)
    {ext : Extension}
    (hOther : ext ≠ .success) :
    (s.extendSegment ext).1 ≠ edbOk := by
  cases ext with
  | success => exact absurd rfl hOther
  | sizeFails errno =>
      have hPositive := errno.2
      simp only [extendSegment, edbOk]
      omega
  | writeFails written errno =>
      have hPositive := errno.2
      simp only [extendSegment, extendFile, edbOk]
      rw [if_neg (by decide)]
      simp only
      omega
  | statFails errno =>
      have hFail : s.extendSegment (.statFails errno) =
          (edbInvalidArg, s.grow dmsFileSegmentSize) := rfl
      simp only [hFail]
      decide
  | mapFails errno =>
      rw [extendSegment, extendFile_segment]
      exact mapSegment_fails errno (le_refl _)

theorem findPage_offers
    (s : DmsFile)
    (n : Nat) :
    s.findPage n ≠ dmsInvalidPageID ↔
      Offers s.freeSpaceMap n := by
  unfold findPage Offers
  cases s.freeSpaceMap.upperBound n with
  | none => simp
  | some e =>
      constructor
      · intro hValid
        exact ⟨e.1, e.2, rfl, hValid⟩
      · rintro ⟨k, p, hEntry, hValid⟩
        obtain rfl := Option.some.inj hEntry
        exact hValid

/- The loop goes on to the page that it ends on. -/
theorem PlacedOn.insertLoop_eq
    (hPlaced : PlacedOn record.length exts rc s rc' t p) :
    insertLoop record exts rc s = t.insertPage p record rc' := by
  generalize hLength : record.length = n at hPlaced
  induction hPlaced with
  | found hFound hValid =>
      subst hLength hFound
      exact insertLoop_found hValid
  | @extended exts rc rc' s t p hNone _ ih =>
      subst hLength
      rw [insertLoop_extended hNone s.extendSegment_success]
      exact ih

/- A record is written only on such a page. -/
theorem insertLoop_placed
    (hCall : insertLoop record exts rc s = .ok r)
    (hWritten : r.written = some (data, rid)) :
    ∃ rc' t p, PlacedOn record.length exts rc s rc' t p ∧
      t.insertPage p record rc' = .ok r := by
  induction exts generalizing rc s with
  | nil =>
      by_cases hFound :
          s.findPage record.length = dmsInvalidPageID
      · simp [insertLoop, hFound] at hCall
      · rw [insertLoop_found hFound] at hCall
        exact ⟨rc, s, _, .found rfl hFound, hCall⟩
  | cons ext exts ih =>
      by_cases hFound :
          s.findPage record.length = dmsInvalidPageID
      · by_cases hSuccess : ext = .success
        · subst hSuccess
          rw [insertLoop_extended hFound
            s.extendSegment_success] at hCall
          rcases ih hCall with ⟨rc', t, p, hPlaced, hPage⟩
          exact ⟨rc', t, p, .extended hFound hPlaced, hPage⟩
        · rw [insertLoop_failed hFound rfl
            (s.extendSegment_ne_ok hSuccess)] at hCall
          rw [← Except.ok.inj hCall] at hWritten
          cases hWritten
      · rw [insertLoop_found hFound] at hCall
        exact ⟨rc, s, _, .found rfl hFound, hCall⟩

------------------------------------------------------------
-- Writing the Record
------------------------------------------------------------

/-
  The memory after an insertion: the record is copied before
  the words of the page's header are written.
-/
def writtenOver
    (m : Memory)
    (page : Nat)
    (record : BSONObj) : Memory :=
  Page.inserted m page record
    (ofSigned (Page.freeSpace
        (writeMetadata (writeRecord m page record) page
          (offsetData m page record.length)) page +
      (-(record.length + sizeofSlot + sizeofRecord : Int))))

/-
  The loop ends without an error on a page, and the page has
  room for the record when it has been reorganised, if it is.
-/
def RoomFound
    (exts : List Extension)
    (s : DmsFile)
    (record : BSONObj) : Prop :=
  ∃ t p page,
    PlacedOn record.length exts
      (if dmsMaxRecord < record.length then edbInvalidArg
        else edbOk) s edbOk t p ∧
    t.pageToOffset p = some page ∧
    Page.magic t.file page = dmsPageMagic ∧
    noRoom (t.prepared page record.length).file page
      record.length = false

theorem insertPage_ok_written
    (hCall : t.insertPage p record rc = .ok r)
    (hCode : r.rc = edbOk) :
    ∃ data rid, r.written = some (data, rid) := by
  have hSys : edbSys ≠ edbOk := by decide
  cases hOffset : t.pageToOffset p with
  | none =>
      simp only [DmsFile.insertPage, hOffset] at hCall
      rw [← Except.ok.inj hCall] at hCode
      exact absurd hCode hSys
  | some page =>
      rw [insertPage_eq hOffset] at hCall
      split at hCall
      · rw [← Except.ok.inj hCall] at hCode
        exact absurd hCode hSys
      · split at hCall
        · rw [← Except.ok.inj hCall] at hCode
          exact absurd hCode hSys
        · unfold insertRecord at hCall
          rcases bind_ok hCall with ⟨_, _, hRest⟩
          rw [← Except.ok.inj hRest]
          exact ⟨_, _, rfl⟩

/- What is written, wherever the page has its records. -/
theorem insertRecord_written
    (hFour : 4 ≤ record.length)
    (hValid : record.isValid = true)
    (t : DmsFile)
    (page p : Nat)
    (rc : Int) :
    ∃ r rid, t.insertRecord page p record rc = .ok r ∧
      r.rc = rc ∧
      r.written = some (page +
        offsetData t.file page record.length + sizeofRecord,
          rid) ∧
      r.state.file = writtenOver t.file page record := by
  have hData : BSONObj.ofData
      (writeRecord t.file page record)
      (page + offsetData t.file page record.length +
        sizeofRecord) =
        .ok ⟨writeRecord t.file page record,
          page + offsetData t.file page record.length +
            sizeofRecord⟩ :=
    BSONObj.ofData_of_same hFour hValid
      (Memory.same_copy _ _ _ _ _).symm
  simp only [insertRecord, hData, bind, Except.bind, pure,
    Except.pure, Except.ok.injEq, exists_and_left,
    exists_eq_left', updateFreeSpace, Page.inserted,
    writtenOver, Option.some.injEq, Prod.mk.injEq, true_and,
    and_true, exists_eq']

/- A valid record is written if the page has room for it. -/
theorem insertPage_written
    {page : Nat}
    (hFour : 4 ≤ record.length)
    (hValid : record.isValid = true)
    (hOffset : t.pageToOffset p = some page)
    (hMagic : Page.magic t.file page = dmsPageMagic)
    (hRoom : noRoom (t.prepared page record.length).file page
      record.length = false)
    (rc : Int) :
    ∃ r rid, t.insertPage p record rc = .ok r ∧ r.rc = rc ∧
      r.written = some (page +
        offsetData (t.prepared page record.length).file page
          record.length + sizeofRecord, rid) ∧
      r.state.file = writtenOver
        (t.prepared page record.length).file page record := by
  rw [insertPage_eq hOffset, if_neg (not_not.mpr hMagic),
    if_neg (by rw [hRoom]; exact Bool.false_ne_true)]
  exact insertRecord_written hFour hValid _ page p rc

theorem insertPage_of_written
    (hFour : 4 ≤ record.length)
    (hValid : record.isValid = true)
    (hCall : t.insertPage p record rc = .ok r)
    (hWritten : r.written = some (data, rid)) :
    ∃ page, t.pageToOffset p = some page ∧
      Page.magic t.file page = dmsPageMagic ∧
      noRoom (t.prepared page record.length).file page
        record.length = false ∧
      r.rc = rc ∧
      data = page +
        offsetData (t.prepared page record.length).file page
          record.length + sizeofRecord ∧
      r.state.file = writtenOver
        (t.prepared page record.length).file page record := by
  cases hOffset : t.pageToOffset p with
  | none =>
      simp only [DmsFile.insertPage, hOffset] at hCall
      rw [← Except.ok.inj hCall] at hWritten
      cases hWritten
  | some page =>
      have hSteps := @insertPage_eq t record p page hOffset rc
      rw [hCall] at hSteps
      split at hSteps
      · rw [Except.ok.inj hSteps] at hWritten
        cases hWritten
      · rename_i hMagic
        split at hSteps
        · rw [Except.ok.inj hSteps] at hWritten
          cases hWritten
        · rename_i hRoom
          rw [not_not] at hMagic
          rw [Bool.not_eq_true] at hRoom
          rcases insertPage_written hFour hValid hOffset
            hMagic hRoom rc with
            ⟨r', rid', hCall', hCode, hPlace, hFile⟩
          obtain rfl := Except.ok.inj (hCall.symm.trans hCall')
          rw [hPlace] at hWritten
          have hData := congrArg Prod.fst
            (Option.some.inj hWritten)
          exact ⟨page, rfl, hMagic, hRoom, hCode, hData.symm,
            hFile⟩

/- A copy behind the page's header is not written over. -/
theorem writtenOver_same
    (m : Memory)
    (page : Nat)
    (record : BSONObj)
    (hBehind : sizeofPageHeader ≤
      offsetData m page record.length + sizeofRecord) :
    Memory.Same record.mem record.objdata
      (writtenOver m page record)
      (page + offsetData m page record.length + sizeofRecord)
      record.length := by
  intro i hi
  simp only [sizeofPageHeader, sizeofRecord] at hBehind
  unfold writtenOver Page.inserted writeMetadata writeRecord
  simp only [sizeofRecord]
  rw [Memory.setWord_of_disjoint _ _ _ (by omega),
    Memory.setWord_of_disjoint _ _ _ (by omega),
    Memory.setWord_of_disjoint _ _ _ (by omega),
    Memory.setWord_of_disjoint _ _ _ (by omega),
    Memory.copy_inside _ _ _ _ _ hi]

/- An insertion that returns no error has written a record. -/
theorem insertLoop_ok_written
    (hCall : insertLoop record exts rc s = .ok r)
    (hCode : r.rc = edbOk) :
    ∃ data rid, r.written = some (data, rid) := by
  induction exts generalizing rc s with
  | nil =>
      by_cases hFound :
          s.findPage record.length = dmsInvalidPageID
      · simp [insertLoop, hFound] at hCall
      · rw [insertLoop_found hFound] at hCall
        exact insertPage_ok_written hCall hCode
  | cons ext exts ih =>
      by_cases hFound :
          s.findPage record.length = dmsInvalidPageID
      · by_cases hSuccess : ext = .success
        · subst hSuccess
          rw [insertLoop_extended hFound
            s.extendSegment_success] at hCall
          exact ih hCall
        · have hFails := s.extendSegment_ne_ok hSuccess
          rw [insertLoop_failed hFound rfl hFails] at hCall
          rw [← Except.ok.inj hCall] at hCode
          exact absurd hCode hFails
      · rw [insertLoop_found hFound] at hCall
        exact insertPage_ok_written hCall hCode

/- When the insertion of a valid record returns no error. -/
theorem insert_ok_iff
    (hFour : 4 ≤ record.length)
    (hValid : record.isValid = true) :
    (∃ r, s.insert exts record = .ok r ∧ r.rc = edbOk) ↔
      RoomFound exts s record := by
  constructor
  · rintro ⟨r, hCall, hCode⟩
    rcases insertLoop_ok_written hCall hCode with
      ⟨data, rid, hWritten⟩
    rcases insertLoop_placed hCall hWritten with
      ⟨rc', t, p, hPlaced, hPage⟩
    rcases insertPage_of_written hFour hValid hPage hWritten
      with ⟨page, hOffset, hMagic, hRoom, hSame, _⟩
    rw [hCode] at hSame
    subst hSame
    exact ⟨t, p, page, hPlaced, hOffset, hMagic, hRoom⟩
  · rintro ⟨t, p, page, hPlaced, hOffset, hMagic, hRoom⟩
    rcases insertPage_written hFour hValid hOffset hMagic
      hRoom edbOk with ⟨r, _, hCall, hCode, _⟩
    refine ⟨r, ?_, hCode⟩
    rw [DmsFile.insert, hPlaced.insertLoop_eq, hCall]

------------------------------------------------------------
-- Sound Files
------------------------------------------------------------

/-
  A page has more free space than `n` bytes, or an extension
  fails, or there is one and a new page has more than that.
-/
def SpaceFound
    (exts : List Extension)
    (s : DmsFile)
    (n : Nat) : Prop :=
  (∃ p < s.getNumPages,
      n < Page.freeSpace s.file (s.pageAt p)) ∨
    (∃ ext ∈ exts, ext ≠ .success) ∨
      exts ≠ [] ∧ n < dmsPageSize - sizeofPageHeader

/- A page is found if one has more free space. -/
theorem Sound.findPage_iff
    (hSound : Sound s)
    (n : Nat) :
    s.findPage n ≠ dmsInvalidPageID ↔
      ∃ p < s.getNumPages,
        n < Page.freeSpace s.file (s.pageAt p) := by
  have hMem : ∀ e, e ∈ s.freeSpaceMap.entries ↔
      ∃ p < s.getNumPages,
        (Page.freeSpace s.file (s.pageAt p), p) = e := by
    intro e
    rw [hSound.free.mem_iff, List.mem_map]
    simp only [List.mem_range]
  unfold findPage
  cases hBound : s.freeSpaceMap.upperBound n with
  | none =>
      refine iff_of_false (by simp) ?_
      rintro ⟨p, hPage, hMore⟩
      have hLe := MultiMap.upperBound_none hBound _
        ((hMem _).mpr ⟨p, hPage, rfl⟩)
      simp only at hLe
      omega
  | some e =>
      have hFound := MultiMap.upperBound_some hBound
      rcases (hMem e).mp hFound.1 with ⟨p, hPage, rfl⟩
      refine iff_of_true ?_ ⟨p, hPage, hFound.2⟩
      have hFits := hSound.fits
      rw [hSound.getNumPages_eq] at hPage
      simp only [numPages, dmsPagesPerSegment] at hPage hFits
      simp only [dmsInvalidPageID]
      omega

/- After an extension the new pages have free space, too. -/
theorem Sound.free_extended
    (hSound : Sound s)
    (hFits : s.extended.numPages < 4294967296) :
    (∃ p < s.extended.getNumPages,
        n < Page.freeSpace s.extended.file
          (s.extended.pageAt p)) ↔
      (∃ p < s.getNumPages,
        n < Page.freeSpace s.file (s.pageAt p)) ∨
        n < dmsPageSize - sizeofPageHeader := by
  have hMapped := hSound.toMapped
  have hOld : ∀ p < s.getNumPages,
      Page.freeSpace s.extended.file (s.extended.pageAt p) =
        Page.freeSpace s.file (s.pageAt p) := by
    intro p hPage
    rw [hMapped.pageAt_old hFits hPage]
    exact Page.Good.field_frame (hMapped.same_old hPage)
      (d := 20) (by decide)
  have hNew : ∀ i < dmsPagesPerSegment,
      Page.freeSpace s.extended.file
        (s.extended.pageAt (s.getNumPages + i)) =
          dmsPageSize - sizeofPageHeader :=
    fun i hi => (hMapped.fresh_new hFits hi).free
  rw [hMapped.getNumPages_extended hFits]
  constructor
  · rintro ⟨p, hPage, hMore⟩
    by_cases hIn : p < s.getNumPages
    · rw [hOld p hIn] at hMore
      exact Or.inl ⟨p, hIn, hMore⟩
    · have hFree := hNew (p - s.getNumPages) (by omega)
      rw [Nat.add_sub_cancel' (Nat.le_of_not_lt hIn)] at hFree
      rw [hFree] at hMore
      exact Or.inr hMore
  · rintro (⟨p, hPage, hMore⟩ | hMore)
    · exact ⟨p, by omega, by rw [hOld p hPage]; exact hMore⟩
    · refine ⟨s.getNumPages + 0, by
        simp only [dmsPagesPerSegment]
        omega, ?_⟩
      rw [hNew 0 (by decide)]
      exact hMore

/-
  The extensions are made one by one, as long as they succeed
  and no page has more free space.
-/
theorem Sound.offered_iff
    {exts : List Extension}
    (hSound : Sound s)
    (hFits : s.numPages + dmsPagesPerSegment * exts.length <
      4294967296) :
    PageOffered n exts s.freeSpaceMap ↔
      s.SpaceFound exts n := by
  induction exts generalizing s with
  | nil =>
      unfold PageOffered SpaceFound
      rw [← findPage_offers, hSound.findPage_iff]
      simp
  | cons ext exts ih =>
      unfold PageOffered SpaceFound
      rw [← findPage_offers, hSound.findPage_iff]
      by_cases hSuccess : ext = .success
      · subst hSuccess
        have hPages := s.numPages_extended
        rw [List.length_cons, Nat.mul_succ] at hFits
        have hNext : s.extended.numPages < 4294967296 := by
          rw [hPages]
          omega
        have hRest := ih (hSound.extended hNext) (by omega)
        have hMap : s.extended.freeSpaceMap =
            addPages s.freeSpaceMap s.freeSpaceMap.size
              dmsPagesPerSegment := rfl
        rw [hMap] at hRest
        rw [hRest]
        unfold SpaceFound
        rw [hSound.free_extended hNext]
        simp only [ne_eq, not_true_eq_false, false_or,
          List.mem_cons,
          exists_eq_or_imp, reduceCtorEq,
          not_false_eq_true, true_and]
        generalize (∃ p < s.getNumPages,
          n < Page.freeSpace s.file (s.pageAt p)) = found
        generalize (∃ ext ∈ exts, ¬ ext = .success) = fails
        tauto
      · refine iff_of_true (Or.inr (Or.inl hSuccess)) ?_
        exact Or.inr (Or.inl
          ⟨ext, List.mem_cons_self, hSuccess⟩)

------------------------------------------------------------
-- Orderly Files
------------------------------------------------------------

/-
  The segments are mapped apart, the header of every page
  agrees with its slots, and a page that is reorganised for
  `n` bytes is well formed.
-/
structure Orderly
    (s : DmsFile)
    (n : Nat) : Prop extends Mapped s where
  shape : ∀ p < s.getNumPages,
    Page.Shape s.file (s.pageAt p)
  formed : ∀ p < s.getNumPages,
    needsRecover s.file (s.pageAt p) n = true →
      Page.Formed s.file (s.pageAt p)

theorem Sound.orderly
    (hSound : Sound s)
    (n : Nat) :
    Orderly s n := by
  refine ⟨hSound.toMapped, ?_, ?_⟩
  · intro p hPage
    rcases hSound.page p hPage with ⟨hFormed, hBound⟩
    exact hFormed.shape hBound
  · intro p hPage _
    exact (hSound.page p hPage).1

/- The header of a page tells whether it is reorganised. -/
theorem needsRecover_frame
    {m m' : Memory}
    {page : Nat}
    (hSame : Memory.Same m page m' page dmsPageSize)
    (n : Nat) :
    needsRecover m' page n = needsRecover m page n := by
  have hSlots : Page.slotOffset m' page =
      Page.slotOffset m page :=
    Page.Good.field_frame hSame (by decide)
  have hFree : Page.freeSpace m' page =
      Page.freeSpace m page :=
    Page.Good.field_frame hSame (by decide)
  have hEdge : Page.freeOffset m' page =
      Page.freeOffset m page :=
    Page.Good.field_frame hSame (by decide)
  simp only [needsRecover, hSlots, hFree, hEdge]

/- An extension of an orderly file is orderly. -/
theorem Orderly.extended
    (hOrderly : Orderly s n)
    (hFits : s.extended.numPages < 4294967296) :
    Orderly s.extended n := by
  have hMapped := hOrderly.toMapped
  have hCount := hMapped.getNumPages_extended hFits
  have hNew : ∀ p < s.extended.getNumPages,
      ¬ p < s.getNumPages →
      Page.Good s.extended.file (s.extended.pageAt p) := by
    intro p hPage hOld
    have hFresh := hMapped.fresh_new hFits
      (i := p - s.getNumPages) (by omega)
    rw [Nat.add_sub_cancel' (Nat.le_of_not_lt hOld)] at hFresh
    exact hFresh.good
  refine ⟨hMapped.extended hFits, ?_, ?_⟩
  · intro p hPage
    by_cases hOld : p < s.getNumPages
    · rw [hMapped.pageAt_old hFits hOld]
      exact (hOrderly.shape p hOld).frame
        (hMapped.same_old hOld)
    · exact (hNew p hPage hOld).shape
  · intro p hPage hNeeds
    by_cases hOld : p < s.getNumPages
    · have hSame := hMapped.same_old hOld
      rw [hMapped.pageAt_old hFits hOld] at hNeeds ⊢
      rw [needsRecover_frame hSame] at hNeeds
      exact ((hOrderly.formed p hOld hNeeds).frame
        (hOrderly.shape p hOld).bound hSame).1
    · exact (hNew p hPage hOld).formed

theorem Orderly.placedOn
    (hOrderly : Orderly s n)
    (hFits : s.numPages + dmsPagesPerSegment * exts.length <
      4294967296)
    (hPlaced : PlacedOn n exts rc s rc' t p) :
    Orderly t n := by
  induction hPlaced with
  | found _ _ => exact hOrderly
  | @extended exts rc rc' s t p _ _ ih =>
      have hPages := s.numPages_extended
      rw [List.length_cons, Nat.mul_succ] at hFits
      exact ih (hOrderly.extended (by omega)) (by omega)

/- A page that is reorganised keeps its slot list. -/
theorem Orderly.prepared_shape
    (hOrderly : Orderly s n)
    (hPage : p < s.getNumPages) :
    Page.Shape (s.prepared (s.pageAt p) n).file
      (s.pageAt p) := by
  have hShape := hOrderly.shape p hPage
  unfold DmsFile.prepared
  split
  · rename_i hNeeds
    exact (hOrderly.formed p hPage hNeeds).recoverSpace_shape
      hShape.bound
  · exact hShape

------------------------------------------------------------
-- Records Entered
------------------------------------------------------------

/- The record id names a slot with a record. -/
def Holds (s : DmsFile) (rid : DmsRecordID) : Prop :=
  rid.pageID < s.getNumPages ∧
    Page.Live s.file (s.pageAt rid.pageID) rid.slotID

/- The object that the slot points to. -/
def objectAt (s : DmsFile) (rid : DmsRecordID) : BSONObj :=
  Page.object s.file (s.pageAt rid.pageID) rid.slotID

/- One record more is held, with the bytes of `record`. -/
structure Enters
    (s t : DmsFile)
    (rid : DmsRecordID)
    (record : BSONObj) : Prop where
  fresh : ¬ s.Holds rid
  holds : ∀ r, t.Holds r ↔ r = rid ∨ s.Holds r
  data : Memory.Same record.mem record.objdata t.file
    (t.objectAt rid).objdata record.length

/- The slot list has one slot more, for the new record. -/
theorem inserted_live
    {m : Memory}
    {page free : Nat}
    (hShape : Page.Shape m page)
    (hRoom : Page.Room m page record.length)
    (hSize : record.length < 4294967296)
    (k : Nat) :
    Page.Live (Page.inserted m page record free) page k ↔
      k = Page.numSlots m page ∨ Page.Live m page k := by
  have hCount := (@Page.inserted_header m page record free
    hShape hRoom).2.1
  have hNew := (@Page.inserted_new m page record free hShape
    hRoom hSize).1
  have hOffset := hShape.offsetData_eq hRoom
  have hBound := hShape.bound
  simp only [sizeofRecord, dmsPageSize] at hOffset hBound
  unfold Page.Live
  rw [hCount]
  rcases Nat.lt_trichotomy k (Page.numSlots m page) with
    hOld | rfl | hOut
  · rw [Page.inserted_slot hShape hRoom hOld]
    constructor
    · rintro ⟨_, hSlot⟩
      exact Or.inr ⟨hOld, hSlot⟩
    · rintro (hNew | hLive)
      · omega
      · exact ⟨by omega, hLive.2⟩
  · rw [hNew]
    simp only [dmsSlotEmpty]
    exact iff_of_true ⟨by omega, by omega⟩ (Or.inl trivial)
  · constructor
    · rintro ⟨hIn, _⟩
      omega
    · rintro (hNew | hLive)
      · omega
      · omega

/- A reorganised page has its records in the same slots. -/
theorem Orderly.prepared_live
    (hOrderly : Orderly s n)
    (hPage : p < s.getNumPages)
    (k : Nat) :
    Page.Live (s.prepared (s.pageAt p) n).file (s.pageAt p)
        k ↔
      Page.Live s.file (s.pageAt p) k := by
  unfold DmsFile.prepared
  split
  · rename_i hNeeds
    exact (hOrderly.formed p hPage hNeeds).recoverSpace_live
      (hOrderly.shape p hPage).bound k
  · rfl

theorem Orderly.prepared_local
    (hOrderly : Orderly s n)
    (hPage : p < s.getNumPages) :
    Page.Local s.file (s.prepared (s.pageAt p) n).file
      (s.pageAt p) := by
  unfold DmsFile.prepared
  split
  · rename_i hNeeds
    exact (hOrderly.formed p hPage hNeeds).recoverSpace_local
      (hOrderly.shape p hPage).bound
  · intro x _
    rfl

/- The records of the other pages are held as before. -/
theorem Orderly.live_other
    (hOrderly : Orderly s n)
    {q : Nat}
    (hPage : p < s.getNumPages)
    (hOther : q < s.getNumPages)
    (hNe : q ≠ p)
    {m : Memory}
    (hLocal : Page.Local s.file m (s.pageAt p))
    (k : Nat) :
    Page.Live m (s.pageAt q) k ↔
      Page.Live s.file (s.pageAt q) k := by
  have hSame := hLocal.same
    (hOrderly.toMapped.pageAt_apart hPage hOther hNe)
  exact (hOrderly.shape q hOther).live_frame hSame k

/- What the write of a record on a page leaves. -/
theorem Orderly.insertPage_state
    (hOrderly : Orderly s record.length)
    (hFour : 4 ≤ record.length)
    (hValid : record.isValid = true)
    (hCall : s.insertPage p record rc = .ok r)
    (hWritten : r.written = some (data, rid)) :
    p < s.getNumPages ∧ ∃ m free,
      m = (s.prepared (s.pageAt p) record.length).file ∧
      Page.Shape m (s.pageAt p) ∧
      Page.Room m (s.pageAt p) record.length ∧
      rid = ⟨p, Page.numSlots m (s.pageAt p)⟩ ∧
      r.state.body = s.body ∧
      r.state.file =
        Page.inserted m (s.pageAt p) record free := by
  rcases insertPage_of_written hFour hValid hCall hWritten with
    ⟨page, hOffset, hMagic, hFree, _⟩
  have hPage : p < s.getNumPages := by
    by_contra hOut
    rw [pageToOffset_none (Nat.le_of_not_lt hOut)] at hOffset
    cases hOffset
  obtain rfl : s.pageAt p = page := by
    rw [pageAt, hOffset, Option.getD_some]
  have hShape := hOrderly.prepared_shape hPage
  have hRoom := room_of_noRoom hShape hFree
  rw [insertPage_eq hOffset, if_neg (not_not.mpr hMagic),
    if_neg (by rw [hFree]; exact Bool.false_ne_true),
    insertRecord_valid hShape hRoom hFour hValid] at hCall
  obtain rfl := Except.ok.inj hCall
  obtain ⟨-, rfl⟩ := Prod.mk.inj (Option.some.inj hWritten)
  exact ⟨hPage, _, _, rfl, hShape, hRoom, rfl,
    s.prepared_body (s.pageAt p) record.length, rfl⟩

/- A page of an orderly file takes it in a new slot. -/
theorem Orderly.insertPage_enters
    (hOrderly : Orderly s record.length)
    (hFour : 4 ≤ record.length)
    (hValid : record.isValid = true)
    (hCall : s.insertPage p record rc = .ok r)
    (hWritten : r.written = some (data, rid)) :
    Enters s r.state rid record := by
  have hSize : record.length < 4294967296 := by
    simp only [BSONObj.isValid, decide_eq_true_eq,
      bsonObjMaxInternalSize] at hValid
    unfold BSONObj.length
    omega
  rcases hOrderly.insertPage_state hFour hValid hCall hWritten
    with ⟨hPage, m, free, hPrepared, hShape, hRoom, rfl, hBody,
      hFile⟩
  have hOld : ∀ k, Page.Live m (s.pageAt p) k ↔
      Page.Live s.file (s.pageAt p) k := by
    intro k
    rw [hPrepared]
    exact hOrderly.prepared_live hPage k
  have hNew := @inserted_live record m (s.pageAt p) free
    hShape hRoom hSize
  have hLocal : Page.Local s.file r.state.file
      (s.pageAt p) := by
    intro x hx
    rw [hFile, Page.inserted_local hShape hRoom x hx,
      hPrepared]
    exact hOrderly.prepared_local hPage x hx
  refine ⟨?_, ?_, ?_⟩
  · rintro ⟨_, hLive⟩
    have hIn := ((hOld _).mpr hLive).1
    exact absurd hIn (lt_irrefl _)
  · rintro ⟨q, k⟩
    unfold Holds
    rw [getNumPages_congr hBody, pageAt_congr hBody]
    simp only [DmsRecordID.mk.injEq]
    by_cases hHere : q = p
    · subst hHere
      rw [hFile, hNew, hOld]
      simp [hPage]
    · simp only [hHere, false_and, false_or]
      apply and_congr_right
      intro hOther
      exact hOrderly.live_other hPage hOther hHere hLocal k
  · have hSlot := (@Page.inserted_new m (s.pageAt p) record
      free hShape hRoom hSize).1
    unfold objectAt Page.object
    rw [pageAt_congr hBody, hFile, hSlot]
    exact Page.inserted_data hShape hRoom

/- New pages hold no record. -/
theorem Orderly.extended_holds
    (hOrderly : Orderly s n)
    (hFits : s.extended.numPages < 4294967296)
    (rid : DmsRecordID) :
    s.extended.Holds rid ↔ s.Holds rid := by
  have hMapped := hOrderly.toMapped
  unfold Holds
  by_cases hOld : rid.pageID < s.getNumPages
  · rw [hMapped.pageAt_old hFits hOld,
      hMapped.getNumPages_extended hFits,
      (hOrderly.shape _ hOld).live_frame
        (hMapped.same_old hOld)]
    apply and_congr_left
    intro _
    exact iff_of_true (by omega) hOld
  · refine iff_of_false ?_ (fun hHolds => hOld hHolds.1)
    rintro ⟨hIn, hLive⟩
    rw [hMapped.getNumPages_extended hFits] at hIn
    have hFresh := hMapped.fresh_new hFits
      (i := rid.pageID - s.getNumPages) (by omega)
    rw [Nat.add_sub_cancel' (Nat.le_of_not_lt hOld)] at hFresh
    exact hFresh.none _ hLive

theorem Orderly.placedOn_holds
    (hOrderly : Orderly s n)
    (hFits : s.numPages + dmsPagesPerSegment * exts.length <
      4294967296)
    (hPlaced : PlacedOn n exts rc s rc' t p)
    (rid : DmsRecordID) :
    t.Holds rid ↔ s.Holds rid := by
  induction hPlaced with
  | found _ _ => rfl
  | @extended exts rc rc' s t p _ _ ih =>
      have hPages := s.numPages_extended
      rw [List.length_cons, Nat.mul_succ] at hFits
      have hNext : s.extended.numPages < 4294967296 := by
        omega
      rw [ih (hOrderly.extended hNext) (by omega),
        hOrderly.extended_holds hNext]

/- An insertion into an orderly file enters its record. -/
theorem Orderly.insert_enters
    (hOrderly : Orderly s record.length)
    (hFits : s.numPages + dmsPagesPerSegment * exts.length <
      4294967296)
    (hFour : 4 ≤ record.length)
    (hValid : record.isValid = true)
    (hCall : s.insert exts record = .ok r)
    (hWritten : r.written = some (data, rid)) :
    Enters s r.state rid record := by
  rcases insertLoop_placed hCall hWritten with
    ⟨rc', t, p, hPlaced, hPage⟩
  have hHolds := hOrderly.placedOn_holds hFits hPlaced
  have hEnters := (hOrderly.placedOn hFits
    hPlaced).insertPage_enters hFour hValid hPage hWritten
  refine ⟨?_, ?_, hEnters.data⟩
  · intro hOld
    exact hEnters.fresh ((hHolds rid).mpr hOld)
  · intro r'
    rw [hEnters.holds, hHolds]

end DmsFile

end EmeraldDb
