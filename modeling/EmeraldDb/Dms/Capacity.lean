import EmeraldDb.Dms.FreeSpace
import EmeraldDb.Dms.SlotPage
import EmeraldDb.Lib.Transition

/-
  Which insertions find room.

  The free space of a page, its slots with a record header
  each, the data of its live records and its header make up
  the page.  A page is found by the bytes of the record
  alone, but the record also takes a header and a slot, so an
  insertion succeeds exactly if the page it finds has twelve
  bytes more.  A record that is too large for the size check
  is inserted, or the file is extended, all the same.

  Key definitions include:
    * `Page.Counted`
    * `DmsFile.Filled`
    * `DmsFile.CapacityStep`
    * `DmsFile.Fits`

  Key results include:
    * `Page.Counted.noRoom_iff`
    * `DmsFile.Filled.insert_ok_iff`
    * `DmsFile.insert_succeeds_iff`
    * `DmsFile.insert_oversized`
-/

namespace EmeraldDb

------------------------------------------------------------
-- The Bytes of a Page
------------------------------------------------------------

namespace Page

variable {m m' : Memory} {page n : Nat} {record : BSONObj}

/- Bytes that a record takes besides its data. -/
abbrev sizeofEntry : Nat := sizeofRecord + sizeofSlot

/- Every byte of the page is accounted for. -/
def Counted (m : Memory) (page : Nat) : Prop :=
  freeSpace m page + sizeofEntry * numSlots m page +
    liveBytes 0 m page (numSlots m page) +
      sizeofPageHeader = dmsPageSize

namespace Counted

theorem of_fresh
    (hFresh : Fresh m page) :
    Counted m page := by
  have hTight := hFresh.tight
  have hSlots := hFresh.good.slots
  have hBound := hFresh.good.bound
  unfold Tight at hTight
  rw [hFresh.free] at hTight
  unfold Counted
  rw [hFresh.free, liveBytes_of_none 0 hFresh.none]
  simp only [sizeofEntry, sizeofRecord, sizeofSlot,
    sizeofPageHeader, dmsPageSize] at *
  omega

/- A page that is not written. -/
theorem frame
    (hCounted : Counted m page)
    (hGood : Good m page)
    (hSame : Memory.Same m page m' page dmsPageSize) :
    Counted m' page := by
  have hCount : numSlots m' page = numSlots m page :=
    Good.field_frame hSame (by decide)
  have hFree : freeSpace m' page = freeSpace m page :=
    Good.field_frame hSame (by decide)
  have hBytes : liveBytes 0 m' page (numSlots m page) =
      liveBytes 0 m page (numSlots m page) := by
    apply liveBytes_congr
    · intro k _
      exact hGood.shape.live_frame hSame k
    · intro k hk hLive
      rw [hGood.shape.slot_frame hSame hk]
      have hHigh := (hGood.record k hLive).high
      exact Good.field_frame hSame (by
        simp only [sizeofRecord] at hHigh
        omega)
  unfold Counted
  rw [hCount, hFree, hBytes]
  exact hCounted

/- A record takes its bytes, a header and a slot. -/
theorem inserted
    (hCounted : Counted m page)
    (hGood : Good m page)
    (hRoom : Room m page record.length)
    (hFree : record.length + sizeofEntry ≤ freeSpace m page)
    (hForm : record.WellFormed) :
    Counted
      (Page.inserted m page record
        (DmsFile.remaining m page record.length)) page := by
  have hLength := hForm.length_eq.2.2
  simp only [bsonObjMaxInternalSize] at hLength
  have hHeader := @inserted_header m page record
    (DmsFile.remaining m page record.length) hGood.shape hRoom
  have hBytes := hGood.regular.liveBytes_inserted hRoom
    (by omega) 0 (DmsFile.remaining m page record.length)
  have hBound : freeSpace m page ≤ dmsPageSize := by
    unfold Counted at hCounted
    omega
  have hRemaining : DmsFile.remaining m page record.length +
      (record.length + sizeofEntry) = freeSpace m page := by
    unfold DmsFile.remaining ofSigned
    simp only [sizeofEntry, sizeofRecord, sizeofSlot,
      dmsPageSize] at *
    omega
  have hSmall : DmsFile.remaining m page record.length <
      4294967296 :=
    ofSigned_lt _
  unfold Counted at hCounted ⊢
  rw [hHeader.2.1, hHeader.2.2.2.2, Nat.mod_eq_of_lt hSmall,
    hBytes]
  simp only [sizeofEntry, sizeofRecord, sizeofSlot] at *
  omega

/- A removal gives back the data bytes alone. -/
theorem dropped
    (hCounted : Counted m page)
    (hGood : Good m page)
    {k : Nat}
    (hLive : Live m page k) :
    Counted
      (Page.dropped m page k (DmsFile.regained m page k))
      page := by
  have hHeader := @dropped_header m page k
    (DmsFile.regained m page k) (hGood.slot_ge hLive)
  have hBytes := hGood.regular.liveBytes_drop hLive 0
    (DmsFile.regained m page k)
  have hRegained : DmsFile.regained m page k =
      freeSpace m page +
        recordSize m (page + slot m page k) := by
    unfold DmsFile.regained
    unfold Counted at hCounted
    simp only [dmsPageSize] at hCounted
    rw [toSigned_of_lt (by omega)]
    unfold ofSigned
    omega
  have hSmall : DmsFile.regained m page k < 4294967296 :=
    ofSigned_lt _
  unfold Counted at hCounted ⊢
  rw [hHeader.2.1, hHeader.2.2.2.2, Nat.mod_eq_of_lt hSmall]
  omega

/- A page without records loses only its holes. -/
theorem recovered
    (hCounted : Counted m page)
    (hGood : Good m page)
    (hNone : ∀ k, ¬ Live m page k) :
    Counted (recoverSpace m page) page := by
  rcases hGood.recoverSpace hNone with
    ⟨_, hNone', _, hCount, hFree⟩
  unfold Counted at hCounted ⊢
  rw [liveBytes_of_none 0 hNone] at hCounted
  rw [hCount, hFree, liveBytes_of_none 0 hNone']
  exact hCounted

/-
  With the page reorganised where that is needed, the check
  for room asks whether the free space holds the record, its
  header and its slot.
-/
theorem noRoom_iff
    (hCounted : Counted m page)
    (hFormed : Formed m page)
    (hBound : freeOffset m page ≤ dmsPageSize)
    (hSmall : n ≤ dmsMaxRecord) :
    DmsFile.noRoom
        (if DmsFile.needsRecover m page n = true then
          recoverSpace m page
        else m) page n = true ↔
      freeSpace m page < n + sizeofEntry := by
  have hSlots := hFormed.slots
  have hRoom := hFormed.room
  unfold Counted at hCounted
  simp only [dmsMaxRecord, dmsPageSize, sizeofHeader,
    sizeofRecord, sizeofSlot, sizeofEntry, sizeofPageHeader]
    at hSmall hBound hSlots hCounted
  by_cases hNeed : DmsFile.needsRecover m page n = true
  · rw [if_pos hNeed]
    have hFree : freeSpace (recoverSpace m page) page =
        freeSpace m page :=
      hFormed.recoverSpace_field hBound (by decide)
    have hOffset : slotOffset (recoverSpace m page) page =
        slotOffset m page :=
      hFormed.recoverSpace_field hBound (by decide)
    have hEdge := (hFormed.recovered hBound).free
    simp only [dmsPageSize] at hEdge
    unfold DmsFile.noRoom
    rw [decide_eq_true_iff, hFree, hOffset,
      subWord_of_le (by omega) (by omega)]
    simp only [sizeofRecord, sizeofSlot, sizeofEntry]
    omega
  · rw [if_neg hNeed]
    unfold DmsFile.needsRecover at hNeed
    unfold DmsFile.noRoom
    rw [decide_eq_true_iff] at hNeed ⊢
    rw [subWord_of_le hRoom (by omega)] at hNeed ⊢
    rw [Nat.mod_eq_of_lt (by omega)] at hNeed
    simp only [sizeofRecord, sizeofSlot, sizeofEntry]
      at hNeed ⊢
    omega

end Counted

end Page

------------------------------------------------------------
-- Filled Files
------------------------------------------------------------

namespace DmsFile

variable {s t : DmsFile} {record : BSONObj} {p n : Nat}

/- A good file whose pages account for all their bytes. -/
structure Filled (s : DmsFile) : Prop extends Good s where
  counted : ∀ p < s.numPages,
    Page.Counted s.file (pageAddress p)

theorem Filled.created
    (file : Memory) :
    Filled (DmsFile.created file) := by
  refine ⟨good_created file, ?_⟩
  intro p hp
  exact absurd hp (Nat.not_lt_zero p)

namespace Filled

theorem extended
    (hFilled : Filled s)
    (hMore : s.body.length + 1 < maxSegments) :
    Filled s.extended := by
  have hGood := hFilled.toGood
  refine ⟨(hGood.extended hMore).good, ?_⟩
  intro p hp
  by_cases hOld : p < s.numPages
  · exact (hFilled.counted p hOld).frame (hGood.page p hOld)
      (hGood.same_page_extended hOld)
  · exact Page.Counted.of_fresh
      (hGood.new_page (Nat.le_of_not_lt hOld) hp)

/- A change to one page of a filled file. -/
theorem counted_of_local
    (hFilled : Filled s)
    {m : Memory}
    (hLocal : Page.Local s.file m (pageAddress p))
    (hCounted : Page.Counted m (pageAddress p)) :
    ∀ q < s.numPages, Page.Counted m (pageAddress q) := by
  intro q hq
  by_cases hEq : q = p
  · rw [hEq]
    exact hCounted
  · exact (hFilled.counted q hq).frame (hFilled.page q hq)
      (same_of_local hLocal hEq)

/- A page has at most a whole page's free space. -/
theorem freeSpace_le
    (hFilled : Filled s)
    (hIn : p < s.numPages) :
    Page.freeSpace s.file (pageAddress p) ≤ dmsMaxRecord := by
  have hCounted := hFilled.counted p hIn
  unfold Page.Counted at hCounted
  simp only [dmsMaxRecord, dmsPageSize, sizeofPageHeader,
    sizeofHeader, sizeofRecord, sizeofSlot] at *
  omega

/- A page that is found holds a record of that size. -/
theorem small_of_found
    (hFilled : Filled s)
    (hFound : s.findPage n ≠ dmsInvalidPageID) :
    s.findPage n < s.numPages ∧ n < dmsMaxRecord := by
  rcases hFilled.findPage_cases n with
    ⟨hInvalid, _⟩ | ⟨hIn, hMore⟩
  · exact absurd hInvalid hFound
  · exact ⟨hIn, hMore.trans_le (hFilled.freeSpace_le hIn)⟩

/- The check for room on a page of a filled file. -/
theorem noRoom_iff
    (hFilled : Filled s)
    (hIn : p < s.numPages)
    (hSmall : n ≤ dmsMaxRecord) :
    noRoom (s.prepared (pageAddress p) n).file
        (pageAddress p) n = true ↔
      Page.freeSpace s.file (pageAddress p) <
        n + Page.sizeofEntry := by
  have hPage := hFilled.page p hIn
  have hFile : (s.prepared (pageAddress p) n).file =
      if needsRecover s.file (pageAddress p) n = true then
        Page.recoverSpace s.file (pageAddress p)
      else s.file := by
    unfold prepared
    split <;> rfl
  rw [hFile]
  exact (hFilled.counted p hIn).noRoom_iff hPage.formed
    hPage.bound hSmall

/-
  What an insertion on a page of the file returns: it fails
  without room for the record, its header and its slot, and
  writes the record otherwise.
-/
theorem insertPage_rc
    (hFilled : Filled s)
    (hIn : p < s.numPages)
    (hForm : record.WellFormed)
    (hSmall : record.length ≤ dmsMaxRecord)
    (rc : Int) :
    ∃ r, s.insertPage p record rc = .ok r ∧
      r.rc =
        if Page.freeSpace s.file (pageAddress p) <
            record.length + Page.sizeofEntry then
          edbSys
        else rc := by
  have hPage := hFilled.page p hIn
  have hShape : Page.Shape
      (s.prepared (pageAddress p) record.length).file
      (pageAddress p) := by
    unfold prepared
    split
    · exact hPage.formed.recoverSpace_shape hPage.bound
    · exact hPage.shape
  rw [insertPage_eq (hFilled.pageToOffset_of_lt hIn),
    if_neg (not_not_intro hPage.magic)]
  have hCheck := hFilled.noRoom_iff hIn hSmall
  by_cases hNone : noRoom
      (s.prepared (pageAddress p) record.length).file
      (pageAddress p) record.length = true
  · rw [if_pos hNone, if_pos (hCheck.mp hNone)]
    exact ⟨_, rfl, rfl⟩
  · rw [if_neg hNone,
      if_neg (fun hLess => hNone (hCheck.mpr hLess)),
      insertRecord_eq hShape (room_of_noRoom hShape
        (Bool.eq_false_iff.mpr hNone)) hForm]
    exact ⟨_, rfl, rfl⟩

/- The page before a record is written to it. -/
theorem prepared
    (hFilled : Filled s)
    (hIn : p < s.numPages)
    (hStill : needsRecover s.file (pageAddress p) n = true →
      ∀ k, ¬ Page.Live s.file (pageAddress p) k) :
    Filled (s.prepared (pageAddress p) n) := by
  unfold DmsFile.prepared
  split
  · rename_i hNeed
    have hNone := hStill hNeed
    have hPage := hFilled.page p hIn
    refine ⟨(hFilled.recovered hIn hNone).good, ?_⟩
    exact hFilled.counted_of_local
      (hPage.recoverSpace hNone).2.2.1
      ((hFilled.counted p hIn).recovered hPage hNone)
  · exact hFilled

theorem insertRecord
    (hFilled : Filled s)
    (hIn : p < s.numPages)
    (hForm : record.WellFormed)
    (hCheck : ¬ noRoom s.file (pageAddress p)
      record.length = true)
    {rc : Int}
    {r : InsertResult}
    (hCall : s.insertRecord (pageAddress p) p record rc =
      .ok r) :
    Filled r.state := by
  have hPage := hFilled.page p hIn
  have hRoom := room_of_noRoom hPage.shape
    (Bool.eq_false_iff.mpr hCheck)
  have hFree : record.length + Page.sizeofEntry ≤
      Page.freeSpace s.file (pageAddress p) := by
    simp only [noRoom, decide_eq_true_iff, not_or,
      Nat.not_lt] at hCheck
    exact hCheck.1
  rcases hFilled.toGood.insertRecord hIn hRoom hForm rc with
    ⟨t, rid, hResult, hAdded, _⟩
  have hGood : Good r.state := by
    rw [hResult, Except.ok.injEq] at hCall
    rw [← hCall]
    exact hAdded.good
  refine ⟨hGood, ?_⟩
  rw [insertRecord_eq hPage.shape hRoom hForm,
    Except.ok.injEq] at hCall
  rw [← hCall]
  exact hFilled.counted_of_local
    (hPage.insert hRoom hForm _).outside
    ((hFilled.counted p hIn).inserted hPage hRoom hFree hForm)

theorem insertPage
    (hFilled : Filled s)
    (hIn : p < s.numPages)
    (hForm : record.WellFormed)
    (hStill : needsRecover s.file (pageAddress p)
        record.length = true →
      ∀ k, ¬ Page.Live s.file (pageAddress p) k)
    {rc : Int}
    {r : InsertResult}
    (hCall : s.insertPage p record rc = .ok r) :
    Filled r.state := by
  have hStart := hFilled.prepared hIn hStill
  have hIn' : p < (s.prepared (pageAddress p)
      record.length).numPages := by
    unfold numPages
    rw [prepared_body]
    exact hIn
  rw [insertPage_eq (hFilled.pageToOffset_of_lt hIn)] at hCall
  split at hCall
  · rw [Except.ok.injEq] at hCall
    exact hCall ▸ hFilled
  · split at hCall
    · rw [Except.ok.injEq] at hCall
      exact hCall ▸ hStart
    · rename_i _ hCheck
      exact hStart.insertRecord hIn' hForm hCheck hCall

/- The page that is found after an extension is a new one. -/
theorem extended_still
    (hFilled : Filled s)
    (hMore : s.body.length + 1 < maxSegments)
    (hInvalid : s.findPage record.length = dmsInvalidPageID) :
    ¬ s.extended.Reorganises record := by
  have hGood := hFilled.toGood
  have hNext := (hGood.extended hMore).good
  have hFull : ∀ q < s.numPages,
      Page.freeSpace s.file (pageAddress q) ≤
        record.length := by
    rcases hGood.findPage_cases record.length with
      ⟨_, hFull⟩ | ⟨hIn, _⟩
    · exact hFull
    · have hValid := hGood.numPages_lt
      omega
  rintro ⟨page, hOffset, _, k, hLive⟩
  rcases hNext.findPage_cases record.length with
    ⟨hNone, _⟩ | ⟨hIn, hMoreFree⟩
  · have hValid := hNext.numPages_lt
    rw [hNone, hNext.pageToOffset_of_ge (by omega)] at hOffset
    simp at hOffset
  · have hSmall : record.length <
        dmsPageSize - sizeofPageHeader :=
      hMoreFree.trans_le
        ((hFilled.extended hMore).freeSpace_le hIn)
    have hNew := hGood.findPage_extended hMore hSmall hFull
    rw [hNext.pageToOffset_of_lt hIn, Option.some.injEq]
      at hOffset
    exact (hGood.new_page hNew.1 hNew.2).none k
      (hOffset ▸ hLive)

/- The loop on the page that is found. -/
theorem insertLoop_page
    (hFilled : Filled s)
    (hForm : record.WellFormed)
    (hStill : ¬ s.Reorganises record)
    (hFound : s.findPage record.length ≠ dmsInvalidPageID)
    {rc : Int}
    {r : InsertResult}
    (hCall : s.insertPage (s.findPage record.length) record
      rc = .ok r) :
    Filled r.state := by
  have hIn := (hFilled.small_of_found hFound).1
  refine hFilled.insertPage hIn hForm ?_ hCall
  intro hNeed k hLive
  exact hStill ⟨_, hFilled.pageToOffset_of_lt hIn, hNeed, k,
    hLive⟩

/-
  Insertion into a filled file: induction on the extensions,
  each of which adds a segment or ends the insertion.
-/
theorem insertLoop
    (hFilled : Filled s)
    (hForm : record.WellFormed)
    (hStill : ¬ s.Reorganises record)
    {exts : List Extension}
    (hClean : ∀ ext ∈ exts, ext.Clean)
    (hBound : s.body.length + exts.length < maxSegments)
    {rc : Int}
    {r : InsertResult}
    (hCall : DmsFile.insertLoop record exts rc s = .ok r) :
    Filled r.state := by
  induction exts generalizing s rc with
  | nil =>
      by_cases hFound :
          s.findPage record.length = dmsInvalidPageID
      · simp [DmsFile.insertLoop, hFound] at hCall
      · rw [insertLoop_found hFound] at hCall
        exact hFilled.insertLoop_page hForm hStill hFound hCall
  | cons ext exts ih =>
      rw [List.length_cons] at hBound
      by_cases hFound :
          s.findPage record.length = dmsInvalidPageID
      · rcases (hClean ext List.mem_cons_self).extendSegment
            s with
          hExtend | ⟨rc', hFail, hExtend⟩
        · rw [insertLoop_extended hFound hExtend] at hCall
          refine ih (hFilled.extended (by omega))
            (hFilled.extended_still (by omega) hFound) ?_ ?_
            hCall
          · intro e he
            exact hClean e (List.mem_cons_of_mem ext he)
          · simp only [DmsFile.extended, addSegment, grow,
              List.length_append, List.length_singleton]
            omega
        · rw [insertLoop_failed hFound hExtend hFail,
            Except.ok.injEq] at hCall
          exact hCall ▸ hFilled
      · rw [insertLoop_found hFound] at hCall
        exact hFilled.insertLoop_page hForm hStill hFound hCall

/- A removal that does not name the slot after the last. -/
theorem remove
    (hFilled : Filled s)
    {rid : DmsRecordID}
    (hSlot : rid.slotID ≠
      Page.numSlots s.file (pageAddress rid.pageID)) :
    Filled (s.remove rid).2 := by
  by_cases hPage : rid.pageID < s.numPages
  · have hOffset := hFilled.pageToOffset_of_lt hPage
    have hPageGood := hFilled.page _ hPage
    by_cases hLive : s.Live rid
    · rcases hFilled.toGood.remove hLive with
        ⟨t, hResult, hRemoved, _⟩
      have hGood : Good (s.remove rid).2 := by
        rw [hResult]
        exact hRemoved.good
      refine ⟨hGood, ?_⟩
      rw [remove_eq hOffset hLive.2
        (hPageGood.slot_ge hLive.2)]
      exact hFilled.counted_of_local
        (hPageGood.drop hLive.2 _).outside
        ((hFilled.counted _ hPage).dropped hPageGood hLive.2)
    · -- the slot is out of range or empty
      have hSame : (s.remove rid).2 = s := by
        unfold DmsFile.remove searchSlot
        simp only [hOffset]
        by_cases hOver : Page.numSlots s.file
            (pageAddress rid.pageID) < rid.slotID
        · rw [if_pos hOver, if_pos (by decide)]
        · have hEmpty : Page.slot s.file
              (pageAddress rid.pageID) rid.slotID =
                dmsSlotEmpty := by
            by_contra hNe
            exact hLive ⟨hPage, by omega, hNe⟩
          rw [if_neg hOver, if_neg (by simp), if_pos hEmpty]
      rw [hSame]
      exact hFilled
  · have hSame : (s.remove rid).2 = s := by
      simp only [DmsFile.remove, hFilled.pageToOffset_of_ge
        (Nat.le_of_not_lt hPage)]
    rw [hSame]
    exact hFilled

theorem restart
    (hFilled : Filled s)
    {h : List UInt8 → Nat}
    {creation : HeaderCreation}
    {failure : Nat → Option Errno}
    {mgr : IxmBucketManager}
    (hInit : DmsFile.init h creation failure s.file
      s.fileSize = .ok (edbOk, (t, mgr))) :
    Filled t := by
  rcases hFilled.restored_of_init hInit with
    ⟨_, hRestored, _⟩
  refine ⟨hRestored.good, ?_⟩
  intro p hp
  rw [hRestored.file]
  apply hFilled.counted
  unfold numPages at hp ⊢
  rw [← hRestored.body]
  exact hp

end Filled

------------------------------------------------------------
-- Records That Fit
------------------------------------------------------------

/-
  There is space for the record, its header and its slot on
  the page that is found for it, or else on a new page.
-/
def Fits (s : DmsFile) (record : BSONObj) : Prop :=
  match s.freeSpaceMap.upperBound record.length with
  | some e => record.length + Page.sizeofEntry ≤ e.1
  | none =>
      record.length + Page.sizeofEntry ≤
        dmsPageSize - sizeofPageHeader

namespace Filled

/- The loop on a page that is found, without extensions. -/
theorem insertLoop_found_iff
    (hFilled : Filled s)
    (hForm : record.WellFormed)
    (hFound : s.findPage record.length ≠ dmsInvalidPageID)
    (exts : List Extension) :
    (∃ r, DmsFile.insertLoop record exts edbOk s = .ok r ∧
        r.rc = edbOk) ↔
      record.length + Page.sizeofEntry ≤
        Page.freeSpace s.file
          (pageAddress (s.findPage record.length)) := by
  rcases hFilled.small_of_found hFound with ⟨hIn, hSmall⟩
  rcases hFilled.insertPage_rc hIn hForm hSmall.le edbOk with
    ⟨r, hResult, hCode⟩
  rw [insertLoop_found hFound, hResult]
  constructor
  · rintro ⟨r', hSame, hOk⟩
    rw [Except.ok.injEq] at hSame
    by_contra hLess
    rw [← hSame, hCode, if_pos (Nat.lt_of_not_le hLess)]
      at hOk
    simp at hOk
  · intro hRoom
    refine ⟨r, rfl, ?_⟩
    rw [hCode, if_neg (Nat.not_lt_of_le hRoom)]

/-
  With one extension at hand an insertion succeeds exactly
  if the record fits.
-/
theorem insert_ok_iff
    (hFilled : Filled s)
    (hForm : record.WellFormed)
    (hSmall : record.length ≤ dmsMaxRecord)
    (hMore : s.body.length + 1 < maxSegments) :
    (∃ r, s.insert [.success] record = .ok r ∧
        r.rc = edbOk) ↔
      s.Fits record := by
  have hGood := hFilled.toGood
  unfold DmsFile.insert Fits
  rw [if_neg (Nat.not_lt_of_le hSmall)]
  cases hBound : s.freeSpaceMap.upperBound record.length with
  | some e =>
      have hFind : s.findPage record.length = e.2 := by
        simp only [findPage, hBound]
      have hEntry := hGood.mem_free.mp
        (MultiMap.upperBound_some hBound).1
      have hValid := hGood.numPages_lt
      have hFound :
          s.findPage record.length ≠ dmsInvalidPageID := by
        omega
      rw [hFilled.insertLoop_found_iff hForm hFound, hFind,
        ← hEntry.2]
  | none =>
      have hInvalid :
          s.findPage record.length = dmsInvalidPageID := by
        simp only [findPage, hBound]
      have hFull : ∀ q < s.numPages,
          Page.freeSpace s.file (pageAddress q) ≤
            record.length := by
        intro q hq
        exact MultiMap.upperBound_none hBound
          (Page.freeSpace s.file (pageAddress q), q)
          (hGood.mem_free.mpr ⟨hq, rfl⟩)
      have hNext := hFilled.extended hMore
      rw [insertLoop_extended hInvalid
        (extendSegment_success s)]
      by_cases hLess :
          record.length < dmsPageSize - sizeofPageHeader
      · have hNew := hGood.findPage_extended hMore hLess hFull
        have hValid := hNext.numPages_lt
        rw [hNext.insertLoop_found_iff hForm (by omega),
          (hGood.new_page hNew.1 hNew.2).free]
      · -- no page is large enough, not even a new one
        have hNever : s.extended.findPage record.length =
            dmsInvalidPageID := by
          by_contra hFound
          exact hLess (hNext.small_of_found hFound).2
        simp only [DmsFile.insertLoop, if_pos hNever]
        constructor
        · rintro ⟨r, hResult, _⟩
          cases hResult
        · intro hRoom
          simp only [Page.sizeofEntry, sizeofRecord,
            sizeofSlot] at hRoom
          omega

end Filled

------------------------------------------------------------
-- Runs
------------------------------------------------------------

inductive CapacityOp
| insert
    (exts : List Extension)
    (record : BSONObj)
| remove (rid : DmsRecordID)
| restart
    (creation : HeaderCreation)
    (failure : Nat → Option Errno)

inductive CapacityStep
    (h : List UInt8 → Nat) :
    DmsFile → CapacityOp → DmsFile → Prop
| insert
    {s : DmsFile}
    {exts : List Extension}
    {record : BSONObj}
    {r : InsertResult}
    (hCall : s.insert exts record = .ok r) :
    CapacityStep h s (.insert exts record) r.state
| remove
    {s : DmsFile}
    {rid : DmsRecordID} :
    CapacityStep h s (.remove rid) (s.remove rid).2
| restart
    {s t : DmsFile}
    {creation : HeaderCreation}
    {failure : Nat → Option Errno}
    {mgr : IxmBucketManager}
    (hInit : DmsFile.init h creation failure s.file
      s.fileSize = .ok (edbOk, (t, mgr))) :
    CapacityStep h s (.restart creation failure) t

/-
  No insertion reorganises a page that has live records, no
  extension fails after its first byte, no removal names the
  slot after the last one, and there are page numbers left.
-/
def CapacityGuard (s : DmsFile) : CapacityOp → Prop
| .insert exts record =>
    record.WellFormed ∧ ¬ s.Reorganises record ∧
      (∀ ext ∈ exts, ext.Clean) ∧
      s.body.length + exts.length < maxSegments
| .remove rid =>
    rid.slotID ≠
      Page.numSlots s.file (pageAddress rid.pageID)
| .restart _ _ => True

theorem Filled.step
    (hFilled : Filled s)
    {h : List UInt8 → Nat}
    {a : CapacityOp}
    (hStep : Guarded CapacityGuard (CapacityStep h) s a t) :
    Filled t := by
  rcases hStep with ⟨hGuard, hStep⟩
  cases hStep with
  | insert hCall =>
      rcases hGuard with ⟨hForm, hStill, hClean, hBound⟩
      exact hFilled.insertLoop hForm hStill hClean hBound
        hCall
  | remove => exact hFilled.remove hGuard
  | restart hInit => exact hFilled.restart hInit

/-
  In every state of a guarded run on a new file, an insertion
  of a record that passes the size check ends with at most
  one extension and success exactly if the record fits.
-/
theorem insert_succeeds_iff
    (h : List UInt8 → Nat)
    (file : Memory)
    {s t : DmsFile}
    {mgr : IxmBucketManager}
    {as : List CapacityOp}
    (hInit : DmsFile.init h .success (fun _ => none) file 0 =
      .ok (edbOk, (s, mgr)))
    (hRun : Steps (Guarded CapacityGuard (CapacityStep h))
      s as t)
    (hForm : record.WellFormed)
    (hSmall : record.length ≤ dmsMaxRecord)
    (hMore : t.body.length + 1 < maxSegments) :
    (∃ r, t.insert [.success] record = .ok r ∧
        r.rc = edbOk) ↔
      t.Fits record := by
  rw [init_created] at hInit
  simp only [Except.ok.injEq, Prod.mk.injEq, true_and]
    at hInit
  have hKept : ∀ s a t, Filled s →
      Guarded CapacityGuard (CapacityStep h) s a t →
        Filled t :=
    fun _ _ _ hFilled hStep => hFilled.step hStep
  have hFilled := hRun.invariant hKept
    (hInit.1 ▸ Filled.created file)
  exact hFilled.insert_ok_iff hForm hSmall hMore

/- A second document after a first one. -/
theorem insert_succeeds_iff_oneDocument :
    (∃ r, oneDocument.insert [.success] (textDocument 2 22) =
        .ok r ∧ r.rc = edbOk) ↔
      oneDocument.Fits (textDocument 2 22) := by
  rcases insert_oneDocument with ⟨r, hCall, hState, _⟩
  have hStep : Guarded CapacityGuard (CapacityStep hashFunc)
      (DmsFile.created (fun _ => 0))
      (.insert [.success] (textDocument 1 22))
      oneDocument := by
    rw [← hState]
    refine ⟨⟨?_, placeable_created.still, ?_, by decide⟩,
      .insert hCall⟩
    · exact textDocument_wellFormed (by decide) (by decide)
        (by decide)
    · intro ext hExt
      rw [List.mem_singleton.mp hExt]
      trivial
  exact insert_succeeds_iff hashFunc (fun _ => 0)
    (init_created hashFunc (fun _ => 0))
    (.cons hStep (.nil _))
    (textDocument_wellFormed (by decide) (by decide)
      (by decide))
    (by rw [textDocument_length (by decide)]; decide)
    (by rw [oneDocument_body]; decide)

/- Six bytes less than the free space of a new page. -/
def tightDocument : BSONObj :=
  textDocument 1 4194270

theorem tightDocument_length :
    tightDocument.length = 4194270 :=
  textDocument_length (by decide)

/-
  A new file refuses a record that passes the size check,
  on the page that it found for it.
-/
theorem insert_not_ok :
    ¬ ∀ record : BSONObj, record.WellFormed →
      record.length ≤ dmsMaxRecord →
      ∃ r, (DmsFile.created (fun _ => 0)).insert [.success]
        record = .ok r ∧ r.rc = edbOk := by
  intro hClaim
  have hForm : tightDocument.WellFormed :=
    textDocument_wellFormed (by decide) (by decide)
      (by decide)
  have hSmall : tightDocument.length ≤ dmsMaxRecord := by
    rw [tightDocument_length]
    decide
  have hFits := ((Filled.created (fun _ => 0)).insert_ok_iff
    hForm hSmall (by decide)).mp
    (hClaim tightDocument hForm hSmall)
  have hNone : (DmsFile.created (fun _ =>
      0)).freeSpaceMap.upperBound tightDocument.length =
        none :=
    rfl
  unfold Fits at hFits
  rw [hNone, tightDocument_length] at hFits
  exact absurd hFits (by decide)

------------------------------------------------------------
-- Oversized Records
------------------------------------------------------------

/- The record is refused and the file is as before. -/
structure Refused
    (s : DmsFile)
    (r : InsertResult) : Prop where
  code : r.rc = edbInvalidArg
  size : r.state.fileSize = s.fileSize
  segments : r.state.body = s.body
  pages : ∀ p page, s.pageToOffset p = some page →
    Memory.Same s.file page r.state.file page dmsPageSize
  free : r.state.freeSpaceMap = s.freeSpaceMap

theorem prepared_freeSpaceMap
    (s : DmsFile)
    (page n : Nat) :
    (s.prepared page n).freeSpaceMap = s.freeSpaceMap := by
  unfold prepared
  split <;> rfl

/- A page moves to another key when its free space changes. -/
theorem updateFreeSpace_ne
    (s : DmsFile)
    (page : Nat)
    {change : Int}
    (hChange : change % 4294967296 ≠ 0)
    (pageID : Nat) :
    (s.updateFreeSpace page change pageID).freeSpaceMap ≠
      s.freeSpaceMap := by
  have hSmall : Page.freeSpace s.file page < 4294967296 :=
    Memory.word_lt _ _
  have hKey : ofSigned (Page.freeSpace s.file page + change) ≠
      Page.freeSpace s.file page := by
    unfold ofSigned
    omega
  intro hSame
  have hRange := congrArg (fun M => (MultiMap.equalRange M
    (ofSigned (Page.freeSpace s.file page +
      change))).length) hSame
  simp only [updateFreeSpace, MultiMap.equalRange_insert_self,
    MultiMap.equalRange_eraseFirst_of_ne _ _ hKey,
    List.length_append, List.length_singleton] at hRange
  omega

/- A record that is written moves its page in the map. -/
theorem insertRecord_ne
    {page pageID : Nat}
    (hLarge : (record.length + Page.sizeofEntry) %
      4294967296 ≠ 0)
    {rc : Int}
    {r : InsertResult}
    (hCall : s.insertRecord page pageID record rc = .ok r) :
    r.state.freeSpaceMap ≠ s.freeSpaceMap := by
  unfold DmsFile.insertRecord at hCall
  simp only [bind, Except.bind, pure, Except.pure] at hCall
  split at hCall
  · cases hCall
  · simp only [Except.ok.injEq] at hCall
    rw [← hCall]
    apply updateFreeSpace_ne
    simp only [Page.sizeofEntry, sizeofRecord, sizeofSlot]
      at hLarge ⊢
    omega

theorem insertPage_not_refused
    {pageID : Nat}
    (hLarge : (record.length + Page.sizeofEntry) %
      4294967296 ≠ 0)
    {rc : Int}
    {r : InsertResult}
    (hCall : s.insertPage pageID record rc = .ok r) :
    ¬ Refused s r := by
  intro hRefused
  have hCode := hRefused.code
  cases hOffset : s.pageToOffset pageID with
  | none =>
      simp only [insertPage, hOffset, Except.ok.injEq] at hCall
      rw [← hCall] at hCode
      simp at hCode
  | some page =>
      rw [insertPage_eq hOffset] at hCall
      split at hCall
      · rw [Except.ok.injEq] at hCall
        rw [← hCall] at hCode
        simp at hCode
      · split at hCall
        · rw [Except.ok.injEq] at hCall
          rw [← hCall] at hCode
          simp at hCode
        · apply insertRecord_ne hLarge hCall
          rw [prepared_freeSpaceMap]
          exact hRefused.free

/-
  The loop never refuses a record: it writes the record,
  fails with another code or leaves a longer file.
-/
theorem insertLoop_not_refused
    (hLarge : (record.length + Page.sizeofEntry) %
      4294967296 ≠ 0)
    {exts : List Extension}
    {rc : Int}
    {r : InsertResult}
    (hCall : insertLoop record exts rc s = .ok r) :
    ¬ Refused s r := by
  by_cases hFound :
      s.findPage record.length = dmsInvalidPageID
  · cases exts with
    | nil => simp [insertLoop, hFound] at hCall
    | cons ext exts =>
        intro hRefused
        rcases s.extendSegment_cases ext with
          ⟨rc', n, hCode, hGrown, hExtend⟩ | hExtend
        · rw [insertLoop_failed hFound hExtend hCode,
            Except.ok.injEq] at hCall
          have hRc := hRefused.code
          have hSize := hRefused.size
          rw [← hCall] at hRc hSize
          simp only [grow, edbInvalidArg] at hRc hSize
          omega
        · rw [insertLoop_extended hFound hExtend] at hCall
          have hMore := insertLoop_body hCall
          rw [hRefused.segments] at hMore
          simp only [DmsFile.extended, addSegment, grow,
            List.length_append, List.length_singleton]
            at hMore
          omega
  · rw [insertLoop_found hFound] at hCall
    exact insertPage_not_refused hLarge hCall

/- No insertion of an oversized record refuses it. -/
theorem insert_oversized
    (s : DmsFile) :
    ∀ record : BSONObj, dmsMaxRecord < record.length →
      record.length ≤ bsonObjMaxInternalSize →
      ¬ ∃ exts r, s.insert exts record = .ok r ∧
        Refused s r := by
  rintro record _ hBson ⟨exts, r, hCall, hRefused⟩
  apply insertLoop_not_refused _ hCall hRefused
  simp only [bsonObjMaxInternalSize, Page.sizeofEntry,
    sizeofRecord, sizeofSlot] at hBson ⊢
  omega

/- One byte more than the size check allows. -/
def largeDocument : BSONObj :=
  textDocument 1 4194277

theorem largeDocument_length :
    largeDocument.length = 4194277 :=
  textDocument_length (by decide)

theorem insert_oversized_created :
    ¬ ∃ exts r,
      (DmsFile.created (fun _ => 0)).insert exts
        largeDocument = .ok r ∧
      Refused (DmsFile.created (fun _ => 0)) r :=
  insert_oversized _ largeDocument
    (by rw [largeDocument_length]; decide)
    (by rw [largeDocument_length]; decide)

/-
  As long as extensions succeed, the insertion of an
  oversized record into a filled file does not return.
-/
theorem Filled.insert_starved
    (hFilled : Filled s)
    (hLarge : dmsMaxRecord ≤ record.length)
    {k : Nat}
    (hBound : s.body.length + k < maxSegments) :
    s.insert (List.replicate k .success) record =
      .error .starved := by
  unfold DmsFile.insert
  generalize (if dmsMaxRecord < record.length then
    edbInvalidArg else edbOk) = rc
  induction k generalizing s rc with
  | zero =>
      have hInvalid :
          s.findPage record.length = dmsInvalidPageID := by
        by_contra hFound
        have hSmall := (hFilled.small_of_found hFound).2
        omega
      simp only [List.replicate_zero, DmsFile.insertLoop,
        if_pos hInvalid]
  | succ k ih =>
      have hInvalid :
          s.findPage record.length = dmsInvalidPageID := by
        by_contra hFound
        have hSmall := (hFilled.small_of_found hFound).2
        omega
      rw [List.replicate_succ, insertLoop_extended hInvalid
        (extendSegment_success s)]
      apply ih (hFilled.extended (by omega))
      simp only [DmsFile.extended, addSegment, grow,
        List.length_append, List.length_singleton]
      omega

/- A new file does not refuse a record that is too large. -/
theorem insert_oversized_not_refused :
    ¬ ∀ record : BSONObj, record.WellFormed →
      dmsMaxRecord < record.length →
      record.length ≤ bsonObjMaxInternalSize →
      ∃ exts r,
        (DmsFile.created (fun _ => 0)).insert exts record =
          .ok r ∧
        Refused (DmsFile.created (fun _ => 0)) r := by
  intro hClaim
  rcases hClaim largeDocument
      (textDocument_wellFormed (by decide) (by decide)
        (by decide))
      (by rw [largeDocument_length]; decide)
      (by rw [largeDocument_length]; decide) with
    ⟨exts, r, hCall, hRefused⟩
  exact insertLoop_not_refused
    (by rw [largeDocument_length]; decide) hCall hRefused

end DmsFile

end EmeraldDb
