import EmeraldDb.Dms.Load
import EmeraldDb.Dms.Reorganise

/-
  The free-space map is exact.

  The segments are different ranges of the file, wherever
  they are mapped.  From a state whose pages are well formed
  and whose map has one entry for every page, under the free
  space of the page's header, every insertion, removal and
  extension leaves the map so, also when the insertion
  reorganises a page.

  Key definitions include:
    * `DmsFile.Mapped`
    * `DmsFile.Exact`
    * `DmsFile.Sound`

  Key results include:
    * `DmsFile.Sound.insertLoop`
    * `DmsFile.Sound.remove_exact`
    * `DmsFile.Sound.extended`
    * `DmsFile.freeSpaceMap_exact`
-/

namespace EmeraldDb

namespace DmsFile

variable {s t : DmsFile} {record : BSONObj} {p q : Nat}

------------------------------------------------------------
-- Mapped Segments
------------------------------------------------------------

/- Where a page is mapped, or zero. -/
def pageAt (s : DmsFile) (p : Nat) : Nat :=
  (s.pageToOffset p).getD 0

/-
  The segments are mapped behind the file header, inside the
  file and apart from each other, and the page count fits its
  32 bits.
-/
structure Mapped (s : DmsFile) : Prop where
  fits : s.numPages < 4294967296
  sized : dmsFileHeaderSize ≤ s.fileSize
  behind : ∀ d ∈ s.body, dmsFileHeaderSize ≤ d
  inside : ∀ d ∈ s.body,
    d + dmsFileSegmentSize ≤ s.fileSize
  apart : s.body.Pairwise
    (fun a b => a + dmsFileSegmentSize ≤ b)

/- One entry for every page, under its header's free space. -/
def Exact (s : DmsFile) : Prop :=
  s.freeSpaceMap.entries.Perm
    ((List.range s.getNumPages).map
      (fun p => (Page.freeSpace s.file (s.pageAt p), p)))

structure Sound (s : DmsFile) : Prop extends Mapped s where
  page : ∀ p < s.getNumPages,
    Page.Formed s.file (s.pageAt p) ∧
      Page.freeOffset s.file (s.pageAt p) ≤ dmsPageSize
  free : Exact s

theorem getNumPages_congr
    (hBody : t.body = s.body) :
    t.getNumPages = s.getNumPages := by
  unfold getNumPages getNumSegments
  rw [hBody]

theorem pageAt_congr
    (hBody : t.body = s.body)
    (p : Nat) :
    t.pageAt p = s.pageAt p := by
  unfold pageAt pageToOffset
  rw [getNumPages_congr hBody, hBody]

theorem pageAt_of_segment
    {d : Nat}
    (hPage : p < s.getNumPages)
    (hSegment : s.body[p / dmsPagesPerSegment]? = some d) :
    s.pageAt p = d + dmsPageSize * (p % dmsPagesPerSegment) := by
  rw [pageAt, pageToOffset, if_neg (by omega), hSegment]
  rfl

/- There is no page behind the last one. -/
theorem pageToOffset_none
    (hPage : s.getNumPages ≤ p) :
    s.pageToOffset p = none := by
  rw [pageToOffset, if_pos hPage]

namespace Mapped

theorem getNumPages_eq
    (hMapped : Mapped s) :
    s.getNumPages = s.numPages := by
  have hFits := hMapped.fits
  simp only [numPages, dmsPagesPerSegment] at hFits
  simp only [getNumPages, getNumSegments, numPages,
    dmsPagesPerSegment]
  omega

theorem segment_lt
    (hMapped : Mapped s)
    (hPage : p < s.getNumPages) :
    p / dmsPagesPerSegment < s.body.length := by
  rw [hMapped.getNumPages_eq] at hPage
  simp only [numPages, dmsPagesPerSegment] at *
  omega

/- A page lies in its segment. -/
theorem pageToOffset_eq
    (hMapped : Mapped s)
    (hPage : p < s.getNumPages) :
    s.pageToOffset p = some (s.pageAt p) ∧
      s.pageAt p =
        s.body.get ⟨_, hMapped.segment_lt hPage⟩ +
          dmsPageSize * (p % dmsPagesPerSegment) := by
  have hOffset : s.pageToOffset p =
      some (s.body.get ⟨_, hMapped.segment_lt hPage⟩ +
        dmsPageSize * (p % dmsPagesPerSegment)) := by
    unfold pageToOffset
    rw [if_neg (by omega),
      List.getElem?_eq_getElem (hMapped.segment_lt hPage)]
    rfl
  have hAt : s.pageAt p =
      s.body.get ⟨_, hMapped.segment_lt hPage⟩ +
        dmsPageSize * (p % dmsPagesPerSegment) := by
    rw [pageAt, hOffset, Option.getD_some]
  exact ⟨hAt ▸ hOffset, hAt⟩

theorem pageAt_ge
    (hMapped : Mapped s)
    (hPage : p < s.getNumPages) :
    dmsFileHeaderSize ≤ s.pageAt p := by
  have hBehind := hMapped.behind _
    (List.get_mem s.body ⟨_, hMapped.segment_lt hPage⟩)
  rw [(hMapped.pageToOffset_eq hPage).2]
  omega

theorem pageAt_le
    (hMapped : Mapped s)
    (hPage : p < s.getNumPages) :
    s.pageAt p + dmsPageSize ≤ s.fileSize := by
  have hInside := hMapped.inside _
    (List.get_mem s.body ⟨_, hMapped.segment_lt hPage⟩)
  rw [(hMapped.pageToOffset_eq hPage).2]
  simp only [dmsFileSegmentSize, dmsPageSize,
    dmsPagesPerSegment] at *
  omega

/- A page of a later segment, or later in the segment. -/
theorem pageAt_lt
    (hMapped : Mapped s)
    (hLess : p < q)
    (hPage : q < s.getNumPages) :
    s.pageAt p + dmsPageSize ≤ s.pageAt q := by
  have hFirst : p < s.getNumPages := hLess.trans hPage
  rw [(hMapped.pageToOffset_eq hPage).2,
    (hMapped.pageToOffset_eq hFirst).2]
  by_cases hSame :
      p / dmsPagesPerSegment = q / dmsPagesPerSegment
  · have hSegment :
        s.body.get ⟨_, hMapped.segment_lt hFirst⟩ =
          s.body.get ⟨_, hMapped.segment_lt hPage⟩ := by
      simp only [List.get_eq_getElem, hSame]
    simp only [dmsPageSize, dmsPagesPerSegment] at *
    omega
  · have hOrder := List.pairwise_iff_get.mp hMapped.apart
      ⟨_, hMapped.segment_lt hFirst⟩
      ⟨_, hMapped.segment_lt hPage⟩ (by
        rw [Fin.lt_def]
        simp only [dmsPagesPerSegment] at *
        omega)
    simp only [dmsFileSegmentSize, dmsPageSize,
      dmsPagesPerSegment] at *
    omega

/- Two pages do not overlap. -/
theorem pageAt_apart
    (hMapped : Mapped s)
    (hP : p < s.getNumPages)
    (hQ : q < s.getNumPages)
    (hNe : q ≠ p) :
    s.pageAt q + dmsPageSize ≤ s.pageAt p ∨
      s.pageAt p + dmsPageSize ≤ s.pageAt q := by
  rcases Nat.lt_or_gt_of_ne hNe with hLess | hMore
  · exact Or.inl (hMapped.pageAt_lt hLess hP)
  · exact Or.inr (hMapped.pageAt_lt hMore hQ)

end Mapped

------------------------------------------------------------
-- Changes to One Page
------------------------------------------------------------

/-
  The entry of a changed page is replaced by one under the
  page's new free space.
-/
theorem Exact.replace
    (hFree : Exact s)
    (hMapped : Mapped s)
    (hPage : p < s.getNumPages)
    {m : Memory}
    (hLocal : Page.Local s.file m (s.pageAt p)) :
    Exact (s.withPage m
      ((s.freeSpaceMap.eraseFirst
        (Page.freeSpace s.file (s.pageAt p))
        (fun q => decide (q = p))).insert
          (Page.freeSpace m (s.pageAt p)) p)) := by
  have hOther : ∀ q < s.getNumPages, q ≠ p →
      Page.freeSpace m (s.pageAt q) =
        Page.freeSpace s.file (s.pageAt q) := by
    intro q hQ hNe
    exact Page.Good.field_frame
      (hLocal.same (hMapped.pageAt_apart hPage hQ hNe))
      (by decide)
  exact s.freeSpaceMap.perm_replace hFree hPage hOther

/- A changed page that keeps its free space. -/
theorem Exact.keep
    (hFree : Exact s)
    (hMapped : Mapped s)
    (hPage : p < s.getNumPages)
    {m : Memory}
    (hLocal : Page.Local s.file m (s.pageAt p))
    (hKept : Page.freeSpace m (s.pageAt p) =
      Page.freeSpace s.file (s.pageAt p)) :
    Exact (s.withPage m s.freeSpaceMap) := by
  have hSame : (List.range s.getNumPages).map
        (fun q => (Page.freeSpace s.file (s.pageAt q), q)) =
      (List.range s.getNumPages).map
        (fun q => (Page.freeSpace m (s.pageAt q), q)) := by
    apply List.map_congr_left
    intro q hQ
    by_cases hEq : q = p
    · rw [hEq, hKept]
    · have hApart := hMapped.pageAt_apart hPage
        (List.mem_range.mp hQ) hEq
      have hField := Page.Good.field_frame
        (hLocal.same hApart) (d := 20) (by decide)
      exact congrArg (fun v => (v, q)) hField.symm
  exact hFree.trans (List.Perm.of_eq hSame)

/- Writing a record to a page with room. -/
theorem Exact.insertRecord
    (hFree : Exact s)
    (hMapped : Mapped s)
    (hPage : p < s.getNumPages)
    {page : Nat}
    (hAt : s.pageAt p = page)
    (hShape : Page.Shape s.file page)
    (hRoom : Page.Room s.file page record.length)
    {rc : Int}
    {r : InsertResult}
    (hCall : s.insertRecord page p record rc = .ok r) :
    Exact r.state := by
  subst hAt
  rw [insertRecord_map hShape hRoom] at hCall
  cases hData : BSONObj.ofData
      (writeRecord s.file (s.pageAt p) record)
      (s.pageAt p + offsetData s.file (s.pageAt p)
        record.length + sizeofRecord) with
  | error e => simp [hData, Except.map] at hCall
  | ok o =>
      simp only [hData, Except.map, Except.ok.injEq] at hCall
      rw [← hCall]
      have hLocal := @Page.inserted_local s.file (s.pageAt p)
        record (remaining s.file (s.pageAt p) record.length)
        hShape hRoom
      have hNext := hFree.replace hMapped hPage hLocal
      have hSmall : remaining s.file (s.pageAt p)
          record.length < 4294967296 :=
        ofSigned_lt _
      rw [(Page.inserted_header hShape hRoom).2.2.2.2,
        Nat.mod_eq_of_lt hSmall] at hNext
      exact hNext

/- A reorganisation keeps the entries. -/
theorem Sound.prepared
    (hSound : Sound s)
    (hPage : p < s.getNumPages)
    (n : Nat) :
    Exact (s.prepared (s.pageAt p) n) ∧
      Mapped (s.prepared (s.pageAt p) n) ∧
      Page.Shape (s.prepared (s.pageAt p) n).file
        (s.pageAt p) := by
  have hMapped := hSound.toMapped
  rcases hSound.page p hPage with ⟨hFormed, hBound⟩
  unfold DmsFile.prepared
  split
  · refine ⟨?_, ⟨hMapped.fits, hMapped.sized, hMapped.behind,
      hMapped.inside, hMapped.apart⟩,
      hFormed.recoverSpace_shape hBound⟩
    exact hSound.free.keep hMapped hPage
      (hFormed.recoverSpace_local hBound)
      (hFormed.recoverSpace_field hBound (d := 20)
        (by decide))
  · exact ⟨hSound.free, hMapped, hFormed.shape hBound⟩

theorem Sound.insertPage_exact
    (hSound : Sound s)
    {pageID : Nat}
    {rc : Int}
    {r : InsertResult}
    (hCall : s.insertPage pageID record rc = .ok r) :
    Exact r.state := by
  have hMapped := hSound.toMapped
  by_cases hPage : pageID < s.getNumPages
  · rw [insertPage_eq (hMapped.pageToOffset_eq hPage).1]
      at hCall
    rcases hSound.prepared hPage record.length with
      ⟨hFree, hMapped', hShape⟩
    have hBody := s.prepared_body (s.pageAt pageID)
      record.length
    have hAt := pageAt_congr hBody pageID
    have hPage' : pageID < (s.prepared (s.pageAt pageID)
        record.length).getNumPages := by
      rw [getNumPages_congr hBody]
      exact hPage
    split at hCall
    · rw [Except.ok.injEq] at hCall
      exact hCall ▸ hSound.free
    · split at hCall
      · rw [Except.ok.injEq] at hCall
        exact hCall ▸ hFree
      · rename_i _ hCheck
        have hRoom := room_of_noRoom hShape
          (Bool.eq_false_iff.mpr hCheck)
        exact hFree.insertRecord hMapped' hPage' hAt hShape
          hRoom hCall
  · simp only [DmsFile.insertPage,
      pageToOffset_none (Nat.le_of_not_lt hPage),
      Except.ok.injEq] at hCall
    rw [← hCall]
    exact hSound.free

/- A removal from a slot of the slot list. -/
theorem Sound.remove_exact
    (hSound : Sound s)
    {rid : DmsRecordID}
    (hSlot : ∀ page, s.pageToOffset rid.pageID = some page →
      rid.slotID < Page.numSlots s.file page) :
    Exact (s.remove rid).2 := by
  have hMapped := hSound.toMapped
  by_cases hPage : rid.pageID < s.getNumPages
  · have hOffset := (hMapped.pageToOffset_eq hPage).1
    have hIn := hSlot _ hOffset
    by_cases hEmpty : Page.slot s.file (s.pageAt rid.pageID)
        rid.slotID = dmsSlotEmpty
    · have hSearch : s.searchSlot (s.pageAt rid.pageID) rid =
          (edbOk, dmsSlotEmpty) := by
        rw [searchSlot, if_neg (by omega), hEmpty]
      simp only [DmsFile.remove, hOffset, hSearch,
        ne_eq, not_true_eq_false, if_false, if_true]
      exact hSound.free
    · rcases hSound.page _ hPage with ⟨hFormed, _⟩
      have hLive : Page.Live s.file (s.pageAt rid.pageID)
          rid.slotID := ⟨hIn, hEmpty⟩
      have hLow := hFormed.slot_ge hLive
      have hHigh := (hFormed.inside _ hLive).2
      have hLocal := @Page.dropped_local s.file
        (s.pageAt rid.pageID) rid.slotID
        (regained s.file (s.pageAt rid.pageID) rid.slotID)
        hLow hIn (by
          simp only [Page.extent] at hHigh
          omega)
      have hNext := hSound.free.replace hMapped hPage hLocal
      have hSmall : regained s.file (s.pageAt rid.pageID)
          rid.slotID < 4294967296 :=
        ofSigned_lt _
      rw [(Page.dropped_header hLow).2.2.2.2,
        Nat.mod_eq_of_lt hSmall] at hNext
      rw [remove_eq hOffset hLive hLow]
      exact hNext
  · simp only [DmsFile.remove,
      pageToOffset_none (Nat.le_of_not_lt hPage)]
    exact hSound.free

------------------------------------------------------------
-- Extension
------------------------------------------------------------

theorem extendFile_segment
    (s : DmsFile) :
    s.extendFile dmsFileSegmentSize none =
      (edbOk, s.grow dmsFileSegmentSize) := by
  rw [extendFile, if_neg (by decide)]

theorem mapSegment_cases
    (s : DmsFile)
    (offset : Nat)
    (failure : Option Errno) :
    (∃ rc, rc ≠ edbOk ∧
      s.mapSegment offset failure = (rc, s)) ∨
      s.mapSegment offset failure =
        (edbOk, s.addSegment offset) := by
  rcases ossMmapFileMap_cases s.fileSize offset
      dmsFileSegmentSize_pos failure with
    ⟨rc, hCode, hNone⟩ | hSome
  · left
    refine ⟨rc, hCode, ?_⟩
    simp only [mapSegment, hNone]
  · right
    simp only [mapSegment, hSome]

/- An extension appends bytes and fails, or succeeds. -/
theorem extendSegment_cases
    (s : DmsFile)
    (ext : Extension) :
    (∃ rc n, rc ≠ edbOk ∧ (0 < rc ∨ 0 < n) ∧
      s.extendSegment ext = (rc, s.grow n)) ∨
      s.extendSegment ext = (edbOk, s.extended) := by
  have hErrno : ∀ errno : Errno,
      (errno.1 : Int) ≠ edbOk ∧ 0 < (errno.1 : Int) := by
    intro errno
    have hPositive := errno.2
    simp only [edbOk]
    omega
  cases ext with
  | sizeFails errno =>
      exact Or.inl ⟨errno.1, 0, (hErrno errno).1,
        Or.inl (hErrno errno).2, by
          rw [grow_zero, extendSegment]⟩
  | writeFails written errno =>
      refine Or.inl ⟨errno.1, min written dmsFileSegmentSize,
        (hErrno errno).1, Or.inl (hErrno errno).2, ?_⟩
      simp only [extendSegment, extendFile]
      rw [if_neg (by decide)]
  | statFails errno =>
      exact Or.inl ⟨edbInvalidArg, dmsFileSegmentSize,
        by decide, Or.inr dmsFileSegmentSize_pos, rfl⟩
  | mapFails errno =>
      rw [extendSegment, extendFile_segment]
      rcases mapSegment_cases (s.grow dmsFileSegmentSize)
          s.fileSize (some errno) with
        ⟨rc, hCode, hFail⟩ | hDone
      · exact Or.inl ⟨rc, _, hCode,
          Or.inr dmsFileSegmentSize_pos, hFail⟩
      · exact Or.inr hDone
  | success =>
      rw [extendSegment, extendFile_segment]
      rcases mapSegment_cases (s.grow dmsFileSegmentSize)
          s.fileSize none with
        ⟨rc, hCode, hFail⟩ | hDone
      · exact Or.inl ⟨rc, _, hCode,
          Or.inr dmsFileSegmentSize_pos, hFail⟩
      · exact Or.inr hDone

/- Growing the file leaves the mapped pages. -/
theorem Sound.grow
    (hSound : Sound s)
    (n : Nat) :
    Sound (s.grow n) := by
  have hMapped := hSound.toMapped
  have hSame : ∀ p < s.getNumPages,
      Memory.Same s.file (s.pageAt p) (s.grow n).file
        (s.pageAt p) dmsPageSize := by
    intro p hPage
    exact (Memory.same_fill_of_disjoint _ _
      (Or.inl (hMapped.pageAt_le hPage))).symm
  refine ⟨⟨hMapped.fits, ?_, hMapped.behind, ?_,
    hMapped.apart⟩, ?_, ?_⟩
  · exact Nat.le_add_right_of_le hMapped.sized
  · intro d hd
    exact Nat.le_add_right_of_le (hMapped.inside d hd)
  · intro p hPage
    rcases hSound.page p hPage with ⟨hFormed, hBound⟩
    exact hFormed.frame hBound (hSame p hPage)
  · apply hSound.free.trans
    apply List.Perm.of_eq
    apply List.map_congr_left
    intro p hPage
    have hField := Page.Good.field_frame
      (hSame p (List.mem_range.mp hPage)) (d := 20)
      (by decide)
    exact congrArg (fun v => (v, p)) hField.symm

theorem Mapped.same_old
    (hMapped : Mapped s)
    (hPage : p < s.getNumPages) :
    Memory.Same s.file (s.pageAt p) s.extended.file
      (s.pageAt p) dmsPageSize :=
  same_extended s (hMapped.pageAt_ge hPage)
    (hMapped.pageAt_le hPage)

section Appended

variable {data : Nat} (hMapped : Mapped s)
  (hBody : t.body = s.body ++ [data])
  (hFits : t.numPages < 4294967296)

include hBody

theorem numPages_append :
    t.numPages = s.numPages + dmsPagesPerSegment := by
  simp only [numPages, hBody, List.length_append,
    List.length_singleton, Nat.add_mul, Nat.one_mul]

include hMapped hFits

theorem Mapped.getNumPages_append :
    t.getNumPages = s.getNumPages + dmsPagesPerSegment := by
  rw [hMapped.getNumPages_eq, ← numPages_append hBody]
  simp only [numPages, dmsPagesPerSegment] at hFits
  simp only [getNumPages, getNumSegments, numPages,
    dmsPagesPerSegment]
  omega

/- One more segment behind the others. -/
theorem Mapped.append
    (hLow : dmsFileHeaderSize ≤ data)
    (hAbove : ∀ d ∈ s.body, d + dmsFileSegmentSize ≤ data)
    (hInside : data + dmsFileSegmentSize ≤ t.fileSize) :
    Mapped t := by
  refine ⟨hFits, by omega, ?_, ?_, ?_⟩
  · intro d hd
    rw [hBody, List.mem_append, List.mem_singleton] at hd
    rcases hd with hOld | hNew
    · exact hMapped.behind d hOld
    · rw [hNew]
      exact hLow
  · intro d hd
    rw [hBody, List.mem_append, List.mem_singleton] at hd
    rcases hd with hOld | hNew
    · have hBelow := hAbove d hOld
      omega
    · rw [hNew]
      exact hInside
  · rw [hBody, List.pairwise_append]
    refine ⟨hMapped.apart, List.pairwise_singleton _ _, ?_⟩
    intro a ha b hb
    rw [List.mem_singleton.mp hb]
    exact hAbove a ha

/- The old pages stay where they are. -/
theorem Mapped.pageAt_append
    (hPage : p < s.getNumPages) :
    t.pageAt p = s.pageAt p := by
  have hNext : p < t.getNumPages := by
    rw [hMapped.getNumPages_append hBody hFits]
    omega
  have hIn := hMapped.segment_lt hPage
  have hSegment : t.body[p / dmsPagesPerSegment]? =
      some (s.body.get ⟨_, hIn⟩) := by
    rw [hBody]
    exact (List.getElem?_append_left hIn).trans
      (List.getElem?_eq_getElem hIn)
  rw [pageAt_of_segment hNext hSegment,
    pageAt_of_segment hPage (List.getElem?_eq_getElem hIn)]
  rfl

/- The new pages fill the new segment. -/
theorem Mapped.pageAt_appended
    {i : Nat}
    (hPage : i < dmsPagesPerSegment) :
    t.pageAt (s.getNumPages + i) =
      data + i * dmsPageSize := by
  have hNext : s.getNumPages + i < t.getNumPages := by
    rw [hMapped.getNumPages_append hBody hFits]
    omega
  have hIndex : (s.getNumPages + i) / dmsPagesPerSegment =
      s.body.length := by
    rw [hMapped.getNumPages_eq]
    simp only [numPages, dmsPagesPerSegment] at *
    omega
  have hSegment : t.body[
      (s.getNumPages + i) / dmsPagesPerSegment]? =
        some data := by
    rw [hIndex, hBody]
    exact List.getElem?_concat_length
  rw [pageAt_of_segment hNext hSegment,
    hMapped.getNumPages_eq]
  simp only [numPages, dmsPagesPerSegment, dmsPageSize] at *
  omega

end Appended

theorem extended_body
    (s : DmsFile) :
    s.extended.body = s.body ++ [s.fileSize] := rfl

section Extended

variable (hMapped : Mapped s)
  (hFits : s.extended.numPages < 4294967296)

include hMapped hFits

theorem Mapped.extended :
    Mapped s.extended := by
  apply hMapped.append (extended_body s) hFits
  · exact hMapped.sized
  · exact hMapped.inside
  · simp only [DmsFile.extended, addSegment, DmsFile.grow]
    exact le_refl _

theorem Mapped.getNumPages_extended :
    s.extended.getNumPages =
      s.getNumPages + dmsPagesPerSegment :=
  hMapped.getNumPages_append (extended_body s) hFits

theorem Mapped.pageAt_old
    (hPage : p < s.getNumPages) :
    s.extended.pageAt p = s.pageAt p :=
  hMapped.pageAt_append (extended_body s) hFits hPage

theorem Mapped.pageAt_new
    {i : Nat}
    (hPage : i < dmsPagesPerSegment) :
    s.extended.pageAt (s.getNumPages + i) =
      s.fileSize + i * dmsPageSize :=
  hMapped.pageAt_appended (extended_body s) hFits hPage

theorem Mapped.fresh_new
    {i : Nat}
    (hPage : i < dmsPagesPerSegment) :
    Page.Fresh s.extended.file
      (s.extended.pageAt (s.getNumPages + i)) := by
  rw [hMapped.pageAt_new hFits hPage]
  exact s.fresh_extended hMapped.sized hPage

end Extended

/-
  The entries of the new pages: their ids follow on the old
  ones, as the map has one entry for every old page.
-/
def newEntries (s : DmsFile) : List (Nat × Nat) :=
  (List.range dmsPagesPerSegment).map (fun i =>
    (dmsPageSize - sizeofPageHeader, s.getNumPages + i))

theorem Sound.perm_extended
    (hSound : Sound s)
    (hFits : s.extended.numPages < 4294967296) :
    s.extended.freeSpaceMap.entries.Perm
      (s.freeSpaceMap.entries ++ s.newEntries) := by
  have hMapped := hSound.toMapped
  have hSize : s.freeSpaceMap.size = s.getNumPages := by
    simpa [MultiMap.size] using hSound.free.length_eq
  rw [numPages_extended, ← hMapped.getNumPages_eq] at hFits
  apply (perm_addPages _ _ _).trans
  apply List.Perm.append (List.Perm.refl _)
  apply List.Perm.of_eq
  apply List.map_congr_left
  intro i hi
  have hIn := List.mem_range.mp hi
  simp only [DmsFile.grow, hSize]
  rw [Nat.add_comm, Nat.mod_eq_of_lt (by omega)]

/- An extension leaves a sound file. -/
theorem Sound.extended
    (hSound : Sound s)
    (hFits : s.extended.numPages < 4294967296) :
    Sound s.extended := by
  have hMapped := hSound.toMapped
  have hCount := hMapped.getNumPages_extended hFits
  refine ⟨hMapped.extended hFits, ?_, ?_⟩
  · intro p hPage
    by_cases hOld : p < s.getNumPages
    · rw [hMapped.pageAt_old hFits hOld]
      rcases hSound.page p hOld with ⟨hFormed, hBound⟩
      exact hFormed.frame hBound (hMapped.same_old hOld)
    · have hFresh := hMapped.fresh_new hFits
        (i := p - s.getNumPages) (by omega)
      rw [Nat.add_sub_cancel' (Nat.le_of_not_lt hOld)]
        at hFresh
      exact ⟨hFresh.good.formed, hFresh.good.bound⟩
  · apply (hSound.perm_extended hFits).trans
    rw [hCount, List.range_add, List.map_append]
    apply List.Perm.append
    · apply hSound.free.trans
      apply List.Perm.of_eq
      apply List.map_congr_left
      intro p hp
      have hPage := List.mem_range.mp hp
      have hField := Page.Good.field_frame
        (hMapped.same_old hPage) (d := 20) (by decide)
      rw [hMapped.pageAt_old hFits hPage]
      exact congrArg (fun v => (v, p)) hField.symm
    · apply List.Perm.of_eq
      rw [newEntries, List.map_map]
      apply List.map_congr_left
      intro i hi
      have hFresh := hMapped.fresh_new hFits
        (List.mem_range.mp hi)
      simp only [Function.comp, hFresh.free]

------------------------------------------------------------
-- Insertion
------------------------------------------------------------

theorem insertRecord_body
    {page pageID : Nat}
    {rc : Int}
    {r : InsertResult}
    (hCall : s.insertRecord page pageID record rc = .ok r) :
    r.state.body = s.body := by
  unfold DmsFile.insertRecord at hCall
  simp only [bind, Except.bind, pure, Except.pure] at hCall
  split at hCall
  · cases hCall
  · simp only [Except.ok.injEq] at hCall
    rw [← hCall]
    rfl

theorem insertPage_body
    {pageID : Nat}
    {rc : Int}
    {r : InsertResult}
    (hCall : s.insertPage pageID record rc = .ok r) :
    r.state.body = s.body := by
  cases hOffset : s.pageToOffset pageID with
  | none =>
      simp only [DmsFile.insertPage, hOffset, Except.ok.injEq]
        at hCall
      rw [← hCall]
  | some page =>
      rw [insertPage_eq hOffset] at hCall
      have hBody := s.prepared_body page record.length
      split at hCall
      · rw [Except.ok.injEq] at hCall
        rw [← hCall]
      · split at hCall
        · rw [Except.ok.injEq] at hCall
          rw [← hCall]
          exact hBody
        · exact (insertRecord_body hCall).trans hBody

/- The retry loop never unmaps a segment. -/
theorem insertLoop_body
    {exts : List Extension}
    {rc : Int}
    {r : InsertResult}
    (hCall : insertLoop record exts rc s = .ok r) :
    s.body.length ≤ r.state.body.length := by
  induction exts generalizing s rc with
  | nil =>
      simp only [insertLoop] at hCall
      split at hCall
      · cases hCall
      · rw [insertPage_body hCall]
  | cons ext exts ih =>
      by_cases hFound :
          s.findPage record.length = dmsInvalidPageID
      · rcases s.extendSegment_cases ext with
          ⟨rc', n, hCode, _, hExtend⟩ | hExtend
        · rw [insertLoop_failed hFound hExtend hCode,
            Except.ok.injEq] at hCall
          rw [← hCall]
          exact le_refl _
        · rw [insertLoop_extended hFound hExtend] at hCall
          have hMore := ih hCall
          simp only [DmsFile.extended, addSegment, DmsFile.grow,
            List.length_append] at hMore
          omega
      · rw [insertLoop_found hFound] at hCall
        rw [insertPage_body hCall]

/- The loop, turn by turn, as long as page ids fit. -/
theorem Sound.insertLoop
    {exts : List Extension}
    {rc : Int}
    {r : InsertResult}
    (hSound : Sound s)
    (hCall : DmsFile.insertLoop record exts rc s = .ok r)
    (hFits : r.state.numPages < 4294967296) :
    Exact r.state := by
  induction exts generalizing s rc with
  | nil =>
      simp only [DmsFile.insertLoop] at hCall
      split at hCall
      · cases hCall
      · exact hSound.insertPage_exact hCall
  | cons ext exts ih =>
      by_cases hFound :
          s.findPage record.length = dmsInvalidPageID
      · rcases s.extendSegment_cases ext with
          ⟨rc', n, hCode, _, hExtend⟩ | hExtend
        · rw [insertLoop_failed hFound hExtend hCode,
            Except.ok.injEq] at hCall
          rw [← hCall]
          exact (hSound.grow n).free
        · rw [insertLoop_extended hFound hExtend] at hCall
          have hMore := insertLoop_body hCall
          have hNext : s.extended.numPages < 4294967296 :=
            (Nat.mul_le_mul_right _ hMore).trans_lt hFits
          exact ih (hSound.extended hNext) hCall
      · rw [insertLoop_found hFound] at hCall
        exact hSound.insertPage_exact hCall

------------------------------------------------------------
-- Segments in Place
------------------------------------------------------------

theorem Good.pageAt_eq
    (hGood : Good s)
    (hPage : p < s.getNumPages) :
    s.pageAt p = pageAddress p := by
  rw [hGood.getNumPages_eq] at hPage
  rw [pageAt, hGood.pageToOffset_of_lt hPage,
    Option.getD_some]

/- A file whose segments are in place is sound. -/
theorem Good.sound
    (hGood : Good s) :
    Sound s := by
  have hMapped : Mapped s := by
    have hBody := hGood.body
    have hBound := hGood.numPages_lt
    have hOffset : ∀ d ∈ s.body, ∃ i < s.body.length,
        d = segmentOffset i := by
      intro d hd
      rw [hBody, List.mem_map] at hd
      rcases hd with ⟨i, hi, hEq⟩
      exact ⟨i, List.mem_range.mp hi, hEq.symm⟩
    refine ⟨?_, ?_, ?_, ?_, ?_⟩
    · simp only [dmsInvalidPageID] at hBound
      omega
    · rw [hGood.size, segmentOffset]
      omega
    · intro d hd
      rcases hOffset d hd with ⟨i, _, hEq⟩
      rw [hEq, segmentOffset]
      omega
    · intro d hd
      rcases hOffset d hd with ⟨i, hi, hEq⟩
      rw [hEq, hGood.size]
      simp only [segmentOffset, dmsFileSegmentSize] at *
      omega
    · rw [hBody, List.pairwise_map]
      apply List.pairwise_lt_range.imp
      intro i j hLess
      simp only [segmentOffset, dmsFileSegmentSize]
      omega
  refine ⟨hMapped, ?_, ?_⟩
  · intro p hPage
    rw [hGood.pageAt_eq hPage]
    have hPageGood := hGood.page p
      (hGood.getNumPages_eq ▸ hPage)
    exact ⟨hPageGood.formed, hPageGood.bound⟩
  · apply hGood.free.trans
    rw [← hGood.getNumPages_eq]
    apply List.Perm.of_eq
    apply List.map_congr_left
    intro p hPage
    rw [hGood.pageAt_eq (List.mem_range.mp hPage)]

------------------------------------------------------------
-- Exactness
------------------------------------------------------------

/-
  Every operation leaves the free-space map of a sound file
  exact.  An extension that succeeds enters the new pages
  under the ids after the last page, and one that fails
  leaves the map.
-/
theorem freeSpaceMap_exact
    (hSound : Sound s) :
    (∀ exts record r, s.insert exts record = .ok r →
      r.state.numPages < 4294967296 → Exact r.state) ∧
    (∀ rid,
      (∀ page, s.pageToOffset rid.pageID = some page →
        rid.slotID < Page.numSlots s.file page) →
      Exact (s.remove rid).2) ∧
    (∀ ext rc t, s.extendSegment ext = (rc, t) →
      t.numPages < 4294967296 →
      Exact t ∧
        (rc = edbOk →
          t.getNumPages =
            s.getNumPages + dmsPagesPerSegment ∧
          t.freeSpaceMap.entries.Perm
            (s.freeSpaceMap.entries ++ s.newEntries)) ∧
        (rc ≠ edbOk → t.freeSpaceMap = s.freeSpaceMap)) := by
  refine ⟨?_, ?_, ?_⟩
  · intro exts record r hCall hFits
    exact hSound.insertLoop hCall hFits
  · intro rid hSlot
    exact hSound.remove_exact hSlot
  · intro ext rc t hCall hFits
    rcases s.extendSegment_cases ext with
      ⟨rc', n, hCode, _, hExtend⟩ | hExtend
    · rw [hExtend, Prod.mk.injEq] at hCall
      rw [← hCall.1, ← hCall.2]
      exact ⟨(hSound.grow n).free,
        fun hOk => absurd hOk hCode, fun _ => rfl⟩
    · rw [hExtend, Prod.mk.injEq] at hCall
      rw [← hCall.2] at hFits
      rw [← hCall.1, ← hCall.2]
      exact ⟨(hSound.extended hFits).free,
        fun _ => ⟨hSound.toMapped.getNumPages_extended hFits,
          hSound.perm_extended hFits⟩,
        fun hFail => absurd rfl hFail⟩

/- The codes of two insertions, a removal and extensions. -/
def documentCodes : List Int :=
  match oneDocument.insert [] (textDocument 2 22) with
  | .error _ => []
  | .ok r => [r.rc, r.state.numPages,
      (oneDocument.remove ⟨0, 0⟩).1,
      (oneDocument.extendSegment .success).1,
      (oneDocument.extendSegment .success).2.numPages]

/-
  A file with one document: a second one is inserted, the
  first one is removed, and the file is extended.
-/
theorem freeSpaceMap_exact_oneDocument :
    documentCodes = [0, 32, 0, 0, 64] ∧
      (∃ r, oneDocument.insert [] (textDocument 2 22) = .ok r ∧
        Exact r.state) ∧
      Exact (oneDocument.remove ⟨0, 0⟩).2 ∧
      Exact (oneDocument.extendSegment .success).2 := by
  have hCodes : documentCodes = [0, 32, 0, 0, 64] := by
    decide +kernel
  have hExact := freeSpaceMap_exact good_oneDocument.sound
  have hSlot : ∀ page,
      oneDocument.pageToOffset 0 = some page →
        0 < Page.numSlots oneDocument.file page := by
    intro page hPage
    have hFound : oneDocument.pageToOffset 0 = some 65536 := by
      decide +kernel
    rw [hFound, Option.some.injEq] at hPage
    rw [← hPage]
    decide +kernel
  have hAll := hCodes
  unfold documentCodes at hAll
  cases hInsert : oneDocument.insert []
      (textDocument 2 22) with
  | error e =>
      rw [hInsert] at hAll
      cases hAll
  | ok r =>
      rw [hInsert] at hAll
      simp only [List.cons.injEq] at hAll
      have hFits : (oneDocument.extendSegment
          .success).2.numPages < 4294967296 := by
        omega
      exact ⟨hCodes,
        ⟨r, rfl, hExact.1 _ _ r hInsert (by omega)⟩,
        hExact.2.1 ⟨0, 0⟩ hSlot,
        (hExact.2.2 .success _ _ rfl hFits).1⟩

end DmsFile

end EmeraldDb
