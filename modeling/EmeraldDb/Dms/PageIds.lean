import EmeraldDb.Dms.Threads

/-
  Page ids stay unique among threads.

  Between the steps of the threads the free-space map has one
  entry for every page, except the entry that an update has
  erased, and besides the entries of new pages that an
  extension has inserted so far.  The new ids follow on the
  old ones if the size of the map is read while no update is
  under way.

  Key definitions include:
    * `DmsFile.Shared`
    * `DmsThreads.Consistent`
    * `DmsThreads.SizeUndisturbed`

  Key results include:
    * `DmsFile.Shared.insertPage`
    * `DmsFile.Shared.remove`
    * `DmsFile.Shared.pushSegment`
    * `DmsThreads.Consistent.step`
    * `DmsThreads.pageIds_unique`
    * `DmsThreads.pageIds_not_unique`
-/

namespace EmeraldDb

namespace DmsFile

variable {s t : DmsFile} {p : Nat}
variable {pending extra : List Entry}

------------------------------------------------------------
-- Shared Data Files
------------------------------------------------------------

/- The entry of every page, under its header's free space. -/
def pageEntries (s : DmsFile) : List Entry :=
  (List.range s.getNumPages).map
    (fun p => (Page.freeSpace s.file (s.pageAt p), p))

/-
  With the pending entries the map holds one entry for every
  page and the extra ones.
-/
structure Shared
    (s : DmsFile)
    (pending extra : List Entry) : Prop
    extends Mapped s where
  page : ∀ p < s.getNumPages, Page.Good s.file (s.pageAt p)
  free : (pending ++ s.freeSpaceMap.entries).Perm
    (s.pageEntries ++ extra)

/- A change that stays inside the mapped pages. -/
structure Inside (s t : DmsFile) : Prop where
  body : t.body = s.body
  size : t.fileSize = s.fileSize
  same : ∀ a n,
    (∀ p < s.getNumPages,
      a + n ≤ s.pageAt p ∨ s.pageAt p + dmsPageSize ≤ a) →
    Memory.Same s.file a t.file a n

theorem Inside.refl
    (s : DmsFile) :
    Inside s s :=
  ⟨rfl, rfl, fun _ _ _ => Memory.Same.refl _ _ _⟩

theorem Inside.trans
    {u : DmsFile}
    (hFirst : Inside s t)
    (hSecond : Inside t u) :
    Inside s u := by
  refine ⟨hSecond.body.trans hFirst.body,
    hSecond.size.trans hFirst.size, ?_⟩
  intro a n hApart
  apply (hFirst.same a n hApart).trans
  apply hSecond.same
  intro p hPage
  rw [getNumPages_congr hFirst.body] at hPage
  rw [pageAt_congr hFirst.body]
  exact hApart p hPage

/- Writing one page stays inside. -/
theorem Inside.withPage
    (hPage : p < s.getNumPages)
    {m : Memory}
    (hLocal : Page.Local s.file m (s.pageAt p))
    (M : MultiMap Nat Nat) :
    Inside s (s.withPage m M) :=
  ⟨rfl, rfl, fun _ _ hApart => hLocal.same (hApart p hPage)⟩

/- The entries of pages that look the same. -/
theorem pageEntries_congr
    (hBody : t.body = s.body)
    (hSame : ∀ p < s.getNumPages,
      Memory.Same s.file (s.pageAt p) t.file (s.pageAt p)
        dmsPageSize) :
    t.pageEntries = s.pageEntries := by
  rw [pageEntries, pageEntries, getNumPages_congr hBody]
  apply List.map_congr_left
  intro p hIn
  have hField := Page.Good.field_frame
    (hSame p (List.mem_range.mp hIn)) (d := 20) (by decide)
  rw [pageAt_congr hBody]
  exact congrArg (fun v => (v, p)) hField

/- A slot that holds no record is not removed. -/
theorem remove_of_not_live
    {rid : DmsRecordID}
    {page : Nat}
    (hOffset : s.pageToOffset rid.pageID = some page)
    (hSlot : rid.slotID ≠ Page.numSlots s.file page)
    (hNotLive : ¬ Page.Live s.file page rid.slotID) :
    (s.remove rid).2 = s := by
  by_cases hBehind : Page.numSlots s.file page < rid.slotID
  · have hSearch : s.searchSlot page rid = (edbSys, 0) := by
      rw [searchSlot, if_pos hBehind]
    simp only [DmsFile.remove, hOffset, hSearch]
    rw [if_pos (by decide)]
  · have hEmpty : Page.slot s.file page rid.slotID =
        dmsSlotEmpty := by
      by_contra hFull
      exact hNotLive ⟨by omega, hFull⟩
    have hSearch : s.searchSlot page rid =
        (edbOk, dmsSlotEmpty) := by
      rw [searchSlot, if_neg hBehind, hEmpty]
    simp only [DmsFile.remove, hOffset, hSearch, ne_eq,
      not_true_eq_false, if_false, if_true]

namespace Shared

/- A change of the file behind and beside the pages. -/
theorem frame
    (hShared : Shared s pending extra)
    (hBody : t.body = s.body)
    (hSize : s.fileSize ≤ t.fileSize)
    (hMap : t.freeSpaceMap = s.freeSpaceMap)
    (hSame : ∀ p < s.getNumPages,
      Memory.Same s.file (s.pageAt p) t.file (s.pageAt p)
        dmsPageSize) :
    Shared t pending extra := by
  have hMapped := hShared.toMapped
  have hPages : t.numPages = s.numPages := by
    rw [numPages, numPages, hBody]
  refine ⟨⟨?_, ?_, ?_, ?_, ?_⟩, ?_, ?_⟩
  · rw [hPages]
    exact hMapped.fits
  · exact hMapped.sized.trans hSize
  · rw [hBody]
    exact hMapped.behind
  · rw [hBody]
    intro d hd
    exact (hMapped.inside d hd).trans hSize
  · rw [hBody]
    exact hMapped.apart
  · intro p hPage
    rw [getNumPages_congr hBody] at hPage
    rw [pageAt_congr hBody]
    exact (hShared.page p hPage).frame (hSame p hPage)
  · rw [hMap, pageEntries_congr hBody hSame]
    exact hShared.free

/- The entry of a changed page is replaced. -/
theorem replace
    (hShared : Shared s [] extra)
    (hPage : p < s.getNumPages)
    {m : Memory}
    (hLocal : Page.Local s.file m (s.pageAt p))
    (hGood : Page.Good m (s.pageAt p)) :
    Shared (s.withPage m
      ((s.freeSpaceMap.eraseFirst
        (Page.freeSpace s.file (s.pageAt p))
        (fun q => decide (q = p))).insert
          (Page.freeSpace m (s.pageAt p)) p)) [] extra := by
  have hMapped := hShared.toMapped
  have hOther : ∀ q < s.getNumPages, q ≠ p →
      Memory.Same s.file (s.pageAt q) m (s.pageAt q)
        dmsPageSize := by
    intro q hQ hNe
    exact hLocal.same (hMapped.pageAt_apart hPage hQ hNe)
  refine ⟨⟨hMapped.fits, hMapped.sized, hMapped.behind,
    hMapped.inside, hMapped.apart⟩, ?_, ?_⟩
  · intro q hQ
    by_cases hEq : q = p
    · rw [hEq]
      exact hGood
    · exact (hShared.page q hQ).frame (hOther q hQ hEq)
  · apply s.freeSpaceMap.perm_replace_append hShared.free hPage
    intro q hQ hNe
    exact Page.Good.field_frame (hOther q hQ hNe) (by decide)

/- A changed page that keeps its free space. -/
theorem keep
    (hShared : Shared s pending extra)
    (hPage : p < s.getNumPages)
    {m : Memory}
    (hLocal : Page.Local s.file m (s.pageAt p))
    (hGood : Page.Good m (s.pageAt p))
    (hFree : Page.freeSpace m (s.pageAt p) =
      Page.freeSpace s.file (s.pageAt p)) :
    Shared (s.withPage m s.freeSpaceMap) pending extra := by
  have hMapped := hShared.toMapped
  have hOther : ∀ q < s.getNumPages, q ≠ p →
      Memory.Same s.file (s.pageAt q) m (s.pageAt q)
        dmsPageSize := by
    intro q hQ hNe
    exact hLocal.same (hMapped.pageAt_apart hPage hQ hNe)
  refine ⟨⟨hMapped.fits, hMapped.sized, hMapped.behind,
    hMapped.inside, hMapped.apart⟩, ?_, ?_⟩
  · intro q hQ
    by_cases hEq : q = p
    · rw [hEq]
      exact hGood
    · exact (hShared.page q hQ).frame (hOther q hQ hEq)
  · have hEntries : (s.withPage m s.freeSpaceMap).pageEntries =
        s.pageEntries := by
      apply List.map_congr_left
      intro q hIn
      by_cases hEq : q = p
      · rw [hEq]
        exact congrArg (fun v => (v, p)) hFree
      · have hField := Page.Good.field_frame
          (hOther q (List.mem_range.mp hIn) hEq) (d := 20)
          (by decide)
        exact congrArg (fun v => (v, q)) hField
    rw [hEntries]
    exact hShared.free

/- What is pending may as well be in the map. -/
theorem enter_iff
    {e : Entry} :
    Shared (s.enter e) pending extra ↔
      Shared s (e :: pending) extra := by
  have hPerm : (pending ++ (s.enter e).freeSpaceMap.entries
      ).Perm (e :: pending ++ s.freeSpaceMap.entries) :=
    ((s.freeSpaceMap.perm_insert e.1 e.2).append_left
      pending).trans List.perm_middle
  constructor
  · intro hShared
    have hMapped := hShared.toMapped
    exact ⟨⟨hMapped.fits, hMapped.sized, hMapped.behind,
      hMapped.inside, hMapped.apart⟩, hShared.page,
      hPerm.symm.trans hShared.free⟩
  · intro hShared
    have hMapped := hShared.toMapped
    exact ⟨⟨hMapped.fits, hMapped.sized, hMapped.behind,
      hMapped.inside, hMapped.apart⟩, hShared.page,
      hPerm.trans hShared.free⟩

/- An entry that belongs to no page of the body yet. -/
theorem enter_extra
    (hShared : Shared s pending extra)
    (e : Entry) :
    Shared (s.enter e) pending (extra ++ [e]) := by
  rw [enter_iff]
  refine ⟨hShared.toMapped, hShared.page, ?_⟩
  rw [← List.append_assoc]
  exact (hShared.free.cons e).trans
    (List.perm_append_singleton e _).symm

/- Without pending and extra entries the size counts pages. -/
theorem size_eq
    (hShared : Shared s [] []) :
    s.freeSpaceMap.size = s.getNumPages := by
  simpa [MultiMap.size, pageEntries] using
    hShared.free.length_eq

------------------------------------------------------------
-- Insertion
------------------------------------------------------------

/- A reorganisation of a page without live records. -/
theorem prepared
    (hShared : Shared s [] extra)
    (hPage : p < s.getNumPages)
    {n : Nat}
    (hStill : needsRecover s.file (s.pageAt p) n = true →
      ∀ k, ¬ Page.Live s.file (s.pageAt p) k) :
    Shared (s.prepared (s.pageAt p) n) [] extra ∧
      Inside s (s.prepared (s.pageAt p) n) := by
  unfold DmsFile.prepared
  split
  · rename_i hNeed
    have hRecovered := (hShared.page p hPage).recoverSpace
      (hStill hNeed)
    exact ⟨hShared.keep hPage hRecovered.2.2.1 hRecovered.1
        hRecovered.2.2.2.2,
      .withPage hPage hRecovered.2.2.1 _⟩
  · exact ⟨hShared, Inside.refl s⟩

theorem insertRecord
    {record : BSONObj}
    (hShared : Shared s [] extra)
    (hPage : p < s.getNumPages)
    {page : Nat}
    (hAt : s.pageAt p = page)
    (hRoom : Page.Room s.file page record.length)
    (hForm : record.WellFormed)
    {rc : Int}
    {r : InsertResult}
    (hCall : s.insertRecord page p record rc = .ok r) :
    Shared r.state [] extra ∧ Inside s r.state := by
  subst hAt
  have hGood := hShared.page p hPage
  have hInserted := hGood.insert hRoom hForm
    (remaining s.file (s.pageAt p) record.length)
  have hSmall : remaining s.file (s.pageAt p)
      record.length < 4294967296 :=
    ofSigned_lt _
  have hNext := hShared.replace hPage hInserted.outside
    hInserted.good
  rw [(Page.inserted_header hGood.shape hRoom).2.2.2.2,
    Nat.mod_eq_of_lt hSmall] at hNext
  rw [insertRecord_eq hGood.shape hRoom hForm,
    Except.ok.injEq] at hCall
  rw [← hCall]
  exact ⟨hNext, .withPage hPage hInserted.outside _⟩

theorem insertPage
    {record : BSONObj}
    (hShared : Shared s [] extra)
    (hForm : record.WellFormed)
    {pageID : Nat}
    (hStill : ∀ page, s.pageToOffset pageID = some page →
      needsRecover s.file page record.length = true →
        ∀ k, ¬ Page.Live s.file page k)
    {rc : Int}
    {r : InsertResult}
    (hCall : s.insertPage pageID record rc = .ok r) :
    Shared r.state [] extra ∧ Inside s r.state := by
  have hMapped := hShared.toMapped
  by_cases hPage : pageID < s.getNumPages
  · have hOffset := (hMapped.pageToOffset_eq hPage).1
    rcases hShared.prepared hPage (hStill _ hOffset) with
      ⟨hPrepared, hInside⟩
    have hAt := pageAt_congr hInside.body pageID
    have hPage' : pageID < (s.prepared (s.pageAt pageID)
        record.length).getNumPages := by
      rw [getNumPages_congr hInside.body]
      exact hPage
    rw [insertPage_eq hOffset] at hCall
    split at hCall
    · rw [Except.ok.injEq] at hCall
      rw [← hCall]
      exact ⟨hShared, Inside.refl s⟩
    · split at hCall
      · rw [Except.ok.injEq] at hCall
        rw [← hCall]
        exact ⟨hPrepared, hInside⟩
      · rename_i _ hCheck
        have hGood := hPrepared.page pageID hPage'
        rw [hAt] at hGood
        have hRoom := room_of_noRoom hGood.shape
          (Bool.eq_false_iff.mpr hCheck)
        rcases hPrepared.insertRecord hPage' hAt hRoom hForm
          hCall with ⟨hNext, hInside'⟩
        exact ⟨hNext, hInside.trans hInside'⟩
  · simp only [DmsFile.insertPage,
      pageToOffset_none (Nat.le_of_not_lt hPage),
      Except.ok.injEq] at hCall
    rw [← hCall]
    exact ⟨hShared, Inside.refl s⟩

------------------------------------------------------------
-- Removal
------------------------------------------------------------

/- A removal that does not name the slot behind the last. -/
theorem remove
    (hShared : Shared s [] extra)
    {rid : DmsRecordID}
    {page : Nat}
    (hOffset : s.pageToOffset rid.pageID = some page)
    (hSlot : rid.slotID ≠ Page.numSlots s.file page) :
    Shared (s.remove rid).2 [] extra ∧
      Inside s (s.remove rid).2 := by
  have hMapped := hShared.toMapped
  have hPage : rid.pageID < s.getNumPages := by
    by_contra hNot
    rw [pageToOffset_none (Nat.le_of_not_lt hNot)] at hOffset
    simp at hOffset
  have hAt : s.pageAt rid.pageID = page := by
    rw [pageAt, hOffset, Option.getD_some]
  have hGood := hShared.page _ hPage
  rw [hAt] at hGood
  by_cases hLive : Page.Live s.file page rid.slotID
  · have hDropped := hGood.drop hLive
      (regained s.file page rid.slotID)
    have hLow := hGood.slot_ge hLive
    have hSmall : regained s.file page rid.slotID <
        4294967296 :=
      ofSigned_lt _
    have hLocal := hDropped.outside
    have hNext := hShared.replace hPage (hAt ▸ hLocal)
      (hAt ▸ hDropped.good)
    rw [hAt, (Page.dropped_header hLow).2.2.2.2,
      Nat.mod_eq_of_lt hSmall] at hNext
    rw [remove_eq hOffset hLive hLow]
    exact ⟨hNext, .withPage hPage (hAt ▸ hLocal) _⟩
  · have hSame := remove_of_not_live hOffset hSlot hLive
    rw [hSame]
    exact ⟨hShared, Inside.refl s⟩

end Shared

/- What a call has left of the file before its update. -/
def Begun.file : Begun → DmsFile
| .done r => r.state
| .updating s _ _ _ => s

/- The entry that the call has still to insert. -/
def Begun.erased : Begun → List Entry
| .done _ => []
| .updating _ e _ _ => [e]

theorem Shared.begun
    {b : Begun}
    (hShared : Shared b.finish.state [] extra) :
    Shared b.file b.erased extra := by
  cases b with
  | done r => exact hShared
  | updating t e rc written =>
      exact Shared.enter_iff.mp hShared

theorem Inside.begun
    {b : Begun}
    (hInside : Inside s b.finish.state) :
    Inside s b.file := by
  cases b with
  | done r => exact hInside
  | updating t e rc written =>
      exact ⟨hInside.body, hInside.size, hInside.same⟩

------------------------------------------------------------
-- Extension
------------------------------------------------------------

/- A mapped segment with new pages, behind the body. -/
structure NewSegment (s : DmsFile) (data : Nat) : Prop where
  fits : s.numPages + dmsPagesPerSegment < 4294967296
  low : dmsFileHeaderSize ≤ data
  above : ∀ d ∈ s.body, d + dmsFileSegmentSize ≤ data
  inside : data + dmsFileSegmentSize ≤ s.fileSize
  fresh : ∀ i < dmsPagesPerSegment,
    Page.Fresh s.file (data + i * dmsPageSize)

/- The entries of the first `n` new pages. -/
def firstEntries
    (s : DmsFile)
    (n : Nat) : List Entry :=
  (List.range n).map (newEntry s.getNumPages)

/- The file after steps 1 to 4 of an extension. -/
def withSegment (s : DmsFile) : DmsFile :=
  (s.grow dmsFileSegmentSize).initHeaders s.fileSize

theorem withSegment_fileSize
    (s : DmsFile) :
    s.withSegment.fileSize =
      s.fileSize + dmsFileSegmentSize := by
  rw [withSegment, initHeaders, withFile_fileSize, grow]

theorem withSegment_body
    (s : DmsFile) :
    s.withSegment.body = s.body := by
  rw [withSegment, initHeaders, withFile_body, grow]

theorem withSegment_freeSpaceMap
    (s : DmsFile) :
    s.withSegment.freeSpaceMap = s.freeSpaceMap := by
  rw [withSegment, initHeaders, withFile_freeSpaceMap, grow]

theorem withSegment_file
    (s : DmsFile) :
    s.withSegment.file =
      initPages (s.file.fill s.fileSize dmsFileSegmentSize 0)
        s.fileSize dmsPagesPerSegment := by
  rw [withSegment, initHeaders, withFile_file, grow]

theorem initSegment_none
    {offset : Nat}
    {failure : Option Errno}
    {rc : Int}
    (hMap : ossMmapFileMap s.fileSize offset
      dmsFileSegmentSize failure = (rc, none)) :
    s.initSegment offset failure = (rc, s, none) := by
  rw [initSegment, hMap]

theorem initSegment_some
    {offset data : Nat}
    {failure : Option Errno}
    {rc : Int}
    (hMap : ossMmapFileMap s.fileSize offset
      dmsFileSegmentSize failure = (rc, some data)) :
    s.initSegment offset failure =
      (rc, s.initHeaders data, some data) := by
  rw [initSegment, hMap]

theorem initSegment_cases
    (s : DmsFile)
    (failure : Option Errno) :
    (∃ rc, (s.grow dmsFileSegmentSize).initSegment s.fileSize
      failure = (rc, s.grow dmsFileSegmentSize, none)) ∨
    (s.grow dmsFileSegmentSize).initSegment s.fileSize
      failure = (edbOk, s.withSegment, some s.fileSize) := by
  rcases ossMmapFileMap_cases
      (s.grow dmsFileSegmentSize).fileSize s.fileSize
      dmsFileSegmentSize_pos failure with
    ⟨rc, _, hNone⟩ | hSome
  · exact Or.inl ⟨rc, initSegment_none hNone⟩
  · exact Or.inr (initSegment_some hSome)

/- The file grows, and is mapped or not. -/
theorem newSegment_cases
    (s : DmsFile)
    (ext : Extension) :
    (∃ rc n, s.newSegment ext = (rc, s.grow n, none)) ∨
      s.newSegment ext =
        (edbOk, s.withSegment, some s.fileSize) := by
  cases ext with
  | success =>
      rw [newSegment, extendFile_segment]
      rcases s.initSegment_cases none with ⟨rc, hFail⟩ | hDone
      · exact Or.inl ⟨rc, _, hFail⟩
      · exact Or.inr hDone
  | sizeFails errno =>
      left
      refine ⟨errno.1, 0, ?_⟩
      rw [grow_zero, newSegment]
  | writeFails written errno =>
      left
      refine ⟨errno.1, min written dmsFileSegmentSize, ?_⟩
      simp only [newSegment, extendFile]
      rw [if_neg (by decide)]
  | statFails errno => exact Or.inl ⟨_, _, rfl⟩
  | mapFails errno =>
      rw [newSegment, extendFile_segment]
      rcases s.initSegment_cases (some errno) with ⟨rc, hFail⟩ | hDone
      · exact Or.inl ⟨rc, _, hFail⟩
      · exact Or.inr hDone

namespace Shared

theorem grow
    (hShared : Shared s pending extra)
    (n : Nat) :
    Shared (s.grow n) pending extra := by
  have hSize : s.fileSize ≤ (s.grow n).fileSize :=
    Nat.le_add_right _ _
  apply @frame s (s.grow n) _ _ hShared rfl hSize rfl
  intro p hPage
  exact (Memory.same_fill_of_disjoint _ _
    (Or.inl (hShared.toMapped.pageAt_le hPage))).symm

theorem withSegment
    (hShared : Shared s pending extra)
    (hFits : s.numPages + dmsPagesPerSegment < 4294967296) :
    Shared s.withSegment pending extra ∧
      NewSegment s.withSegment s.fileSize := by
  have hMapped := hShared.toMapped
  have hBody := s.withSegment_body
  have hSize := s.withSegment_fileSize
  refine ⟨?_, ?_, hMapped.sized, ?_, ?_, ?_⟩
  · have hMore : s.fileSize ≤ s.withSegment.fileSize := by
      rw [hSize]
      exact Nat.le_add_right _ _
    apply hShared.frame hBody hMore s.withSegment_freeSpaceMap
    intro p hPage i hi
    have hBelow := hMapped.pageAt_le hPage
    rw [withSegment_file,
      initPages_of_disjoint _ _ _ (by omega),
      Memory.fill_of_disjoint _ _ _ _ (by omega)]
  · rw [numPages, hBody]
    exact hFits
  · rw [hBody]
    exact hMapped.inside
  · rw [hSize]
  · intro i hi
    rw [withSegment_file]
    exact initPages_page _ _ hi

/- The new pages join the body under the entered ids. -/
theorem pushSegment
    {data : Nat}
    (hShared : Shared s pending
      (s.firstEntries dmsPagesPerSegment))
    (hSegment : NewSegment s data) :
    Shared (s.pushSegment data) pending [] := by
  have hMapped := hShared.toMapped
  have hBody : (s.pushSegment data).body =
      s.body ++ [data] := rfl
  have hFits : (s.pushSegment data).numPages <
      4294967296 := by
    rw [numPages_append hBody]
    exact hSegment.fits
  have hCount := hMapped.getNumPages_append hBody hFits
  have hSame : ∀ a, dmsFileHeaderSize ≤ a →
      Memory.Same s.file a (s.pushSegment data).file a
        dmsPageSize := by
    intro a hLow
    simp only [dmsFileHeaderSize] at hLow
    exact (Memory.same_setWord_of_disjoint _ _
      (Or.inr (by omega))).symm
  have hOld : ∀ p < s.getNumPages,
      Memory.Same s.file (s.pageAt p)
        (s.pushSegment data).file (s.pageAt p)
          dmsPageSize := by
    intro p hPage
    exact hSame _ (hMapped.pageAt_ge hPage)
  have hFresh : ∀ i < dmsPagesPerSegment,
      Page.Fresh (s.pushSegment data).file
        ((s.pushSegment data).pageAt
          (s.getNumPages + i)) := by
    intro i hi
    rw [hMapped.pageAt_appended hBody hFits hi]
    apply (hSegment.fresh i hi).frame
    exact hSame _ (hSegment.low.trans (Nat.le_add_right _ _))
  refine ⟨hMapped.append hBody hFits hSegment.low
    hSegment.above hSegment.inside, ?_, ?_⟩
  · intro p hPage
    by_cases hIn : p < s.getNumPages
    · rw [hMapped.pageAt_append hBody hFits hIn]
      exact (hShared.page p hIn).frame (hOld p hIn)
    · have hNew := hFresh (p - s.getNumPages) (by omega)
      rw [Nat.add_sub_cancel' (Nat.le_of_not_lt hIn)] at hNew
      exact hNew.good
  · have hEntries : (s.pushSegment data).pageEntries =
        s.pageEntries ++ s.firstEntries dmsPagesPerSegment := by
      rw [pageEntries, hCount, List.range_add, List.map_append,
        List.map_map]
      congr 1
      · apply List.map_congr_left
        intro p hp
        have hPage := List.mem_range.mp hp
        have hField := Page.Good.field_frame (hOld p hPage)
          (d := 20) (by decide)
        rw [hMapped.pageAt_append hBody hFits hPage]
        exact congrArg (fun v => (v, p)) hField
      · apply List.map_congr_left
        intro i hi
        have hIn := List.mem_range.mp hi
        have hBound := hSegment.fits
        rw [← hMapped.getNumPages_eq] at hBound
        simp only [Function.comp, (hFresh i hIn).free,
          newEntry]
        rw [Nat.mod_eq_of_lt (by omega), Nat.add_comm i]
    rw [hEntries, List.append_nil]
    exact hShared.free

end Shared

/- Pages below the segment leave it as it is. -/
theorem NewSegment.inside_kept
    {data : Nat}
    (hMapped : Mapped s)
    (hSegment : NewSegment s data)
    (hInside : Inside s t) :
    NewSegment t data := by
  refine ⟨?_, hSegment.low, ?_, ?_, ?_⟩
  · rw [numPages, hInside.body]
    exact hSegment.fits
  · rw [hInside.body]
    exact hSegment.above
  · rw [hInside.size]
    exact hSegment.inside
  · intro i hi
    apply (hSegment.fresh i hi).frame
    apply hInside.same
    intro p hPage
    right
    have hBelow := hSegment.above _
      (List.get_mem s.body ⟨_, hMapped.segment_lt hPage⟩)
    rw [(hMapped.pageToOffset_eq hPage).2]
    simp only [dmsFileSegmentSize, dmsPageSize,
      dmsPagesPerSegment] at *
    omega

theorem pageToOffset_congr
    (hBody : t.body = s.body)
    (p : Nat) :
    t.pageToOffset p = s.pageToOffset p := by
  rw [pageToOffset, pageToOffset, getNumPages_congr hBody,
    hBody]

/- One more segment moves no page. -/
theorem Mapped.pageToOffset_append
    {data page : Nat}
    (hMapped : Mapped s)
    (hNext : Mapped t)
    (hBody : t.body = s.body ++ [data])
    (hOffset : s.pageToOffset p = some page) :
    t.pageToOffset p = some page := by
  have hPage : p < s.getNumPages := by
    by_contra hNot
    rw [pageToOffset_none (Nat.le_of_not_lt hNot)] at hOffset
    simp at hOffset
  have hCount := hMapped.getNumPages_append hBody hNext.fits
  have hPage' : p < t.getNumPages := by
    omega
  rw [(hNext.pageToOffset_eq hPage').1,
    hMapped.pageAt_append hBody hNext.fits hPage,
    ← (hMapped.pageToOffset_eq hPage).1, hOffset]

end DmsFile

open DmsFile

------------------------------------------------------------
-- What a Thread Holds
------------------------------------------------------------

namespace Thread

def holdsMutex : Thread → Bool
| .finding _ => true
| .full _ => true
| .found _ _ => true
| .searching _ _ => true
| .updating _ _ _ => true
| .unlocking _ _ => true
| _ => false

def holdsExtendMutex : Thread → Bool
| .mapping _ => true
| .mapped _ _ => true
| .entering _ _ _ _ => true
| .extended _ => true
| .failed _ => true
| _ => false

/- The entry that a thread has erased from the map. -/
def pending : Thread → List Entry
| .updating e _ _ => [e]
| _ => []

/- The entries of new pages that a thread has inserted. -/
def entered : Thread → List Entry
| .entering _ _ freeMapSize i =>
    (List.range i).map (newEntry freeMapSize)
| _ => []

/- Inside `_updateFreeSpace` or `_extendSegment`? -/
def Busy : Thread → Prop
| .updating _ _ _ => True
| .mapping _ => True
| .mapped _ _ => True
| .entering _ _ _ _ => True
| _ => False

/- What a thread remembers of the file is so. -/
def Valid (s : DmsFile) : Thread → Prop
| .idle => True
| .retry call => call.record.WellFormed
| .finding call => call.record.WellFormed
| .full call => call.record.WellFormed
| .extending call => call.record.WellFormed
| .waiting call => call.record.WellFormed
| .mapping call => call.record.WellFormed
| .mapped call data =>
    call.record.WellFormed ∧ NewSegment s data
| .entering call data freeMapSize i =>
    call.record.WellFormed ∧ NewSegment s data ∧
      freeMapSize = s.getNumPages ∧ i ≤ dmsPagesPerSegment
| .extended call => call.record.WellFormed
| .failed _ => True
| .found call _ => call.record.WellFormed
| .removing rid page =>
    s.pageToOffset rid.pageID = some page
| .searching rid page =>
    s.pageToOffset rid.pageID = some page
| .updating _ _ _ => True
| .unlocking _ _ => True

/- Only the thread that extends the file looks at its end. -/
theorem Valid.frame
    {s t : DmsFile}
    {st : Thread}
    (hValid : st.Valid s)
    (hOffset : ∀ p page, s.pageToOffset p = some page →
      t.pageToOffset p = some page)
    (hSegment : st.holdsExtendMutex = true →
      (∀ data, NewSegment s data → NewSegment t data) ∧
        t.getNumPages = s.getNumPages) :
    st.Valid t := by
  cases st with
  | mapped call data =>
      exact ⟨hValid.1, (hSegment rfl).1 data hValid.2⟩
  | entering call data freeMapSize i =>
      rcases hValid with ⟨hForm, hNew, hSize, hCount⟩
      exact ⟨hForm, (hSegment rfl).1 data hNew,
        hSize.trans (hSegment rfl).2.symm, hCount⟩
  | removing rid page => exact hOffset _ _ hValid
  | searching rid page => exact hOffset _ _ hValid
  | _ => exact hValid

end Thread

namespace DmsThreads

variable {c t : DmsThreads} {a : Nat} {old st : Thread}
variable {f : DmsFile}

def pending (c : DmsThreads) : List Entry :=
  ownerValue c.mutex c.thread Thread.pending []

def entered (c : DmsThreads) : List Entry :=
  ownerValue c.extendMutex c.thread Thread.entered []

structure Consistent (c : DmsThreads) : Prop where
  mutex : Latched Thread.holdsMutex c.mutex c.thread
  extendMutex :
    Latched Thread.holdsExtendMutex c.extendMutex c.thread
  shared : Shared c.dmsFile c.pending c.entered
  valid : ∀ a, (c.thread a).Valid c.dmsFile

namespace Consistent

------------------------------------------------------------
-- Latches
------------------------------------------------------------

theorem valid_move
    (hConsistent : Consistent c)
    (hValid : st.Valid c.dmsFile) :
    ∀ b, (Function.update c.thread a st b).Valid
      c.dmsFile := by
  rw [Function.forall_update_iff]
  exact ⟨hValid, fun b _ => hConsistent.valid b⟩

/- A step of a thread that keeps both latches. -/
theorem change
    (hConsistent : Consistent c)
    (hState : c.thread a = old)
    (hMutex : st.holdsMutex = old.holdsMutex)
    (hExtend : st.holdsExtendMutex = old.holdsExtendMutex)
    (hShared : Shared f (c.change f a st).pending
      (c.change f a st).entered)
    (hValid : st.Valid f)
    (hOthers : ∀ b, b ≠ a → (c.thread b).Valid f) :
    Consistent (c.change f a st) := by
  subst hState
  refine ⟨hConsistent.mutex.move hMutex,
    hConsistent.extendMutex.move hExtend, hShared, ?_⟩
  show ∀ b, (Function.update c.thread a st b).Valid f
  rw [Function.forall_update_iff]
  exact ⟨hValid, hOthers⟩

/- A step of a thread alone. -/
theorem move
    (hConsistent : Consistent c)
    (hState : c.thread a = old)
    (hMutex : st.holdsMutex = old.holdsMutex)
    (hExtend : st.holdsExtendMutex = old.holdsExtendMutex)
    (hPending : st.pending = old.pending)
    (hEntered : st.entered = old.entered)
    (hValid : st.Valid c.dmsFile) :
    Consistent (c.move a st) := by
  subst hState
  apply hConsistent.change rfl hMutex hExtend
  · rw [DmsThreads.pending, DmsThreads.entered]
    simp only [DmsThreads.change]
    rw [hConsistent.mutex.value_same hPending,
      hConsistent.extendMutex.value_same hEntered]
    exact hConsistent.shared
  · exact hValid
  · intro b _
    exact hConsistent.valid b

/- A thread takes the free `_mutex`. -/
theorem getMutex
    (hConsistent : Consistent c)
    (hState : c.thread a = old)
    (hFree : c.mutex = none)
    (hMutex : st.holdsMutex = true)
    (hExtend : st.holdsExtendMutex = old.holdsExtendMutex)
    (hPending : st.pending = [])
    (hEntered : st.entered = old.entered)
    (hValid : st.Valid c.dmsFile) :
    Consistent { c.move a st with mutex := some a } := by
  subst hState
  have hLatched := hConsistent.mutex
  have hShared := hConsistent.shared
  rw [hFree] at hLatched
  rw [DmsThreads.pending, hFree, ownerValue_none] at hShared
  refine ⟨hLatched.get hMutex,
    hConsistent.extendMutex.move hExtend, ?_,
    hConsistent.valid_move hValid⟩
  rw [DmsThreads.pending, DmsThreads.entered]
  simp only [DmsThreads.move, DmsThreads.change]
  rw [ownerValue_update, hPending,
    hConsistent.extendMutex.value_same hEntered]
  exact hShared

/- The owner releases `_mutex`. -/
theorem releaseMutex
    (hConsistent : Consistent c)
    (hState : c.thread a = old)
    (hHolds : old.holdsMutex = true)
    (hNone : old.pending = [])
    (hMutex : st.holdsMutex = false)
    (hExtend : st.holdsExtendMutex = old.holdsExtendMutex)
    (hEntered : st.entered = old.entered)
    (hValid : st.Valid c.dmsFile) :
    Consistent (c.releaseMutex a st) := by
  subst hState
  have hShared := hConsistent.shared
  rw [DmsThreads.pending,
    hConsistent.mutex.value_of_holder hHolds, hNone] at hShared
  refine ⟨hConsistent.mutex.release hHolds hMutex,
    hConsistent.extendMutex.move hExtend, ?_,
    hConsistent.valid_move hValid⟩
  rw [DmsThreads.pending, DmsThreads.entered]
  simp only [DmsThreads.releaseMutex, DmsThreads.move,
    DmsThreads.change]
  rw [ownerValue_none,
    hConsistent.extendMutex.value_same hEntered]
  exact hShared

/- A thread takes the free `_extendMutex`. -/
theorem getExtendMutex
    (hConsistent : Consistent c)
    (hState : c.thread a = old)
    (hFree : c.extendMutex = none)
    (hExtend : st.holdsExtendMutex = true)
    (hMutex : st.holdsMutex = old.holdsMutex)
    (hEntered : st.entered = [])
    (hPending : st.pending = old.pending)
    (hValid : st.Valid c.dmsFile) :
    Consistent { c.move a st with extendMutex := some a } := by
  subst hState
  have hLatched := hConsistent.extendMutex
  have hShared := hConsistent.shared
  rw [hFree] at hLatched
  rw [DmsThreads.entered, hFree, ownerValue_none] at hShared
  refine ⟨hConsistent.mutex.move hMutex,
    hLatched.get hExtend, ?_, hConsistent.valid_move hValid⟩
  rw [DmsThreads.pending, DmsThreads.entered]
  simp only [DmsThreads.move, DmsThreads.change]
  rw [ownerValue_update, hEntered,
    hConsistent.mutex.value_same hPending]
  exact hShared

/- The owner releases `_extendMutex`. -/
theorem releaseExtendMutex
    (hConsistent : Consistent c)
    (hState : c.thread a = old)
    (hHolds : old.holdsExtendMutex = true)
    (hNone : old.entered = [])
    (hExtend : st.holdsExtendMutex = false)
    (hMutex : st.holdsMutex = old.holdsMutex)
    (hPending : st.pending = old.pending)
    (hValid : st.Valid c.dmsFile) :
    Consistent (c.releaseExtendMutex a st) := by
  subst hState
  have hShared := hConsistent.shared
  rw [DmsThreads.entered,
    hConsistent.extendMutex.value_of_holder hHolds, hNone]
    at hShared
  refine ⟨hConsistent.mutex.move hMutex,
    hConsistent.extendMutex.release hHolds hExtend, ?_,
    hConsistent.valid_move hValid⟩
  rw [DmsThreads.pending, DmsThreads.entered]
  simp only [DmsThreads.releaseExtendMutex, DmsThreads.move,
    DmsThreads.change]
  rw [ownerValue_none,
    hConsistent.mutex.value_same hPending]
  exact hShared

------------------------------------------------------------
-- Steps in a Critical Section
------------------------------------------------------------

/- The owner of `_mutex` begins or ends an update. -/
theorem update
    (hConsistent : Consistent c)
    (hState : c.thread a = old)
    (hHolds : old.holdsMutex = true)
    (hMutex : st.holdsMutex = true)
    (hExtend : old.holdsExtendMutex = false)
    (hSame : st.holdsExtendMutex = false)
    (hInside : Inside c.dmsFile f)
    (hShared : Shared c.dmsFile old.pending c.entered →
      Shared f st.pending c.entered)
    (hValid : st.Valid f) :
    Consistent (c.change f a st) := by
  subst hState
  have hMapped := hConsistent.shared.toMapped
  apply hConsistent.change rfl
  · rw [hMutex, hHolds]
  · rw [hSame, hExtend]
  · rw [DmsThreads.pending, DmsThreads.entered]
    simp only [DmsThreads.change]
    rw [hConsistent.mutex.value_holder hHolds,
      hConsistent.extendMutex.value_other hExtend]
    apply hShared
    have hOld := hConsistent.shared
    rw [DmsThreads.pending,
      hConsistent.mutex.value_of_holder hHolds] at hOld
    exact hOld
  · exact hValid
  · intro b _
    apply (hConsistent.valid b).frame
    · intro p page hOffset
      rw [pageToOffset_congr hInside.body]
      exact hOffset
    · intro _
      exact ⟨fun data hNew => hNew.inside_kept hMapped hInside,
        getNumPages_congr hInside.body⟩

/- The owner of `_extendMutex` goes on with its extension. -/
theorem extend
    (hConsistent : Consistent c)
    (hState : c.thread a = old)
    (hHolds : old.holdsExtendMutex = true)
    (hExtend : st.holdsExtendMutex = true)
    (hMutex : old.holdsMutex = false)
    (hSame : st.holdsMutex = false)
    (hOffset : ∀ p page,
      c.dmsFile.pageToOffset p = some page →
        f.pageToOffset p = some page)
    (hShared : Shared c.dmsFile c.pending old.entered →
      Shared f c.pending st.entered)
    (hValid : st.Valid f) :
    Consistent (c.change f a st) := by
  subst hState
  apply hConsistent.change rfl
  · rw [hSame, hMutex]
  · rw [hExtend, hHolds]
  · rw [DmsThreads.pending, DmsThreads.entered]
    simp only [DmsThreads.change]
    rw [hConsistent.extendMutex.value_holder hHolds,
      hConsistent.mutex.value_other hMutex]
    apply hShared
    have hOld := hConsistent.shared
    rw [DmsThreads.entered,
      hConsistent.extendMutex.value_of_holder hHolds] at hOld
    exact hOld
  · exact hValid
  · intro b hNe
    apply (hConsistent.valid b).frame hOffset
    intro hOther
    exact absurd (hConsistent.extendMutex.exclusive hOther
      hHolds) hNe

end Consistent

end DmsThreads

end EmeraldDb
