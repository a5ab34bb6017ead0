import EmeraldDb.Dms.PageInvariant

/-
  The invariant of the data file and what insertion, removal
  and extension do to it.

  Segment `i` is mapped right behind segment `i - 1`, so page
  `p` lies at `pageAddress p`; every page is well formed, and
  the free-space map has one entry for every page.

  Key definitions include:
    * `DmsFile.Layout`
    * `DmsFile.Good`
    * `DmsFile.Live`
    * `DmsFile.Unchanged`
    * `DmsFile.Added`
    * `DmsFile.Removed`

  Key results include:
    * `DmsFile.Good.extendSegment`
    * `DmsFile.Good.insert`
    * `DmsFile.Good.remove`
    * `DmsFile.Good.find`
-/

namespace EmeraldDb

namespace DmsFile

variable {s t : DmsFile}

------------------------------------------------------------
-- Layout
------------------------------------------------------------

/- Offset of a segment behind the file header. -/
def segmentOffset (i : Nat) : Nat :=
  dmsFileHeaderSize + i * dmsFileSegmentSize

/- Address of a page when all segments are in place. -/
def pageAddress (p : Nat) : Nat :=
  dmsFileHeaderSize + p * dmsPageSize

/- Number of pages of the mapped segments. -/
def numPages (s : DmsFile) : Nat :=
  s.body.length * dmsPagesPerSegment

/- Page counts below `2 ^ 31` are positive as `int`. -/
abbrev maxSegments : Nat := 67108864

/- The segments fill the file in order. -/
structure Layout (s : DmsFile) : Prop where
  mapped : s.header = true
  body : s.body =
    (List.range s.body.length).map segmentOffset
  size : s.fileSize = segmentOffset s.body.length
  count : s.headerSize = s.numPages
  bound : s.body.length < maxSegments

structure Good (s : DmsFile) : Prop extends Layout s where
  page : ∀ p < s.numPages,
    Page.Good s.file (pageAddress p)
  free : s.freeSpaceMap.entries.Perm
    ((List.range s.numPages).map
      (fun p => (Page.freeSpace s.file (pageAddress p), p)))

/- A record id names a live slot. -/
def Live (s : DmsFile) (rid : DmsRecordID) : Prop :=
  rid.pageID < s.numPages ∧
    Page.Live s.file (pageAddress rid.pageID) rid.slotID

instance (s : DmsFile) (rid : DmsRecordID) :
    Decidable (Live s rid) :=
  inferInstanceAs (Decidable (_ ∧ _))

/- The object stored under a record id. -/
def object (s : DmsFile) (rid : DmsRecordID) : BSONObj :=
  Page.object s.file (pageAddress rid.pageID) rid.slotID

/- A record is at the same place with the same bytes. -/
structure Kept
    (s t : DmsFile)
    (rid : DmsRecordID) : Prop where
  place : (t.object rid).objdata = (s.object rid).objdata
  same : Memory.Same s.file (s.object rid).objdata t.file
    (t.object rid).objdata (s.object rid).length

/- The same records are live, each in its old place. -/
structure Unchanged (s t : DmsFile) : Prop where
  good : t.Good
  live : ∀ rid, t.Live rid ↔ s.Live rid
  kept : ∀ rid, s.Live rid → Kept s t rid

/- One record more is live. -/
structure Added
    (s t : DmsFile)
    (rid : DmsRecordID)
    (record : BSONObj) : Prop where
  good : t.Good
  fresh : ¬ s.Live rid
  live : ∀ r, t.Live r ↔ r = rid ∨ s.Live r
  kept : ∀ r, s.Live r → Kept s t r
  data : Memory.Same record.mem record.objdata t.file
    (t.object rid).objdata record.length

/- One record less is live. -/
structure Removed
    (s t : DmsFile)
    (rid : DmsRecordID) : Prop where
  good : t.Good
  live : ∀ r, t.Live r ↔ r ≠ rid ∧ s.Live r
  kept : ∀ r, r ≠ rid → s.Live r → Kept s t r

theorem pageAddress_apart
    {p q : Nat}
    (hNe : p ≠ q) :
    pageAddress p + dmsPageSize ≤ pageAddress q ∨
      pageAddress q + dmsPageSize ≤ pageAddress p := by
  simp only [pageAddress, dmsPageSize]
  omega

namespace Layout

theorem numPages_lt
    (hLayout : Layout s) :
    s.numPages < dmsInvalidPageID := by
  have hBound := hLayout.bound
  simp only [numPages, dmsPagesPerSegment, maxSegments,
    dmsInvalidPageID] at *
  omega

theorem getNumPages_eq
    (hLayout : Layout s) :
    s.getNumPages = s.numPages := by
  have hBound := hLayout.bound
  simp only [getNumPages, getNumSegments, numPages,
    dmsPagesPerSegment, maxSegments] at *
  omega

theorem pageToOffset_of_lt
    (hLayout : Layout s)
    {p : Nat}
    (hPage : p < s.numPages) :
    s.pageToOffset p = some (pageAddress p) := by
  have hSegment : p / dmsPagesPerSegment < s.body.length := by
    simp only [numPages, dmsPagesPerSegment] at *
    omega
  unfold pageToOffset
  rw [hLayout.getNumPages_eq, if_neg (by omega), hLayout.body,
    List.getElem?_map, List.getElem?_range hSegment]
  simp only [Option.map_some, Option.some.injEq, pageAddress,
    segmentOffset, dmsPagesPerSegment, dmsFileSegmentSize,
    dmsPageSize]
  omega

theorem pageToOffset_of_ge
    (hLayout : Layout s)
    {p : Nat}
    (hPage : s.numPages ≤ p) :
    s.pageToOffset p = none := by
  unfold pageToOffset
  rw [hLayout.getNumPages_eq, if_pos hPage]

end Layout

------------------------------------------------------------
-- Live Records
------------------------------------------------------------

/- The record under a live id. -/
theorem Good.record
    (hGood : Good s)
    {rid : DmsRecordID}
    (hLive : s.Live rid) :
    Page.Record s.file (pageAddress rid.pageID) rid.slotID :=
  (hGood.page _ hLive.1).record _ hLive.2

theorem Good.form
    (hGood : Good s)
    {rid : DmsRecordID}
    (hLive : s.Live rid) :
    (s.object rid).WellFormed :=
  (hGood.record hLive).form

/- Kept records are kept by two changes in a row. -/
theorem Kept.trans
    {u : DmsFile}
    {rid : DmsRecordID}
    (hForm : (s.object rid).WellFormed)
    (hFirst : Kept s t rid)
    (hSecond : Kept t u rid) :
    Kept s u rid := by
  refine ⟨hSecond.place.trans hFirst.place, ?_⟩
  apply hFirst.same.trans
  have hLength : (t.object rid).length =
      (s.object rid).length :=
    hForm.length_congr _ hFirst.same
  rw [← hLength]
  exact hSecond.same

theorem Unchanged.refl
    (hGood : Good s) :
    Unchanged s s := by
  refine ⟨hGood, fun _ => Iff.rfl, ?_⟩
  intro rid _
  exact ⟨rfl, Memory.Same.refl _ _ _⟩

theorem Unchanged.trans
    {u : DmsFile}
    (hGood : Good s)
    (hFirst : Unchanged s t)
    (hSecond : Unchanged t u) :
    Unchanged s u := by
  refine ⟨hSecond.good, ?_, ?_⟩
  · intro rid
    exact (hSecond.live rid).trans (hFirst.live rid)
  · intro rid hLive
    exact (hFirst.kept rid hLive).trans (hGood.form hLive)
      (hSecond.kept rid ((hFirst.live rid).mpr hLive))

theorem Unchanged.added
    {u : DmsFile}
    {rid : DmsRecordID}
    {record : BSONObj}
    (hGood : Good s)
    (hFirst : Unchanged s t)
    (hSecond : Added t u rid record) :
    Added s u rid record := by
  refine ⟨hSecond.good, ?_, ?_, ?_, hSecond.data⟩
  · rw [← hFirst.live]
    exact hSecond.fresh
  · intro r
    rw [hSecond.live, hFirst.live]
  · intro r hLive
    exact (hFirst.kept r hLive).trans (hGood.form hLive)
      (hSecond.kept r ((hFirst.live r).mpr hLive))

/- A record on a page whose bytes stay is kept. -/
theorem Good.kept_of_same
    (hGood : Good s)
    {rid : DmsRecordID}
    (hLive : s.Live rid)
    (hSame : Memory.Same s.file (pageAddress rid.pageID)
      t.file (pageAddress rid.pageID) dmsPageSize) :
    Kept s t rid := by
  have hPage := hGood.page _ hLive.1
  have hHigh := (hGood.record hLive).high
  have hSlot := hPage.shape.slot_frame hSame hLive.2.1
  have hPlace : (t.object rid).objdata =
      (s.object rid).objdata := by
    simp only [object, Page.object, hSlot]
  refine ⟨hPlace, ?_⟩
  rw [hPlace]
  have hSlice := hSame.slice
    (k := Page.slot s.file (pageAddress rid.pageID) rid.slotID
      + sizeofRecord)
    (l := (s.object rid).length) hHigh
  simpa only [object, Page.object, Nat.add_assoc] using hSlice

/- A record that its page keeps is kept by the file. -/
theorem kept_of_page
    {rid : DmsRecordID}
    (hKept : Page.Kept s.file t.file
      (pageAddress rid.pageID) rid.slotID) :
    Kept s t rid := by
  refine ⟨?_, hKept.object_same⟩
  simp only [object, Page.object, hKept.slot]

------------------------------------------------------------
-- Changes to One Page
------------------------------------------------------------

/- The state with a changed page and free-space map. -/
def withPage
    (s : DmsFile)
    (m : Memory)
    (M : MultiMap Nat Nat) : DmsFile :=
  { s with file := m, freeSpaceMap := M }

section OnePage

variable {p : Nat} {m : Memory} {M : MultiMap Nat Nat}

/- Another page is not touched by a change to page `p`. -/
theorem same_of_local
    {q : Nat}
    (hLocal : Page.Local s.file m (pageAddress p))
    (hNe : q ≠ p) :
    Memory.Same s.file (pageAddress q) m (pageAddress q)
      dmsPageSize :=
  hLocal.same (pageAddress_apart hNe)

theorem Good.withPage
    (hGood : Good s)
    (hLocal : Page.Local s.file m (pageAddress p))
    (hPage : Page.Good m (pageAddress p))
    (hFree : M.entries.Perm
      ((List.range s.numPages).map
        (fun q => (Page.freeSpace m (pageAddress q), q)))) :
    Good (s.withPage m M) := by
  refine ⟨⟨hGood.mapped, hGood.body, hGood.size, ?_,
    hGood.bound⟩, ?_, hFree⟩
  · have hWord : m.word 4 = s.file.word 4 := by
      have hSame : Memory.Same s.file 4 m 4 4 :=
        hLocal.same (Or.inl (by
          simp only [pageAddress, dmsFileHeaderSize]
          omega))
      exact (hSame.word (le_refl _)).symm
    exact hWord.trans hGood.count
  · intro q hq
    by_cases hEq : q = p
    · rw [hEq]
      exact hPage
    · exact (hGood.page q hq).frame
        (same_of_local hLocal hEq)

/- The free space of the other pages stays. -/
theorem freeSpace_of_local
    {q : Nat}
    (hLocal : Page.Local s.file m (pageAddress p))
    (hNe : q ≠ p) :
    Page.freeSpace m (pageAddress q) =
      Page.freeSpace s.file (pageAddress q) :=
  Page.Good.field_frame (same_of_local hLocal hNe)
    (by decide)

/- Liveness on the other pages stays. -/
theorem Good.live_of_local
    (hGood : Good s)
    (hLocal : Page.Local s.file m (pageAddress p))
    {rid : DmsRecordID}
    (hNe : rid.pageID ≠ p) :
    (s.withPage m M).Live rid ↔ s.Live rid := by
  constructor
  · intro hLive
    exact ⟨hLive.1, ((hGood.page _ hLive.1).shape.live_frame
      (same_of_local hLocal hNe) _).mp hLive.2⟩
  · intro hLive
    exact ⟨hLive.1, ((hGood.page _ hLive.1).shape.live_frame
      (same_of_local hLocal hNe) _).mpr hLive.2⟩

theorem Good.kept_of_local
    (hGood : Good s)
    (hLocal : Page.Local s.file m (pageAddress p))
    {rid : DmsRecordID}
    (hNe : rid.pageID ≠ p)
    (hLive : s.Live rid) :
    Kept s (s.withPage m M) rid :=
  hGood.kept_of_same hLive (same_of_local hLocal hNe)

/- An insertion on one page adds one record to the file. -/
theorem Good.added
    (hGood : Good s)
    (hIn : p < s.numPages)
    {record : BSONObj}
    (hPage : Page.Inserted s.file m (pageAddress p) record)
    (hFree : M.entries.Perm
      ((List.range s.numPages).map
        (fun q => (Page.freeSpace m (pageAddress q), q)))) :
    Added s (s.withPage m M)
      ⟨p, Page.numSlots s.file (pageAddress p)⟩ record := by
  refine ⟨hGood.withPage hPage.outside hPage.good hFree,
    ?_, ?_, ?_, hPage.data⟩
  · intro hLive
    exact absurd hLive.2.1 (lt_irrefl _)
  · intro rid
    by_cases hEq : rid.pageID = p
    · subst hEq
      constructor
      · intro hLive
        rcases hPage.only _ hLive.2 with hNew | hOld
        · left
          cases rid
          simp_all
        · exact Or.inr ⟨hIn, hOld⟩
      · rintro (hNew | hOld)
        · rw [hNew]
          exact ⟨hIn, hPage.new⟩
        · exact ⟨hIn, (hPage.kept _ hOld.2).live⟩
    · rw [hGood.live_of_local hPage.outside hEq]
      constructor
      · exact Or.inr
      · rintro (hNew | hOld)
        · rw [hNew] at hEq
          exact absurd rfl hEq
        · exact hOld
  · intro rid hLive
    by_cases hEq : rid.pageID = p
    · subst hEq
      exact kept_of_page (hPage.kept _ hLive.2)
    · exact hGood.kept_of_local hPage.outside hEq hLive

/- A removal on one page takes one record from the file. -/
theorem Good.removed
    (hGood : Good s)
    {rid : DmsRecordID}
    (hPage : Page.Dropped s.file m (pageAddress rid.pageID)
      rid.slotID)
    (hFree : M.entries.Perm
      ((List.range s.numPages).map
        (fun q => (Page.freeSpace m (pageAddress q), q)))) :
    Removed s (s.withPage m M) rid := by
  have hSlot : ∀ r : DmsRecordID, r.pageID = rid.pageID →
      (r ≠ rid ↔ r.slotID ≠ rid.slotID) := by
    intro r hEq
    cases r
    cases rid
    simp_all
  refine ⟨hGood.withPage hPage.outside hPage.good hFree,
    ?_, ?_⟩
  · intro r
    by_cases hEq : r.pageID = rid.pageID
    · unfold Live
      rw [hSlot r hEq, hEq]
      have hOnly := hPage.only r.slotID
      constructor
      · intro hLive
        exact ⟨(hOnly.mp hLive.2).1, hLive.1,
          (hOnly.mp hLive.2).2⟩
      · intro hLive
        exact ⟨hLive.2.1, hOnly.mpr ⟨hLive.1, hLive.2.2⟩⟩
    · rw [hGood.live_of_local hPage.outside hEq]
      constructor
      · intro hLive
        exact ⟨fun hSame => hEq (by rw [hSame]), hLive⟩
      · exact fun hLive => hLive.2
  · intro r hNe hLive
    by_cases hEq : r.pageID = rid.pageID
    · apply kept_of_page
      rw [hEq]
      exact hPage.kept _ ((hSlot r hEq).mp hNe)
        (hEq ▸ hLive.2)
    · exact hGood.kept_of_local hPage.outside hEq hLive

/- Reorganising a page without live slots. -/
theorem Good.recovered
    (hGood : Good s)
    (hIn : p < s.numPages)
    (hNone : ∀ k, ¬ Page.Live s.file (pageAddress p) k) :
    Unchanged s (s.withPage
      (Page.recoverSpace s.file (pageAddress p))
      s.freeSpaceMap) := by
  have hPage := (hGood.page p hIn).recoverSpace hNone
  refine ⟨hGood.withPage hPage.2.2.1 hPage.1 ?_, ?_, ?_⟩
  · have hFree : (List.range s.numPages).map
        (fun q => (Page.freeSpace
          (Page.recoverSpace s.file (pageAddress p))
          (pageAddress q), q)) =
        (List.range s.numPages).map
          (fun q => (Page.freeSpace s.file
            (pageAddress q), q)) := by
      apply List.map_congr_left
      intro q _
      by_cases hEq : q = p
      · rw [hEq, hPage.2.2.2.2]
      · rw [freeSpace_of_local hPage.2.2.1 hEq]
    rw [hFree]
    exact hGood.free
  · intro rid
    by_cases hEq : rid.pageID = p
    · subst hEq
      constructor
      · intro hLive
        exact absurd hLive.2 (hPage.2.1 _)
      · intro hLive
        exact absurd hLive.2 (hNone _)
    · exact hGood.live_of_local hPage.2.2.1 hEq
  · intro rid hLive
    have hEq : rid.pageID ≠ p := by
      intro hEq
      subst hEq
      exact hNone _ hLive.2
    exact hGood.kept_of_local hPage.2.2.1 hEq hLive

end OnePage

------------------------------------------------------------
-- Extension
------------------------------------------------------------

/- New page headers lie inside the new pages. -/
theorem initPages_of_disjoint
    (m : Memory)
    (data n : Nat)
    {x : Nat}
    (hDisjoint : x < data ∨ data + n * dmsPageSize ≤ x) :
    initPages m data n x = m x := by
  induction n with
  | zero => rfl
  | succ n ih =>
      simp only [dmsPageSize, Nat.succ_mul, ← Nat.add_assoc]
        at ih hDisjoint
      unfold initPages Page.initHeader
      rw [Memory.copy_of_disjoint _ _ _ _ _ (by
        simp only [sizeofPageHeader, dmsPageSize]
        omega)]
      exact ih (by omega)

/- Every new page is a fresh one. -/
theorem initPages_page
    (m : Memory)
    (data : Nat)
    {n i : Nat}
    (hPage : i < n) :
    Page.Fresh (initPages m data n)
      (data + i * dmsPageSize) := by
  induction n with
  | zero => omega
  | succ n ih =>
      by_cases hLast : i = n
      · rw [hLast, initPages]
        exact Page.fresh_initHeader _ _
      · -- the last header is written behind page `i`
        apply (ih (by omega)).frame
        apply Memory.Same.symm
        apply Memory.same_copy_of_disjoint
        left
        simp only [dmsPageSize]
        omega

theorem perm_addPages
    (M : MultiMap Nat Nat)
    (base n : Nat) :
    (addPages M base n).entries.Perm
      (M.entries ++ (List.range n).map
        (fun i => (dmsPageSize - sizeofPageHeader,
          (i + base) % 4294967296))) := by
  induction n with
  | zero => simp [addPages]
  | succ n ih =>
      rw [List.range_succ, List.map_append, ← List.append_assoc]
      apply (MultiMap.perm_insert _ _ _).trans
      apply (ih.cons _).trans
      exact (List.perm_append_singleton _ _).symm

/- The state after a successful extension. -/
def extended (s : DmsFile) : DmsFile :=
  (s.grow dmsFileSegmentSize).addSegment s.fileSize

theorem dmsFileSegmentSize_pos : 0 < dmsFileSegmentSize := by
  decide

theorem mapSegment_eq
    {offset : Nat}
    (hInside : offset + dmsFileSegmentSize ≤ s.fileSize) :
    s.mapSegment offset none =
      (edbOk, s.addSegment offset) := by
  unfold mapSegment
  rw [ossMmapFileMap_inside (by decide) hInside]

theorem extendSegment_success
    (s : DmsFile) :
    s.extendSegment .success = (edbOk, s.extended) := by
  have hExtend : s.extendFile dmsFileSegmentSize none =
      (edbOk, s.grow dmsFileSegmentSize) := by
    rw [extendFile, if_neg (by decide)]
  simp only [extendSegment, hExtend]
  exact mapSegment_eq (le_refl _)

/- Old bytes behind the file header survive an extension. -/
theorem same_extended
    (s : DmsFile)
    {a n : Nat}
    (hLow : dmsFileHeaderSize ≤ a)
    (hHigh : a + n ≤ s.fileSize) :
    Memory.Same s.file a s.extended.file a n := by
  intro i hi
  simp only [dmsFileHeaderSize] at hLow
  simp only [extended, addSegment, grow]
  rw [Memory.setWord_of_disjoint _ _ _ (by omega),
    initPages_of_disjoint _ _ _ (by omega),
    Memory.fill_of_disjoint _ _ _ _ (by omega)]

/- The pages of the new segment are fresh. -/
theorem fresh_extended
    (s : DmsFile)
    (hSized : dmsFileHeaderSize ≤ s.fileSize)
    {i : Nat}
    (hPage : i < dmsPagesPerSegment) :
    Page.Fresh s.extended.file
      (s.fileSize + i * dmsPageSize) := by
  apply (initPages_page
    (s.file.fill s.fileSize dmsFileSegmentSize 0)
    s.fileSize hPage).frame
  apply Memory.Same.symm
  apply Memory.same_setWord_of_disjoint
  right
  simp only [dmsFileHeaderSize] at hSized
  omega

theorem Layout.page_le
    (hLayout : Layout s)
    {p : Nat}
    (hPage : p < s.numPages) :
    pageAddress p + dmsPageSize ≤ s.fileSize := by
  rw [hLayout.size]
  simp only [numPages, pageAddress, segmentOffset,
    dmsPagesPerSegment, dmsFileSegmentSize, dmsPageSize] at *
  omega

theorem Layout.same_page_extended
    (hLayout : Layout s)
    {p : Nat}
    (hPage : p < s.numPages) :
    Memory.Same s.file (pageAddress p) s.extended.file
      (pageAddress p) dmsPageSize := by
  apply same_extended
  · simp only [pageAddress]
    omega
  · exact hLayout.page_le hPage

theorem numPages_extended
    (s : DmsFile) :
    s.extended.numPages =
      s.numPages + dmsPagesPerSegment := by
  simp [extended, addSegment, grow, numPages, Nat.add_mul]

/- The pages of the new segment. -/
theorem Layout.new_page
    (hLayout : Layout s)
    {p : Nat}
    (hOld : s.numPages ≤ p)
    (hPage : p < s.extended.numPages) :
    Page.Fresh s.extended.file (pageAddress p) := by
  rw [numPages_extended] at hPage
  have hAddress : pageAddress p =
      s.fileSize + (p - s.numPages) * dmsPageSize := by
    rw [hLayout.size]
    simp only [numPages, pageAddress, segmentOffset,
      dmsPagesPerSegment, dmsFileSegmentSize, dmsPageSize,
      dmsFileHeaderSize] at *
    omega
  have hSized : dmsFileHeaderSize ≤ s.fileSize := by
    rw [hLayout.size, segmentOffset]
    omega
  rw [hAddress]
  exact s.fresh_extended hSized (by omega)

theorem Layout.extended
    (hLayout : Layout s)
    (hMore : s.body.length + 1 < maxSegments) :
    Layout s.extended := by
  have hLength : s.extended.body.length =
      s.body.length + 1 := by
    simp [DmsFile.extended, addSegment, grow]
  refine ⟨hLayout.mapped, ?_, ?_, ?_, ?_⟩
  · rw [hLength, List.range_succ, List.map_append,
      ← hLayout.body]
    simp [DmsFile.extended, addSegment, grow, hLayout.size]
  · rw [hLength]
    simp only [DmsFile.extended, addSegment, grow,
      hLayout.size, segmentOffset, Nat.succ_mul,
      ← Nat.add_assoc]
  · rw [numPages_extended]
    have hSize := hLayout.size
    have hBound := hLayout.numPages_lt
    have hCount := hLayout.count
    simp only [headerSize, dmsInvalidPageID, segmentOffset,
      dmsFileHeaderSize] at hCount hBound hSize
    simp only [DmsFile.extended, addSegment, grow, headerSize]
    have hOld : Memory.word (initPages
        (s.file.fill s.fileSize dmsFileSegmentSize 0)
        s.fileSize dmsPagesPerSegment) 4 = s.file.word 4 := by
      apply Memory.word_congr
      intro i hi
      rw [initPages_of_disjoint _ _ _ (by omega),
        Memory.fill_of_disjoint _ _ _ _ (by omega)]
    rw [hOld, hCount, Memory.word_setWord]
    apply Nat.mod_eq_of_lt
    simp only [numPages, dmsPagesPerSegment, maxSegments]
      at *
    omega
  · rw [hLength]
    exact hMore

/- An extension adds pages and touches no record. -/
theorem Good.extended
    (hGood : Good s)
    (hMore : s.body.length + 1 < maxSegments) :
    Unchanged s s.extended := by
  have hLayout := hGood.toLayout.extended hMore
  have hCount := numPages_extended s
  have hSame : ∀ p < s.numPages,
      Memory.Same s.file (pageAddress p) s.extended.file
        (pageAddress p) dmsPageSize :=
    fun p hp => hGood.same_page_extended hp
  have hPage : ∀ p < s.extended.numPages,
      Page.Good s.extended.file (pageAddress p) := by
    intro p hp
    by_cases hOld : p < s.numPages
    · exact (hGood.page p hOld).frame (hSame p hOld)
    · exact (hGood.new_page (by omega) hp).good
  have hLive : ∀ rid, s.extended.Live rid ↔ s.Live rid := by
    intro rid
    by_cases hOld : rid.pageID < s.numPages
    · have hFrame := (hGood.page _ hOld).shape.live_frame
        (hSame _ hOld) rid.slotID
      constructor
      · intro hl
        exact ⟨hOld, hFrame.mp hl.2⟩
      · intro hl
        exact ⟨by rw [hCount]; omega, hFrame.mpr hl.2⟩
    · constructor
      · intro hl
        have hNew := hGood.new_page (by omega) hl.1
        exact absurd hl.2 (hNew.none _)
      · intro hl
        exact absurd hl.1 hOld
  have hFree : s.extended.freeSpaceMap.entries.Perm
      ((List.range s.extended.numPages).map
        (fun p => (Page.freeSpace s.extended.file
          (pageAddress p), p))) := by
    have hSize : s.freeSpaceMap.size = s.numPages := by
      simpa [MultiMap.size] using hGood.free.length_eq
    rw [hCount, List.range_add, List.map_append]
    apply (perm_addPages _ _ _).trans
    apply List.Perm.append
    · apply hGood.free.trans
      apply List.Perm.of_eq
      apply List.map_congr_left
      intro p hp
      have hField := Page.Good.field_frame
        (hSame p (List.mem_range.mp hp)) (d := 20) (by decide)
      exact congrArg (fun v => (v, p)) hField.symm
    · apply List.Perm.of_eq
      rw [List.map_map]
      apply List.map_congr_left
      intro i hi
      have hIn := List.mem_range.mp hi
      have hNew := hGood.new_page (p := s.numPages + i)
        (by omega) (by omega)
      have hBound := hLayout.numPages_lt
      simp only [dmsInvalidPageID] at hBound
      simp only [Function.comp, hNew.free, grow, hSize]
      rw [Nat.add_comm, Nat.mod_eq_of_lt (by omega)]
  refine ⟨⟨hLayout, hPage, hFree⟩, hLive, ?_⟩
  intro rid hl
  exact hGood.kept_of_same hl (hSame _ hl.1)

------------------------------------------------------------
-- Insertion
------------------------------------------------------------

section Insertion

variable {record : BSONObj} {p : Nat}

theorem Good.mem_free
    (hGood : Good s)
    {e : Nat × Nat} :
    e ∈ s.freeSpaceMap.entries ↔
      e.2 < s.numPages ∧
        e.1 = Page.freeSpace s.file (pageAddress e.2) := by
  rw [hGood.free.mem_iff, List.mem_map]
  constructor
  · rintro ⟨q, hq, rfl⟩
    exact ⟨List.mem_range.mp hq, rfl⟩
  · rintro ⟨hq, hFree⟩
    exact ⟨e.2, List.mem_range.mpr hq, by rw [← hFree]⟩

/- The page that the search finds has enough free space. -/
theorem Good.findPage_cases
    (hGood : Good s)
    (n : Nat) :
    (s.findPage n = dmsInvalidPageID ∧
        ∀ q < s.numPages,
          Page.freeSpace s.file (pageAddress q) ≤ n) ∨
      (s.findPage n < s.numPages ∧
        n < Page.freeSpace s.file
          (pageAddress (s.findPage n))) := by
  unfold findPage
  cases hBound : s.freeSpaceMap.upperBound n with
  | none =>
      left
      refine ⟨rfl, ?_⟩
      intro q hq
      exact MultiMap.upperBound_none hBound
        (Page.freeSpace s.file (pageAddress q), q)
        (hGood.mem_free.mpr ⟨hq, rfl⟩)
  | some e =>
      right
      have hFound := MultiMap.upperBound_some hBound
      have hEntry := hGood.mem_free.mp hFound.1
      exact ⟨hEntry.1, hEntry.2 ▸ hFound.2⟩

/-
  An insertion of the record would reorganise a page that
  has live records.
-/
def Reorganises
    (s : DmsFile)
    (record : BSONObj) : Prop :=
  ∃ page,
    s.pageToOffset (s.findPage record.length) = some page ∧
      needsRecover s.file page record.length = true ∧
      ∃ k, Page.Live s.file page k

/- Free space of a page after an insertion of `n` bytes. -/
def remaining (m : Memory) (page n : Nat) : Nat :=
  ofSigned (Page.freeSpace m page +
    -(n + sizeofSlot + sizeofRecord : Int))

/- What the write of a record returns. -/
theorem insertRecord_map
    {page : Nat}
    (hShape : Page.Shape s.file page)
    (hRoom : Page.Room s.file page record.length)
    (rc : Int) :
    s.insertRecord page p record rc =
      (BSONObj.ofData (writeRecord s.file page record)
        (page + offsetData s.file page record.length +
          sizeofRecord)).map (fun _ =>
        ⟨rc, s.withPage
          (Page.inserted s.file page record
            (remaining s.file page record.length))
          ((s.freeSpaceMap.eraseFirst
            (Page.freeSpace s.file page)
            (fun q => decide (q = p))).insert
              (remaining s.file page record.length) p),
          some (page + offsetData s.file page record.length +
            sizeofRecord,
            ⟨p, Page.numSlots s.file page⟩)⟩) := by
  have hCount : Page.numSlots
      (writeRecord s.file page record) page =
        Page.numSlots s.file page :=
    Page.word_writeRecord hShape hRoom (by decide)
  have hRecord : Page.freeSpace
      (writeRecord s.file page record) page =
        Page.freeSpace s.file page :=
    Page.word_writeRecord hShape hRoom (by decide)
  have hFree : Page.freeSpace
      (writeMetadata (writeRecord s.file page record) page
        (offsetData s.file page record.length)) page =
          Page.freeSpace s.file page := by
    rw [← hRecord]
    simp (disch := omega) only [Page.freeSpace, writeMetadata,
      Memory.word_setWord_of_disjoint]
  cases hData : BSONObj.ofData
      (writeRecord s.file page record)
      (page + offsetData s.file page record.length +
        sizeofRecord) with
  | error e =>
      simp only [insertRecord, hData, bind, Except.bind,
        Except.map]
  | ok o =>
      simp only [insertRecord, hData, bind, Except.bind, pure,
        Except.pure, Except.map, updateFreeSpace, hCount,
        hFree, withPage, Page.inserted, remaining]

/- The write of a record that has its length word returns. -/
theorem insertRecord_valid
    {page : Nat}
    (hShape : Page.Shape s.file page)
    (hRoom : Page.Room s.file page record.length)
    (hFour : 4 ≤ record.length)
    (hValid : record.isValid = true)
    (rc : Int) :
    s.insertRecord page p record rc = .ok
      ⟨rc, s.withPage
        (Page.inserted s.file page record
          (remaining s.file page record.length))
        ((s.freeSpaceMap.eraseFirst
          (Page.freeSpace s.file page)
          (fun q => decide (q = p))).insert
            (remaining s.file page record.length) p),
        some (page + offsetData s.file page record.length +
          sizeofRecord,
          ⟨p, Page.numSlots s.file page⟩)⟩ := by
  have hData : BSONObj.ofData
      (writeRecord s.file page record)
      (page + offsetData s.file page record.length +
        sizeofRecord) =
        .ok ⟨writeRecord s.file page record,
          page + offsetData s.file page record.length +
            sizeofRecord⟩ :=
    BSONObj.ofData_of_same hFour hValid
      (Memory.same_copy _ _ _ _ _).symm
  rw [insertRecord_map hShape hRoom, hData]
  rfl

/- The write of a well-formed record returns. -/
theorem insertRecord_eq
    {page : Nat}
    (hShape : Page.Shape s.file page)
    (hRoom : Page.Room s.file page record.length)
    (hForm : record.WellFormed)
    (rc : Int) :
    s.insertRecord page p record rc = .ok
      ⟨rc, s.withPage
        (Page.inserted s.file page record
          (remaining s.file page record.length))
        ((s.freeSpaceMap.eraseFirst
          (Page.freeSpace s.file page)
          (fun q => decide (q = p))).insert
            (remaining s.file page record.length) p),
        some (page + offsetData s.file page record.length +
          sizeofRecord,
          ⟨p, Page.numSlots s.file page⟩)⟩ := by
  have hLength := hForm.length_eq
  exact insertRecord_valid hShape hRoom (by omega)
    hForm.isValid_eq_true rc

/- A page with room takes the record. -/
theorem Good.insertRecord
    (hGood : Good s)
    (hIn : p < s.numPages)
    (hRoom : Page.Room s.file (pageAddress p) record.length)
    (hForm : record.WellFormed)
    (rc : Int) :
    ∃ t rid,
      s.insertRecord (pageAddress p) p record rc =
        .ok ⟨rc, t, some ((t.object rid).objdata, rid)⟩ ∧
      Added s t rid record ∧ t.body = s.body := by
  have hPage := hGood.page p hIn
  have hLength := hForm.length_eq
  simp only [bsonObjMaxInternalSize] at hLength
  have hInserted := hPage.insert hRoom hForm
    (remaining s.file (pageAddress p) record.length)
  have hHeader := @Page.inserted_header s.file (pageAddress p)
    record (remaining s.file (pageAddress p) record.length)
    hPage.shape hRoom
  have hWords := @Page.inserted_new s.file (pageAddress p) record
    (remaining s.file (pageAddress p) record.length)
    hPage.shape hRoom (by omega)
  have hFree := MultiMap.perm_replace s.freeSpaceMap
    (g := fun q => Page.freeSpace
      (Page.inserted s.file (pageAddress p) record
        (remaining s.file (pageAddress p) record.length))
      (pageAddress q))
    hGood.free hIn (by
      intro q _ hNe
      exact freeSpace_of_local hInserted.outside hNe)
  have hSmall : remaining s.file (pageAddress p)
      record.length < 4294967296 :=
    ofSigned_lt _
  simp only [hHeader.2.2.2.2, Nat.mod_eq_of_lt hSmall]
    at hFree
  refine ⟨_, ⟨p, Page.numSlots s.file (pageAddress p)⟩, ?_,
    hGood.added hIn hInserted hFree, rfl⟩
  rw [insertRecord_eq hPage.shape hRoom hForm]
  have hObject : ∀ M, ((s.withPage
      (Page.inserted s.file (pageAddress p) record
        (remaining s.file (pageAddress p) record.length))
      M).object ⟨p, Page.numSlots s.file
        (pageAddress p)⟩).objdata =
      pageAddress p + offsetData s.file (pageAddress p)
        record.length + sizeofRecord := by
    intro M
    rw [← hWords.1]
    rfl
  rw [hObject]

/- Room is what the check for free space asks for. -/
theorem room_of_noRoom
    {m : Memory}
    {page n : Nat}
    (hShape : Page.Shape m page)
    (hCheck : noRoom m page n = false) :
    Page.Room m page n := by
  have hOrder := hShape.room
  have hBound := hShape.bound
  simp only [noRoom, decide_eq_false_iff_not, not_or,
    Nat.not_lt] at hCheck
  simp only [dmsPageSize] at hBound
  rw [subWord_of_le hOrder (by omega)] at hCheck
  unfold Page.Room
  omega

/- How an insertion that returns has ended. -/
inductive InsertOutcome
    (s : DmsFile)
    (record : BSONObj) :
    InsertResult → Prop
| added
    {t : DmsFile}
    {rid : DmsRecordID}
    (hAdded : Added s t rid record) :
    InsertOutcome s record
      ⟨edbOk, t, some ((t.object rid).objdata, rid)⟩
| refused
    {t : DmsFile}
    {rc : Int}
    (hCode : rc ≠ edbOk)
    (hSame : Unchanged s t) :
    InsertOutcome s record ⟨rc, t, none⟩

theorem InsertOutcome.after
    {r : InsertResult}
    (hGood : Good s)
    (hFirst : Unchanged s t)
    (hSecond : InsertOutcome t record r) :
    InsertOutcome s record r := by
  cases hSecond with
  | added hAdded => exact .added (hFirst.added hGood hAdded)
  | refused hCode hSame =>
      exact .refused hCode (hFirst.trans hGood hSame)

/- The file after step 3, its page reorganised or not. -/
def prepared
    (s : DmsFile)
    (page n : Nat) : DmsFile :=
  if needsRecover s.file page n then
    { s with file := Page.recoverSpace s.file page }
  else s

theorem prepared_body
    (s : DmsFile)
    (page n : Nat) :
    (s.prepared page n).body = s.body := by
  unfold prepared
  split <;> rfl

/- The steps of an insertion on a mapped page. -/
theorem insertPage_eq
    {page : Nat}
    (hOffset : s.pageToOffset p = some page)
    (rc : Int) :
    s.insertPage p record rc =
      if Page.magic s.file page ≠ dmsPageMagic then
        .ok ⟨edbSys, s, none⟩
      else if noRoom (s.prepared page record.length).file page
          record.length then
        .ok ⟨edbSys, s.prepared page record.length, none⟩
      else
        (s.prepared page record.length).insertRecord page p
          record rc := by
  unfold insertPage
  simp only [hOffset]
  rfl

/- Insertion on a page that need not be reorganised. -/
theorem Good.insertPage
    (hGood : Good s)
    (hIn : p < s.numPages)
    (hForm : record.WellFormed)
    (hStill : needsRecover s.file (pageAddress p)
        record.length = true →
      ∀ k, ¬ Page.Live s.file (pageAddress p) k) :
    ∃ r, s.insertPage p record edbOk = .ok r ∧
      r.state.body = s.body ∧ InsertOutcome s record r := by
  have hSame : Unchanged s
      (s.prepared (pageAddress p) record.length) := by
    unfold prepared
    split
    · rename_i hNeed
      exact hGood.recovered hIn (hStill hNeed)
    · exact Unchanged.refl hGood
  have hBody := s.prepared_body (pageAddress p) record.length
  have hIn' : p <
      (s.prepared (pageAddress p) record.length).numPages := by
    unfold numPages
    rw [hBody]
    exact hIn
  rw [insertPage_eq (hGood.pageToOffset_of_lt hIn),
    if_neg (not_not_intro (hGood.page p hIn).magic)]
  by_cases hCheck : noRoom
      (s.prepared (pageAddress p) record.length).file
      (pageAddress p) record.length = true
  · rw [if_pos hCheck]
    exact ⟨_, rfl, hBody, .refused (by decide) hSame⟩
  · rw [if_neg hCheck]
    have hRoom := room_of_noRoom (hSame.good.page p hIn').shape
      (Bool.eq_false_iff.mpr hCheck)
    rcases hSame.good.insertRecord hIn' hRoom hForm edbOk with
      ⟨u, rid, hResult, hAdded, hBody'⟩
    exact ⟨_, hResult, hBody'.trans hBody,
      .added (hSame.added hGood hAdded)⟩

/-
  After an extension that was needed, the page found is a
  new one.
-/
theorem Good.findPage_extended
    (hGood : Good s)
    (hMore : s.body.length + 1 < maxSegments)
    {n : Nat}
    (hSmall : n < dmsPageSize - sizeofPageHeader)
    (hFull : ∀ q < s.numPages,
      Page.freeSpace s.file (pageAddress q) ≤ n) :
    s.numPages ≤ s.extended.findPage n ∧
      s.extended.findPage n < s.extended.numPages := by
  have hNext := (hGood.extended hMore).good
  have hCount := numPages_extended s
  simp only [dmsPagesPerSegment] at hCount
  rcases hNext.findPage_cases n with
    ⟨_, hNone⟩ | ⟨hIn, hFree⟩
  · have hFirst := hNone s.numPages (by omega)
    rw [(hGood.new_page (le_refl _) (by omega)).free] at hFirst
    omega
  · refine ⟨?_, hIn⟩
    by_contra hOld
    have hField : Page.freeSpace s.extended.file
        (pageAddress (s.extended.findPage n)) =
          Page.freeSpace s.file
            (pageAddress (s.extended.findPage n)) :=
      Page.Good.field_frame
        (hGood.same_page_extended (by omega)) (by decide)
    rw [hField] at hFree
    have hLe := hFull (s.extended.findPage n) (by omega)
    omega

/- The loop on a page it finds at once. -/
theorem insertLoop_found
    {exts : List Extension}
    {rc : Int}
    (hFound : s.findPage record.length ≠ dmsInvalidPageID) :
    insertLoop record exts rc s =
      s.insertPage (s.findPage record.length) record rc := by
  cases exts with
  | nil => simp only [insertLoop, if_neg hFound]
  | cons ext exts => simp only [insertLoop, if_neg hFound]

/- The loop after an extension that succeeds. -/
theorem insertLoop_extended
    {ext : Extension}
    {exts : List Extension}
    {rc : Int}
    (hInvalid : s.findPage record.length = dmsInvalidPageID)
    (hExtend : s.extendSegment ext = (edbOk, t)) :
    insertLoop record (ext :: exts) rc s =
      insertLoop record exts edbOk t := by
  simp only [insertLoop, if_pos hInvalid, hExtend]
  rfl

/- An insertion that needed no extension ignores the list. -/
theorem insert_of_nil
    {r : InsertResult}
    (hResult : s.insert [] record = .ok r)
    (exts : List Extension) :
    s.insert exts record = .ok r := by
  unfold insert at hResult ⊢
  by_cases hFound :
      s.findPage record.length = dmsInvalidPageID
  · simp [insertLoop, hFound] at hResult
  · rw [insertLoop_found hFound] at hResult ⊢
    exact hResult

/-
  The record is small enough for a new page, its insertion
  reorganises no live records, and there is a page number
  left for one more segment.
-/
structure Placeable
    (s : DmsFile)
    (record : BSONObj) : Prop where
  small : record.length < dmsPageSize - sizeofPageHeader
  still : ¬ s.Reorganises record
  bound : s.body.length + 1 < maxSegments

/- The loop after an extension that fails. -/
theorem insertLoop_failed
    {ext : Extension}
    {exts : List Extension}
    {rc rc' : Int}
    (hInvalid : s.findPage record.length = dmsInvalidPageID)
    (hExtend : s.extendSegment ext = (rc', t))
    (hCode : rc' ≠ 0) :
    insertLoop record (ext :: exts) rc s =
      .ok ⟨rc', t, none⟩ := by
  simp only [insertLoop, if_pos hInvalid, hExtend]
  rw [if_pos hCode]

/-
  An extension that succeeds or fails before the first byte
  is written.
-/
def Extension.Clean : Extension → Prop
| .success => True
| .sizeFails _ => True
| .writeFails written _ => written = 0
| .statFails _ => False
| .mapFails _ => False

theorem grow_zero
    (s : DmsFile) :
    s.grow 0 = s := by
  have hFill : s.file.fill s.fileSize 0 0 = s.file := by
    funext x
    exact Memory.fill_of_disjoint _ _ _ _ (by omega)
  simp [grow, hFill]

/- A clean extension succeeds or changes nothing. -/
theorem Extension.Clean.extendSegment
    {ext : Extension}
    (hClean : ext.Clean)
    (s : DmsFile) :
    s.extendSegment ext = (edbOk, s.extended) ∨
      ∃ rc, rc ≠ 0 ∧ s.extendSegment ext = (rc, s) := by
  cases ext with
  | success => exact Or.inl (extendSegment_success s)
  | sizeFails errno =>
      right
      have hPositive := errno.2
      exact ⟨errno.1, by omega, rfl⟩
  | writeFails written errno =>
      right
      have hPositive := errno.2
      have hNone : written = 0 := hClean
      refine ⟨errno.1, by omega, ?_⟩
      simp only [DmsFile.extendSegment, extendFile, hNone,
        Nat.zero_min, grow_zero]
      rw [if_neg (by decide)]
  | statFails errno => exact absurd hClean id
  | mapFails errno => exact absurd hClean id

/-
  Inserting a placeable record with a clean extension at hand
  ends, and adds the record or nothing.
-/
theorem Good.insert
    (hGood : Good s)
    (hForm : record.WellFormed)
    (hPlace : s.Placeable record)
    {ext : Extension}
    (hClean : ext.Clean)
    (exts : List Extension) :
    ∃ r, s.insert (ext :: exts) record = .ok r ∧
      r.state.body.length ≤ s.body.length + 1 ∧
      InsertOutcome s record r := by
  rcases hPlace with ⟨hSmall, hStill, hMore⟩
  have hMax : ¬ dmsMaxRecord < record.length := by
    simp only [dmsMaxRecord, dmsPageSize, sizeofPageHeader,
      sizeofHeader, sizeofRecord, sizeofSlot] at *
    omega
  unfold DmsFile.insert
  rw [if_neg hMax]
  rcases hGood.findPage_cases record.length with
    ⟨hInvalid, hFull⟩ | ⟨hIn, _⟩
  · -- no page: extend, then take one of the new pages
    have hNext := (hGood.extended hMore).good
    have hNew := hGood.findPage_extended hMore hSmall hFull
    have hValid := hNext.numPages_lt
    rcases hClean.extendSegment s with
      hExtend | ⟨rc, hCode, hExtend⟩
    · rw [insertLoop_extended hInvalid hExtend,
        insertLoop_found (by omega)]
      rcases hNext.insertPage hNew.2 hForm (fun _ =>
          (hGood.new_page hNew.1 hNew.2).none) with
        ⟨r, hResult, hBody, hOutcome⟩
      refine ⟨r, hResult, ?_,
        hOutcome.after hGood (hGood.extended hMore)⟩
      rw [hBody]
      simp [DmsFile.extended, addSegment, grow]
    · rw [insertLoop_failed hInvalid hExtend hCode]
      exact ⟨_, rfl, Nat.le_succ _,
        .refused hCode (Unchanged.refl hGood)⟩
  · have hValid := hGood.numPages_lt
    rw [insertLoop_found (by omega)]
    have hNone : needsRecover s.file
        (pageAddress (s.findPage record.length))
          record.length = true →
        ∀ k, ¬ Page.Live s.file
          (pageAddress (s.findPage record.length)) k := by
      intro hNeed k hLive
      exact hStill ⟨_, hGood.pageToOffset_of_lt hIn, hNeed,
        k, hLive⟩
    rcases hGood.insertPage hIn hForm hNone with
      ⟨r, hResult, hBody, hOutcome⟩
    refine ⟨r, hResult, ?_, hOutcome⟩
    rw [hBody]
    omega

/- What an insertion does, however many extensions it had. -/
theorem Good.insert_of_call
    (hGood : Good s)
    (hForm : record.WellFormed)
    (hPlace : s.Placeable record)
    {exts : List Extension}
    (hClean : ∀ ext ∈ exts, ext.Clean)
    {r : InsertResult}
    (hCall : s.insert exts record = .ok r) :
    InsertOutcome s record r := by
  have hOne : ∃ ext exts', ext.Clean ∧
      s.insert (ext :: exts') record = .ok r := by
    cases exts with
    | nil => exact ⟨.success, [], trivial, insert_of_nil hCall _⟩
    | cons ext exts =>
        exact ⟨ext, exts, hClean ext List.mem_cons_self, hCall⟩
  rcases hOne with ⟨ext, exts', hFirst, hCall'⟩
  rcases hGood.insert hForm hPlace hFirst exts' with
    ⟨r', hResult, _, hOutcome⟩
  rw [hCall', Except.ok.injEq] at hResult
  rw [hResult]
  exact hOutcome

end Insertion

------------------------------------------------------------
-- Removal and Lookup
------------------------------------------------------------

section Lookup

variable {rid : DmsRecordID}

theorem searchSlot_of_live
    (hLive : s.Live rid) :
    s.searchSlot (pageAddress rid.pageID) rid =
      (edbOk, Page.slot s.file (pageAddress rid.pageID)
        rid.slotID) := by
  have hIn := hLive.2.1
  unfold searchSlot
  rw [if_neg (by omega)]

/- A live record is found with its own bytes. -/
theorem Good.find
    (hGood : Good s)
    (hLive : s.Live rid) :
    s.find rid = .ok (edbOk, some (s.object rid)) := by
  have hRecord := hGood.record hLive
  unfold DmsFile.find
  simp only [hGood.pageToOffset_of_lt hLive.1,
    searchSlot_of_live hLive]
  rw [if_neg (by simp), if_neg hLive.2.2,
    if_neg (by rw [hRecord.flag]; decide)]
  simp only [bind, Except.bind, pure, Except.pure]
  rw [show BSONObj.ofData s.file
    (pageAddress rid.pageID + Page.slot s.file
      (pageAddress rid.pageID) rid.slotID + sizeofRecord) =
    .ok (s.object rid) from (hGood.form hLive).ofData_eq]

/- The free-space map after a removal. -/
theorem Good.free_dropped
    (hGood : Good s)
    (hLive : s.Live rid)
    {free : Nat}
    (hSmall : free < 4294967296) :
    ((s.freeSpaceMap.eraseFirst
        (Page.freeSpace s.file (pageAddress rid.pageID))
        (fun q => decide (q = rid.pageID))).insert free
          rid.pageID).entries.Perm
      ((List.range s.numPages).map (fun q =>
        (Page.freeSpace (Page.dropped s.file
          (pageAddress rid.pageID) rid.slotID free)
          (pageAddress q), q))) := by
  have hPage := hGood.page _ hLive.1
  have hReplace := MultiMap.perm_replace s.freeSpaceMap
    (g := fun q => Page.freeSpace
      (Page.dropped s.file (pageAddress rid.pageID) rid.slotID
        free) (pageAddress q))
    hGood.free hLive.1 (by
      intro q _ hNe
      exact freeSpace_of_local
        (hPage.drop hLive.2 free).outside hNe)
  simp only [(Page.dropped_header
    (hPage.slot_ge hLive.2)).2.2.2.2,
    Nat.mod_eq_of_lt hSmall] at hReplace
  exact hReplace

/- Free space of a page after a removal from a slot. -/
def regained (m : Memory) (page slotID : Nat) : Nat :=
  ofSigned (Page.freeSpace m page +
    toSigned (Page.recordSize m
      (page + Page.slot m page slotID)))

/- What the removal of a record above the slot list does. -/
theorem remove_eq
    {page : Nat}
    (hOffset : s.pageToOffset rid.pageID = some page)
    (hLive : Page.Live s.file page rid.slotID)
    (hLow : sizeofPageHeader +
      Page.numSlots s.file page * sizeofSlot ≤
        Page.slot s.file page rid.slotID) :
    s.remove rid =
      (edbOk, s.withPage
        (Page.dropped s.file page rid.slotID
          (regained s.file page rid.slotID))
        ((s.freeSpaceMap.eraseFirst
          (Page.freeSpace s.file page)
          (fun q => decide (q = rid.pageID))).insert
            (regained s.file page rid.slotID)
            rid.pageID)) := by
  have hIn := hLive.1
  simp only [sizeofPageHeader, sizeofSlot] at hLow
  have hSearch : s.searchSlot page rid =
      (edbOk, Page.slot s.file page rid.slotID) := by
    rw [searchSlot, if_neg (by omega)]
  have hSize : Page.recordSize
      ((s.file.setWord (Page.slotAddress page rid.slotID)
          dmsSlotEmpty).setWord
        (page + Page.slot s.file page rid.slotID + 4)
          dmsRecordFlagDropped)
      (page + Page.slot s.file page rid.slotID) =
        Page.recordSize s.file
          (page + Page.slot s.file page rid.slotID) := by
    simp (disch := omega) only [Page.recordSize,
      Page.slotAddress, sizeofPageHeader, sizeofSlot,
      Memory.word_setWord_of_disjoint]
  have hFree : Page.freeSpace
      ((s.file.setWord (Page.slotAddress page rid.slotID)
          dmsSlotEmpty).setWord
        (page + Page.slot s.file page rid.slotID + 4)
          dmsRecordFlagDropped) page =
        Page.freeSpace s.file page := by
    simp (disch := omega) only [Page.freeSpace,
      Page.slotAddress, sizeofPageHeader, sizeofSlot,
      Memory.word_setWord_of_disjoint]
  unfold DmsFile.remove
  simp only [hOffset, hSearch]
  rw [if_neg (by simp), if_neg hLive.2]
  simp only [updateFreeSpace, hFree, hSize, withPage,
    Page.dropped, regained]

/- Removing a live record takes out that record alone. -/
theorem Good.remove
    (hGood : Good s)
    (hLive : s.Live rid) :
    ∃ t, s.remove rid = (edbOk, t) ∧ Removed s t rid ∧
      t.body = s.body := by
  have hPage := hGood.page _ hLive.1
  refine ⟨_, remove_eq (hGood.pageToOffset_of_lt hLive.1)
    hLive.2 (hPage.slot_ge hLive.2), ?_, rfl⟩
  apply hGood.removed (hPage.drop hLive.2 _)
  exact hGood.free_dropped hLive (ofSigned_lt _)

end Lookup

end DmsFile

end EmeraldDb
