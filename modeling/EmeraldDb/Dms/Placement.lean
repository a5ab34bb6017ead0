import EmeraldDb.Dms.Load
import EmeraldDb.Lib.Transition

/-
  Where the segments of the data file are mapped.

  A run is a sequence of insertions, attempts to extend the
  file, and stops inside an extension, each followed by a
  restart.  Without removals no page has a hole, so every
  insertion leaves the pages tight; if no extension ends
  between its first byte and its last statement, segment `i`
  is the `i`-th segment of the file.

  Key definitions include:
    * `DmsFile.Tight`
    * `DmsFile.StopPoint`
    * `DmsFile.PlacementStep`
    * `DmsFile.InPlace`

  Key results include:
    * `DmsFile.Good.insert_tight`
    * `DmsFile.segments_inPlace`
    * `DmsFile.segments_not_inPlace`
-/

namespace EmeraldDb

namespace DmsFile

variable {s t : DmsFile} {record : BSONObj} {p : Nat}

------------------------------------------------------------
-- Tight Pages
------------------------------------------------------------

/- No page has a hole between its records. -/
def Tight (s : DmsFile) : Prop :=
  ∀ p < s.numPages, Page.Tight s.file (pageAddress p)

/- A tight page is not reorganised. -/
theorem needsRecover_of_tight
    {m : Memory}
    {page n : Nat}
    (hPage : Page.Shape m page)
    (hTight : Page.Tight m page) :
    needsRecover m page n = false := by
  have hRoom := hPage.room
  have hBound := hPage.bound
  simp only [dmsPageSize] at hBound
  unfold Page.Tight at hTight
  have hFree : subWord (Page.freeOffset m page)
      (Page.slotOffset m page) = Page.freeSpace m page := by
    rw [subWord_of_le hRoom (by omega)]
    omega
  simp [needsRecover, hFree]

/- A tight page has at most a page's worth of free space. -/
theorem freeSpace_le_of_tight
    {m : Memory}
    {page : Nat}
    (hPage : Page.Shape m page)
    (hTight : Page.Tight m page) :
    Page.freeSpace m page ≤ dmsMaxRecord := by
  have hSlots := hPage.slots
  have hBound := hPage.bound
  unfold Page.Tight at hTight
  simp only [dmsMaxRecord, dmsPageSize, sizeofPageHeader,
    sizeofHeader, sizeofRecord, sizeofSlot] at *
  omega

/- Writing a record to a tight page. -/
theorem tight_inserted
    {m : Memory}
    {page : Nat}
    (hPage : Page.Shape m page)
    (hTight : Page.Tight m page)
    (hRoom : Page.Room m page record.length) :
    Page.Tight
      (Page.inserted m page record
        (remaining m page record.length)) page := by
  have hHeader := @Page.inserted_header m page record
    (remaining m page record.length) hPage hRoom
  have hOffset := hPage.offsetData_eq hRoom
  have hBound := hPage.bound
  have hRemaining : remaining m page record.length =
      Page.freeSpace m page -
        (record.length + sizeofSlot + sizeofRecord) := by
    unfold Page.Tight at hTight
    simp only [Page.Room, sizeofRecord, sizeofSlot,
      dmsPageSize] at hRoom hBound
    unfold remaining ofSigned
    simp only [sizeofRecord, sizeofSlot]
    omega
  unfold Page.Tight at hTight ⊢
  rw [hHeader.2.2.1, hHeader.2.2.2.1, hHeader.2.2.2.2,
    hRemaining]
  simp only [Page.Room, sizeofRecord, sizeofSlot, dmsPageSize]
    at *
  rw [Nat.mod_eq_of_lt (by omega)]
  omega

/- An insertion on a page of a tight file. -/
theorem Good.insertPage_tight
    (hGood : Good s)
    (hTight : Tight s)
    (hIn : p < s.numPages)
    (hForm : record.WellFormed) :
    ∃ r, s.insertPage p record edbOk = .ok r ∧
      Tight r.state := by
  have hPage := hGood.page p hIn
  have hStill := needsRecover_of_tight (n := record.length)
    hPage.shape (hTight p hIn)
  unfold DmsFile.insertPage
  simp only [hGood.pageToOffset_of_lt hIn, hStill,
    Bool.false_eq_true, if_false]
  rw [if_neg (by simp [hPage.magic])]
  by_cases hCheck : noRoom s.file (pageAddress p)
      record.length = true
  · rw [if_pos hCheck]
    exact ⟨_, rfl, hTight⟩
  · have hRoom := room_of_noRoom hPage.shape (by simpa using hCheck)
    have hLocal := (hPage.insert hRoom hForm
      (remaining s.file (pageAddress p)
        record.length)).outside
    rw [if_neg hCheck, insertRecord_eq hPage.shape hRoom hForm]
    refine ⟨_, rfl, ?_⟩
    intro q hq
    by_cases hEq : q = p
    · rw [hEq]
      exact tight_inserted hPage.shape (hTight p hIn) hRoom
    · exact (hTight q hq).frame (same_of_local hLocal hEq)

/- The pages of a new segment are tight. -/
theorem Good.extended_tight
    (hGood : Good s)
    (hTight : Tight s) :
    Tight s.extended := by
  intro q hq
  by_cases hOld : q < s.numPages
  · exact (hTight q hOld).frame
      (hGood.same_page_extended hOld)
  · exact (hGood.new_page (by omega) hq).tight

theorem InsertOutcome.good
    {r : InsertResult}
    (hOutcome : InsertOutcome s record r) :
    Good r.state := by
  cases hOutcome with
  | added hAdded => exact hAdded.good
  | refused _ hSame => exact hSame.good

/- A page that the search finds takes the whole record. -/
theorem Good.insertPage_found
    (hGood : Good s)
    (hTight : Tight s)
    (hForm : record.WellFormed)
    {rc : Int}
    (hCode : rc = edbOk ∨ dmsMaxRecord < record.length)
    (hFound : s.findPage record.length ≠ dmsInvalidPageID)
    {r : InsertResult}
    (hCall : s.insertPage (s.findPage record.length) record
      rc = .ok r) :
    Good r.state ∧ Tight r.state := by
  rcases hGood.findPage_cases record.length with
    ⟨hInvalid, _⟩ | ⟨hIn, hMore⟩
  · exact absurd hInvalid hFound
  have hPage := hGood.page _ hIn
  have hWhole := freeSpace_le_of_tight hPage.shape (hTight _ hIn)
  have hOk : rc = edbOk := by
    rcases hCode with hOk | hLarge
    · exact hOk
    · omega
  rw [hOk] at hCall
  have hStill : needsRecover s.file
      (pageAddress (s.findPage record.length))
        record.length = true →
      ∀ k, ¬ Page.Live s.file
        (pageAddress (s.findPage record.length)) k := by
    rw [needsRecover_of_tight hPage.shape (hTight _ hIn)]
    intro hNever
    simp at hNever
  rcases hGood.insertPage hIn hForm hStill with
    ⟨r', hResult, _, hOutcome⟩
  rcases hGood.insertPage_tight hTight hIn hForm with
    ⟨r'', hResult', hTight'⟩
  rw [hCall, Except.ok.injEq] at hResult hResult'
  exact ⟨hResult ▸ hOutcome.good, hResult' ▸ hTight'⟩

/-
  Insertion into a tight file: induction on the extensions,
  each of which adds a segment or ends the insertion.
-/
theorem Good.insertLoop_tight
    (hGood : Good s)
    (hTight : Tight s)
    (hForm : record.WellFormed)
    {exts : List Extension}
    (hClean : ∀ ext ∈ exts, ext.Clean)
    (hBound : s.body.length + exts.length < maxSegments)
    {rc : Int}
    (hCode : rc = edbOk ∨ dmsMaxRecord < record.length)
    {r : InsertResult}
    (hCall : insertLoop record exts rc s = .ok r) :
    Good r.state ∧ Tight r.state := by
  induction exts generalizing s rc with
  | nil =>
      by_cases hFound :
          s.findPage record.length = dmsInvalidPageID
      · simp [insertLoop, hFound] at hCall
      · rw [insertLoop_found hFound] at hCall
        exact hGood.insertPage_found hTight hForm hCode hFound
          hCall
  | cons ext exts ih =>
      by_cases hFound :
          s.findPage record.length = dmsInvalidPageID
      · rcases (hClean ext List.mem_cons_self).extendSegment
            s with
          hExtend | ⟨rc', hFail, hExtend⟩
        · rw [insertLoop_extended hFound hExtend] at hCall
          rw [List.length_cons] at hBound
          refine ih (hGood.extended (by omega)).good
            (hGood.extended_tight hTight) ?_ ?_ (Or.inl rfl)
            hCall
          · intro e he
            exact hClean e (List.mem_cons_of_mem ext he)
          · simp only [DmsFile.extended, addSegment, grow,
              List.length_append, List.length_singleton]
            omega
        · rw [insertLoop_failed hFound hExtend hFail,
            Except.ok.injEq] at hCall
          rw [← hCall]
          exact ⟨hGood, hTight⟩
      · rw [insertLoop_found hFound] at hCall
        exact hGood.insertPage_found hTight hForm hCode hFound
          hCall

theorem Good.insert_tight
    (hGood : Good s)
    (hTight : Tight s)
    (hForm : record.WellFormed)
    {exts : List Extension}
    (hClean : ∀ ext ∈ exts, ext.Clean)
    (hBound : s.body.length + exts.length < maxSegments)
    {r : InsertResult}
    (hCall : s.insert exts record = .ok r) :
    Good r.state ∧ Tight r.state := by
  unfold DmsFile.insert at hCall
  refine hGood.insertLoop_tight hTight hForm hClean hBound ?_
    hCall
  split
  · rename_i hLarge
    exact Or.inr hLarge
  · exact Or.inl rfl

------------------------------------------------------------
-- Runs
------------------------------------------------------------

/-
  Where the process stops inside an extension: that many
  bytes are appended, or the file is extended and that many
  page headers are copied, or the page count is updated.
-/
inductive StopPoint
| extending (written : Nat)
| copying (pages : Nat)
| counted

/- The file that a stop inside an extension leaves. -/
def stopAt (s : DmsFile) : StopPoint → DmsFile
| .extending written =>
    s.grow (min written dmsFileSegmentSize)
| .copying pages =>
    { s.grow dmsFileSegmentSize with
      file := initPages (s.grow dmsFileSegmentSize).file
        s.fileSize (min pages dmsPagesPerSegment) }
| .counted =>
    (s.grow dmsFileSegmentSize).addSegment s.fileSize

inductive PlacementOp
| insert
    (exts : List Extension)
    (record : BSONObj)
| extendSegment (ext : Extension)
| stop
    (point : StopPoint)
    (creation : HeaderCreation)
    (failure : Nat → Option Errno)

inductive PlacementStep
    (h : List UInt8 → Nat) :
    DmsFile → PlacementOp → DmsFile → Prop
| insert
    {s : DmsFile}
    {exts : List Extension}
    {record : BSONObj}
    {r : InsertResult}
    (hCall : s.insert exts record = .ok r) :
    PlacementStep h s (.insert exts record) r.state
| extendSegment
    {s t : DmsFile}
    {ext : Extension}
    {rc : Int}
    (hCall : s.extendSegment ext = (rc, t)) :
    PlacementStep h s (.extendSegment ext) t
| stop
    {s t : DmsFile}
    {point : StopPoint}
    {creation : HeaderCreation}
    {failure : Nat → Option Errno}
    {mgr : IxmBucketManager}
    (hInit : DmsFile.init h creation failure
      (s.stopAt point).file (s.stopAt point).fileSize =
        .ok (edbOk, (t, mgr))) :
    PlacementStep h s (.stop point creation failure) t

/-
  The extension has not written a byte yet, or the page count
  is updated.
-/
def StopPoint.Clean : StopPoint → Prop
| .extending written => written = 0
| .copying _ => False
| .counted => True

/-
  Records are well formed, no extension ends between its
  first byte and its last statement, and there are page
  numbers left.
-/
def PlacementGuard (s : DmsFile) : PlacementOp → Prop
| .insert exts record =>
    record.WellFormed ∧ (∀ ext ∈ exts, ext.Clean) ∧
      s.body.length + exts.length < maxSegments
| .extendSegment ext =>
    ext.Clean ∧ s.body.length + 1 < maxSegments
| .stop point _ _ =>
    point.Clean ∧ s.body.length + 1 < maxSegments

/- Segment `i` is mapped at the `i`-th place of the file. -/
def InPlace (s : DmsFile) : Prop :=
  ∀ i data, s.body[i]? = some data →
    data = dmsFileHeaderSize + i * dmsFileSegmentSize

/- A load that succeeds maps every page where it was. -/
def ReloadsSame
    (h : List UInt8 → Nat)
    (s : DmsFile) : Prop :=
  ∀ creation failure t mgr,
    DmsFile.init h creation failure s.file s.fileSize =
      .ok (edbOk, (t, mgr)) →
    t.file = s.file ∧
      ∀ p, t.pageToOffset p = s.pageToOffset p

/- The state that the runs keep. -/
structure Placed (s : DmsFile) : Prop where
  good : Good s
  tight : Tight s

theorem Placed.created
    (file : Memory) :
    Placed (DmsFile.created file) := by
  refine ⟨good_created file, ?_⟩
  intro p hp
  exact absurd hp (Nat.not_lt_zero p)

/- A clean stop leaves the old file or the extended one. -/
theorem Placed.stopAt
    (hPlaced : Placed s)
    {point : StopPoint}
    (hClean : point.Clean)
    (hMore : s.body.length + 1 < maxSegments) :
    Placed (s.stopAt point) := by
  cases point with
  | extending written =>
      have hNone : written = 0 := hClean
      rw [DmsFile.stopAt, hNone, Nat.zero_min, grow_zero]
      exact hPlaced
  | copying pages => exact absurd hClean id
  | counted =>
      exact ⟨(hPlaced.good.extended hMore).good,
        hPlaced.good.extended_tight hPlaced.tight⟩

theorem Placed.restart
    (hPlaced : Placed s)
    {h : List UInt8 → Nat}
    {creation : HeaderCreation}
    {failure : Nat → Option Errno}
    {mgr : IxmBucketManager}
    (hInit : DmsFile.init h creation failure s.file
      s.fileSize = .ok (edbOk, (t, mgr))) :
    Placed t := by
  rcases hPlaced.good.restored_of_init hInit with
    ⟨_, hRestored, _⟩
  refine ⟨hRestored.good, ?_⟩
  intro p hp
  rw [hRestored.file]
  apply hPlaced.tight
  unfold numPages at hp ⊢
  rw [← hRestored.body]
  exact hp

theorem Placed.step
    (hPlaced : Placed s)
    {h : List UInt8 → Nat}
    {a : PlacementOp}
    (hStep : Guarded PlacementGuard (PlacementStep h) s a t) :
    Placed t := by
  rcases hStep with ⟨hGuard, hStep⟩
  cases hStep with
  | insert hCall =>
      rcases hGuard with ⟨hForm, hClean, hBound⟩
      rcases hPlaced.good.insert_tight hPlaced.tight hForm
          hClean hBound hCall with ⟨hGood, hTight⟩
      exact ⟨hGood, hTight⟩
  | extendSegment hCall =>
      rcases hGuard with ⟨hClean, hMore⟩
      rcases hClean.extendSegment s with
        hExtend | ⟨_, _, hExtend⟩
      · rw [hExtend, Prod.mk.injEq] at hCall
        rw [← hCall.2]
        exact ⟨(hPlaced.good.extended hMore).good,
          hPlaced.good.extended_tight hPlaced.tight⟩
      · rw [hExtend, Prod.mk.injEq] at hCall
        rw [← hCall.2]
        exact hPlaced
  | stop hInit =>
      exact (hPlaced.stopAt hGuard.1 hGuard.2).restart hInit

theorem Layout.inPlace
    (hLayout : Layout s) :
    InPlace s := by
  intro i data hSome
  rw [hLayout.body, List.getElem?_map] at hSome
  cases hRange : (List.range s.body.length)[i]? with
  | none => simp [hRange] at hSome
  | some j =>
      rw [hRange, Option.map_some, Option.some.injEq] at hSome
      have hIndex := List.getElem?_eq_some_iff.mp hRange
      rcases hIndex with ⟨hIn, hValue⟩
      rw [List.getElem_range] at hValue
      rw [← hSome, ← hValue]
      rfl

theorem Good.reloadsSame
    (hGood : Good s)
    (h : List UInt8 → Nat) :
    ReloadsSame h s := by
  intro creation failure t mgr hInit
  rcases hGood.restored_of_init hInit with
    ⟨_, hRestored, _⟩
  refine ⟨hRestored.file, ?_⟩
  intro p
  unfold pageToOffset getNumPages getNumSegments
  rw [hRestored.body]

/-
  In every state of a guarded run on a new file, segment `i`
  is at the `i`-th place.  A later load that succeeds finds
  every page where it was, and a load of at most 16 segments
  with distinct keys succeeds.
-/
theorem segments_inPlace
    (h : List UInt8 → Nat)
    (file : Memory)
    {s t : DmsFile}
    {mgr : IxmBucketManager}
    {as : List PlacementOp}
    (hInit : DmsFile.init h .success (fun _ => none) file 0 =
      .ok (edbOk, (s, mgr)))
    (hRun : Steps (Guarded PlacementGuard (PlacementStep h))
      s as t) :
    InPlace t ∧ ReloadsSame h t ∧
      (t.body.length ≤ 16 →
        DistinctKeys t.file t.body.length →
        ∀ creation, ∃ u mgr',
          DmsFile.init h creation (fun _ => none) t.file
            t.fileSize = .ok (edbOk, (u, mgr'))) := by
  rw [init_created] at hInit
  simp only [Except.ok.injEq, Prod.mk.injEq, true_and]
    at hInit
  have hKept : ∀ s a t, Placed s →
      Guarded PlacementGuard (PlacementStep h) s a t →
        Placed t :=
    fun _ _ _ hPlaced hStep => hPlaced.step hStep
  have hPlaced := hRun.invariant hKept
    (hInit.1 ▸ Placed.created file)
  refine ⟨hPlaced.good.inPlace, hPlaced.good.reloadsSame h, ?_⟩
  intro hFew hDistinct creation
  exact hPlaced.good.init_ok hFew hDistinct creation

/-
  A new file: an extension fails at its first write, the next
  one succeeds, and the process stops behind the page count of
  a third one and is started again.
-/
theorem segments_inPlace_stopped :
    ∃ t, Steps (Guarded PlacementGuard
        (PlacementStep hashFunc)) (DmsFile.created (fun _ => 0))
        [.extendSegment (.writeFails 0 ⟨28, by decide⟩),
          .extendSegment .success,
          .stop .counted .success (fun _ => none)] t ∧
      InPlace t ∧ ReloadsSame hashFunc t := by
  have hNew := good_created (fun _ => 0)
  have hNone := created_not_live (fun _ => 0)
  have hFails : (DmsFile.created (fun _ => 0)).extendSegment
      (.writeFails 0 ⟨28, by decide⟩) =
        (28, DmsFile.created (fun _ => 0)) := by
    simp only [extendSegment, extendFile]
    rw [if_neg (by decide), Nat.zero_min, grow_zero]
    rfl
  have hFirst := hNew.extended (by decide)
  have hSecond := hFirst.good.extended (by decide)
  have hEmpty : ∀ rid, ¬ (DmsFile.created
      (fun _ => 0)).extended.extended.Live rid := by
    intro rid hLive
    exact hNone rid ((hFirst.live rid).mp
      ((hSecond.live rid).mp hLive))
  rcases @Good.init_ok hashFunc _ hSecond.good (by decide)
      (distinctKeys_of_empty hEmpty) .success with
    ⟨t, mgr, hInit⟩
  have hRun : Steps (Guarded PlacementGuard
      (PlacementStep hashFunc)) (DmsFile.created (fun _ => 0))
      [.extendSegment (.writeFails 0 ⟨28, by decide⟩),
        .extendSegment .success,
        .stop .counted .success (fun _ => none)] t :=
    .cons ⟨⟨rfl, by decide⟩, .extendSegment hFails⟩
      (.cons ⟨⟨trivial, by decide⟩,
        .extendSegment (extendSegment_success _)⟩
        (.cons ⟨⟨trivial, by decide⟩, .stop hInit⟩ (.nil _)))
  have hPlaced := segments_inPlace hashFunc (fun _ => 0)
    (init_created hashFunc (fun _ => 0)) hRun
  exact ⟨t, hRun, hPlaced.1, hPlaced.2.1⟩

------------------------------------------------------------
-- A Run That Misplaces a Segment
------------------------------------------------------------

/- An extension fails after one block; the next succeeds. -/
def misplacingOps : List PlacementOp :=
  [.extendSegment (.writeFails dmsExtendSize ⟨28, by decide⟩),
    .extendSegment .success]

/- The new file with one more block at its end. -/
def blockFile : DmsFile :=
  ((DmsFile.created (fun _ => 0)).extendSegment
    (.writeFails dmsExtendSize ⟨28, by decide⟩)).2

def misplacedFile : DmsFile :=
  (blockFile.extendSegment .success).2

theorem misplacedFile_body :
    misplacedFile.body[0]? = some 131072 := by
  decide +kernel

/- Not every run on a new file keeps the segments in place. -/
theorem segments_not_inPlace :
    ¬ ∀ as t,
      Steps (PlacementStep hashFunc)
        (DmsFile.created (fun _ => 0)) as t →
      InPlace t := by
  intro hClaim
  have hRun : Steps (PlacementStep hashFunc)
      (DmsFile.created (fun _ => 0)) misplacingOps
      misplacedFile :=
    .cons (.extendSegment rfl) (.cons (.extendSegment rfl)
      (.nil _))
  have hPlace := hClaim _ _ hRun 0 131072 misplacedFile_body
  simp [dmsFileHeaderSize] at hPlace

end DmsFile

end EmeraldDb
