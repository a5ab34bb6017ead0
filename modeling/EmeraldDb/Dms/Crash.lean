import EmeraldDb.Dms.Load
import EmeraldDb.Dms.Writes

/-
  What a crash leaves in the data file.

  The process may die at any write of an insertion or a
  removal.  Until the slot count of the page is stored, or
  the slot is emptied, the file shows the records from before
  the call; from that write on it shows those from after it.

  Key definitions include:
    * `Page.Looks`
    * `DmsFile.Shows`

  Key results include:
    * `DmsFile.Good.crashed_insert`
    * `DmsFile.Good.crashed_remove`
-/

namespace EmeraldDb

open Disk

------------------------------------------------------------
-- Pages That Show the Same Records
------------------------------------------------------------

namespace Page

/-
  The slots of a page and the records they point to are the
  same in two memories.
-/
structure Looks (m m' : Memory) (page : Nat) : Prop where
  count : numSlots m' page = numSlots m page
  slot : ∀ k < numSlots m page,
    Page.slot m' page k = Page.slot m page k
  same : ∀ k, Live m page k →
    Memory.Same m (page + Page.slot m page k) m'
      (page + Page.slot m page k)
      (sizeofRecord + (object m page k).length)

variable {m m' : Memory} {page k : Nat}

theorem Looks.live_iff
    (hLooks : Looks m m' page)
    (k : Nat) :
    Live m' page k ↔ Live m page k := by
  unfold Live
  rw [hLooks.count]
  constructor
  · rintro ⟨hIn, hFull⟩
    exact ⟨hIn, hLooks.slot k hIn ▸ hFull⟩
  · rintro ⟨hIn, hFull⟩
    exact ⟨hIn, (hLooks.slot k hIn).symm ▸ hFull⟩

theorem Looks.kept
    (hLooks : Looks m m' page)
    (hLive : Live m page k) :
    Kept m m' page k :=
  ⟨(hLooks.live_iff k).mpr hLive, hLooks.slot k hLive.1,
    hLooks.same k hLive⟩

/- A page looks as before where no record was written. -/
theorem Looks.of_bytes
    (hCount : ∀ x, page + 12 ≤ x → x < page + 16 →
      m' x = m x)
    (hSlots : ∀ x, page + sizeofPageHeader ≤ x →
      x < slotAddress page (numSlots m page) → m' x = m x)
    (hRecords : ∀ k, Live m page k → ∀ x,
      page + Page.slot m page k ≤ x →
      x < page + Page.slot m page k + sizeofRecord +
        (object m page k).length → m' x = m x) :
    Looks m m' page := by
  refine ⟨?_, ?_, ?_⟩
  · apply Memory.word_congr
    intro i hi
    exact hCount _ (by omega) (by omega)
  · intro k hk
    apply Memory.word_congr
    intro i hi
    simp only [slotAddress, sizeofPageHeader, sizeofSlot]
      at hSlots ⊢
    exact hSlots _ (by omega) (by omega)
  · intro k hk i hi
    exact (hRecords k hk _ (by omega) (by omega)).symm

/- What a page looks like with nothing written to it. -/
theorem Good.looks_of_same
    (hGood : Good m page)
    (hSame : ∀ x, page ≤ x → x < page + dmsPageSize →
      m' x = m x) :
    Looks m m' page := by
  have hSlots := hGood.shape.numSlots_lt
  simp only [sizeofPageHeader, sizeofSlot, dmsPageSize]
    at hSlots
  apply Looks.of_bytes
  · intro x hLow hHigh
    exact hSame x (by omega) (by
      simp only [dmsPageSize]
      omega)
  · intro x hLow hHigh
    simp only [slotAddress, sizeofPageHeader, sizeofSlot]
      at hLow hHigh
    exact hSame x (by omega) (by
      simp only [dmsPageSize]
      omega)
  · intro k hk x hLow hHigh
    have hRecord := (hGood.record k hk).high
    exact hSame x (by omega) (by omega)

/- Free space of a page may hold anything. -/
theorem Good.looks_of_free
    (hGood : Good m page)
    (hSame : ∀ x, x < page + slotOffset m page ∨
      page + freeOffset m page ≤ x → m' x = m x) :
    Looks m m' page := by
  have hSlots := hGood.slots
  simp only [sizeofPageHeader, sizeofSlot] at hSlots
  apply Looks.of_bytes
  · intro x _ hHigh
    exact hSame x (by omega)
  · intro x _ hHigh
    simp only [slotAddress, sizeofPageHeader, sizeofSlot]
      at hHigh
    exact hSame x (by omega)
  · intro k hk x hLow _
    have hRecord := (hGood.record k hk).low
    exact hSame x (by omega)

/- The words behind the slot count do not show. -/
theorem Good.looks_of_header
    (hGood : Good m page)
    (hSame : ∀ x, x < page + 16 ∨
      page + sizeofPageHeader ≤ x → m' x = m x) :
    Looks m m' page := by
  apply Looks.of_bytes
  · intro x _ hHigh
    exact hSame x (by omega)
  · intro x hLow _
    exact hSame x (by omega)
  · intro k hk x hLow _
    have hSlot := hGood.slot_ge hk
    exact hSame x (by omega)

/-
  Neither do the free space of the header and the flag of a
  record that has been dropped.
-/
theorem Good.looks_of_dropped
    (hGood : Good m page)
    (hLive : Live m page k)
    {free : Nat}
    (hSame : ∀ x,
      ¬ (page + 20 ≤ x ∧ x < page + 24 ∨
        page + Page.slot m page k + 4 ≤ x ∧
          x < page + Page.slot m page k + sizeofRecord) →
      m' x = dropped m page k free x) :
    Looks (dropped m page k free) m' page := by
  have hDropped := hGood.drop hLive free
  have hLow := hGood.slot_ge hLive
  have hHeader := (@dropped_header m page k free hLow).2.1
  simp only [sizeofPageHeader, sizeofSlot, sizeofRecord]
    at hLow hSame
  apply Looks.of_bytes
  · intro x _ hHigh
    exact hSame x (by omega)
  · intro x hIn hHigh
    rw [hHeader] at hHigh
    simp only [slotAddress, sizeofPageHeader, sizeofSlot]
      at hIn hHigh
    exact hSame x (by omega)
  · intro l hl x hIn hHigh
    have hOther := (hDropped.only l).mp hl
    have hKept := hDropped.kept l hOther.1 hOther.2
    have hLength : (object (dropped m page k free) page
        l).length = (object m page l).length :=
      (hGood.record l hOther.2).form.length_congr _
        hKept.object_same
    have hApart := hGood.apart hLive hOther.2 hOther.1
    have hAbove := hGood.slot_ge hOther.2
    rw [hKept.slot] at hIn
    rw [hKept.slot, hLength] at hHigh
    simp only [sizeofPageHeader, sizeofSlot, sizeofRecord]
      at hApart hAbove hHigh
    exact hSame x (by omega)

/- A page that looks like a good one can be loaded. -/
theorem Looks.readable
    (hLooks : Looks m m' page)
    (hGood : Good m page) :
    Readable m' page := by
  have hOld := hGood.readable
  have hLength : ∀ k, Live m page k →
      (object m' page k).length =
        (object m page k).length :=
    fun k hk => (hOld.form k hk).length_congr _
      (hLooks.kept hk).object_same
  refine ⟨?_, ?_, ?_⟩
  · rw [hLooks.count]
    exact hOld.slots
  · intro k hk
    rw [hLooks.live_iff] at hk
    rw [hLooks.slot k hk.1, hLength k hk]
    exact hOld.inside k hk
  · intro k hk
    rw [hLooks.live_iff] at hk
    exact (hOld.form k hk).congr _
      (hLooks.kept hk).object_same

/- A record that shows has the flag it had. -/
theorem Looks.flag
    (hLooks : Looks m m' page)
    (hGood : Good m page)
    (hLive : Live m page k) :
    recordFlag m' (page + Page.slot m' page k) =
      dmsRecordFlagNormal := by
  have hFlag := (hLooks.same k hLive).slice (k := 4) (l := 4)
    (by simp only [sizeofRecord]; omega)
  rw [hLooks.slot k hLive.1,
    ← (hGood.record k hLive).flag]
  exact (hFlag.word (le_refl _)).symm

end Page

------------------------------------------------------------
-- Files That Show the Same Records
------------------------------------------------------------

namespace DmsFile

/-
  A file counts the segments of a data file and shows its
  records.
-/
structure Shows (s : DmsFile) (d : Disk) : Prop where
  count : d.file.word 4 = s.numPages
  fits : segmentOffset s.body.length ≤ d.fileSize
  page : ∀ p < s.numPages,
    Page.Looks s.file d.file (pageAddress p)

variable {s t : DmsFile} {d : Disk} {p : Nat}

/- A file with the bytes that were there before. -/
theorem Good.shows_of_bytes
    (hGood : Good s)
    (hSize : s.fileSize ≤ d.fileSize)
    (hSame : ∀ x < s.fileSize, d.file x = s.file x) :
    Shows s d := by
  have hLength := hGood.size
  refine ⟨?_, hLength ▸ hSize, ?_⟩
  · rw [← hGood.count]
    apply Memory.word_congr
    intro i hi
    apply hSame
    rw [hLength]
    simp only [segmentOffset, dmsFileHeaderSize]
    omega
  · intro p hp
    have hIn := hGood.page_le hp
    apply (hGood.page p hp).looks_of_same
    intro x _ hHigh
    exact hSame x (by omega)

theorem Good.shows_self
    (hGood : Good s) :
    Shows s s.disk :=
  hGood.shows_of_bytes (le_refl _) (fun _ _ => rfl)

/- A file in which one page was written. -/
theorem Good.shows_of_page
    (hGood : Good s)
    (hSize : d.fileSize = s.fileSize)
    (hLocal : Page.Local s.file d.file (pageAddress p))
    (hLooks : Page.Looks s.file d.file (pageAddress p)) :
    Shows s d := by
  refine ⟨?_, ?_, ?_⟩
  · rw [← hGood.count]
    apply Memory.word_congr
    intro i hi
    apply hLocal
    left
    simp only [pageAddress, dmsFileHeaderSize]
    omega
  · rw [hSize, hGood.size]
  · intro q hq
    by_cases hEq : q = p
    · exact hEq ▸ hLooks
    · apply (hGood.page q hq).looks_of_same
      intro x hLow hHigh
      have hApart := pageAddress_apart hEq
      exact hLocal x (by omega)

------------------------------------------------------------
-- Insertion
------------------------------------------------------------

section Insertion

variable {record : BSONObj} {r : InsertResult}

/- Slot and record are written to the free space. -/
theorem inside_dataWrites
    {m : Memory}
    {page : Nat}
    (hShape : Page.Shape m page)
    (hRoom : Page.Room m page record.length) :
    ∀ w ∈ dataWrites m page record,
      w.Inside (fun x => page + Page.slotOffset m page ≤ x ∧
        x < page + Page.freeOffset m page) := by
  have hOffset := hShape.offsetData_eq hRoom
  simp only [Page.Room, sizeofRecord, sizeofSlot]
    at hRoom hOffset
  intro w hw
  simp only [dataWrites, List.mem_cons, List.not_mem_nil,
    or_false] at hw
  rcases hw with rfl | rfl | rfl
  · intro i hi
    omega
  · intro i hi
    simp only [sizeofRecord] at hi ⊢
    omega
  · intro i hi
    simp only [sizeofRecord]
    omega

/- The slot count is stored after slot and record. -/
theorem recordWrites_eq
    {m : Memory}
    {page : Nat}
    {o : BSONObj}
    (hData : BSONObj.ofData (writeRecord m page record)
      (page + offsetData m page record.length +
        sizeofRecord) = .ok o) :
    ∃ count ws,
      recordWrites m page record =
        dataWrites m page record ++
          .word (page + 12) count :: ws ∧
      ∀ w ∈ ws, w.Inside (fun x => page + 16 ≤ x ∧
        x < page + sizeofPageHeader) := by
  unfold recordWrites
  simp only [hData]
  refine ⟨_, _, rfl, ?_⟩
  intro w hw
  simp only [freeSpaceWrites, List.append_eq,
    List.cons_append, List.nil_append, List.mem_cons,
    List.not_mem_nil, or_false] at hw
  rcases hw with rfl | rfl | rfl
  all_goals
    intro i hi
    simp only [sizeofPageHeader]
    omega

/-
  A crash while a record is written: only free space has
  been written, or all but the last words of the header.
-/
theorem crashed_recordWrites
    {m : Memory}
    {page n : Nat}
    {o : BSONObj}
    (hShape : Page.Shape m page)
    (hRoom : Page.Room m page record.length)
    (hData : BSONObj.ofData (writeRecord m page record)
      (page + offsetData m page record.length +
        sizeofRecord) = .ok o)
    (hCrash : Crashed (recordWrites m page record) ⟨m, n⟩ d) :
    (d.fileSize = n ∧
        ∀ x, ¬ (page + Page.slotOffset m page ≤ x ∧
          x < page + Page.freeOffset m page) →
          d.file x = m x) ∨
      ∀ e, written (recordWrites m page record) ⟨m, n⟩ = e →
        d.fileSize = e.fileSize ∧
          ∀ x, ¬ (page + 16 ≤ x ∧
            x < page + sizeofPageHeader) →
            d.file x = e.file x := by
  have hInside := inside_dataWrites hShape hRoom
  rcases recordWrites_eq hData with ⟨count, ws, hEq, hLast⟩
  rw [hEq] at hCrash ⊢
  rcases hCrash.append_cases with hFirst | hSecond
  · exact Or.inl (Crashed.within hInside hFirst)
  rcases hSecond.cons_cases with hStop | hTorn | hRest
  · rw [hStop]
    exact Or.inl (Crashed.within hInside (Cut.complete _ _))
  · exact absurd hTorn id
  · right
    rintro e rfl
    rw [written_append]
    have hClose := Crashed.within_written hLast hRest
    exact hClose

/-
  A crash while a record is written shows the old records
  before the slot count is stored and the new ones after it.
-/
theorem Good.crashed_recordWrites
    (hGood : Good s)
    (hIn : p < s.numPages)
    (hRoom : Page.Room s.file (pageAddress p) record.length)
    {rc : Int}
    (hCall : s.insertRecord (pageAddress p) p record rc =
      .ok r)
    (hNext : Good r.state)
    (hBody : r.state.body = s.body)
    (hCrash : Crashed
      (recordWrites s.file (pageAddress p) record) s.disk d) :
    Shows s d ∨ Shows r.state d := by
  have hPage := hGood.page p hIn
  have hWritten := written_recordWrites hCall
  rcases bind_ok hCall with ⟨o, hData, _⟩
  rcases DmsFile.crashed_recordWrites hPage.shape hRoom hData
      hCrash with ⟨hSize, hSame⟩ | hClose
  · left
    have hSlots := hPage.slots
    have hBound := hPage.bound
    apply hGood.shows_of_page hSize (p := p)
    · intro x hx
      apply hSame
      omega
    · apply hPage.looks_of_free
      intro x hx
      apply hSame
      omega
  · right
    have hNextPage := hNext.page p (by
      simp only [numPages, hBody]
      exact hIn)
    rcases hClose _ hWritten with ⟨hSize, hSame⟩
    apply hNext.shows_of_page hSize (p := p)
    · intro x hx
      apply hSame
      simp only [sizeofPageHeader, dmsPageSize] at hx ⊢
      omega
    · apply hNextPage.looks_of_header
      intro x hx
      apply hSame
      omega

/- A page without live slots is reorganised by one store. -/
theorem recoverWrites_of_no_live
    {m : Memory}
    {page : Nat}
    (hNone : ∀ k, ¬ Page.Live m page k) :
    ∃ v, Page.recoverWrites m page = [.word (page + 24) v] := by
  have hLoop : ∀ (is : List Nat) (st : Page.Recover),
      (∀ i ∈ is, i < Page.numSlots m page) → st.mem = m →
      ∃ v, Page.recoverLoopWrites page is st =
        [.word (page + 24) v] := by
    intro is
    induction is with
    | nil => exact fun st _ _ => ⟨_, rfl⟩
    | cons i is ih =>
        intro st hIn hMem
        have hEmpty : Page.slot st.mem page i =
            dmsSlotEmpty := by
          by_contra hFull
          rw [hMem] at hFull
          exact hNone i ⟨hIn i List.mem_cons_self, hFull⟩
        have hStep : (Page.recoverStep page st i).mem =
            m := by
          rw [Page.recoverStep, if_neg (not_not_intro hEmpty)]
          exact hMem
        rcases ih (Page.recoverStep page st i)
            (fun j hj => hIn j (List.mem_cons_of_mem _ hj))
            hStep with ⟨v, hRest⟩
        refine ⟨v, ?_⟩
        rw [Page.recoverLoopWrites, Page.recoverStepWrites,
          if_neg (not_not_intro hEmpty), hRest]
        rfl
  exact hLoop _ ⟨m, dmsPageSize, false⟩
    (fun i hi => List.mem_range.mp hi) rfl

/-
  A crash on a page that need not be reorganised, or has no
  live slots to move: the file shows what it held before the
  call or what it holds after it.
-/
theorem Good.crashed_insertPage
    (hGood : Good s)
    (hIn : p < s.numPages)
    (hForm : record.WellFormed)
    (hStill : needsRecover s.file (pageAddress p)
        record.length = true →
      ∀ k, ¬ Page.Live s.file (pageAddress p) k)
    {rc : Int}
    (hCall : s.insertPage p record rc = .ok r)
    (hCrash : Crashed (s.insertPageWrites p record) s.disk
      d) :
    (∃ u, Unchanged s u ∧ u.body = s.body ∧ Shows u d) ∨
      Shows r.state d := by
  have hOffset := hGood.pageToOffset_of_lt hIn
  have hMagic := (hGood.page p hIn).magic
  have hSelf : ∃ u, Unchanged s u ∧ u.body = s.body ∧
      Shows u s.disk :=
    ⟨s, Unchanged.refl hGood, rfl, hGood.shows_self⟩
  have hSame : Unchanged s
      (s.prepared (pageAddress p) record.length) := by
    unfold prepared
    split
    · rename_i hNeed
      exact hGood.recovered hIn (hStill hNeed)
    · exact Unchanged.refl hGood
  have hBody := s.prepared_body (pageAddress p) record.length
  have hReady : ∃ u, Unchanged s u ∧ u.body = s.body ∧
      Shows u (s.prepared (pageAddress p)
        record.length).disk :=
    ⟨_, hSame, hBody, hSame.good.shows_self⟩
  have hWritten := s.written_prepareWrites (pageAddress p)
    record.length
  unfold insertPageWrites at hCrash
  simp only [hOffset] at hCrash
  rw [if_neg (not_not_intro hMagic)] at hCrash
  rw [insertPage_eq hOffset,
    if_neg (not_not_intro hMagic)] at hCall
  rcases hCrash.append_cases with hFirst | hSecond
  · -- one store reorganises the page
    left
    unfold prepareWrites at hFirst hWritten
    split at hFirst
    · rename_i hNeed
      rcases recoverWrites_of_no_live (hStill hNeed) with
        ⟨v, hOne⟩
      rw [if_pos hNeed, hOne] at hWritten
      rw [hOne] at hFirst
      rcases hFirst.cons_cases with rfl | hTorn | hRest
      · exact hSelf
      · exact absurd hTorn id
      · rw [hRest.nil_eq]
        rw [← hWritten] at hReady
        exact hReady
    · rw [hFirst.nil_eq]
      exact hSelf
  · rw [show writeAll _ _ _ = _ from hWritten] at hSecond
    by_cases hFull : noRoom
        (s.prepared (pageAddress p) record.length).file
        (pageAddress p) record.length = true
    · rw [if_pos hFull] at hSecond
      rw [hSecond.nil_eq]
      exact Or.inl hReady
    · rw [if_neg hFull] at hSecond hCall
      have hIn' : p < (s.prepared (pageAddress p)
          record.length).numPages := by
        simp only [numPages, hBody]
        exact hIn
      have hRoom := room_of_noRoom
        (hSame.good.page p hIn').shape
        (Bool.eq_false_iff.mpr hFull)
      rcases hSame.good.insertRecord hIn' hRoom hForm rc with
        ⟨u, rid, hResult, hAdded, hBody'⟩
      rw [hResult] at hCall
      obtain rfl := Except.ok.inj hCall
      rcases hSame.good.crashed_recordWrites hIn' hRoom
          hResult hAdded.good hBody' hSecond with hOld | hNew
      · exact Or.inl ⟨_, hSame, hBody, hOld⟩
      · exact Or.inr hNew

/- Page headers are written to the new segment. -/
theorem beyond_pageHeaderWrites
    (data n : Nat) :
    ∀ w ∈ pageHeaderWrites data n, w.Beyond data := by
  induction n with
  | zero =>
      intro w hw
      exact absurd hw List.not_mem_nil
  | succ n ih =>
      intro w hw
      rw [pageHeaderWrites, List.mem_append,
        List.mem_singleton] at hw
      rcases hw with hOld | rfl
      · exact ih w hOld
      · exact Nat.le_add_right _ _

/- An extension ends with the store of the page count. -/
theorem extendWrites_success
    (s : DmsFile) :
    ∃ count, s.extendWrites .success =
      (.append dmsFileSegmentSize ::
        pageHeaderWrites s.fileSize dmsPagesPerSegment) ++
          [.word 4 count] := by
  have hMap := @ossMmapFileMap_maps
    (s.grow dmsFileSegmentSize).fileSize s.fileSize
    dmsFileSegmentSize dmsFileSegmentSize_pos (le_refl _)
  rw [extendWrites, mapWrites_some hMap, segmentWrites]
  refine ⟨(initPages (s.grow dmsFileSegmentSize).file
    s.fileSize dmsPagesPerSegment).word 4 +
      dmsPagesPerSegment, ?_⟩
  rw [List.cons_append]

/-
  A crash during an extension: the new segment is not counted
  yet, or the extension is complete.
-/
theorem Good.crashed_extendWrites
    (hGood : Good s)
    (hCrash : Crashed (s.extendWrites .success) s.disk d) :
    Shows s d ∨ d = s.extended.disk := by
  have hWritten := s.written_extendWrites .success
  rw [extendSegment_success] at hWritten
  rcases s.extendWrites_success with ⟨count, hWrites⟩
  rw [hWrites] at hCrash hWritten
  have hBeyond : ∀ w ∈ DiskWrite.append dmsFileSegmentSize ::
      pageHeaderWrites s.fileSize dmsPagesPerSegment,
      w.Beyond s.fileSize := by
    intro w hw
    rcases List.mem_cons.mp hw with rfl | hHeader
    · exact trivial
    · exact beyond_pageHeaderWrites _ _ w hHeader
  have hOld : ∀ {e : Disk},
      Crashed (.append dmsFileSegmentSize ::
        pageHeaderWrites s.fileSize dmsPagesPerSegment)
        s.disk e → Shows s e := by
    intro e hCut
    rcases Crashed.beyond hBeyond (le_refl _) hCut with
      ⟨hSize, hSame⟩
    exact hGood.shows_of_bytes hSize hSame
  rcases hCrash.append_cases with hFirst | hSecond
  · exact Or.inl (hOld hFirst)
  rcases hSecond.cons_cases with hStop | hTorn | hRest
  · rw [hStop]
    exact Or.inl (hOld (Cut.complete _ _))
  · exact absurd hTorn id
  · right
    rw [← hWritten, written_append, hRest.nil_eq]
    rfl

/-
  A crash during an insertion with extensions that succeed:
  the file shows what it held before the call or what it
  holds after it.
-/
theorem Good.crashed_insert
    (hGood : Good s)
    (hForm : record.WellFormed)
    (hPlace : s.Placeable record)
    {n : Nat}
    (hCrash : Crashed
      (insertWrites (List.replicate n .success) s record)
      s.disk d) :
    (∃ u, Unchanged s u ∧
        u.body.length ≤ s.body.length + 1 ∧ Shows u d) ∨
      ∃ r, s.insert (List.replicate n .success) record =
        .ok r ∧ Shows r.state d := by
  rcases hPlace with ⟨hSmall, hStill, hMore⟩
  have hMax : ¬ dmsMaxRecord < record.length := by
    simp only [dmsMaxRecord, dmsPageSize, sizeofPageHeader,
      sizeofHeader, sizeofRecord, sizeofSlot] at *
    omega
  have hSelf : Unchanged s s := Unchanged.refl hGood
  unfold insertWrites at hCrash
  unfold DmsFile.insert
  rw [if_neg hMax]
  rcases hGood.findPage_cases record.length with
    ⟨hInvalid, hFull⟩ | ⟨hIn, _⟩
  · cases n with
    | zero =>
        left
        simp only [List.replicate_zero, insertLoopWrites,
          if_pos hInvalid] at hCrash
        rw [hCrash.nil_eq]
        exact ⟨s, hSelf, Nat.le_succ _, hGood.shows_self⟩
    | succ n =>
    have hExtended := hGood.extended hMore
    have hNext := hExtended.good
    have hNew := hGood.findPage_extended hMore hSmall hFull
    have hValid := hNext.numPages_lt
    have hExtend := extendSegment_success s
    have hLength : s.extended.body.length =
        s.body.length + 1 := by
      simp [DmsFile.extended, addSegment, grow]
    have hWritten := s.written_extendWrites .success
    rw [hExtend] at hWritten
    rw [List.replicate_succ,
      insertLoopWrites_extended hInvalid hExtend,
      insertLoopWrites_found (by omega)] at hCrash
    rw [List.replicate_succ,
      insertLoop_extended hInvalid hExtend,
      insertLoop_found (by omega)]
    have hNone : needsRecover s.extended.file
        (pageAddress (s.extended.findPage record.length))
          record.length = true →
        ∀ k, ¬ Page.Live s.extended.file (pageAddress
          (s.extended.findPage record.length)) k :=
      fun _ => (hGood.new_page hNew.1 hNew.2).none
    rcases hNext.insertPage hNew.2 hForm hNone with
      ⟨r, hResult, _, _⟩
    rcases hCrash.append_cases with hFirst | hSecond
    · left
      rcases hGood.crashed_extendWrites hFirst with
        hOld | rfl
      · exact ⟨s, hSelf, Nat.le_succ _, hOld⟩
      · exact ⟨_, hExtended, le_of_eq hLength,
          hNext.shows_self⟩
    · rw [show writeAll _ _ _ = _ from hWritten] at hSecond
      rcases hNext.crashed_insertPage hNew.2 hForm hNone
          hResult hSecond with
        ⟨u, hSame, hBody, hShows⟩ | hShows
      · left
        exact ⟨u, hExtended.trans hGood hSame,
          le_of_eq (hBody ▸ hLength), hShows⟩
      · exact Or.inr ⟨r, hResult, hShows⟩
  · have hValid := hGood.numPages_lt
    have hNone : needsRecover s.file
        (pageAddress (s.findPage record.length))
          record.length = true →
        ∀ k, ¬ Page.Live s.file
          (pageAddress (s.findPage record.length)) k := by
      intro hNeed k hLive
      exact hStill ⟨_, hGood.pageToOffset_of_lt hIn, hNeed,
        k, hLive⟩
    rw [insertLoopWrites_found (by omega)] at hCrash
    rw [insertLoop_found (by omega)]
    rcases hGood.insertPage hIn hForm hNone with
      ⟨r, hResult, _, _⟩
    rcases hGood.crashed_insertPage hIn hForm hNone hResult
        hCrash with ⟨u, hSame, hBody, hShows⟩ | hShows
    · left
      refine ⟨u, hSame, ?_, hShows⟩
      rw [hBody]
      exact Nat.le_succ _
    · exact Or.inr ⟨r, hResult, hShows⟩

end Insertion

------------------------------------------------------------
-- Removal
------------------------------------------------------------

section Removal

variable {rid : DmsRecordID}

/- The writes of the removal of a live record. -/
theorem Good.removeWrites_eq
    (hGood : Good s)
    (hLive : s.Live rid) :
    s.removeWrites rid =
      dropWrites s.file (pageAddress rid.pageID) rid.slotID
        (Page.slot s.file (pageAddress rid.pageID)
          rid.slotID) := by
  unfold removeWrites
  simp only [hGood.pageToOffset_of_lt hLive.1,
    searchSlot_of_live hLive]
  rw [if_neg (by simp), if_neg hLive.2.2]

/- The slot is emptied before anything else. -/
theorem dropWrites_eq
    (m : Memory)
    (page slotID slot : Nat) :
    ∃ empty ws,
      dropWrites m page slotID slot =
        .word (Page.slotAddress page slotID) empty :: ws ∧
      ∀ w ∈ ws, w.Inside (fun x =>
        page + 20 ≤ x ∧ x < page + 24 ∨
          page + slot + 4 ≤ x ∧
            x < page + slot + sizeofRecord) := by
  refine ⟨_, _, rfl, ?_⟩
  intro w hw
  simp only [freeSpaceWrites, List.append_eq,
    List.cons_append, List.nil_append, List.mem_cons,
    List.not_mem_nil, or_false] at hw
  rcases hw with rfl | rfl
  all_goals
    intro i hi
    simp only [sizeofRecord]
    omega

/-
  A crash during a removal: nothing has been written, or all
  but the flag of the record and the free space.
-/
theorem crashed_dropWrites
    {m : Memory}
    {page slotID slot n : Nat}
    (hCrash : Crashed (dropWrites m page slotID slot) ⟨m, n⟩
      d) :
    d = ⟨m, n⟩ ∨
      ∀ e, written (dropWrites m page slotID slot) ⟨m, n⟩ =
          e →
        d.fileSize = e.fileSize ∧
          ∀ x, ¬ (page + 20 ≤ x ∧ x < page + 24 ∨
            page + slot + 4 ≤ x ∧
              x < page + slot + sizeofRecord) →
            d.file x = e.file x := by
  rcases dropWrites_eq m page slotID slot with
    ⟨empty, ws, hEq, hLast⟩
  rw [hEq] at hCrash ⊢
  rcases hCrash.cons_cases with hStop | hTorn | hRest
  · exact Or.inl hStop
  · exact absurd hTorn id
  · right
    rintro e rfl
    have hClose := Crashed.within_written hLast hRest
    exact hClose

/-
  A crash while a record is removed shows the old records
  before the slot is emptied and the new ones after it.
-/
theorem Good.crashed_remove
    (hGood : Good s)
    (hLive : s.Live rid)
    (hCrash : Crashed (s.removeWrites rid) s.disk d) :
    Shows s d ∨ ∀ t, s.remove rid = (edbOk, t) →
      Shows t d := by
  have hPage := hGood.page _ hLive.1
  have hLow := hPage.slot_ge hLive.2
  have hHigh := (hGood.record hLive).high
  have hWritten := s.written_removeWrites rid
  have hResult := remove_eq
    (hGood.pageToOffset_of_lt hLive.1) hLive.2 hLow
  rcases hGood.remove hLive with
    ⟨u, hRemove, hRemoved, _⟩
  rw [hRemove] at hResult hWritten
  rw [hGood.removeWrites_eq hLive] at hCrash hWritten
  rcases crashed_dropWrites hCrash with hStop | hClose
  · rw [hStop]
    exact Or.inl hGood.shows_self
  · right
    intro t hCall
    obtain rfl : u = t :=
      (Prod.mk.inj (hRemove.symm.trans hCall)).2
    rcases hClose _ hWritten with ⟨hSize, hSame⟩
    have hFile : u.file = Page.dropped s.file
        (pageAddress rid.pageID) rid.slotID
        (regained s.file (pageAddress rid.pageID)
          rid.slotID) :=
      congrArg DmsFile.file (Prod.mk.inj hResult).2
    apply hRemoved.good.shows_of_page hSize
      (p := rid.pageID)
    · intro x hx
      apply hSame
      simp only [sizeofRecord, dmsPageSize] at hx hHigh ⊢
      omega
    · rw [hFile]
      apply hPage.looks_of_dropped hLive.2
      intro x hx
      rw [← hFile]
      exact hSame x hx

end Removal

end DmsFile

end EmeraldDb
