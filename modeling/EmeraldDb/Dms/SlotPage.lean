import EmeraldDb.Dms.Load
import EmeraldDb.Dms.Reorganise

/-
  Insertion and removal are local to a slot page.

  On a page whose slot list ends below the free offset and
  whose live records lie above it, apart from each other, in
  any order, an insertion without reorganisation fails
  without effect or adds one record, and a removal empties
  one slot.  Every other live record keeps its slot and all
  its bytes.

  Key definitions include:
    * `Page.Regular`
    * `Page.Held`
    * `DmsFile.InsertedAt`
    * `DmsFile.RemovedAt`

  Key results include:
    * `Page.Regular.insert`
    * `Page.Regular.drop`
    * `DmsFile.slotPage_local`
-/

namespace EmeraldDb

------------------------------------------------------------
-- Regular Pages
------------------------------------------------------------

namespace Page

variable {m m' : Memory} {page k l : Nat} {record : BSONObj}

/-
  The slot list ends below the free offset; the live records
  are flagged as normal, lie above the free offset and do not
  overlap.
-/
structure Regular (m : Memory) (page : Nat) : Prop
    extends Shape m page where
  flag : ∀ k, Live m page k →
    recordFlag m (page + slot m page k) =
      dmsRecordFlagNormal
  inside : ∀ k, Live m page k →
    freeOffset m page ≤ slot m page k ∧
      slot m page k + extent m page k ≤ dmsPageSize
  disjoint : ∀ k l, k ≠ l →
    Live m page k → Live m page l →
      slot m page k + extent m page k ≤ slot m page l ∨
        slot m page l + extent m page l ≤ slot m page k

/-
  A slot points to the same offset in both memories, with the
  same record header and data.
-/
structure Held (m m' : Memory) (page k : Nat) : Prop where
  live : Live m' page k
  slot : Page.slot m' page k = Page.slot m page k
  same : Memory.Same m (page + Page.slot m page k) m'
    (page + Page.slot m page k) (extent m page k)

theorem Held.recordSize_eq
    (hHeld : Held m m' page k) :
    recordSize m' (page + Page.slot m' page k) =
      recordSize m (page + Page.slot m page k) := by
  have hFour : 4 ≤ extent m page k := by
    simp only [extent, sizeofRecord]
    omega
  unfold recordSize
  rw [hHeld.slot, hHeld.same.word hFour]

theorem Held.extent_eq
    (hHeld : Held m m' page k) :
    extent m' page k = extent m page k := by
  rw [extent, extent, hHeld.recordSize_eq]

theorem Held.flag_eq
    (hHeld : Held m m' page k) :
    recordFlag m' (page + Page.slot m' page k) =
      recordFlag m (page + Page.slot m page k) := by
  have hFlag := hHeld.same.slice (k := 4) (l := 4) (by
    simp only [extent, sizeofRecord]
    omega)
  unfold recordFlag
  rw [hHeld.slot, hFlag.word (le_refl _)]

namespace Regular

/- A live record lies above the slot list. -/
theorem slot_ge
    (hRegular : Regular m page)
    (hLive : Live m page k) :
    sizeofPageHeader + numSlots m page * sizeofSlot ≤
      slot m page k := by
  rw [← hRegular.slots]
  exact hRegular.room.trans (hRegular.inside k hLive).1

/- A record that is held is where it was, flag and all. -/
theorem held
    (hRegular : Regular m page)
    (hFree : freeOffset m' page ≤ freeOffset m page)
    (hLive : Live m page k)
    (hHeld : Held m m' page k) :
    recordFlag m' (page + slot m' page k) =
        dmsRecordFlagNormal ∧
      freeOffset m' page ≤ slot m' page k ∧
      slot m' page k + extent m' page k ≤ dmsPageSize := by
  rcases hRegular.inside k hLive with ⟨hLow, hHigh⟩
  rw [hHeld.flag_eq, hHeld.extent_eq, hHeld.slot]
  exact ⟨hRegular.flag k hLive, hFree.trans hLow, hHigh⟩

/- Two records that are held stay apart. -/
theorem held_apart
    (hRegular : Regular m page)
    (hNe : k ≠ l)
    (hK : Live m page k)
    (hL : Live m page l)
    (hHeldK : Held m m' page k)
    (hHeldL : Held m m' page l) :
    slot m' page k + extent m' page k ≤ slot m' page l ∨
      slot m' page l + extent m' page l ≤
        slot m' page k := by
  rw [hHeldK.slot, hHeldK.extent_eq, hHeldL.slot,
    hHeldL.extent_eq]
  exact hRegular.disjoint k l hNe hK hL

/- All live records are held from a regular page. -/
theorem of_held
    (hRegular : Regular m page)
    (hShape : Shape m' page)
    (hFree : freeOffset m' page ≤ freeOffset m page)
    (hHeld : ∀ k, Live m' page k →
      Live m page k ∧ Held m m' page k) :
    Regular m' page := by
  refine ⟨hShape, ?_, ?_, ?_⟩
  · intro k hk
    rcases hHeld k hk with ⟨hOld, hSame⟩
    exact (hRegular.held hFree hOld hSame).1
  · intro k hk
    rcases hHeld k hk with ⟨hOld, hSame⟩
    exact (hRegular.held hFree hOld hSame).2
  · intro k l hNe hk hl
    rcases hHeld k hk with ⟨hOldK, hSameK⟩
    rcases hHeld l hl with ⟨hOldL, hSameL⟩
    exact hRegular.held_apart hNe hOldK hOldL hSameK hSameL

theorem held_frame
    (hRegular : Regular m page)
    (hSame : Memory.Same m page m' page dmsPageSize)
    (hLive : Live m page k) :
    Held m m' page k := by
  have hShape := hRegular.toShape
  refine ⟨(hShape.live_frame hSame k).mpr hLive,
    hShape.slot_frame hSame hLive.1, ?_⟩
  exact hSame.slice (hRegular.inside k hLive).2

/- A page that is not written stays regular. -/
theorem frame
    (hRegular : Regular m page)
    (hSame : Memory.Same m page m' page dmsPageSize) :
    Regular m' page := by
  have hShape := hRegular.toShape
  have hFree : freeOffset m' page = freeOffset m page :=
    Good.field_frame hSame (by decide)
  apply hRegular.of_held (hShape.frame hSame) hFree.le
  intro k hk
  have hOld := (hShape.live_frame hSame k).mp hk
  exact ⟨hOld, hRegular.held_frame hSame hOld⟩

------------------------------------------------------------
-- Insertion
------------------------------------------------------------

section Insertion

open DmsFile

variable {free : Nat} (hRegular : Regular m page)
  (hRoom : Room m page record.length)

include hRegular hRoom

theorem inserted_held
    (hLive : Live m page k) :
    Held m (inserted m page record free) page k := by
  have hSlot : slot (inserted m page record free) page k =
      slot m page k :=
    inserted_slot hRegular.toShape hRoom hLive.1
  refine ⟨⟨?_, ?_⟩, hSlot, ?_⟩
  · rw [(inserted_header hRegular.toShape hRoom).2.1]
    exact Nat.lt_succ_of_lt hLive.1
  · rw [hSlot]
    exact hLive.2
  · exact inserted_above hRegular.toShape hRoom
      (hRegular.inside k hLive).1 _

theorem inserted_only
    (hLive : Live (inserted m page record free) page k) :
    k = numSlots m page ∨ Live m page k := by
  have hIn := hLive.1
  rw [(inserted_header hRegular.toShape hRoom).2.1] at hIn
  by_cases hLast : k = numSlots m page
  · exact Or.inl hLast
  · have hOld : k < numSlots m page := by omega
    have hSlot : slot (inserted m page record free) page k =
        slot m page k :=
      inserted_slot hRegular.toShape hRoom hOld
    exact Or.inr ⟨hOld, hSlot ▸ hLive.2⟩

/-
  The new record lies below the free offset, the records that
  were there above it.
-/
theorem insert
    (hSize : record.length < 4294967296)
    (free : Nat) :
    Regular (inserted m page record free) page := by
  have hShape := hRegular.toShape
  have hHeader := @inserted_header m page record free hShape
    hRoom
  have hNew := @inserted_new m page record free hShape hRoom
    hSize
  have hOffset := hShape.offsetData_eq hRoom
  have hBound := hShape.bound
  have hFree : freeOffset (inserted m page record free)
      page ≤ freeOffset m page := by
    rw [hHeader.2.2.2.1]
    omega
  have hExtent : slot (inserted m page record free) page
      (numSlots m page) +
        extent (inserted m page record free) page
          (numSlots m page) = freeOffset m page := by
    rw [extent, hNew.1, hNew.2.1]
    omega
  have hHeld : ∀ k, Live m page k →
      Held m (inserted m page record free) page k :=
    fun k hk => hRegular.inserted_held hRoom hk
  refine ⟨⟨?_, ?_, ?_⟩, ?_, ?_, ?_⟩
  · rw [hHeader.2.1, hHeader.2.2.1, hRegular.slots]
    simp only [sizeofSlot]
    omega
  · rw [hHeader.2.2.1, hHeader.2.2.2.1]
    simp only [Room] at hRoom
    omega
  · exact hFree.trans hBound
  · intro k hk
    rcases hRegular.inserted_only hRoom hk with rfl | hOld
    · rw [hNew.1]
      exact hNew.2.2
    · exact (hRegular.held hFree hOld (hHeld k hOld)).1
  · intro k hk
    rcases hRegular.inserted_only hRoom hk with rfl | hOld
    · rw [hExtent, hNew.1, hHeader.2.2.2.1]
      exact ⟨le_refl _, hBound⟩
    · exact (hRegular.held hFree hOld (hHeld k hOld)).2
  · intro k l hNe hk hl
    have hAbove : ∀ j, Live m page j →
        freeOffset m page ≤
          slot (inserted m page record free) page j := by
      intro j hj
      rw [(hHeld j hj).slot]
      exact (hRegular.inside j hj).1
    rcases hRegular.inserted_only hRoom hk with rfl | hK
    · rcases hRegular.inserted_only hRoom hl with rfl | hL
      · exact absurd rfl hNe
      · left
        rw [hExtent]
        exact hAbove l hL
    · rcases hRegular.inserted_only hRoom hl with rfl | hL
      · right
        rw [hExtent]
        exact hAbove k hK
      · exact hRegular.held_apart hNe hK hL (hHeld k hK)
          (hHeld l hL)

/- The live records and the new one. -/
theorem liveBytes_inserted
    (hSize : record.length < 4294967296)
    (w free : Nat) :
    liveBytes w (inserted m page record free) page
        (numSlots m page + 1) =
      liveBytes w m page (numSlots m page) +
        (record.length + w) := by
  have hShape := hRegular.toShape
  have hHeader := @inserted_header m page record free hShape
    hRoom
  have hNew := @inserted_new m page record free hShape hRoom
    hSize
  have hOffset := hShape.offsetData_eq hRoom
  have hBound := hShape.bound
  have hLast : Live (inserted m page record free) page
      (numSlots m page) := by
    refine ⟨?_, ?_⟩
    · rw [hHeader.2.1]
      exact Nat.lt_succ_self _
    · rw [hNew.1]
      simp only [dmsSlotEmpty, dmsPageSize] at hBound ⊢
      omega
  have hRest : liveBytes w (inserted m page record free) page
      (numSlots m page) =
        liveBytes w m page (numSlots m page) := by
    apply liveBytes_congr
    · intro k hk
      constructor
      · intro hLive
        rcases hRegular.inserted_only hRoom hLive with
          hEq | hOld
        · omega
        · exact hOld
      · intro hOld
        exact (hRegular.inserted_held hRoom hOld).live
    · intro k _ hOld
      exact (hRegular.inserted_held hRoom hOld).recordSize_eq
  rw [liveBytes, hRest, if_pos hLast, hNew.1, hNew.2.1]

end Insertion

------------------------------------------------------------
-- Removal
------------------------------------------------------------

section Removal

variable {free : Nat} (hRegular : Regular m page)
  (hLive : Live m page k)

include hRegular hLive

theorem dropped_held
    (hNe : l ≠ k)
    (hOther : Live m page l) :
    Held m (dropped m page k free) page l := by
  have hLow := hRegular.slot_ge hLive
  have hSlot : slot (dropped m page k free) page l =
      slot m page l :=
    dropped_slot_of_ne hLow hNe hOther.1
  have hApart := hRegular.disjoint l k hNe hOther hLive
  refine ⟨⟨?_, ?_⟩, hSlot, ?_⟩
  · rw [(dropped_header hLow).2.1]
    exact hOther.1
  · rw [hSlot]
    exact hOther.2
  · apply dropped_above hLive.1 (hRegular.slot_ge hOther)
    rcases hApart with hBelow | hAfter
    · exact Or.inl hBelow
    · right
      simp only [extent] at hAfter
      omega

theorem dropped_only :
    Live (dropped m page k free) page l ↔
      l ≠ k ∧ Live m page l := by
  have hLow := hRegular.slot_ge hLive
  constructor
  · intro hl
    have hNe : l ≠ k := by
      intro hEq
      apply hl.2
      rw [hEq]
      exact dropped_slot_self hLow hLive.1
    have hIn : l < numSlots m page :=
      (dropped_header hLow).2.1 ▸ hl.1
    have hSlot : slot (dropped m page k free) page l =
        slot m page l :=
      dropped_slot_of_ne hLow hNe hIn
    exact ⟨hNe, hIn, hSlot ▸ hl.2⟩
  · intro hl
    exact (hRegular.dropped_held hLive hl.1 hl.2).live

theorem drop
    (free : Nat) :
    Regular (dropped m page k free) page := by
  have hHeader := @dropped_header m page k free
    (hRegular.slot_ge hLive)
  apply hRegular.of_held
  · refine ⟨?_, ?_, ?_⟩
    · rw [hHeader.2.1, hHeader.2.2.1]
      exact hRegular.slots
    · rw [hHeader.2.2.1, hHeader.2.2.2.1]
      exact hRegular.room
    · rw [hHeader.2.2.2.1]
      exact hRegular.bound
  · rw [hHeader.2.2.2.1]
  · intro l hl
    have hOld := (hRegular.dropped_only hLive).mp hl
    exact ⟨hOld.2, hRegular.dropped_held hLive hOld.1 hOld.2⟩

/- The live records but for the one removed. -/
theorem liveBytes_drop
    (w free : Nat) :
    liveBytes w (dropped m page k free) page
        (numSlots m page) +
          (recordSize m (page + slot m page k) + w) =
      liveBytes w m page (numSlots m page) := by
  apply liveBytes_dropped hLive.1 hLive
  · intro l _
    exact hRegular.dropped_only hLive
  · intro l _ hNe hl
    exact (hRegular.dropped_held hLive hNe hl).recordSize_eq

end Removal

end Regular

end Page

/- A good page is regular. -/
theorem Page.Good.regular
    {m : Memory}
    {page : Nat}
    (hGood : Page.Good m page) :
    Page.Regular m page := by
  have hFormed := hGood.formed
  refine ⟨hGood.shape, ?_, hFormed.inside, hFormed.disjoint⟩
  intro k hk
  exact (hGood.record k hk).flag

------------------------------------------------------------
-- Operations on a Regular Page
------------------------------------------------------------

namespace DmsFile

variable {s t : DmsFile} {record : BSONObj}
  {pageID page k : Nat}

/-
  The record is in the new last slot of the page, found under
  the id returned, and the other live records are held.
-/
structure InsertedAt
    (s : DmsFile)
    (pageID page : Nat)
    (record : BSONObj)
    (r : InsertResult) : Prop where
  code : r.rc = edbOk
  rid : ∃ data, r.written =
    some (data, ⟨pageID, Page.numSlots s.file page⟩)
  regular : Page.Regular r.state.file page
  outside : Page.Local s.file r.state.file page
  held : ∀ k, Page.Live s.file page k →
    Page.Held s.file r.state.file page k
  found : ∃ o,
    r.state.find ⟨pageID, Page.numSlots s.file page⟩ =
      .ok (edbOk, some o) ∧
    o.document = record.document

/-
  The slot is empty and the id is no longer accepted; the
  other slots and the other live records are held.
-/
structure RemovedAt
    (s t : DmsFile)
    (page : Nat)
    (rid : DmsRecordID) : Prop where
  regular : Page.Regular t.file page
  outside : Page.Local s.file t.file page
  count : Page.numSlots t.file page =
    Page.numSlots s.file page
  empty : Page.slot t.file page rid.slotID = dmsSlotEmpty
  slots : ∀ l < Page.numSlots s.file page, l ≠ rid.slotID →
    Page.slot t.file page l = Page.slot s.file page l
  held : ∀ l, l ≠ rid.slotID → Page.Live s.file page l →
    Page.Held s.file t.file page l
  find : t.find rid = .ok (edbSys, none)
  remove : t.remove rid = (edbSys, t)

/- A page id that is accepted is not the invalid one. -/
theorem pageID_ne_invalid
    (hPage : s.pageToOffset pageID = some page) :
    pageID ≠ dmsInvalidPageID := by
  have hLess : pageID < s.getNumPages := by
    by_contra hMore
    rw [pageToOffset, if_pos (Nat.le_of_not_lt hMore)]
      at hPage
    cases hPage
  simp only [getNumPages, dmsPagesPerSegment] at hLess
  simp only [dmsInvalidPageID]
  omega

/- What a lookup of a slot with a normal record returns. -/
theorem find_of_slot
    {rid : DmsRecordID}
    (hPage : s.pageToOffset rid.pageID = some page)
    (hLive : Page.Live s.file page rid.slotID)
    (hFlag : Page.recordFlag s.file
      (page + Page.slot s.file page rid.slotID) =
        dmsRecordFlagNormal) :
    s.find rid =
      (BSONObj.ofData s.file
        (page + Page.slot s.file page rid.slotID +
          sizeofRecord)).map
        (fun o => (edbOk, some o)) := by
  have hSearch : s.searchSlot page rid =
      (edbOk, Page.slot s.file page rid.slotID) := by
    rw [searchSlot, if_neg (Nat.not_lt_of_lt hLive.1)]
  unfold find
  simp only [hPage, hSearch]
  rw [if_neg (by simp), if_neg hLive.2, hFlag,
    if_neg (by decide)]
  rfl

/- A lookup or a removal of an empty slot fails. -/
theorem rejected_of_empty
    {rid : DmsRecordID}
    (hPage : s.pageToOffset rid.pageID = some page)
    (hIn : rid.slotID ≤ Page.numSlots s.file page)
    (hEmpty : Page.slot s.file page rid.slotID =
      dmsSlotEmpty) :
    s.find rid = .ok (edbSys, none) ∧
      s.remove rid = (edbSys, s) := by
  have hSearch : s.searchSlot page rid =
      (edbOk, dmsSlotEmpty) := by
    rw [searchSlot, if_neg (Nat.not_lt_of_le hIn), hEmpty]
  unfold find remove
  simp only [hPage, hSearch]
  simp

------------------------------------------------------------
-- Insertion
------------------------------------------------------------

/- A record that is too large has no room on a page. -/
theorem small_of_room
    (hRegular : Page.Regular s.file page)
    (hRoom : Page.Room s.file page record.length) :
    record.length ≤ dmsMaxRecord := by
  have hLow := hRegular.toShape.header_le
  have hBound := hRegular.bound
  simp only [Page.Room, sizeofPageHeader, sizeofRecord,
    sizeofSlot, dmsPageSize] at hRoom hLow hBound
  simp only [dmsMaxRecord, dmsPageSize, sizeofHeader,
    sizeofRecord, sizeofSlot]
  omega

section Insertion

variable (hPage : s.pageToOffset pageID = some page)
  (hRegular : Page.Regular s.file page)

include hPage hRegular

/- The lookup of the record that was inserted. -/
theorem find_inserted
    (hRoom : Page.Room s.file page record.length)
    (hFour : 4 ≤ record.length)
    (hValid : record.isValid = true)
    (free : Nat)
    (M : MultiMap Nat Nat) :
    (s.withPage (Page.inserted s.file page record free)
        M).find ⟨pageID, Page.numSlots s.file page⟩ =
      .ok (edbOk,
        some ⟨Page.inserted s.file page record free,
          page + offsetData s.file page record.length +
            sizeofRecord⟩) := by
  have hShape := hRegular.toShape
  have hBound := hShape.bound
  have hOffset := hShape.offsetData_eq hRoom
  simp only [dmsPageSize] at hBound
  have hNew := @Page.inserted_new s.file page record free
    hShape hRoom (by omega)
  have hHeader := @Page.inserted_header s.file page record
    free hShape hRoom
  have hData := @Page.inserted_data s.file page record free
    hShape hRoom
  have hLive : Page.Live
      (Page.inserted s.file page record free) page
      (Page.numSlots s.file page) := by
    refine ⟨?_, ?_⟩
    · rw [hHeader.2.1]
      exact Nat.lt_succ_self _
    · rw [hNew.1]
      simp only [dmsSlotEmpty]
      omega
  let t := s.withPage (Page.inserted s.file page record free) M
  let rid : DmsRecordID :=
    ⟨pageID, Page.numSlots s.file page⟩
  have hFlag : Page.recordFlag t.file
      (page + Page.slot t.file page rid.slotID) =
        dmsRecordFlagNormal := by
    simp only [t, rid, withPage, hNew.1]
    exact hNew.2.2
  have hFind := @find_of_slot t page rid hPage hLive hFlag
  simp only [t, rid, withPage, hNew.1] at hFind
  rw [BSONObj.ofData_of_same hFour hValid hData] at hFind
  exact hFind

/- A write to a regular page with room. -/
theorem insertRecord_local
    (hRoom : Page.Room s.file page record.length)
    (hFour : 4 ≤ record.length)
    (hValid : record.isValid = true) :
    ∃ r, s.insertRecord page pageID record edbOk = .ok r ∧
      InsertedAt s pageID page record r := by
  have hShape := hRegular.toShape
  have hBound := hShape.bound
  have hOffset := hShape.offsetData_eq hRoom
  have hSize : record.length < 4294967296 := by
    simp only [dmsPageSize] at hBound
    omega
  have hHeld : ∀ k, Page.Live s.file page k →
      Page.Held s.file (Page.inserted s.file page record
        (remaining s.file page record.length)) page k :=
    fun k hk => hRegular.inserted_held hRoom hk
  have hFind := find_inserted hPage hRegular hRoom hFour
    hValid (remaining s.file page record.length)
  have hData := @Page.inserted_data s.file page record
    (remaining s.file page record.length) hShape hRoom
  refine ⟨_, insertRecord_valid hShape hRoom hFour hValid _,
    rfl, ⟨_, rfl⟩, hRegular.insert hRoom hSize _,
    Page.inserted_local hShape hRoom, hHeld, _, hFind _, ?_⟩
  exact BSONObj.document_of_same hFour hData

/-
  An insertion, or its next turn after an extension, on the
  page that it finds.
-/
theorem insertLoop_local
    (hFound : s.findPage record.length = pageID)
    (hStay : needsRecover s.file page record.length = false)
    (hFour : 4 ≤ record.length)
    (hValid : record.isValid = true)
    (exts : List Extension)
    {rc : Int}
    (hCode : rc = edbOk ∨ dmsMaxRecord < record.length) :
    (∃ rc', rc' ≠ edbOk ∧
      insertLoop record exts rc s = .ok ⟨rc', s, none⟩) ∨
    ∃ r, insertLoop record exts rc s = .ok r ∧
      InsertedAt s pageID page record r := by
  have hSys : edbSys ≠ edbOk := by decide
  have hSame : s.prepared page record.length = s := by
    rw [prepared, hStay, if_neg (by simp)]
  rw [insertLoop_found (hFound ▸ pageID_ne_invalid hPage),
    hFound, insertPage_eq hPage, hSame]
  split
  · exact Or.inl ⟨edbSys, hSys, rfl⟩
  · split
    · exact Or.inl ⟨edbSys, hSys, rfl⟩
    · rename_i _ hCheck
      have hRoom := room_of_noRoom hRegular.toShape
        (Bool.eq_false_iff.mpr hCheck)
      have hSmall := small_of_room hRegular hRoom
      have hOk : rc = edbOk := by
        rcases hCode with hOk | hLarge
        · exact hOk
        · omega
      rw [hOk]
      exact Or.inr (insertRecord_local hPage hRegular hRoom
        hFour hValid)

end Insertion

------------------------------------------------------------
-- Removal
------------------------------------------------------------

/- A removal of a live slot of a regular page. -/
theorem remove_local
    (hPage : s.pageToOffset pageID = some page)
    (hRegular : Page.Regular s.file page)
    (hLive : Page.Live s.file page k) :
    ∃ t, s.remove ⟨pageID, k⟩ = (edbOk, t) ∧
      RemovedAt s t page ⟨pageID, k⟩ := by
  have hLow := hRegular.slot_ge hLive
  have hHigh := (hRegular.inside k hLive).2
  have hHeader := @Page.dropped_header s.file page k
    (regained s.file page k) hLow
  have hEmpty : Page.slot
      (Page.dropped s.file page k (regained s.file page k))
      page k = dmsSlotEmpty :=
    Page.dropped_slot_self hLow hLive.1
  have hReject : ∀ M : MultiMap Nat Nat,
      (s.withPage (Page.dropped s.file page k
        (regained s.file page k)) M).find ⟨pageID, k⟩ =
          .ok (edbSys, none) ∧
      (s.withPage (Page.dropped s.file page k
        (regained s.file page k)) M).remove ⟨pageID, k⟩ =
          (edbSys, s.withPage (Page.dropped s.file page k
            (regained s.file page k)) M) := by
    intro M
    have hIn : k ≤ Page.numSlots
        (Page.dropped s.file page k (regained s.file page k))
        page := by
      rw [hHeader.2.1]
      exact hLive.1.le
    exact @rejected_of_empty
      (s.withPage (Page.dropped s.file page k
        (regained s.file page k)) M)
      page ⟨pageID, k⟩ hPage hIn hEmpty
  have hOutside : Page.Local s.file
      (Page.dropped s.file page k (regained s.file page k))
      page := by
    apply Page.dropped_local hLow hLive.1
    simp only [Page.extent] at hHigh
    omega
  refine ⟨_, @remove_eq s ⟨pageID, k⟩ page hPage hLive hLow,
    hRegular.drop hLive _, hOutside, hHeader.2.1, hEmpty,
    ?_, ?_, (hReject _).1, (hReject _).2⟩
  · intro l hl hNe
    exact Page.dropped_slot_of_ne hLow hNe hl
  · intro l hNe hl
    exact hRegular.dropped_held hLive hNe hl

/-
  On a regular page, an insertion that does not reorganise
  it fails without effect or adds its record in the new last
  slot, and a removal of a live slot empties that slot; all
  other live records stay where they are, byte for byte.
-/
theorem slotPage_local
    (hPage : s.pageToOffset pageID = some page)
    (hRegular : Page.Regular s.file page) :
    (∀ record : BSONObj, 5 ≤ record.objsize →
      record.objsize ≤ (bsonObjMaxInternalSize : Int) →
      s.findPage record.length = pageID →
      needsRecover s.file page record.length = false →
      ∀ exts call,
        call = s.insert exts record ∨
          call = insertLoop record exts edbOk s →
        (∃ rc, rc ≠ edbOk ∧ call = .ok ⟨rc, s, none⟩) ∨
        ∃ r, call = .ok r ∧
          InsertedAt s pageID page record r) ∧
    (∀ k, Page.Live s.file page k →
      ∃ t, s.remove ⟨pageID, k⟩ = (edbOk, t) ∧
        RemovedAt s t page ⟨pageID, k⟩) := by
  refine ⟨?_, fun k hk => remove_local hPage hRegular hk⟩
  intro record hFive hMax hFound hStay exts call hCall
  have hFour : 4 ≤ record.length := by
    unfold BSONObj.length
    omega
  have hValid : record.isValid = true := by
    rw [BSONObj.isValid, decide_eq_true_iff]
    exact ⟨by omega, hMax⟩
  rcases hCall with rfl | rfl
  · -- the size check has set the code
    unfold insert
    apply insertLoop_local hPage hRegular hFound hStay hFour
      hValid
    by_cases hLarge : dmsMaxRecord < record.length
    · exact Or.inr hLarge
    · exact Or.inl (if_neg hLarge)
  · exact insertLoop_local hPage hRegular hFound hStay hFour
      hValid exts (Or.inl rfl)

/- The first page of a file with one document. -/
theorem slotPage_local_oneDocument :
    (∀ record : BSONObj, 5 ≤ record.objsize →
      record.objsize ≤ (bsonObjMaxInternalSize : Int) →
      oneDocument.findPage record.length = 0 →
      needsRecover oneDocument.file (pageAddress 0)
        record.length = false →
      ∀ exts call,
        call = oneDocument.insert exts record ∨
          call = insertLoop record exts edbOk oneDocument →
        (∃ rc, rc ≠ edbOk ∧
          call = .ok ⟨rc, oneDocument, none⟩) ∨
        ∃ r, call = .ok r ∧
          InsertedAt oneDocument 0 (pageAddress 0) record r) ∧
    (∀ k, Page.Live oneDocument.file (pageAddress 0) k →
      ∃ t, oneDocument.remove ⟨0, k⟩ = (edbOk, t) ∧
        RemovedAt oneDocument t (pageAddress 0) ⟨0, k⟩) := by
  have hIn : 0 < oneDocument.numPages := by
    rw [numPages, oneDocument_body]
    decide
  exact slotPage_local
    (good_oneDocument.pageToOffset_of_lt hIn)
    (good_oneDocument.page 0 hIn).regular

end DmsFile

end EmeraldDb
