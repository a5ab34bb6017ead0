import EmeraldDb.Dms.File

/-
  The invariant of a slotted page and how an insertion, a
  removal and a change elsewhere keep it.

  The slot list ends where the free space starts; live
  records lie above the free offset, one below the other in
  slot order, and each holds a well-formed object.

  Key definitions include:
    * `Page.Live`
    * `Page.Good`

  Key results include:
    * `Page.Good.frame`
    * `Page.Good.insert`
    * `Page.Good.drop`
    * `Page.Good.recoverSpace_of_no_live`
    * `Page.fresh_initHeader`
-/

namespace EmeraldDb

namespace Page

variable {m m' : Memory} {page : Nat}

------------------------------------------------------------
-- Live Slots
------------------------------------------------------------

/- A slot of the slot list that is not empty. -/
def Live (m : Memory) (page k : Nat) : Prop :=
  k < numSlots m page ∧ slot m page k ≠ dmsSlotEmpty

instance (m : Memory) (page k : Nat) :
    Decidable (Live m page k) :=
  inferInstanceAs (Decidable (_ ∧ _))

/- The object of the record in a slot. -/
def object (m : Memory) (page k : Nat) : BSONObj :=
  ⟨m, page + slot m page k + sizeofRecord⟩

/- The slot points to a complete record of the page. -/
structure Record (m : Memory) (page k : Nat) : Prop where
  low : freeOffset m page ≤ slot m page k
  high : slot m page k + sizeofRecord +
    (object m page k).length ≤ dmsPageSize
  size : recordSize m (page + slot m page k) =
    (object m page k).length
  flag : recordFlag m (page + slot m page k) =
    dmsRecordFlagNormal
  form : (object m page k).WellFormed

structure Good (m : Memory) (page : Nat) : Prop where
  magic : Page.magic m page = dmsPageMagic
  slots : slotOffset m page =
    sizeofPageHeader + numSlots m page * sizeofSlot
  room : slotOffset m page ≤ freeOffset m page
  bound : freeOffset m page ≤ dmsPageSize
  record : ∀ k, Live m page k → Record m page k
  order : ∀ k l, k < l → Live m page k → Live m page l →
    slot m page l + sizeofRecord +
      (object m page l).length ≤ slot m page k

/- The slot list ends below the free offset of the page. -/
structure Shape (m : Memory) (page : Nat) : Prop where
  slots : slotOffset m page =
    sizeofPageHeader + numSlots m page * sizeofSlot
  room : slotOffset m page ≤ freeOffset m page
  bound : freeOffset m page ≤ dmsPageSize

theorem Good.shape
    (hGood : Good m page) :
    Shape m page :=
  ⟨hGood.slots, hGood.room, hGood.bound⟩

/- A record moved to another memory with its slot. -/
theorem Record.congr
    {k : Nat}
    (hRecord : Record m page k)
    (hSlot : slot m' page k = slot m page k)
    (hLow : freeOffset m' page ≤ slot m page k)
    (hSame : Memory.Same m (page + slot m page k) m'
      (page + slot m page k)
      (sizeofRecord + (object m page k).length)) :
    Record m' page k ∧
      (object m' page k).length =
        (object m page k).length := by
  have hForm := hRecord.form
  have hData : Memory.Same (object m page k).mem
      (object m page k).objdata (object m' page k).mem
      (object m' page k).objdata
      (object m page k).length := by
    unfold object
    rw [hSlot]
    exact hSame.slice (k := sizeofRecord) (le_refl _)
  have hObject := hForm.length_congr _ hData
  refine ⟨⟨?_, ?_, ?_, ?_, hForm.congr _ hData⟩, hObject⟩
  · rw [hSlot]
    exact hLow
  · rw [hSlot, hObject]
    exact hRecord.high
  · rw [hSlot, hObject, ← hRecord.size]
    exact (hSame.word (by simp only [sizeofRecord]; omega)).symm
  · rw [hSlot, ← hRecord.flag]
    have hFlag := hSame.slice (k := 4) (l := 4)
      (by simp only [sizeofRecord]; omega)
    exact (hFlag.word (le_refl _)).symm

------------------------------------------------------------
-- Changes Elsewhere
------------------------------------------------------------

/- A field of a page in two memories that agree on it. -/
theorem Good.field_frame
    (hSame : Memory.Same m page m' page dmsPageSize)
    {d : Nat}
    (hField : d + 4 ≤ dmsPageSize) :
    m'.word (page + d) = m.word (page + d) :=
  ((hSame.slice (l := 4) hField).word (le_refl _)).symm

namespace Shape

theorem numSlots_lt
    (hShape : Shape m page) :
    numSlots m page * sizeofSlot + sizeofPageHeader ≤
      dmsPageSize := by
  have hSlots := hShape.slots
  have hRoom := hShape.room
  have hBound := hShape.bound
  rw [Nat.add_comm, ← hSlots]
  exact hRoom.trans hBound

variable (hShape : Shape m page)
  (hSame : Memory.Same m page m' page dmsPageSize)

include hShape hSame

theorem slot_frame
    {k : Nat}
    (hSlot : k < numSlots m page) :
    slot m' page k = slot m page k := by
  have hFits := hShape.numSlots_lt
  have hField := Good.field_frame hSame
    (d := sizeofPageHeader + k * sizeofSlot) (by
      simp only [sizeofSlot, sizeofPageHeader] at *
      omega)
  simpa only [slot, slotAddress, ← Nat.add_assoc] using hField

theorem live_frame
    (k : Nat) :
    Live m' page k ↔ Live m page k := by
  have hCount : numSlots m' page = numSlots m page :=
    Good.field_frame hSame (by decide)
  unfold Live
  rw [hCount]
  constructor
  · intro hk
    exact ⟨hk.1, hShape.slot_frame hSame hk.1 ▸ hk.2⟩
  · intro hk
    exact ⟨hk.1, (hShape.slot_frame hSame hk.1).symm ▸ hk.2⟩

theorem frame :
    Shape m' page := by
  have hCount : numSlots m' page = numSlots m page :=
    Good.field_frame hSame (by decide)
  have hSlotOffset : slotOffset m' page = slotOffset m page :=
    Good.field_frame hSame (by decide)
  have hFreeOffset : freeOffset m' page = freeOffset m page :=
    Good.field_frame hSame (by decide)
  refine ⟨?_, ?_, ?_⟩
  · rw [hSlotOffset, hCount]
    exact hShape.slots
  · rw [hSlotOffset, hFreeOffset]
    exact hShape.room
  · rw [hFreeOffset]
    exact hShape.bound

end Shape

namespace Good

/- A page that is not written keeps its invariant. -/
theorem frame
    (hGood : Good m page)
    (hSame : Memory.Same m page m' page dmsPageSize) :
    Good m' page := by
  have hShape := hGood.shape.frame hSame
  have hMagic : m'.word page = m.word page := by
    simpa using field_frame hSame (d := 0) (by decide)
  have hFreeOffset : freeOffset m' page = freeOffset m page :=
    field_frame hSame (by decide)
  have hLive : ∀ k, Live m' page k → Live m page k :=
    fun k hk => (hGood.shape.live_frame hSame k).mp hk
  have hRecord : ∀ k, Live m page k → Record m' page k ∧
      (object m' page k).length =
        (object m page k).length := by
    intro k hk
    have hOld := hGood.record k hk
    apply hOld.congr (hGood.shape.slot_frame hSame hk.1)
    · rw [hFreeOffset]
      exact hOld.low
    · exact hSame.slice (by rw [← Nat.add_assoc]; exact hOld.high)
  refine ⟨?_, hShape.slots, hShape.room, hShape.bound, ?_,
    ?_⟩
  · rw [Page.magic, hMagic]
    exact hGood.magic
  · intro k hk
    exact (hRecord k (hLive k hk)).1
  · intro k l hLess hk hl
    rw [(hRecord l (hLive l hl)).2,
      hGood.shape.slot_frame hSame (hLive k hk).1,
      hGood.shape.slot_frame hSame (hLive l hl).1]
    exact hGood.order k l hLess (hLive k hk) (hLive l hl)

end Good

------------------------------------------------------------
-- Changes to a Page
------------------------------------------------------------

/- A slot and its record are the same in both memories. -/
structure Kept (m m' : Memory) (page k : Nat) : Prop where
  live : Live m' page k
  slot : Page.slot m' page k = Page.slot m page k
  same : Memory.Same m (page + Page.slot m page k) m'
    (page + Page.slot m page k)
    (sizeofRecord + (object m page k).length)

/- Nothing outside the page is different. -/
def Local (m m' : Memory) (page : Nat) : Prop :=
  ∀ x, x < page ∨ page + dmsPageSize ≤ x → m' x = m x

/- The object of a record that is kept. -/
theorem Kept.object_same
    {k : Nat}
    (hKept : Kept m m' page k) :
    Memory.Same (object m page k).mem
      (object m page k).objdata (object m' page k).mem
      (object m' page k).objdata
      (object m page k).length := by
  unfold object
  rw [hKept.slot]
  exact hKept.same.slice (k := sizeofRecord) (le_refl _)

/- A change inside one page is no change to another. -/
theorem Local.same
    (hLocal : Local m m' page)
    {a n : Nat}
    (hApart : a + n ≤ page ∨ page + dmsPageSize ≤ a) :
    Memory.Same m a m' a n := by
  intro i hi
  exact (hLocal (a + i) (by omega)).symm

/-
  What an insertion does to its page: the record is in the
  new last slot, every other live record is kept.
-/
structure Inserted
    (m m' : Memory)
    (page : Nat)
    (record : BSONObj) : Prop where
  good : Good m' page
  outside : Local m m' page
  kept : ∀ k, Live m page k → Kept m m' page k
  new : Live m' page (numSlots m page)
  only : ∀ k, Live m' page k →
    k = numSlots m page ∨ Live m page k
  data : Memory.Same record.mem record.objdata m'
    (object m' page (numSlots m page)).objdata record.length

/-
  What a removal does to its page: every live record but
  the one in the slot is kept.
-/
structure Dropped
    (m m' : Memory)
    (page slotID : Nat) : Prop where
  good : Good m' page
  outside : Local m m' page
  kept : ∀ k, k ≠ slotID → Live m page k → Kept m m' page k
  only : ∀ k, Live m' page k ↔ k ≠ slotID ∧ Live m page k

------------------------------------------------------------
-- Insertion
------------------------------------------------------------

section Insertion

open DmsFile

/- The memory after an insertion with new free space. -/
def inserted
    (m : Memory)
    (page : Nat)
    (record : BSONObj)
    (free : Nat) : Memory :=
  (writeMetadata (writeRecord m page record) page
    (offsetData m page record.length)).setWord (page + 20)
      free

/- There are `n` bytes, a header and a slot of free space. -/
def Room (m : Memory) (page n : Nat) : Prop :=
  slotOffset m page + (n + sizeofRecord + sizeofSlot) ≤
    freeOffset m page

variable {record : BSONObj} {free : Nat}

theorem Shape.offsetData_eq
    (hShape : Shape m page)
    {n : Nat}
    (hRoom : Room m page n) :
    offsetData m page n + sizeofRecord + n =
      freeOffset m page := by
  have hBound := hShape.bound
  simp only [Room, offsetData, dmsPageSize, sizeofRecord,
    sizeofSlot] at hRoom hBound ⊢
  rw [subWord_of_le (a := freeOffset m page) (by omega)
    (by omega), subWord_of_le (by omega) (by omega)]
  omega

/-
  The insertion writes the header, the new slot and the free
  bytes below the free offset.
-/
theorem inserted_of_disjoint
    (hShape : Shape m page)
    (hRoom : Room m page record.length)
    {x : Nat}
    (hHeader : x < page ∨ page + sizeofPageHeader ≤ x)
    (hSlot : x < page + slotOffset m page ∨
      page + slotOffset m page + sizeofSlot ≤ x)
    (hData : x < page + offsetData m page record.length ∨
      page + freeOffset m page ≤ x) :
    inserted m page record free x = m x := by
  have hOffset := hShape.offsetData_eq hRoom
  simp only [sizeofPageHeader, sizeofSlot, sizeofRecord]
    at hHeader hSlot hOffset
  unfold inserted writeMetadata writeRecord
  simp only
  rw [Memory.setWord_of_disjoint _ _ _ (by omega),
    Memory.setWord_of_disjoint _ _ _ (by omega),
    Memory.setWord_of_disjoint _ _ _ (by omega),
    Memory.setWord_of_disjoint _ _ _ (by omega),
    Memory.copy_of_disjoint _ _ _ _ _
      (by simp only [sizeofRecord]; omega),
    Memory.setWord_of_disjoint _ _ _ (by omega),
    Memory.setWord_of_disjoint _ _ _ (by omega),
    Memory.setWord_of_disjoint _ _ _ (by omega)]

/- An insertion writes to its page alone. -/
theorem inserted_local
    (hShape : Shape m page)
    (hRoom : Room m page record.length) :
    Local m (inserted m page record free) page := by
  have hBound := hShape.bound
  have hSlots := hShape.slots
  have hRoom' := hRoom
  simp only [Room, sizeofPageHeader, sizeofSlot, sizeofRecord,
    dmsPageSize] at hRoom' hBound hSlots
  intro x hx
  simp only [dmsPageSize] at hx
  apply inserted_of_disjoint hShape hRoom
  · simp only [sizeofPageHeader]
    omega
  · simp only [sizeofSlot]
    omega
  · omega

/- A word of the page header lies below the slot list. -/
theorem Shape.header_le
    (hShape : Shape m page) :
    sizeofPageHeader ≤ slotOffset m page := by
  rw [hShape.slots]
  omega

theorem word_writeRecord
    (hShape : Shape m page)
    (hRoom : Room m page record.length)
    {d : Nat}
    (hHeader : d + 4 ≤ sizeofPageHeader) :
    (writeRecord m page record).word (page + d) =
      m.word (page + d) := by
  have hOffset := hShape.offsetData_eq hRoom
  have hLow := hShape.header_le
  simp only [Room, sizeofPageHeader, sizeofSlot, sizeofRecord]
    at hRoom hHeader hOffset hLow
  unfold writeRecord
  simp (disch := omega) only [sizeofRecord,
    Memory.word_setWord_of_disjoint,
    Memory.word_copy_of_disjoint]

/- The header fields after an insertion. -/
theorem inserted_header
    (hShape : Shape m page)
    (hRoom : Room m page record.length) :
    magic (inserted m page record free) page =
        magic m page ∧
      numSlots (inserted m page record free) page =
        numSlots m page + 1 ∧
      slotOffset (inserted m page record free) page =
        slotOffset m page + sizeofSlot ∧
      freeOffset (inserted m page record free) page =
        offsetData m page record.length ∧
      freeSpace (inserted m page record free) page =
        free % 4294967296 := by
  have hOffset := hShape.offsetData_eq hRoom
  have hBound := hShape.bound
  have hSlots := hShape.slots
  have hCount : (writeRecord m page record).word (page + 12) =
      m.word (page + 12) :=
    word_writeRecord hShape hRoom (by decide)
  have hSlot : (writeRecord m page record).word (page + 16) =
      m.word (page + 16) :=
    word_writeRecord hShape hRoom (by decide)
  have hFirst : (writeRecord m page record).word page =
      m.word page := by
    simpa using word_writeRecord hShape hRoom
      (d := 0) (by decide)
  simp only [Room, sizeofPageHeader, sizeofSlot, sizeofRecord,
    dmsPageSize, slotOffset, freeOffset, numSlots]
    at hRoom hOffset hBound hSlots
  unfold inserted writeMetadata
  simp (disch := omega) only [magic, numSlots, slotOffset,
    freeOffset, freeSpace, Memory.word_setWord_of_disjoint,
    Memory.word_setWord, hCount, hSlot, hFirst,
    sizeofSlot, true_and, and_true]
  refine ⟨?_, ?_, ?_⟩
  · exact Nat.mod_eq_of_lt (by omega)
  · exact Nat.mod_eq_of_lt (by omega)
  · exact Nat.mod_eq_of_lt (by omega)

/- The slot list after an insertion. -/
theorem inserted_slot
    (hShape : Shape m page)
    (hRoom : Room m page record.length)
    {k : Nat}
    (hSlot : k < numSlots m page) :
    slot (inserted m page record free) page k =
      slot m page k := by
  have hOffset := hShape.offsetData_eq hRoom
  have hSlots := hShape.slots
  simp only [Room, sizeofPageHeader, sizeofSlot, sizeofRecord]
    at hRoom hOffset hSlots
  apply Memory.word_congr
  intro i hi
  apply inserted_of_disjoint hShape hRoom
  · right
    simp only [slotAddress]
    omega
  · left
    simp only [slotAddress, sizeofPageHeader, sizeofSlot]
    omega
  · left
    simp only [slotAddress, sizeofPageHeader, sizeofSlot]
    omega

/- The words of the new slot and of the record header. -/
theorem inserted_new
    (hShape : Shape m page)
    (hRoom : Room m page record.length)
    (hSize : record.length < 4294967296) :
    slot (inserted m page record free) page
        (numSlots m page) =
        offsetData m page record.length ∧
      recordSize (inserted m page record free)
        (page + offsetData m page record.length) =
        record.length ∧
      recordFlag (inserted m page record free)
        (page + offsetData m page record.length) =
        dmsRecordFlagNormal := by
  have hOffset := hShape.offsetData_eq hRoom
  have hBound := hShape.bound
  have hSlots := hShape.slots
  have hAddress : slotAddress page (numSlots m page) =
      page + slotOffset m page := by
    rw [hSlots, slotAddress, Nat.add_assoc]
  simp only [Room, sizeofPageHeader, sizeofSlot, sizeofRecord,
    dmsPageSize] at hRoom hOffset hBound hSlots
  unfold slot recordSize recordFlag
  rw [hAddress]
  unfold inserted writeMetadata writeRecord
  simp (disch := omega) only [sizeofRecord, sizeofSlot,
    Memory.word_setWord_of_disjoint,
    Memory.word_copy_of_disjoint, Memory.word_setWord]
  refine ⟨?_, ?_, rfl⟩
  · exact Nat.mod_eq_of_lt (by omega)
  · exact Nat.mod_eq_of_lt hSize

/- The copied bytes of the record. -/
theorem inserted_data
    (hShape : Shape m page)
    (hRoom : Room m page record.length) :
    Memory.Same record.mem record.objdata
      (inserted m page record free)
      (page + offsetData m page record.length + sizeofRecord)
      record.length := by
  have hOffset := hShape.offsetData_eq hRoom
  have hSlots := hShape.slots
  simp only [Room, sizeofPageHeader, sizeofSlot, sizeofRecord]
    at hRoom hOffset hSlots
  intro i hi
  unfold inserted writeMetadata writeRecord
  simp only [sizeofRecord]
  rw [Memory.setWord_of_disjoint _ _ _ (by omega),
    Memory.setWord_of_disjoint _ _ _ (by omega),
    Memory.setWord_of_disjoint _ _ _ (by omega),
    Memory.setWord_of_disjoint _ _ _ (by omega),
    Memory.copy_inside _ _ _ _ _ hi]

/- The bytes above the free offset are kept. -/
theorem inserted_above
    (hShape : Shape m page)
    (hRoom : Room m page record.length)
    {a : Nat}
    (hAbove : freeOffset m page ≤ a)
    (n : Nat) :
    Memory.Same m (page + a)
      (inserted m page record free) (page + a) n := by
  have hHeader := hShape.header_le
  simp only [Room] at hRoom
  intro i hi
  symm
  apply inserted_of_disjoint hShape hRoom
  · right
    omega
  · right
    omega
  · right
    omega

/- An insertion keeps every live record. -/
theorem inserted_kept
    (hGood : Good m page)
    (hRoom : Room m page record.length)
    {k : Nat}
    (hLive : Live m page k) :
    Kept m (inserted m page record free) page k := by
  have hSlot : slot (inserted m page record free) page k =
      slot m page k :=
    inserted_slot hGood.shape hRoom hLive.1
  refine ⟨⟨?_, ?_⟩, hSlot, ?_⟩
  · rw [(inserted_header hGood.shape hRoom).2.1]
    exact Nat.lt_succ_of_lt hLive.1
  · rw [hSlot]
    exact hLive.2
  · exact inserted_above hGood.shape hRoom
      (hGood.record k hLive).low _

/- The record in the new slot. -/
theorem inserted_record
    (hGood : Good m page)
    (hRoom : Room m page record.length)
    (hForm : record.WellFormed) :
    Record (inserted m page record free) page
        (numSlots m page) ∧
      (object (inserted m page record free) page
        (numSlots m page)).length = record.length := by
  have hLength := hForm.length_eq
  simp only [bsonObjMaxInternalSize] at hLength
  have hOffset := hGood.shape.offsetData_eq hRoom
  have hNew := @inserted_new m page record free hGood.shape hRoom
    (by omega)
  have hData : Memory.Same record.mem record.objdata
      (object (inserted m page record free) page
        (numSlots m page)).mem
      (object (inserted m page record free) page
        (numSlots m page)).objdata record.length := by
    unfold object
    rw [hNew.1]
    exact inserted_data hGood.shape hRoom
  have hObject := hForm.length_congr _ hData
  refine ⟨⟨?_, ?_, ?_, ?_, hForm.congr _ hData⟩, hObject⟩
  · rw [(inserted_header hGood.shape hRoom).2.2.2.1, hNew.1]
  · rw [hNew.1, hObject, hOffset]
    exact hGood.bound
  · rw [hNew.1, hNew.2.1, hObject]
  · rw [hNew.1, hNew.2.2]

theorem Good.insert
    (hGood : Good m page)
    (hRoom : Room m page record.length)
    (hForm : record.WellFormed)
    (free : Nat) :
    Inserted m (inserted m page record free) page record := by
  have hHeader := @inserted_header m page record free hGood.shape hRoom
  have hOffset := hGood.shape.offsetData_eq hRoom
  have hNew := @inserted_record m page record free hGood hRoom hForm
  have hSlotNew := (@inserted_new m page record free hGood.shape hRoom (by
    have hLength := hForm.length_eq
    simp only [bsonObjMaxInternalSize] at hLength
    omega)).1
  have hOnly : ∀ k,
      Live (inserted m page record free) page k →
        k = numSlots m page ∨ Live m page k := by
    intro k hk
    have hIn := hk.1
    rw [hHeader.2.1] at hIn
    by_cases hLast : k = numSlots m page
    · exact Or.inl hLast
    · have hOld : k < numSlots m page := by omega
      have hSlot : slot (inserted m page record free) page k =
          slot m page k :=
        inserted_slot hGood.shape hRoom hOld
      exact Or.inr ⟨hOld, hSlot ▸ hk.2⟩
  have hRecord : ∀ k, Live m page k →
      Record (inserted m page record free) page k ∧
        (object (inserted m page record free) page k).length =
          (object m page k).length := by
    intro k hk
    have hKept := @inserted_kept m page record free hGood hRoom k hk
    apply (hGood.record k hk).congr hKept.slot _ hKept.same
    rw [hHeader.2.2.2.1]
    have hLow := (hGood.record k hk).low
    omega
  refine ⟨⟨hHeader.1.trans hGood.magic, ?_, ?_, ?_, ?_, ?_⟩, ?_, ?_, ?_, hOnly,
    ?_⟩
  · rw [hHeader.2.1, hHeader.2.2.1, hGood.slots]
    simp only [sizeofSlot]
    omega
  · rw [hHeader.2.2.1, hHeader.2.2.2.1]
    simp only [Room] at hRoom
    omega
  · rw [hHeader.2.2.2.1]
    have hBound := hGood.bound
    omega
  · intro k hk
    rcases hOnly k hk with rfl | hOld
    · exact hNew.1
    · exact (hRecord k hOld).1
  · intro k l hLess hk hl
    have hOldK : Live m page k := by
      rcases hOnly k hk with rfl | hOld
      · have hIn := hl.1
        rw [hHeader.2.1] at hIn
        omega
      · exact hOld
    rw [inserted_slot hGood.shape hRoom hOldK.1]
    rcases hOnly l hl with rfl | hOldL
    · rw [hSlotNew, hNew.2, hOffset]
      exact (hGood.record k hOldK).low
    · rw [inserted_slot hGood.shape hRoom hOldL.1,
        (hRecord l hOldL).2]
      exact hGood.order k l hLess hOldK hOldL
  · exact inserted_local hGood.shape hRoom
  · intro k hk
    exact inserted_kept hGood hRoom hk
  · refine ⟨?_, ?_⟩
    · rw [hHeader.2.1]
      omega
    · rw [hSlotNew]
      have hBound := hGood.bound
      simp only [dmsPageSize, dmsSlotEmpty] at hBound ⊢
      omega
  · unfold object
    rw [hSlotNew]
    exact inserted_data hGood.shape hRoom

end Insertion

------------------------------------------------------------
-- Removal
------------------------------------------------------------

section Removal

/- The memory after the removal of a slot. -/
def dropped
    (m : Memory)
    (page slotID free : Nat) : Memory :=
  ((m.setWord (slotAddress page slotID)
    dmsSlotEmpty).setWord (page + slot m page slotID + 4)
      dmsRecordFlagDropped).setWord (page + 20) free

variable {k l free : Nat}

/- Two live records do not overlap. -/
theorem Good.apart
    (hGood : Good m page)
    (hK : Live m page k)
    (hL : Live m page l)
    (hNe : l ≠ k) :
    slot m page l + sizeofRecord +
        (object m page l).length ≤ slot m page k ∨
      slot m page k + sizeofRecord +
        (object m page k).length ≤ slot m page l := by
  rcases Nat.lt_or_gt_of_ne hNe with hLess | hMore
  · exact Or.inr (hGood.order l k hLess hL hK)
  · exact Or.inl (hGood.order k l hMore hK hL)

/- A live record lies above the slot list. -/
theorem Good.slot_ge
    (hGood : Good m page)
    (hLive : Live m page k) :
    sizeofPageHeader + numSlots m page * sizeofSlot ≤
      slot m page k := by
  rw [← hGood.slots]
  exact hGood.room.trans (hGood.record k hLive).low

/- The header fields after a removal. -/
theorem dropped_header
    (hLow : sizeofPageHeader + numSlots m page * sizeofSlot ≤
      slot m page k) :
    magic (dropped m page k free) page = magic m page ∧
      numSlots (dropped m page k free) page =
        numSlots m page ∧
      slotOffset (dropped m page k free) page =
        slotOffset m page ∧
      freeOffset (dropped m page k free) page =
        freeOffset m page ∧
      freeSpace (dropped m page k free) page =
        free % 4294967296 := by
  simp only [sizeofPageHeader, sizeofSlot] at hLow
  unfold dropped
  simp (disch := omega) only [magic, numSlots, slotOffset,
    freeOffset, freeSpace, slotAddress, sizeofPageHeader,
    sizeofSlot, Memory.word_setWord_of_disjoint,
    Memory.word_setWord, true_and]

/- A removal writes to its page alone. -/
theorem dropped_local
    (hLow : sizeofPageHeader + numSlots m page * sizeofSlot ≤
      slot m page k)
    (hSlot : k < numSlots m page)
    (hHigh : slot m page k + sizeofRecord ≤ dmsPageSize) :
    Local m (dropped m page k free) page := by
  simp only [sizeofPageHeader, sizeofSlot, sizeofRecord,
    dmsPageSize] at hLow hHigh
  intro x hx
  simp only [dmsPageSize] at hx
  unfold dropped
  rw [Memory.setWord_of_disjoint _ _ _ (by omega),
    Memory.setWord_of_disjoint _ _ _ (by omega),
    Memory.setWord_of_disjoint _ _ _ (by
      simp only [slotAddress, sizeofPageHeader, sizeofSlot]
      omega)]

theorem dropped_slot_self
    (hLow : sizeofPageHeader + numSlots m page * sizeofSlot ≤
      slot m page k)
    (hIn : k < numSlots m page) :
    slot (dropped m page k free) page k = dmsSlotEmpty := by
  simp only [sizeofPageHeader, sizeofSlot] at hLow
  unfold dropped slot
  rw [Memory.word_setWord_of_disjoint _ _ (by
      simp only [slotAddress, sizeofPageHeader]
      omega),
    Memory.word_setWord_of_disjoint _ _ (by
      simp only [slotAddress, sizeofPageHeader, sizeofSlot,
        slot] at *
      omega),
    Memory.word_setWord_of_lt _ _ (by decide)]

theorem dropped_slot_of_ne
    (hLow : sizeofPageHeader + numSlots m page * sizeofSlot ≤
      slot m page k)
    (hNe : l ≠ k)
    (hSlot : l < numSlots m page) :
    slot (dropped m page k free) page l = slot m page l := by
  simp only [sizeofPageHeader, sizeofSlot] at hLow
  unfold dropped slot
  rw [Memory.word_setWord_of_disjoint _ _ (by
      simp only [slotAddress, sizeofPageHeader]
      omega),
    Memory.word_setWord_of_disjoint _ _ (by
      simp only [slotAddress, sizeofPageHeader, sizeofSlot,
        slot] at *
      omega),
    Memory.word_setWord_of_disjoint _ _ (by
      simp only [slotAddress, sizeofSlot]
      omega)]

/- The bytes above the slot list, but for a record header. -/
theorem dropped_above
    (hIn : k < numSlots m page)
    {a n : Nat}
    (hAbove : sizeofPageHeader +
      numSlots m page * sizeofSlot ≤ a)
    (hApart : a + n ≤ slot m page k ∨
      slot m page k + sizeofRecord ≤ a) :
    Memory.Same m (page + a)
      (dropped m page k free) (page + a) n := by
  simp only [sizeofPageHeader, sizeofSlot, sizeofRecord]
    at hAbove hApart
  intro i hi
  unfold dropped
  rw [Memory.setWord_of_disjoint _ _ _ (by omega),
    Memory.setWord_of_disjoint _ _ _ (by omega),
    Memory.setWord_of_disjoint _ _ _ (by
      simp only [slotAddress, sizeofPageHeader, sizeofSlot]
      omega)]

theorem dropped_kept
    (hGood : Good m page)
    (hLive : Live m page k)
    (hNe : l ≠ k)
    (hOther : Live m page l) :
    Kept m (dropped m page k free) page l := by
  have hLow := hGood.slot_ge hLive
  have hSlot : slot (dropped m page k free) page l =
      slot m page l :=
    dropped_slot_of_ne hLow hNe hOther.1
  have hApart := hGood.apart hLive hOther hNe
  refine ⟨⟨?_, ?_⟩, hSlot, ?_⟩
  · rw [(dropped_header hLow).2.1]
    exact hOther.1
  · rw [hSlot]
    exact hOther.2
  · apply dropped_above hLive.1 (hGood.slot_ge hOther)
    omega

theorem Good.drop
    (hGood : Good m page)
    (hLive : Live m page k)
    (free : Nat) :
    Dropped m (dropped m page k free) page k := by
  have hLow := hGood.slot_ge hLive
  have hHeader := @dropped_header m page k free hLow
  have hOnly : ∀ l, Live (dropped m page k free) page l ↔
      l ≠ k ∧ Live m page l := by
    intro l
    constructor
    · intro hl
      have hNe : l ≠ k := by
        intro hEq
        apply hl.2
        rw [hEq]
        exact dropped_slot_self hLow hLive.1
      have hIn : l < numSlots m page := hHeader.2.1 ▸ hl.1
      have hSlot : slot (dropped m page k free) page l =
          slot m page l :=
        dropped_slot_of_ne hLow hNe hIn
      exact ⟨hNe, hIn, hSlot ▸ hl.2⟩
    · intro hl
      exact (dropped_kept hGood hLive hl.1 hl.2).live
  have hRecord : ∀ l, l ≠ k → Live m page l →
      Record (dropped m page k free) page l ∧
        (object (dropped m page k free) page l).length =
          (object m page l).length := by
    intro l hNe hl
    have hKept := @dropped_kept m page k l free hGood hLive hNe hl
    apply (hGood.record l hl).congr hKept.slot _ hKept.same
    rw [hHeader.2.2.2.1]
    exact (hGood.record l hl).low
  refine ⟨⟨?_, ?_, ?_, ?_, ?_, ?_⟩, ?_, ?_, hOnly⟩
  · rw [hHeader.1]
    exact hGood.magic
  · rw [hHeader.2.1, hHeader.2.2.1]
    exact hGood.slots
  · rw [hHeader.2.2.1, hHeader.2.2.2.1]
    exact hGood.room
  · rw [hHeader.2.2.2.1]
    exact hGood.bound
  · intro l hl
    have hOld := (hOnly l).mp hl
    exact (hRecord l hOld.1 hOld.2).1
  · intro i j hLess hi hj
    have hOldI := (hOnly i).mp hi
    have hOldJ := (hOnly j).mp hj
    rw [dropped_slot_of_ne hLow hOldI.1 hOldI.2.1,
      dropped_slot_of_ne hLow hOldJ.1 hOldJ.2.1,
      (hRecord j hOldJ.1 hOldJ.2).2]
    exact hGood.order i j hLess hOldI.2 hOldJ.2
  · apply dropped_local hLow hLive.1
    have hHigh := (hGood.record k hLive).high
    omega
  · intro l hNe hl
    exact dropped_kept hGood hLive hNe hl

end Removal

------------------------------------------------------------
-- Pages Without Live Slots
------------------------------------------------------------

/- A page without live slots is well formed by its header. -/
theorem good_of_no_live
    (hMagic : magic m page = dmsPageMagic)
    (hSlots : slotOffset m page =
      sizeofPageHeader + numSlots m page * sizeofSlot)
    (hRoom : slotOffset m page ≤ freeOffset m page)
    (hBound : freeOffset m page ≤ dmsPageSize)
    (hNone : ∀ k, ¬ Live m page k) :
    Good m page := by
  refine ⟨hMagic, hSlots, hRoom, hBound, ?_, ?_⟩
  · intro k hk
    exact absurd hk (hNone k)
  · intro k l _ hk _
    exact absurd hk (hNone k)

/- The loop over empty slots only notes that there is a hole. -/
theorem recover_of_no_live
    (hNone : ∀ k, ¬ Live m page k)
    (st : Recover)
    (hMem : st.mem = m)
    {n : Nat}
    (hCount : n ≤ numSlots m page) :
    ∃ hole, (List.range n).foldl (recoverStep page) st =
      ⟨m, st.pRight, hole⟩ := by
  induction n with
  | zero => exact ⟨st.isRecover, by simp [← hMem]⟩
  | succ n ih =>
      rcases ih (by omega) with ⟨hole, hLoop⟩
      have hEmpty : slot m page n = dmsSlotEmpty := by
        by_contra hFull
        exact hNone n ⟨hCount, hFull⟩
      rw [List.range_succ, List.foldl_append, hLoop]
      exact ⟨true, by simp [recoverStep, hEmpty]⟩

theorem recoverSpace_of_no_live
    (hNone : ∀ k, ¬ Live m page k) :
    recoverSpace m page =
      m.setWord (page + 24) dmsPageSize := by
  rcases recover_of_no_live hNone ⟨m, dmsPageSize, false⟩ rfl
      (le_refl _) with ⟨hole, hLoop⟩
  unfold recoverSpace
  rw [hLoop]
  rfl

/- Reorganising a page without live slots empties it. -/
theorem Good.recoverSpace
    (hGood : Good m page)
    (hNone : ∀ k, ¬ Live m page k) :
    Good (Page.recoverSpace m page) page ∧
      (∀ k, ¬ Live (Page.recoverSpace m page) page k) ∧
      Local m (Page.recoverSpace m page) page ∧
      numSlots (Page.recoverSpace m page) page =
        numSlots m page ∧
      freeSpace (Page.recoverSpace m page) page =
        freeSpace m page := by
  have hFits := hGood.shape.numSlots_lt
  have hSlots := hGood.slots
  rw [recoverSpace_of_no_live hNone]
  have hCount : numSlots
      (m.setWord (page + 24) dmsPageSize) page =
        numSlots m page :=
    Memory.word_setWord_of_disjoint _ _ (by omega)
  have hSlot : ∀ k,
      slot (m.setWord (page + 24) dmsPageSize) page k =
        slot m page k := by
    intro k
    apply Memory.word_setWord_of_disjoint
    simp only [slotAddress, sizeofPageHeader]
    omega
  have hOffset : slotOffset
      (m.setWord (page + 24) dmsPageSize) page =
        slotOffset m page :=
    Memory.word_setWord_of_disjoint _ _ (by omega)
  have hFree : freeOffset
      (m.setWord (page + 24) dmsPageSize) page =
        dmsPageSize :=
    Memory.word_setWord_of_lt _ _ (by decide)
  have hNone' : ∀ k,
      ¬ Live (m.setWord (page + 24) dmsPageSize) page k := by
    intro k hk
    apply hNone k
    exact ⟨hCount ▸ hk.1, hSlot k ▸ hk.2⟩
  refine ⟨good_of_no_live ?_ ?_ ?_ ?_ hNone', hNone', ?_,
    hCount, ?_⟩
  · rw [← hGood.magic]
    exact Memory.word_setWord_of_disjoint _ _ (by omega)
  · rw [hOffset, hCount]
    exact hSlots
  · rw [hOffset, hFree, hSlots, Nat.add_comm]
    exact hFits
  · rw [hFree]
  · intro x hx
    apply Memory.setWord_of_disjoint
    simp only [dmsPageSize] at hx
    omega
  · exact Memory.word_setWord_of_disjoint _ _ (by omega)

/- The fields of a new page. -/
theorem newHeader_fields :
    newHeader.word 0 = dmsPageMagic ∧
      newHeader.word 12 = 0 ∧
      newHeader.word 16 = sizeofPageHeader ∧
      newHeader.word 20 = dmsPageSize - sizeofPageHeader ∧
      newHeader.word 24 = dmsPageSize := by
  decide +kernel

theorem initHeader_field
    {d : Nat}
    (hField : d + 4 ≤ sizeofPageHeader) :
    (initHeader m page).word (page + d) =
      newHeader.word d := by
  have hSame := (Memory.same_copy m page newHeader 0
    sizeofPageHeader).slice hField
  simpa [initHeader] using hSame.word (le_refl _)

/- All free space lies between the slots and the records. -/
def Tight (m : Memory) (page : Nat) : Prop :=
  slotOffset m page + freeSpace m page = freeOffset m page

/- A page that is not written stays tight. -/
theorem Tight.frame
    (hTight : Tight m page)
    (hSame : Memory.Same m page m' page dmsPageSize) :
    Tight m' page := by
  have hSlot : slotOffset m' page = slotOffset m page :=
    Good.field_frame hSame (by decide)
  have hSpace : freeSpace m' page = freeSpace m page :=
    Good.field_frame hSame (by decide)
  have hOffset : freeOffset m' page = freeOffset m page :=
    Good.field_frame hSame (by decide)
  unfold Tight
  rw [hSlot, hSpace, hOffset]
  exact hTight

/- A page without records, all of it free. -/
structure Fresh (m : Memory) (page : Nat) : Prop where
  good : Good m page
  none : ∀ k, ¬ Live m page k
  free : freeSpace m page = dmsPageSize - sizeofPageHeader
  tight : Tight m page

theorem Fresh.frame
    (hFresh : Fresh m page)
    (hSame : Memory.Same m page m' page dmsPageSize) :
    Fresh m' page := by
  refine ⟨hFresh.good.frame hSame, ?_, ?_,
    hFresh.tight.frame hSame⟩
  · intro k hk
    exact hFresh.none k
      ((hFresh.good.shape.live_frame hSame k).mp hk)
  · rw [← hFresh.free]
    exact Good.field_frame hSame (by decide)

/- The header of a new page makes it a fresh one. -/
theorem fresh_initHeader
    (m : Memory)
    (page : Nat) :
    Fresh (initHeader m page) page := by
  have hFields := newHeader_fields
  have hMagic : (initHeader m page).word page =
      newHeader.word 0 := by
    simpa using initHeader_field (d := 0) (by decide)
  have hCount : numSlots (initHeader m page) page = 0 :=
    (initHeader_field (by decide)).trans hFields.2.1
  have hOffset : slotOffset (initHeader m page) page =
      sizeofPageHeader :=
    (initHeader_field (by decide)).trans hFields.2.2.1
  have hSpace : freeSpace (initHeader m page) page =
      dmsPageSize - sizeofPageHeader :=
    (initHeader_field (by decide)).trans hFields.2.2.2.1
  have hFree : freeOffset (initHeader m page) page =
      dmsPageSize :=
    (initHeader_field (by decide)).trans hFields.2.2.2.2
  have hNone : ∀ k, ¬ Live (initHeader m page) page k := by
    intro k hk
    have hIn := hk.1
    rw [hCount] at hIn
    omega
  refine ⟨good_of_no_live ?_ ?_ ?_ ?_ hNone, hNone, hSpace,
    ?_⟩
  · exact hMagic.trans hFields.1
  · rw [hOffset, hCount]
    rfl
  · rw [hOffset, hFree]
    decide
  · rw [hFree]
  · rw [Tight, hOffset, hSpace, hFree]
    decide

end Page

end EmeraldDb
