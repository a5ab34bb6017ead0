import EmeraldDb.Core
import EmeraldDb.Lib.Memory

/-
  The slotted page.

  A page is a header, a slot list that grows upwards, free
  space and records that grow downwards from the end.  All
  functions take the memory and the address of the page.

  Key definitions include:
    * `Page.numSlots` and the other header fields
    * `Page.slot`
    * `Page.initHeader`
    * `Page.recoverSpace`
-/

namespace EmeraldDb

------------------------------------------------------------
-- Layout
------------------------------------------------------------

abbrev dmsPageSize : Nat := 4194304
abbrev dmsSlotEmpty : Nat := 4294967295
abbrev dmsInvalidPageID : Nat := 4294967295
abbrev dmsRecordFlagNormal : Nat := 0
abbrev dmsRecordFlagDropped : Nat := 1

/- Size of a page header. -/
abbrev sizeofPageHeader : Nat := 28

/- Size of a record header. -/
abbrev sizeofRecord : Nat := 8

/- Size of a slot. -/
abbrev sizeofSlot : Nat := 4

/- Size of the file header, which bounds a record. -/
abbrev sizeofHeader : Nat := 16

abbrev dmsMaxRecord : Nat :=
  dmsPageSize - sizeofHeader - sizeofRecord - sizeofSlot

/- The word that the magic `PAGE` is stored as. -/
abbrev dmsPageMagic : Nat := 1162297680

namespace Page

def magic (m : Memory) (page : Nat) : Nat :=
  m.word page

def numSlots (m : Memory) (page : Nat) : Nat :=
  m.word (page + 12)

def slotOffset (m : Memory) (page : Nat) : Nat :=
  m.word (page + 16)

def freeSpace (m : Memory) (page : Nat) : Nat :=
  m.word (page + 20)

def freeOffset (m : Memory) (page : Nat) : Nat :=
  m.word (page + 24)

/- Address of a slot of the slot list. -/
def slotAddress (page slotID : Nat) : Nat :=
  page + sizeofPageHeader + slotID * sizeofSlot

/- Record offset in a slot. -/
def slot (m : Memory) (page slotID : Nat) : Nat :=
  m.word (slotAddress page slotID)

def recordSize (m : Memory) (record : Nat) : Nat :=
  m.word record

def recordFlag (m : Memory) (record : Nat) : Nat :=
  m.word (record + 4)

------------------------------------------------------------
-- New Pages
------------------------------------------------------------

/- The header that a new page gets. -/
def newHeader : Memory :=
  let m : Memory := fun _ => 0
  let m := m.setWord 0 dmsPageMagic
  let m := m.setWord 4 dmsPageSize
  let m := m.setWord 8 0
  let m := m.setWord 12 0
  let m := m.setWord 16 sizeofPageHeader
  let m := m.setWord 20 (dmsPageSize - sizeofPageHeader)
  m.setWord 24 dmsPageSize

/- Copy the new header to the start of a page. -/
def initHeader (m : Memory) (page : Nat) : Memory :=
  m.copy page newHeader 0 sizeofPageHeader

------------------------------------------------------------
-- Reorganisation
------------------------------------------------------------

/- State of the loop: memory, right edge, hole seen. -/
structure Recover where
  mem : Memory
  pRight : Int
  isRecover : Bool

/-
  One slot of the loop.  The right edge moves by the record
  size alone, and the same number of bytes is moved.
-/
def recoverStep
    (page : Nat)
    (st : Recover)
    (i : Nat) : Recover :=
  let off := slot st.mem page i
  if off ≠ dmsSlotEmpty then
    let recordSize := toSigned (recordSize st.mem (page + off))
    let pRight := st.pRight - recordSize
    if st.isRecover then
      let mem := st.mem.copy (page + pRight).toNat st.mem
        (page + off) recordSize.toNat
      { mem := mem.setWord (slotAddress page i)
          (ofSigned pRight)
        pRight := pRight
        isRecover := true }
    else { st with pRight := pRight }
  else { st with isRecover := true }

/- Reorganise a page to recover the space of holes. -/
def recoverSpace (m : Memory) (page : Nat) : Memory :=
  let st := (List.range (numSlots m page)).foldl
    (recoverStep page) ⟨m, dmsPageSize, false⟩
  st.mem.setWord (page + 24) (ofSigned st.pRight)

end Page

end EmeraldDb
