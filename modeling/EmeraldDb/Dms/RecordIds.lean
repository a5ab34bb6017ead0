import EmeraldDb.Dms.Paged

/-
  Which record ids are accepted.

  A lookup and a removal should accept an id exactly if it
  names a slot of the slot list of a mapped page that is not
  empty.  The bound check lets the slot after the last one
  through, and the word that lies there is taken for the
  offset of a record.

  Key definitions include:
    * `Page.Sane`
    * `DmsFile.Valid`
    * `DmsFile.Stale`
    * `DmsFile.ValidatesExactly`

  Key results include:
    * `DmsFile.remove_ok_iff`
    * `DmsFile.Paged.find_ok`
    * `DmsFile.recordIds_exact_iff`
-/

namespace EmeraldDb

------------------------------------------------------------
-- Sane Pages
------------------------------------------------------------

namespace Page

variable {m m' : Memory} {page k : Nat} {record : BSONObj}

/- A regular page whose records hold objects with a size. -/
structure Sane (m : Memory) (page : Nat) : Prop
    extends Regular m page where
  sized : ∀ k, Live m page k →
    4 ≤ recordSize m (page + slot m page k)
  valid : ∀ k, Live m page k →
    (object m page k).isValid = true

/- A record that is held has the same length word. -/
theorem Held.isValid_eq
    (hHeld : Held m m' page k)
    (hSized : 4 ≤ recordSize m (page + Page.slot m page k)) :
    (object m' page k).isValid = (object m page k).isValid := by
  have hWord := hHeld.same.slice (k := sizeofRecord) (l := 4)
    (by
      simp only [extent, sizeofRecord]
      omega)
  have hSize : (object m' page k).objsize =
      (object m page k).objsize := by
    unfold object BSONObj.objsize Memory.int
    rw [hHeld.slot, hWord.word (le_refl _)]
  unfold BSONObj.isValid
  rw [hSize]

namespace Sane

theorem of_held
    (hSane : Sane m page)
    (hRegular : Regular m' page)
    (hHeld : ∀ k, Live m' page k →
      Live m page k ∧ Held m m' page k) :
    Sane m' page := by
  refine ⟨hRegular, ?_, ?_⟩
  · intro k hk
    rcases hHeld k hk with ⟨hOld, hSame⟩
    rw [hSame.recordSize_eq]
    exact hSane.sized k hOld
  · intro k hk
    rcases hHeld k hk with ⟨hOld, hSame⟩
    rw [hSame.isValid_eq (hSane.sized k hOld)]
    exact hSane.valid k hOld

theorem frame
    (hSane : Sane m page)
    (hSame : Memory.Same m page m' page dmsPageSize) :
    Sane m' page := by
  apply hSane.of_held (hSane.toRegular.frame hSame)
  intro k hk
  have hOld := (hSane.toShape.live_frame hSame k).mp hk
  exact ⟨hOld, hSane.toRegular.held_frame hSame hOld⟩

/- A page without live slots has no record to ask about. -/
theorem of_no_live
    (hGood : Good m page)
    (hNone : ∀ k, ¬ Live m page k) :
    Sane m page := by
  refine ⟨hGood.regular, ?_, ?_⟩
  · intro k hk
    exact absurd hk (hNone k)
  · intro k hk
    exact absurd hk (hNone k)

theorem insert
    (hSane : Sane m page)
    (hRoom : Room m page record.length)
    (hFour : 4 ≤ record.length)
    (hValid : record.isValid = true)
    (free : Nat) :
    Sane (inserted m page record free) page := by
  have hRegular := hSane.toRegular
  have hShape := hRegular.toShape
  have hOffset := hShape.offsetData_eq hRoom
  have hBound := hShape.bound
  simp only [dmsPageSize] at hBound
  have hNew := @inserted_new m page record free hShape hRoom
    (by omega)
  have hData := @inserted_data m page record free hShape hRoom
  have hHeld : ∀ k, Live m page k →
      Held m (inserted m page record free) page k :=
    fun k hk => hRegular.inserted_held hRoom hk
  refine ⟨hRegular.insert hRoom (by omega) free, ?_, ?_⟩
  · intro k hk
    rcases hRegular.inserted_only hRoom hk with rfl | hOld
    · rw [hNew.1, hNew.2.1]
      exact hFour
    · rw [(hHeld k hOld).recordSize_eq]
      exact hSane.sized k hOld
  · intro k hk
    rcases hRegular.inserted_only hRoom hk with rfl | hOld
    · have hSize : (object (inserted m page record free) page
          (numSlots m page)).objsize = record.objsize := by
        apply BSONObj.objsize_of_same hFour
        unfold object
        rw [hNew.1]
        exact hData
      unfold BSONObj.isValid at hValid ⊢
      rw [hSize]
      exact hValid
    · rw [(hHeld k hOld).isValid_eq (hSane.sized k hOld)]
      exact hSane.valid k hOld

theorem drop
    (hSane : Sane m page)
    (hLive : Live m page k)
    (free : Nat) :
    Sane (dropped m page k free) page := by
  have hRegular := hSane.toRegular
  apply hSane.of_held (hRegular.drop hLive free)
  intro l hl
  have hOld := (hRegular.dropped_only hLive).mp hl
  exact ⟨hOld.2, hRegular.dropped_held hLive hOld.1 hOld.2⟩

end Sane

end Page

namespace DmsFile

variable {s t : DmsFile} {record : BSONObj}
  {rid : DmsRecordID}

theorem pageProperty_sane :
    PageProperty Page.Sane :=
  ⟨fun hSane hSame => hSane.frame hSame,
    fun hFresh => .of_no_live hFresh.good hFresh.none⟩

------------------------------------------------------------
-- Operations on Sane Pages
------------------------------------------------------------

/- A reorganisation of a page without live slots. -/
theorem Paged.prepared
    {p page : Nat}
    (hPaged : Paged Page.Sane s)
    (hPage : s.pageToOffset p = some page)
    (hMagic : Page.magic s.file page = dmsPageMagic)
    {n : Nat}
    (hStay : needsRecover s.file page n = true →
      ∀ k, ¬ Page.Live s.file page k) :
    Paged Page.Sane (s.prepared page n) := by
  unfold DmsFile.prepared
  split
  · rename_i hNeed
    have hNone := hStay hNeed
    have hShape := (hPaged.pageToOffset hPage).toShape
    have hGood := Page.good_of_no_live hMagic hShape.slots
      hShape.room hShape.bound hNone
    have hEmptied := hGood.recoverSpace hNone
    exact hPaged.withPage pageProperty_sane
      (isPage_of_pageToOffset hPage) hEmptied.2.2.1
      (.of_no_live hEmptied.1 hEmptied.2.1) _
  · exact hPaged

theorem Paged.insertRecord
    {p page : Nat}
    (hPaged : Paged Page.Sane s)
    (hPage : s.pageToOffset p = some page)
    (hRoom : Page.Room s.file page record.length)
    (hFour : 4 ≤ record.length)
    (hValid : record.isValid = true)
    {rc : Int}
    {r : InsertResult}
    (hCall : s.insertRecord page p record rc = .ok r) :
    Paged Page.Sane r.state := by
  have hSane := hPaged.pageToOffset hPage
  rw [insertRecord_valid hSane.toShape hRoom hFour hValid,
    Except.ok.injEq] at hCall
  rw [← hCall]
  exact hPaged.withPage pageProperty_sane
    (isPage_of_pageToOffset hPage)
    (Page.inserted_local hSane.toShape hRoom)
    (hSane.insert hRoom hFour hValid _) _

theorem Paged.insertPage
    (hPaged : Paged Page.Sane s)
    (hFour : 4 ≤ record.length)
    (hValid : record.isValid = true)
    (hStay : ¬ s.Reorganises record)
    {rc : Int}
    {r : InsertResult}
    (hCall : s.insertPage (s.findPage record.length) record
      rc = .ok r) :
    Paged Page.Sane r.state := by
  cases hPage : s.pageToOffset (s.findPage record.length) with
  | none =>
      simp only [DmsFile.insertPage, hPage, Except.ok.injEq]
        at hCall
      rw [← hCall]
      exact hPaged
  | some page =>
      rw [insertPage_eq hPage] at hCall
      split at hCall
      · rw [Except.ok.injEq] at hCall
        rw [← hCall]
        exact hPaged
      · rename_i hMagic
        have hReady := hPaged.prepared hPage
          (not_not.mp hMagic)
          (fun hNeed k hLive =>
            hStay ⟨page, hPage, hNeed, k, hLive⟩)
        have hSame : (s.prepared page
            record.length).pageToOffset
              (s.findPage record.length) = some page := by
          rw [← hPage]
          unfold DmsFile.pageToOffset
          rw [getNumPages_congr (s.prepared_body page _),
            s.prepared_body page _]
        split at hCall
        · rw [Except.ok.injEq] at hCall
          rw [← hCall]
          exact hReady
        · rename_i hCheck
          have hRoom := room_of_noRoom
            (hReady.pageToOffset hSame).toShape
            (Bool.eq_false_iff.mpr hCheck)
          exact hReady.insertRecord hSame hRoom hFour hValid
            hCall

------------------------------------------------------------
-- Accepted Record Ids
------------------------------------------------------------

/- The id names a slot of a mapped page that is not empty. -/
def Valid (s : DmsFile) (rid : DmsRecordID) : Prop :=
  rid.pageID < s.getNumPages ∧
    rid.slotID < Page.numSlots s.file (s.pageAt rid.pageID) ∧
    Page.slot s.file (s.pageAt rid.pageID) rid.slotID ≠
      dmsSlotEmpty

/-
  The id names the slot after the last one, and the word
  there is not the empty slot.
-/
def Stale (s : DmsFile) (rid : DmsRecordID) : Prop :=
  rid.pageID < s.getNumPages ∧
    rid.slotID = Page.numSlots s.file (s.pageAt rid.pageID) ∧
    Page.slot s.file (s.pageAt rid.pageID) rid.slotID ≠
      dmsSlotEmpty

instance
    (s : DmsFile)
    (rid : DmsRecordID) :
    Decidable (Stale s rid) := by
  unfold Stale
  infer_instance

/-
  A lookup and a removal succeed for valid ids alone, and a
  removal that fails changes nothing.
-/
structure ValidatesExactly
    (s : DmsFile)
    (rid : DmsRecordID) : Prop where
  find : (∃ o, s.find rid = .ok (edbOk, o)) ↔ Valid s rid
  remove : (s.remove rid).1 = edbOk ↔ Valid s rid
  unchanged : (s.remove rid).1 ≠ edbOk → (s.remove rid).2 = s

/- Every page below the page count is mapped. -/
theorem pageToOffset_of_lt
    {p : Nat}
    (hPage : p < s.getNumPages) :
    s.pageToOffset p = some (s.pageAt p) := by
  have hIndex : p / dmsPagesPerSegment < s.body.length := by
    simp only [getNumPages, getNumSegments,
      dmsPagesPerSegment] at *
    omega
  rw [pageAt, pageToOffset, if_neg (Nat.not_le_of_lt hPage),
    List.getElem?_eq_getElem hIndex]
  rfl

/- What is neither valid nor stale is refused. -/
theorem rejected
    (hValid : ¬ Valid s rid)
    (hStale : ¬ Stale s rid) :
    s.find rid = .ok (edbSys, none) ∧
      s.remove rid = (edbSys, s) := by
  by_cases hPage : rid.pageID < s.getNumPages
  · have hOffset := pageToOffset_of_lt hPage
    by_cases hOver : Page.numSlots s.file
        (s.pageAt rid.pageID) < rid.slotID
    · have hSearch : s.searchSlot (s.pageAt rid.pageID) rid =
          (edbSys, 0) := by
        rw [searchSlot, if_pos hOver]
      simp [DmsFile.find, DmsFile.remove, hOffset, hSearch]
    · have hEmpty : Page.slot s.file (s.pageAt rid.pageID)
          rid.slotID = dmsSlotEmpty := by
        by_contra hNe
        rcases Nat.lt_or_eq_of_le (Nat.le_of_not_lt hOver)
          with hLess | hLast
        · exact hValid ⟨hPage, hLess, hNe⟩
        · exact hStale ⟨hPage, hLast, hNe⟩
      exact rejected_of_empty hOffset
        (Nat.le_of_not_lt hOver) hEmpty
  · have hOffset := pageToOffset_none
      (Nat.le_of_not_lt hPage)
    simp [DmsFile.find, DmsFile.remove, hOffset]

/- A removal succeeds for the ids that are valid or stale. -/
theorem remove_ok_iff
    (s : DmsFile)
    (rid : DmsRecordID) :
    (s.remove rid).1 = edbOk ↔ Valid s rid ∨ Stale s rid := by
  constructor
  · intro hOk
    by_contra hNeither
    rw [not_or] at hNeither
    rw [(rejected hNeither.1 hNeither.2).2] at hOk
    simp at hOk
  · intro hEither
    have hSlot : rid.pageID < s.getNumPages ∧
        rid.slotID ≤ Page.numSlots s.file
          (s.pageAt rid.pageID) ∧
        Page.slot s.file (s.pageAt rid.pageID) rid.slotID ≠
          dmsSlotEmpty := by
      rcases hEither with ⟨hPage, hIn, hNe⟩ | ⟨hPage, hIn, hNe⟩
      · exact ⟨hPage, hIn.le, hNe⟩
      · exact ⟨hPage, hIn.le, hNe⟩
    rcases hSlot with ⟨hPage, hIn, hNe⟩
    have hSearch : s.searchSlot (s.pageAt rid.pageID) rid =
        (edbOk, Page.slot s.file (s.pageAt rid.pageID)
          rid.slotID) := by
      rw [searchSlot, if_neg (Nat.not_lt_of_le hIn)]
    simp only [DmsFile.remove, pageToOffset_of_lt hPage,
      hSearch]
    rw [if_neg (by simp), if_neg hNe]

/- A removal that fails leaves the state. -/
theorem remove_unchanged
    (hFail : (s.remove rid).1 ≠ edbOk) :
    (s.remove rid).2 = s := by
  rw [ne_eq, remove_ok_iff, not_or] at hFail
  rw [(rejected hFail.1 hFail.2).2]

/- On sane pages a lookup of a valid id succeeds. -/
theorem Paged.find_ok
    (hPaged : Paged Page.Sane s)
    (hValid : Valid s rid) :
    ∃ o, s.find rid = .ok (edbOk, o) := by
  rcases hValid with ⟨hPage, hLive⟩
  have hOffset := pageToOffset_of_lt hPage
  have hSane := hPaged.pageToOffset hOffset
  have hData := @BSONObj.ofData_of_isValid
    (Page.object s.file (s.pageAt rid.pageID) rid.slotID)
    (hSane.valid rid.slotID hLive)
  have hFind := find_of_slot hOffset hLive
    (hSane.flag rid.slotID hLive)
  simp only [Page.object] at hData
  rw [hData, Except.map] at hFind
  exact ⟨_, hFind⟩

/- A removal of an id that is not stale. -/
theorem Paged.remove
    (hPaged : Paged Page.Sane s)
    (hStale : ¬ Stale s rid) :
    Paged Page.Sane (s.remove rid).2 := by
  by_cases hValid : Valid s rid
  · rcases hValid with ⟨hPage, hLive⟩
    have hOffset := pageToOffset_of_lt hPage
    have hSane := hPaged.pageToOffset hOffset
    have hLow := hSane.slot_ge hLive
    have hHigh := (hSane.inside rid.slotID hLive).2
    rw [remove_eq hOffset hLive hLow]
    apply hPaged.withPage pageProperty_sane
      (isPage_of_pageToOffset hOffset)
      _ (hSane.drop hLive _)
    apply Page.dropped_local hLow hLive.1
    simp only [Page.extent] at hHigh
    omega
  · rw [(rejected hValid hStale).2]
    exact hPaged

------------------------------------------------------------
-- Runs
------------------------------------------------------------

/-
  No insertion reorganises a page that has live records, no
  removal is given a stale id, and the file is opened again
  only if its segments are where a load maps them.
-/
def RecordIdGuard (s : DmsFile) : CapacityOp → Prop
| .insert exts record =>
    5 ≤ record.objsize ∧
      record.objsize ≤ (bsonObjMaxInternalSize : Int) ∧
      Turns (fun u => ¬ u.Reorganises record) record exts s
| .remove rid => ¬ Stale s rid
| .restart _ _ => Layout s

theorem Paged.sane_step
    (hPaged : Paged Page.Sane s)
    {h : List UInt8 → Nat}
    {a : CapacityOp}
    (hStep : Guarded RecordIdGuard (CapacityStep h) s a t) :
    Paged Page.Sane t := by
  rcases hStep with ⟨hGuard, hStep⟩
  cases hStep with
  | @insert exts record r hCall =>
      rcases hGuard with ⟨hFive, hMax, hTurns⟩
      have hFour : 4 ≤ record.length := by
        unfold BSONObj.length
        omega
      have hValid : record.isValid = true := by
        rw [BSONObj.isValid, decide_eq_true_iff]
        exact ⟨by omega, hMax⟩
      refine hTurns.insertLoop ?_ ?_ hPaged hCall
      · intro u ext hOld
        exact hOld.extendSegment pageProperty_sane ext
      · intro u rc r hOld hStay hTurn
        exact hOld.insertPage hFour hValid hStay hTurn
  | remove => exact hPaged.remove hGuard
  | restart hInit => exact hPaged.restart hGuard hInit

/-
  In every state of a guarded run on a new file, an id is
  validated exactly if and only if it is not stale.
-/
theorem recordIds_exact_iff
    (h : List UInt8 → Nat)
    (file : Memory)
    {creation : HeaderCreation}
    {failure : Nat → Option Errno}
    {s t : DmsFile}
    {mgr : IxmBucketManager}
    {as : List CapacityOp}
    (hInit : DmsFile.init h creation failure file 0 =
      .ok (edbOk, (s, mgr)))
    (hRun : Steps (Guarded RecordIdGuard (CapacityStep h))
      s as t)
    (rid : DmsRecordID) :
    ValidatesExactly t rid ↔ ¬ Stale t rid := by
  have hStart : s = DmsFile.created file :=
    created_of_init hInit
  have hPaged := hRun.invariant (I := Paged Page.Sane)
    (fun _ _ _ hOld hStep => hOld.sane_step hStep)
    (hStart ▸ Paged.created file)
  constructor
  · intro hExact hStale
    have hValid := hExact.remove.mp
      ((remove_ok_iff t rid).mpr (Or.inr hStale))
    have hLess := hValid.2.1
    have hLast := hStale.2.1
    omega
  · intro hStale
    refine ⟨⟨?_, hPaged.find_ok⟩, ?_, remove_unchanged⟩
    · rintro ⟨o, hFound⟩
      by_contra hValid
      rw [(rejected hValid hStale).1] at hFound
      simp at hFound
    · rw [remove_ok_iff]
      exact or_iff_left hStale

/- The insertion of the document is a guarded run. -/
theorem steps_oneDocument :
    Steps (Guarded RecordIdGuard (CapacityStep hashFunc))
      (DmsFile.created (fun _ => 0))
      [.insert [.success] (textDocument 1 22)]
      oneDocument := by
  rcases insert_oneDocument with ⟨r, hCall, hState, _⟩
  have hForm : (textDocument 1 22).WellFormed :=
    textDocument_wellFormed (by decide) (by decide)
      (by decide)
  have hFilled := Filled.created (fun _ => 0)
  have hInvalid : (DmsFile.created (fun _ => 0)).findPage
      (textDocument 1 22).length = dmsInvalidPageID :=
    rfl
  have hTurns : Turns
      (fun u => ¬ u.Reorganises (textDocument 1 22))
      (textDocument 1 22) [.success]
      (DmsFile.created (fun _ => 0)) := by
    unfold Turns
    rw [if_pos hInvalid, extendSegment_success]
    intro _ _
    exact hFilled.extended_still (by decide) hInvalid
  rw [← hState]
  exact .cons ⟨⟨hForm.five_le, hForm.bounded, hTurns⟩,
    .insert hCall⟩ (.nil _)

theorem recordIds_exact_iff_oneDocument :
    ValidatesExactly oneDocument ⟨0, 0⟩ ↔
      ¬ Stale oneDocument ⟨0, 0⟩ :=
  recordIds_exact_iff hashFunc (fun _ => 0)
    (init_created hashFunc (fun _ => 0)) steps_oneDocument
    ⟨0, 0⟩

/-
  Behind the one slot of the first page lie zero bytes, which
  name a record at the page header.
-/
theorem recordIds_not_exact :
    ¬ ∀ as t,
      Steps (Guarded RecordIdGuard (CapacityStep hashFunc))
        (DmsFile.created (fun _ => 0)) as t →
      ∀ rid, ValidatesExactly t rid := by
  intro hClaim
  have hStale : Stale oneDocument ⟨0, 1⟩ := by
    decide +kernel
  have hExact := hClaim _ _ steps_oneDocument ⟨0, 1⟩
  have hValid := hExact.remove.mp
    ((remove_ok_iff _ _).mpr (Or.inr hStale))
  have hLess := hValid.2.1
  have hLast := hStale.2.1
  omega

end DmsFile

end EmeraldDb
