import EmeraldDb.Dms.Placement
import EmeraldDb.Dms.RecordIds

/-
  Is the free space of a page accounted for exactly?

  An insertion charges the data, the record header and the
  slot, and a removal gives back the data alone.  So the
  account is exact as long as no removal finds a record, and
  each one that does leaves it eight bytes short for good.

  Key definitions include:
    * `Page.ExactFree`
    * `Page.Accounted`
    * `DmsFile.AccountingGuard`

  Key results include:
    * `Page.ExactFree.dropped`
    * `Page.Counted.exactFree_iff`
    * `DmsFile.freeSpace_accounted`
    * `DmsFile.Filled.exactFree_iff`
-/

namespace EmeraldDb

------------------------------------------------------------
-- Accounted Pages
------------------------------------------------------------

namespace Page

variable {m m' : Memory} {page k : Nat} {record : BSONObj}

/-
  The free space is what the header, the slot list and the
  live records with their headers leave of the page.
-/
def ExactFree (m : Memory) (page : Nat) : Prop :=
  freeSpace m page + slotOffset m page +
    liveBytes sizeofRecord m page (numSlots m page) =
      dmsPageSize

/- A regular page without holes and with an exact account. -/
structure Accounted (m : Memory) (page : Nat) : Prop
    extends Regular m page where
  tight : Tight m page
  free : ExactFree m page

namespace Accounted

theorem frame
    (hAccounted : Accounted m page)
    (hSame : Memory.Same m page m' page dmsPageSize) :
    Accounted m' page := by
  have hRegular := hAccounted.toRegular
  have hCount : numSlots m' page = numSlots m page :=
    Good.field_frame hSame (by decide)
  have hSlots : slotOffset m' page = slotOffset m page :=
    Good.field_frame hSame (by decide)
  have hFree : freeSpace m' page = freeSpace m page :=
    Good.field_frame hSame (by decide)
  have hBytes : liveBytes sizeofRecord m' page
      (numSlots m page) =
        liveBytes sizeofRecord m page (numSlots m page) := by
    apply liveBytes_congr
    · intro k _
      exact hRegular.toShape.live_frame hSame k
    · intro k _ hLive
      exact (hRegular.held_frame hSame hLive).recordSize_eq
  refine ⟨hRegular.frame hSame, hAccounted.tight.frame hSame,
    ?_⟩
  unfold ExactFree
  rw [hCount, hSlots, hFree, hBytes]
  exact hAccounted.free

theorem of_fresh
    (hFresh : Fresh m page) :
    Accounted m page := by
  have hTight := hFresh.tight
  have hBound := hFresh.good.bound
  have hLow := hFresh.good.shape.header_le
  unfold Tight at hTight
  rw [hFresh.free] at hTight
  refine ⟨hFresh.good.regular, hFresh.tight, ?_⟩
  unfold ExactFree
  rw [hFresh.free, liveBytes_of_none _ hFresh.none]
  simp only [sizeofPageHeader, dmsPageSize] at *
  omega

/- What an insertion charges is what its record takes. -/
theorem inserted
    (hAccounted : Accounted m page)
    (hRoom : Room m page record.length) :
    Accounted
      (Page.inserted m page record
        (DmsFile.remaining m page record.length)) page := by
  have hRegular := hAccounted.toRegular
  have hShape := hRegular.toShape
  have hFree := hAccounted.free
  have hTight := hAccounted.tight
  have hBound := hShape.bound
  unfold Tight at hTight
  simp only [Room, sizeofRecord, sizeofSlot] at hRoom
  simp only [dmsPageSize] at hBound
  have hSize : record.length < 4294967296 := by omega
  have hHeader := @inserted_header m page record
    (DmsFile.remaining m page record.length) hShape hRoom
  have hBytes := hRegular.liveBytes_inserted hRoom hSize
    sizeofRecord (DmsFile.remaining m page record.length)
  have hSmall : DmsFile.remaining m page record.length <
      4294967296 :=
    ofSigned_lt _
  have hRemaining : DmsFile.remaining m page record.length +
      (record.length + 12) = freeSpace m page := by
    unfold DmsFile.remaining ofSigned
    simp only [sizeofRecord, sizeofSlot]
    omega
  refine ⟨hRegular.insert hRoom hSize _,
    DmsFile.tight_inserted hShape hAccounted.tight hRoom, ?_⟩
  unfold ExactFree at hFree ⊢
  rw [hHeader.2.1, hHeader.2.2.1, hHeader.2.2.2.2,
    Nat.mod_eq_of_lt hSmall, hBytes]
  simp only [sizeofRecord, sizeofSlot] at *
  omega

end Accounted

/-
  A removal gives back the data and not the record header:
  the account of the page is eight bytes short.
-/
theorem ExactFree.dropped
    (hFree : ExactFree m page)
    (hRegular : Regular m page)
    (hLive : Live m page k) :
    ¬ ExactFree
      (Page.dropped m page k (DmsFile.regained m page k))
      page := by
  have hHeader := @dropped_header m page k
    (DmsFile.regained m page k) (hRegular.slot_ge hLive)
  have hBytes := hRegular.liveBytes_drop hLive sizeofRecord
    (DmsFile.regained m page k)
  have hSmall : DmsFile.regained m page k < 4294967296 :=
    ofSigned_lt _
  unfold ExactFree at hFree ⊢
  have hRegained : DmsFile.regained m page k =
      freeSpace m page +
        recordSize m (page + slot m page k) := by
    simp only [dmsPageSize] at hFree
    unfold DmsFile.regained
    rw [toSigned_of_lt (by omega)]
    unfold ofSigned
    omega
  rw [hHeader.2.1, hHeader.2.2.1, hHeader.2.2.2.2,
    Nat.mod_eq_of_lt hSmall]
  simp only [sizeofRecord] at *
  omega

------------------------------------------------------------
-- Pages with Removed Records
------------------------------------------------------------

/- All slots are live if every one counts its header. -/
theorem liveBytes_full
    {w : Nat}
    (hPositive : 0 < w)
    (n : Nat) :
    liveBytes w m page n ≤ liveBytes 0 m page n + w * n ∧
      (liveBytes w m page n =
          liveBytes 0 m page n + w * n ↔
        ∀ k < n, Live m page k) := by
  induction n with
  | zero => simp [liveBytes]
  | succ n ih =>
      rcases ih with ⟨hMost, hFull⟩
      rw [liveBytes, liveBytes, Nat.mul_succ]
      by_cases hLive : Live m page n
      · rw [if_pos hLive, if_pos hLive]
        refine ⟨by omega, ?_⟩
        constructor
        · intro hEq k hk
          rcases Nat.lt_or_eq_of_le (Nat.le_of_lt_succ hk)
            with hLess | hLast
          · exact hFull.mp (by omega) k hLess
          · exact hLast ▸ hLive
        · intro hAll
          have hRest := hFull.mpr
            (fun k hk => hAll k (Nat.lt_succ_of_lt hk))
          omega
      · rw [if_neg hLive, if_neg hLive]
        refine ⟨by omega, ?_⟩
        constructor
        · intro hEq
          omega
        · intro hAll
          exact absurd (hAll n (Nat.lt_succ_self n)) hLive

/-
  On a page whose bytes are counted, the account is exact if
  and only if no record has been removed.
-/
theorem Counted.exactFree_iff
    (hCounted : Counted m page)
    (hShape : Shape m page) :
    ExactFree m page ↔
      ∀ k < numSlots m page,
        slot m page k ≠ dmsSlotEmpty := by
  have hSlots := hShape.slots
  have hPositive : 0 < sizeofRecord := by decide
  have hFull := (@liveBytes_full m page _ hPositive
    (numSlots m page)).2
  have hAll : (∀ k < numSlots m page,
      slot m page k ≠ dmsSlotEmpty) ↔
        ∀ k < numSlots m page, Live m page k := by
    constructor
    · intro hNone k hk
      exact ⟨hk, hNone k hk⟩
    · intro hLive k hk
      exact (hLive k hk).2
  rw [hAll, ← hFull]
  unfold ExactFree
  unfold Counted at hCounted
  simp only [sizeofEntry, sizeofRecord, sizeofSlot,
    sizeofPageHeader] at *
  omega

end Page

------------------------------------------------------------
-- Accounted Files
------------------------------------------------------------

namespace DmsFile

variable {s t : DmsFile} {record : BSONObj}

theorem pageProperty_accounted :
    PageProperty Page.Accounted :=
  ⟨fun hAccounted hSame => hAccounted.frame hSame,
    fun hFresh => .of_fresh hFresh⟩

/- No page has a hole, so none is reorganised. -/
theorem Paged.insertPage_accounted
    {p : Nat}
    (hPaged : Paged Page.Accounted s)
    (hFour : 4 ≤ record.length)
    (hValid : record.isValid = true)
    {rc : Int}
    {r : InsertResult}
    (hCall : s.insertPage p record rc = .ok r) :
    Paged Page.Accounted r.state := by
  cases hPage : s.pageToOffset p with
  | none =>
      simp only [DmsFile.insertPage, hPage, Except.ok.injEq]
        at hCall
      rw [← hCall]
      exact hPaged
  | some page =>
      have hAccounted := hPaged.pageToOffset hPage
      have hShape := hAccounted.toShape
      have hStay : needsRecover s.file page record.length =
          false :=
        needsRecover_of_tight hShape hAccounted.tight
      have hSame : s.prepared page record.length = s := by
        rw [DmsFile.prepared, hStay, if_neg (by simp)]
      rw [insertPage_eq hPage, hSame] at hCall
      split at hCall
      · rw [Except.ok.injEq] at hCall
        rw [← hCall]
        exact hPaged
      · split at hCall
        · rw [Except.ok.injEq] at hCall
          rw [← hCall]
          exact hPaged
        · rename_i _ hCheck
          have hRoom := room_of_noRoom hShape
            (Bool.eq_false_iff.mpr hCheck)
          rw [insertRecord_valid hShape hRoom hFour hValid,
            Except.ok.injEq] at hCall
          rw [← hCall]
          exact hPaged.withPage pageProperty_accounted
            (isPage_of_pageToOffset hPage)
            (Page.inserted_local hShape hRoom)
            (hAccounted.inserted hRoom) _

/-
  No removal finds a record, and the file is opened again
  only if its segments are where a load maps them.
-/
def AccountingGuard (s : DmsFile) : CapacityOp → Prop
| .insert _ record =>
    5 ≤ record.objsize ∧
      record.objsize ≤ (bsonObjMaxInternalSize : Int)
| .remove rid => ¬ Valid s rid ∧ ¬ Stale s rid
| .restart _ _ => Layout s

theorem Paged.accounted_step
    (hPaged : Paged Page.Accounted s)
    {h : List UInt8 → Nat}
    {a : CapacityOp}
    (hStep : Guarded AccountingGuard (CapacityStep h) s a t) :
    Paged Page.Accounted t := by
  rcases hStep with ⟨hGuard, hStep⟩
  cases hStep with
  | @insert exts record r hCall =>
      rcases hGuard with ⟨hFive, hMax⟩
      have hFour : 4 ≤ record.length := by
        unfold BSONObj.length
        omega
      have hValid : record.isValid = true := by
        rw [BSONObj.isValid, decide_eq_true_iff]
        exact ⟨by omega, hMax⟩
      refine Turns.insertLoop ?_ ?_
        (Turns.of_all (fun _ => trivial) exts s) hPaged hCall
      · intro u ext hOld
        exact hOld.extendSegment pageProperty_accounted ext
      · intro u rc r hOld _ hTurn
        exact hOld.insertPage_accounted hFour hValid hTurn
  | remove =>
      rw [(rejected hGuard.1 hGuard.2).2]
      exact hPaged
  | restart hInit => exact hPaged.restart hGuard hInit

/-
  In every state of a run on a new file in which no removal
  finds a record, the free space of every page is accounted
  for exactly.
-/
theorem freeSpace_accounted
    (h : List UInt8 → Nat)
    (file : Memory)
    {creation : HeaderCreation}
    {failure : Nat → Option Errno}
    {s t : DmsFile}
    {mgr : IxmBucketManager}
    {as : List CapacityOp}
    (hInit : DmsFile.init h creation failure file 0 =
      .ok (edbOk, (s, mgr)))
    (hRun : Steps (Guarded AccountingGuard (CapacityStep h))
      s as t) :
    ∀ p < t.getNumPages,
      Page.ExactFree t.file (t.pageAt p) := by
  have hStart : s = DmsFile.created file :=
    created_of_init hInit
  have hPaged := hRun.invariant (I := Paged Page.Accounted)
    (fun _ _ _ hOld hStep => hOld.accounted_step hStep)
    (hStart ▸ Paged.created file)
  intro p hPage
  exact (hPaged.pageToOffset (pageToOffset_of_lt hPage)).free

/-
  After any filling run, removals included, the account of a
  page is exact if and only if none of its slots is empty.
-/
theorem Filled.exactFree_iff
    {p : Nat}
    (hFilled : Filled s)
    (hIn : p < s.numPages) :
    Page.ExactFree s.file (pageAddress p) ↔
      ∀ k < Page.numSlots s.file (pageAddress p),
        Page.slot s.file (pageAddress p) k ≠ dmsSlotEmpty :=
  (hFilled.counted p hIn).exactFree_iff
    (hFilled.page p hIn).shape

/- The first page after the insertion of a document. -/
theorem freeSpace_accounted_oneDocument :
    Page.ExactFree oneDocument.file
      (oneDocument.pageAt 0) := by
  rcases insert_oneDocument with ⟨r, hCall, hState, _⟩
  have hForm : (textDocument 1 22).WellFormed :=
    textDocument_wellFormed (by decide) (by decide)
      (by decide)
  have hStep : Guarded AccountingGuard
      (CapacityStep hashFunc) (DmsFile.created (fun _ => 0))
      (.insert [.success] (textDocument 1 22))
      oneDocument := by
    rw [← hState]
    exact ⟨⟨hForm.five_le, hForm.bounded⟩, .insert hCall⟩
  exact freeSpace_accounted hashFunc (fun _ => 0)
    (init_created hashFunc (fun _ => 0))
    (.cons hStep (.nil _)) 0 (by decide +kernel)

/- A document that is inserted and removed again. -/
theorem freeSpace_not_accounted :
    ¬ ∀ as t,
      Steps (CapacityStep hashFunc)
        (DmsFile.created (fun _ => 0)) as t →
      ∀ p < t.getNumPages,
        Page.ExactFree t.file (t.pageAt p) := by
  intro hClaim
  rcases insert_oneDocument with ⟨r, hCall, hState, _⟩
  have hInsert : CapacityStep hashFunc
      (DmsFile.created (fun _ => 0))
      (.insert [.success] (textDocument 1 22))
      oneDocument := by
    rw [← hState]
    exact .insert hCall
  have hPage : 0 < oneDocument.getNumPages := by
    decide +kernel
  have hLive : Page.Live oneDocument.file
      (oneDocument.pageAt 0) 0 := by
    decide +kernel
  have hOffset := pageToOffset_of_lt hPage
  have hAt := good_oneDocument.pageAt_eq hPage
  have hRegular : Page.Regular oneDocument.file
      (oneDocument.pageAt 0) := by
    rw [hAt]
    exact (good_oneDocument.page 0
      (good_oneDocument.getNumPages_eq ▸ hPage)).regular
  have hFree := hClaim _ _ (.cons hInsert (.nil _)) 0 hPage
  have hRemove := @remove_eq oneDocument ⟨0, 0⟩ _ hOffset
    hLive (hRegular.slot_ge hLive)
  have hBody : (oneDocument.remove ⟨0, 0⟩).2.body =
      oneDocument.body := by
    rw [hRemove]
    rfl
  have hDrop : CapacityStep hashFunc oneDocument
      (.remove ⟨0, 0⟩) (oneDocument.remove ⟨0, 0⟩).2 :=
    .remove
  have hAfter := hClaim _ _
    (.cons hInsert (.cons hDrop (.nil _))) 0 (by
      rw [getNumPages_congr hBody]
      exact hPage)
  rw [pageAt_congr hBody, hRemove] at hAfter
  exact hFree.dropped hRegular hLive hAfter

end DmsFile

end EmeraldDb
