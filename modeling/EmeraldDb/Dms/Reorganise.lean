import EmeraldDb.Bson.Document
import EmeraldDb.Dms.PageInvariant

/-
  What the reorganisation of a page does.

  The loop walks the slots in order and keeps a right edge:
  it has read the sizes of the live records of the slots
  behind it and written only above the edge and in those
  slots.  The edge moves by the data size of each record,
  without its header, so the records of the page survive only
  if there is none.

  Key definitions include:
    * `Page.Formed`
    * `Page.liveBytes`
    * `Page.Reorganised`

  Key results include:
    * `Page.liveBytes_dropped`
    * `Page.Formed.recovered`
    * `Page.recoverSpace_preserves_iff`
    * `Page.recoverSpace_loses_record`
-/

namespace EmeraldDb

namespace Page

variable {m m' : Memory} {page : Nat}

------------------------------------------------------------
-- Well-Formed Pages
------------------------------------------------------------

/- Bytes that the record in a slot takes with its header. -/
def extent (m : Memory) (page k : Nat) : Nat :=
  recordSize m (page + slot m page k) + sizeofRecord

/-
  The slot list ends below the free offset; the live records
  lie above it, each below the one before it, and do not
  overlap.
-/
structure Formed (m : Memory) (page : Nat) : Prop where
  slots : slotOffset m page =
    sizeofPageHeader + numSlots m page * sizeofSlot
  room : slotOffset m page ≤ freeOffset m page
  inside : ∀ k, Live m page k →
    freeOffset m page ≤ slot m page k ∧
      slot m page k + extent m page k ≤ dmsPageSize
  decreasing : ∀ k l, k < l →
    Live m page k → Live m page l →
      slot m page l < slot m page k
  disjoint : ∀ k l, k ≠ l →
    Live m page k → Live m page l →
      slot m page k + extent m page k ≤ slot m page l ∨
        slot m page l + extent m page l ≤ slot m page k

/-
  Bytes of the live records in the first slots, counting `w`
  bytes for a record besides its data.
-/
def liveBytes
    (w : Nat)
    (m : Memory)
    (page : Nat) :
    Nat → Nat
| 0 => 0
| n + 1 =>
    liveBytes w m page n +
      if Live m page n then
        recordSize m (page + slot m page n) + w
      else 0

/-
  What a reorganisation is for: every live record is in its
  slot with its header and data, records do not overlap and
  lie above the free offset, and no space is left between
  them.
-/
structure Reorganised
    (m m' : Memory)
    (page : Nat) : Prop where
  count : numSlots m' page = numSlots m page
  empty : ∀ k < numSlots m page,
    slot m page k = dmsSlotEmpty →
      slot m' page k = dmsSlotEmpty
  record : ∀ k, Live m page k →
    Live m' page k ∧
      Memory.Same m (page + slot m page k) m'
        (page + slot m' page k) (extent m page k)
  disjoint : ∀ k l, k ≠ l →
    Live m' page k → Live m' page l →
      slot m' page k + extent m' page k ≤ slot m' page l ∨
        slot m' page l + extent m' page l ≤ slot m' page k
  above : ∀ k, Live m' page k →
    freeOffset m' page ≤ slot m' page k
  free : freeOffset m' page +
    liveBytes sizeofRecord m page (numSlots m page) =
      dmsPageSize

/- A good page is well formed. -/
theorem Good.formed
    (hGood : Good m page) :
    Formed m page := by
  have hExtent : ∀ k, Live m page k →
      extent m page k =
        sizeofRecord + (object m page k).length := by
    intro k hk
    rw [extent, (hGood.record k hk).size, Nat.add_comm]
  refine ⟨hGood.slots, hGood.room, ?_, ?_, ?_⟩
  · intro k hk
    refine ⟨(hGood.record k hk).low, ?_⟩
    rw [hExtent k hk, ← Nat.add_assoc]
    exact (hGood.record k hk).high
  · intro k l hLess hk hl
    have hBelow := hGood.order k l hLess hk hl
    simp only [sizeofRecord] at hBelow
    omega
  · intro k l hNe hk hl
    rw [hExtent k hk, hExtent l hl, ← Nat.add_assoc,
      ← Nat.add_assoc]
    rcases Nat.lt_or_gt_of_ne hNe with hLess | hMore
    · exact Or.inr (hGood.order k l hLess hk hl)
    · exact Or.inl (hGood.order l k hMore hl hk)

namespace Formed

/- A later record lies below an earlier one. -/
theorem below
    (hFormed : Formed m page)
    {k l : Nat}
    (hLess : k < l)
    (hk : Live m page k)
    (hl : Live m page l) :
    slot m page l + extent m page l ≤ slot m page k := by
  have hOrder := hFormed.decreasing k l hLess hk hl
  rcases hFormed.disjoint k l (by omega) hk hl with
    hAfter | hBefore
  · simp only [extent, sizeofRecord] at hAfter
    omega
  · exact hBefore

/- The live records of the first slots lie above `b`. -/
theorem liveBytes_le
    (hFormed : Formed m page)
    {n b : Nat}
    (hPage : b ≤ dmsPageSize)
    (hBelow : ∀ k < n, Live m page k → b ≤ slot m page k) :
    liveBytes sizeofRecord m page n + b ≤ dmsPageSize := by
  induction n generalizing b with
  | zero => simpa [liveBytes] using hPage
  | succ n ih =>
      by_cases hLive : Live m page n
      · rw [liveBytes, if_pos hLive]
        have hIn := (hFormed.inside n hLive).2
        have hEnd := hBelow n (Nat.lt_succ_self n) hLive
        have hRest := ih hIn (fun k hk hl =>
          hFormed.below hk hl hLive)
        simp only [extent] at hRest
        omega
      · rw [liveBytes, if_neg hLive]
        exact ih hPage (fun k hk hl =>
          hBelow k (Nat.lt_succ_of_lt hk) hl)

end Formed

theorem liveBytes_mono
    (m : Memory)
    (page n : Nat) :
    liveBytes 0 m page n ≤
      liveBytes sizeofRecord m page n := by
  induction n with
  | zero => exact le_refl _
  | succ n ih =>
      simp only [liveBytes]
      split
      · simp only [sizeofRecord] at *
        omega
      · omega

/- Every live record takes its header. -/
theorem liveBytes_lt
    {n k : Nat}
    (hSlot : k < n)
    (hLive : Live m page k) :
    liveBytes 0 m page n <
      liveBytes sizeofRecord m page n := by
  induction n with
  | zero => omega
  | succ n ih =>
      have hMono := liveBytes_mono m page n
      simp only [liveBytes]
      by_cases hLast : k = n
      · subst hLast
        rw [if_pos hLive, if_pos hLive]
        simp only [sizeofRecord] at *
        omega
      · have hRest := ih (by omega)
        split
        · simp only [sizeofRecord] at *
          omega
        · omega

theorem liveBytes_of_none
    (w : Nat)
    (hNone : ∀ k, ¬ Live m page k)
    (n : Nat) :
    liveBytes w m page n = 0 := by
  induction n with
  | zero => rfl
  | succ n ih => rw [liveBytes, ih, if_neg (hNone n)]

/- The same records are live, with the same sizes. -/
theorem liveBytes_congr
    {w n : Nat}
    (hLive : ∀ k < n, Live m' page k ↔ Live m page k)
    (hSize : ∀ k < n, Live m page k →
      recordSize m' (page + slot m' page k) =
        recordSize m (page + slot m page k)) :
    liveBytes w m' page n = liveBytes w m page n := by
  induction n with
  | zero => rfl
  | succ n ih =>
      have hRest := ih
        (fun k hk => hLive k (Nat.lt_succ_of_lt hk))
        (fun k hk => hSize k (Nat.lt_succ_of_lt hk))
      have hLast := hLive n (Nat.lt_succ_self n)
      rw [liveBytes, liveBytes, hRest]
      by_cases hOld : Live m page n
      · rw [if_pos (hLast.mpr hOld), if_pos hOld,
          hSize n (Nat.lt_succ_self n) hOld]
      · rw [if_neg (fun hNew => hOld (hLast.mp hNew)),
          if_neg hOld]

/- One record less is live. -/
theorem liveBytes_dropped
    {n w k : Nat}
    (hSlot : k < n)
    (hOld : Live m page k)
    (hLive : ∀ l < n,
      Live m' page l ↔ l ≠ k ∧ Live m page l)
    (hSize : ∀ l < n, l ≠ k → Live m page l →
      recordSize m' (page + slot m' page l) =
        recordSize m (page + slot m page l)) :
    liveBytes w m' page n +
        (recordSize m (page + slot m page k) + w) =
      liveBytes w m page n := by
  induction n with
  | zero => omega
  | succ n ih =>
      by_cases hLast : k = n
      · subst hLast
        have hRest : liveBytes w m' page k =
            liveBytes w m page k := by
          apply liveBytes_congr
          · intro l hl
            rw [hLive l (Nat.lt_succ_of_lt hl)]
            exact and_iff_right (Nat.ne_of_lt hl)
          · intro l hl
            exact hSize l (Nat.lt_succ_of_lt hl)
              (Nat.ne_of_lt hl)
        have hGone : ¬ Live m' page k := by
          rw [hLive k (Nat.lt_succ_self k)]
          exact fun hNew => hNew.1 rfl
        rw [liveBytes, liveBytes, hRest, if_neg hGone,
          if_pos hOld]
        omega
      · have hRest := ih (by omega)
          (fun l hl => hLive l (Nat.lt_succ_of_lt hl))
          (fun l hl => hSize l (Nat.lt_succ_of_lt hl))
        have hSame := hLive n (Nat.lt_succ_self n)
        rw [liveBytes, liveBytes]
        by_cases hNew : Live m page n
        · rw [if_pos (hSame.mpr ⟨Ne.symm hLast, hNew⟩),
            if_pos hNew, hSize n (Nat.lt_succ_self n)
              (Ne.symm hLast) hNew]
          omega
        · rw [if_neg (fun hBoth => hNew (hSame.mp hBoth).2),
            if_neg hNew]
          omega

------------------------------------------------------------
-- The Loop
------------------------------------------------------------

/-
  The state of the loop after `i` slots: the edge is below
  the data of the live records so far, and only the slots so
  far and the bytes above the edge are written.  A slot is
  empty if it was.
-/
structure Recovering
    (m : Memory)
    (page i : Nat)
    (st : Recover) : Prop where
  edge : st.pRight =
    (dmsPageSize : Int) - liveBytes 0 m page i
  same : ∀ x,
    x < page + sizeofPageHeader ∨
      page + sizeofPageHeader + i * sizeofSlot ≤ x →
    x + liveBytes 0 m page i < page + dmsPageSize ∨
      page + dmsPageSize ≤ x →
    st.mem x = m x
  slots : ∀ k < i, slot st.mem page k = dmsSlotEmpty ↔
    slot m page k = dmsSlotEmpty

/- What a reorganisation of a well-formed page leaves. -/
structure Recovered (m m' : Memory) (page : Nat) : Prop where
  same : ∀ x,
    x < page + 24 ∨ page + slotOffset m page ≤ x →
    x + liveBytes 0 m page (numSlots m page) <
        page + dmsPageSize ∨
      page + dmsPageSize ≤ x →
    m' x = m x
  free : freeOffset m' page +
    liveBytes 0 m page (numSlots m page) = dmsPageSize
  slots : ∀ k < numSlots m page,
    slot m' page k = dmsSlotEmpty ↔
      slot m page k = dmsSlotEmpty

/- One slot more that is empty if it was. -/
theorem Recovering.slots_succ
    {i : Nat}
    {st : Recover}
    (hLoop : Recovering m page i st)
    (hSlot : slot st.mem page i = slot m page i) :
    ∀ k < i + 1, slot st.mem page k = dmsSlotEmpty ↔
      slot m page k = dmsSlotEmpty := by
  intro k hk
  rcases Nat.lt_or_eq_of_le (Nat.le_of_lt_succ hk) with
    hLess | rfl
  · exact hLoop.slots k hLess
  · rw [hSlot]

namespace Formed

variable {i : Nat} {st : Recover}

/- The data of the first records and the free space fit. -/
theorem edge_le
    (hFormed : Formed m page)
    (hBound : freeOffset m page ≤ dmsPageSize)
    (n : Nat) :
    liveBytes 0 m page n + freeOffset m page ≤
      dmsPageSize := by
  have hMono := liveBytes_mono m page n
  have hFits := hFormed.liveBytes_le (n := n) hBound
    (fun k _ hk => (hFormed.inside k hk).1)
  omega

/- The record of a slot lies below the edge. -/
theorem record_le
    (hFormed : Formed m page)
    (hLive : Live m page i) :
    liveBytes 0 m page i +
      (slot m page i + extent m page i) ≤ dmsPageSize := by
  have hMono := liveBytes_mono m page i
  have hFits := hFormed.liveBytes_le (n := i)
    (hFormed.inside i hLive).2
    (fun k hk hl => hFormed.below hk hl hLive)
  omega

/- The loop reads the slot as it was. -/
theorem slot_recovering
    (hFormed : Formed m page)
    (hBound : freeOffset m page ≤ dmsPageSize)
    (hIn : i < numSlots m page)
    (hLoop : Recovering m page i st) :
    slot st.mem page i = slot m page i := by
  have hSlots := hFormed.slots
  have hRoom := hFormed.room
  have hEdge := hFormed.edge_le hBound i
  simp only [sizeofPageHeader, sizeofSlot] at hSlots
  apply Memory.word_congr
  intro j hj
  apply hLoop.same
  · right
    simp only [slotAddress, sizeofPageHeader, sizeofSlot]
    omega
  · left
    simp only [slotAddress, sizeofPageHeader, sizeofSlot]
    omega

/- The loop reads the size of a live record as it was. -/
theorem recordSize_recovering
    (hFormed : Formed m page)
    (hLive : Live m page i)
    (hLoop : Recovering m page i st) :
    recordSize st.mem (page + slot m page i) =
      recordSize m (page + slot m page i) := by
  have hSlots := hFormed.slots
  have hRoom := hFormed.room
  have hLow := (hFormed.inside i hLive).1
  have hEdge := hFormed.record_le hLive
  have hIn := hLive.1
  simp only [extent, sizeofPageHeader, sizeofSlot,
    sizeofRecord] at hSlots hEdge
  apply Memory.word_congr
  intro j hj
  apply hLoop.same
  · right
    simp only [sizeofPageHeader, sizeofSlot]
    omega
  · left
    omega

/- One slot of the loop. -/
theorem recoverStep
    (hFormed : Formed m page)
    (hBound : freeOffset m page ≤ dmsPageSize)
    (hIn : i < numSlots m page)
    (hLoop : Recovering m page i st) :
    Recovering m page (i + 1) (Page.recoverStep page st i) := by
  have hSlot := hFormed.slot_recovering hBound hIn hLoop
  unfold Page.recoverStep
  simp only [hSlot]
  by_cases hEmpty : slot m page i = dmsSlotEmpty
  · -- an empty slot is only noted
    have hDead : ¬ Live m page i := fun hLive =>
      hLive.2 hEmpty
    have hBytes : liveBytes 0 m page (i + 1) =
        liveBytes 0 m page i := by
      rw [liveBytes, if_neg hDead, Nat.add_zero]
    rw [if_neg (not_not.mpr hEmpty)]
    refine ⟨?_, ?_, hLoop.slots_succ hSlot⟩
    · rw [hBytes]
      exact hLoop.edge
    · intro x hSlots hData
      rw [hBytes] at hData
      apply hLoop.same x _ hData
      simp only [sizeofSlot] at *
      omega
  · have hLive : Live m page i := ⟨hIn, hEmpty⟩
    have hSize := hFormed.recordSize_recovering hLive hLoop
    have hEdge := hFormed.record_le hLive
    have hBytes : liveBytes 0 m page (i + 1) =
        liveBytes 0 m page i +
          recordSize m (page + slot m page i) := by
      rw [liveBytes, if_pos hLive, Nat.add_zero]
    have hSigned : toSigned
        (recordSize m (page + slot m page i)) =
          recordSize m (page + slot m page i) := by
      apply toSigned_of_lt
      simp only [extent, dmsPageSize] at hEdge
      omega
    have hRight : st.pRight -
        (recordSize m (page + slot m page i) : Int) =
          (dmsPageSize : Int) -
            liveBytes 0 m page (i + 1) := by
      rw [hLoop.edge, hBytes]
      omega
    have hSame : ∀ x,
        x < page + sizeofPageHeader ∨
          page + sizeofPageHeader + (i + 1) * sizeofSlot ≤ x →
        x + liveBytes 0 m page (i + 1) < page + dmsPageSize ∨
          page + dmsPageSize ≤ x →
        st.mem x = m x := by
      intro x hSlots hData
      apply hLoop.same
      · simp only [sizeofSlot] at *
        omega
      · omega
    have hList := hFormed.slots
    have hLow := hFormed.room.trans (hFormed.inside i hLive).1
    rw [if_pos hEmpty, hSize, hSigned, hRight]
    cases st.isRecover with
    | false => exact ⟨rfl, hSame, hLoop.slots_succ hSlot⟩
    | true =>
        refine ⟨rfl, ?_, ?_⟩
        · intro x hSlots hData
          simp only [if_true]
          rw [Memory.setWord_of_disjoint _ _ _ (by
              simp only [slotAddress, sizeofSlot] at *
              omega),
            Memory.copy_of_disjoint _ _ _ _ _ (by
              simp only [extent] at hEdge
              omega)]
          exact hSame x hSlots hData
        · intro k hk
          simp only [if_true]
          rcases Nat.lt_or_eq_of_le (Nat.le_of_lt_succ hk)
            with hLess | rfl
          · -- an earlier slot is below the edge
            rw [← hLoop.slots k hLess]
            simp only [slot, slotAddress, sizeofPageHeader,
              sizeofSlot, extent] at *
            rw [Memory.word_setWord_of_disjoint _ _ (by omega),
              Memory.word_copy_of_disjoint _ _ _ (by omega)]
          · -- the slot gets the edge, which is in the page
            refine iff_of_false ?_ hEmpty
            unfold slot
            rw [Memory.word_setWord]
            unfold ofSigned
            simp only [extent, dmsPageSize, dmsSlotEmpty] at *
            omega

/- The whole loop, by induction on the slots. -/
theorem recovering
    (hFormed : Formed m page)
    (hBound : freeOffset m page ≤ dmsPageSize)
    {n : Nat}
    (hCount : n ≤ numSlots m page) :
    Recovering m page n ((List.range n).foldl
      (Page.recoverStep page) ⟨m, dmsPageSize, false⟩) := by
  induction n with
  | zero =>
      refine ⟨?_, fun x _ _ => rfl, by simp⟩
      simp [liveBytes]
  | succ n ih =>
      rw [List.range_succ, List.foldl_append]
      exact hFormed.recoverStep hBound hCount
        (ih (Nat.le_of_succ_le hCount))

/-
  Reorganising a well-formed page writes the slots, the bytes
  above the new free offset and the free offset alone.
-/
theorem recovered
    (hFormed : Formed m page)
    (hBound : freeOffset m page ≤ dmsPageSize) :
    Recovered m (recoverSpace m page) page := by
  have hLoop := hFormed.recovering hBound (le_refl _)
  have hEdge := hFormed.edge_le hBound (numSlots m page)
  have hSlots := hFormed.slots
  simp only [sizeofPageHeader, sizeofSlot] at hSlots
  unfold recoverSpace
  refine ⟨?_, ?_, ?_⟩
  · intro x hOutside hData
    rw [Memory.setWord_of_disjoint _ _ _ (by omega)]
    apply hLoop.same x _ hData
    simp only [sizeofPageHeader, sizeofSlot]
    omega
  · simp only [freeOffset]
    rw [Memory.word_setWord, hLoop.edge]
    unfold ofSigned
    simp only [dmsPageSize] at *
    omega
  · intro k hk
    rw [← hLoop.slots k hk]
    unfold slot
    rw [Memory.word_setWord_of_disjoint _ _ (by
      simp only [slotAddress, sizeofPageHeader]
      omega)]

theorem shape
    (hFormed : Formed m page)
    (hBound : freeOffset m page ≤ dmsPageSize) :
    Shape m page :=
  ⟨hFormed.slots, hFormed.room, hBound⟩

/- A page that is not written stays well formed. -/
theorem frame
    (hFormed : Formed m page)
    (hBound : freeOffset m page ≤ dmsPageSize)
    (hSame : Memory.Same m page m' page dmsPageSize) :
    Formed m' page ∧ freeOffset m' page ≤ dmsPageSize := by
  have hShape := hFormed.shape hBound
  have hShape' := hShape.frame hSame
  have hFree : freeOffset m' page = freeOffset m page :=
    Good.field_frame hSame (by decide)
  have hSlot : ∀ k < numSlots m page,
      slot m' page k = slot m page k :=
    fun k hk => hShape.slot_frame hSame hk
  have hLive : ∀ k, Live m' page k → Live m page k :=
    fun k hk => (hShape.live_frame hSame k).mp hk
  have hExtent : ∀ k, Live m page k →
      extent m' page k = extent m page k := by
    intro k hk
    have hHigh := (hFormed.inside k hk).2
    have hField := Good.field_frame hSame
      (d := slot m page k) (by
        simp only [extent, sizeofRecord] at hHigh
        omega)
    rw [extent, extent, hSlot k hk.1, recordSize, recordSize,
      hField]
  refine ⟨⟨hShape'.slots, hShape'.room, ?_, ?_, ?_⟩,
    hShape'.bound⟩
  · intro k hk
    have hOld := hLive k hk
    rw [hFree, hExtent k hOld, hSlot k hOld.1]
    exact hFormed.inside k hOld
  · intro k l hLess hk hl
    have hOldK := hLive k hk
    have hOldL := hLive l hl
    rw [hSlot k hOldK.1, hSlot l hOldL.1]
    exact hFormed.decreasing k l hLess hOldK hOldL
  · intro k l hNe hk hl
    have hOldK := hLive k hk
    have hOldL := hLive l hl
    rw [hSlot k hOldK.1, hSlot l hOldL.1, hExtent k hOldK,
      hExtent l hOldL]
    exact hFormed.disjoint k l hNe hOldK hOldL

/- A live record lies above the slot list. -/
theorem slot_ge
    (hFormed : Formed m page)
    {k : Nat}
    (hLive : Live m page k) :
    sizeofPageHeader + numSlots m page * sizeofSlot ≤
      slot m page k := by
  rw [← hFormed.slots]
  exact hFormed.room.trans (hFormed.inside k hLive).1

/- A reorganisation writes to its page alone. -/
theorem recoverSpace_local
    (hFormed : Formed m page)
    (hBound : freeOffset m page ≤ dmsPageSize) :
    Local m (recoverSpace m page) page := by
  have hEdge := hFormed.edge_le hBound (numSlots m page)
  have hSlots := hFormed.slots
  have hRoom := hFormed.room
  simp only [sizeofPageHeader, sizeofSlot, dmsPageSize]
    at hSlots hEdge
  intro x hx
  simp only [dmsPageSize] at hx
  apply (hFormed.recovered hBound).same
  · omega
  · simp only [dmsPageSize]
    omega

/- A reorganisation keeps the header below the free offset. -/
theorem recoverSpace_field
    (hFormed : Formed m page)
    (hBound : freeOffset m page ≤ dmsPageSize)
    {d : Nat}
    (hField : d + 4 ≤ 24) :
    (recoverSpace m page).word (page + d) =
      m.word (page + d) := by
  have hEdge := hFormed.edge_le hBound (numSlots m page)
  have hSlots := hFormed.slots
  have hRoom := hFormed.room
  simp only [sizeofPageHeader, sizeofSlot, dmsPageSize]
    at hSlots hEdge
  apply Memory.word_congr
  intro i hi
  apply (hFormed.recovered hBound).same
  · omega
  · simp only [dmsPageSize]
    omega

/- A reorganisation keeps the slots that have a record. -/
theorem recoverSpace_live
    (hFormed : Formed m page)
    (hBound : freeOffset m page ≤ dmsPageSize)
    (k : Nat) :
    Live (recoverSpace m page) page k ↔ Live m page k := by
  have hCount : numSlots (recoverSpace m page) page =
      numSlots m page :=
    hFormed.recoverSpace_field hBound (by decide)
  have hSlots := (hFormed.recovered hBound).slots
  unfold Live
  rw [hCount]
  apply and_congr_right
  intro hk
  exact not_congr (hSlots k hk)

theorem recoverSpace_shape
    (hFormed : Formed m page)
    (hBound : freeOffset m page ≤ dmsPageSize) :
    Shape (recoverSpace m page) page := by
  have hEdge := hFormed.edge_le hBound (numSlots m page)
  have hFree := (hFormed.recovered hBound).free
  have hCount : numSlots (recoverSpace m page) page =
      numSlots m page :=
    hFormed.recoverSpace_field hBound (by decide)
  have hOffset : slotOffset (recoverSpace m page) page =
      slotOffset m page :=
    hFormed.recoverSpace_field hBound (by decide)
  have hRoom := hFormed.room
  refine ⟨?_, ?_, ?_⟩
  · rw [hOffset, hCount]
    exact hFormed.slots
  · rw [hOffset]
    omega
  · omega

end Formed

/- A page without live records is what it should be. -/
theorem reorganised_of_no_live
    (hNone : ∀ k, ¬ Live m page k) :
    Reorganised m (recoverSpace m page) page := by
  rw [recoverSpace_of_no_live hNone]
  have hCount : numSlots
      (m.setWord (page + 24) dmsPageSize) page =
        numSlots m page :=
    Memory.word_setWord_of_disjoint _ _ (by omega)
  have hSlot : ∀ k,
      slot (m.setWord (page + 24) dmsPageSize) page k =
        slot m page k := by
    intro k
    apply Memory.word_setWord_of_disjoint
    simp only [slotAddress, sizeofPageHeader]
    omega
  have hNone' : ∀ k,
      ¬ Live (m.setWord (page + 24) dmsPageSize) page k := by
    intro k hk
    apply hNone k
    exact ⟨hCount ▸ hk.1, hSlot k ▸ hk.2⟩
  refine ⟨hCount, ?_, ?_, ?_, ?_, ?_⟩
  · intro k _ hEmpty
    rw [hSlot k]
    exact hEmpty
  · intro k hk
    exact absurd hk (hNone k)
  · intro k l _ hk
    exact absurd hk (hNone' k)
  · intro k hk
    exact absurd hk (hNone' k)
  · rw [liveBytes_of_none _ hNone, Nat.add_zero]
    exact Memory.word_setWord_of_lt _ _ (by decide)

------------------------------------------------------------
-- Two Documents
------------------------------------------------------------

/- A new page with two documents of 22 bytes. -/
def twoRecords : Memory :=
  inserted
    (inserted (initHeader (fun _ => 0) 0) 0
      (textDocument 1 22) 4194242)
    0 (textDocument 2 22) 4194208

/- The page after the first document is removed. -/
def holedPage : Memory :=
  dropped twoRecords 0 0 4194230

/- The page after the second one is removed too. -/
def clearedPage : Memory :=
  dropped holedPage 0 1 4194264

theorem good_twoRecords :
    Good twoRecords 0 := by
  have hForm : ∀ i < 3, (textDocument i 22).WellFormed := by
    intro i hi
    exact textDocument_wellFormed (by omega) (by decide)
      (by decide)
  have hFirst := (fresh_initHeader (fun _ => 0) 0).good.insert
    (by
      rw [Room, textDocument_length (by decide)]
      decide +kernel)
    (hForm 1 (by decide)) 4194242
  exact (hFirst.good.insert
    (by
      rw [Room, textDocument_length (by decide)]
      decide +kernel)
    (hForm 2 (by decide)) 4194208).good

theorem good_holedPage :
    Good holedPage 0 :=
  (good_twoRecords.drop (by decide +kernel) 4194230).good

theorem good_clearedPage :
    Good clearedPage 0 :=
  (good_holedPage.drop (by decide +kernel) 4194264).good

------------------------------------------------------------
-- What Is Preserved
------------------------------------------------------------

/-
  Reorganising a well-formed page keeps its records exactly
  if it has none: the free offset that the loop computes
  leaves out the header of every live record.
-/
theorem recoverSpace_preserves_iff
    (hFormed : Formed m page) :
    Reorganised m (recoverSpace m page) page ↔
      ∀ k, ¬ Live m page k := by
  constructor
  · intro hKept k hLive
    have hIn := hFormed.inside k hLive
    have hBound : freeOffset m page ≤ dmsPageSize := by
      omega
    have hFree := (hFormed.recovered hBound).free
    have hClaimed := hKept.free
    have hLess := liveBytes_lt hLive.1 hLive
    omega
  · exact reorganised_of_no_live

/-
  The page with one record left is not kept, and the one with
  two empty slots is.
-/
theorem recoverSpace_preserves_iff_holed :
    ¬ Reorganised holedPage (recoverSpace holedPage 0) 0 ∧
      Reorganised clearedPage (recoverSpace clearedPage 0)
        0 := by
  have hLive : Live holedPage 0 1 := by
    decide +kernel
  have hCount : numSlots clearedPage 0 = 2 := by
    decide +kernel
  have hNone : ∀ k, ¬ Live clearedPage 0 k := by
    intro k hIn
    have hk : k < 2 := hCount ▸ hIn.1
    have hEmpty : ∀ l < 2,
        slot clearedPage 0 l = dmsSlotEmpty := by
      decide +kernel
    exact hIn.2 (hEmpty k hk)
  exact ⟨fun hKept =>
      (recoverSpace_preserves_iff good_holedPage.formed).mp
        hKept 1 hLive,
    (recoverSpace_preserves_iff good_clearedPage.formed).mpr
      hNone⟩

------------------------------------------------------------
-- A Page That Loses a Record
------------------------------------------------------------

/-
  The second document is moved without its last eight bytes.
-/
theorem recoverSpace_loses_record :
    ¬ ∀ m page, Formed m page →
      Reorganised m (recoverSpace m page) page := by
  intro hClaim
  have hKept := hClaim holedPage 0 good_holedPage.formed
  have hLive : Live holedPage 0 1 := by
    decide +kernel
  have hLost : ¬ Memory.Same holedPage
      (0 + slot holedPage 0 1) (recoverSpace holedPage 0)
      (0 + slot (recoverSpace holedPage 0) 0 1)
      (extent holedPage 0 1) := by
    decide +kernel
  exact hLost (hKept.record 1 hLive).2

end Page

end EmeraldDb
