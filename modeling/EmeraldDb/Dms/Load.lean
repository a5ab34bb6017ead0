import EmeraldDb.Bson.Document
import EmeraldDb.Dms.FileInvariant
import EmeraldDb.Ixm.Cover

/-
  Loading a data file.

  The three nested loops of a load walk over segments, pages
  and slots.  After a prefix of the walk the index covers the
  live records passed so far; the walk ends early exactly
  when a record has no key or a key that was seen before.

  Key definitions include:
    * `Page.Readable`
    * `DmsFile.Image`
    * `DmsFile.DistinctKeys`
    * `DmsFile.LoadedTo`

  Key results include:
    * `DmsFile.Image.loadData`
    * `DmsFile.loadData_rebuilds`
    * `DmsFile.init_created`
    * `DmsFile.Good.restored_of_init`
-/

namespace EmeraldDb

open IxmBucketManager

------------------------------------------------------------
-- Images
------------------------------------------------------------

/-
  A page that can be loaded: the slot list is in the page and
  every slot in use points to an object inside the page.
-/
structure Page.Readable (m : Memory) (page : Nat) : Prop where
  slots : sizeofPageHeader +
    Page.numSlots m page * sizeofSlot ≤ dmsPageSize
  inside : ∀ k, Page.Live m page k →
    Page.slot m page k + sizeofRecord +
      (Page.object m page k).length ≤ dmsPageSize
  form : ∀ k, Page.Live m page k →
    (Page.object m page k).WellFormed

theorem Page.Good.readable
    {m : Memory}
    {page : Nat}
    (hGood : Page.Good m page) :
    Page.Readable m page := by
  refine ⟨?_, ?_, ?_⟩
  · rw [← hGood.slots]
    exact hGood.room.trans hGood.bound
  · intro k hk
    exact (hGood.record k hk).high
  · intro k hk
    exact (hGood.record k hk).form

namespace DmsFile

/- Address of the object of a record. -/
def recordAddress (m : Memory) : Addresses :=
  fun rid => (Page.object m (pageAddress rid.pageID)
    rid.slotID).objdata

/- The slot that a record id names is in use. -/
def InUse (m : Memory) (rid : DmsRecordID) : Prop :=
  Page.Live m (pageAddress rid.pageID) rid.slotID

/- The live records of a file of `n` segments. -/
def liveIn (m : Memory) (n : Nat) : Set DmsRecordID :=
  { rid | rid.pageID < n * dmsPagesPerSegment ∧ InUse m rid }

/- A file of `n` complete segments that can be loaded. -/
structure Image (m : Memory) (fileSize n : Nat) : Prop where
  few : n ≤ 16
  count : m.word 4 = n * dmsPagesPerSegment
  fits : segmentOffset n ≤ fileSize
  page : ∀ p < n * dmsPagesPerSegment,
    Page.Readable m (pageAddress p)

/- All live records have an `_id`, and no two the same. -/
structure DistinctKeys (m : Memory) (n : Nat) : Prop where
  keyed : ∀ rid ∈ liveIn m n,
    ∃ k, KeyAt m (recordAddress m rid) k
  distinct : ∀ rid ∈ liveIn m n, ∀ rid' ∈ liveIn m n, ∀ k,
    KeyAt m (recordAddress m rid) k →
      KeyAt m (recordAddress m rid') k → rid = rid'

/- The records before slot `k` of page `p`. -/
def before (m : Memory) (p k : Nat) : Set DmsRecordID :=
  { rid | InUse m rid ∧
    (rid.pageID < p ∨ rid.pageID = p ∧ rid.slotID < k) }

/-
  What has been loaded after a number of segments and pages
  and the records in `R`.
-/
structure LoadedTo
    (h : List UInt8 → Nat)
    (m : Memory)
    (fileSize : Nat)
    (st : Loaded)
    (segments pages : Nat)
    (R : Set DmsRecordID) : Prop where
  file : st.1.file = m
  size : st.1.fileSize = fileSize
  header : st.1.header = true
  body : st.1.body = (List.range segments).map segmentOffset
  free : st.1.freeSpaceMap.entries.Perm
    ((List.range pages).map
      (fun p => (Page.freeSpace m (pageAddress p), p)))
  index : Covers h m (recordAddress m) st.2 R
  distinct : ∀ rid ∈ R, ∀ rid' ∈ R, ∀ k,
    KeyAt m (recordAddress m rid) k →
      KeyAt m (recordAddress m rid') k → rid = rid'

------------------------------------------------------------
-- Slots
------------------------------------------------------------

section Slots

variable {h : List UInt8 → Nat} {m : Memory}
variable {fileSize segments pages n p : Nat} {st : Loaded}

theorem mem_before_succ
    {k : Nat}
    {rid : DmsRecordID} :
    rid ∈ before m p (k + 1) ↔
      InUse m rid ∧ rid = ⟨p, k⟩ ∨ rid ∈ before m p k := by
  rcases rid with ⟨q, l⟩
  simp only [before, Set.mem_ofPred_eq,
    DmsRecordID.mk.injEq]
  constructor
  · rintro ⟨hUse, hLess | ⟨hEq, hSlot⟩⟩
    · exact Or.inr ⟨hUse, Or.inl hLess⟩
    · by_cases hLast : l = k
      · exact Or.inl ⟨hUse, hEq, hLast⟩
      · exact Or.inr ⟨hUse, Or.inr ⟨hEq, by omega⟩⟩
  · rintro (⟨hUse, hEq, hSlot⟩ | ⟨hUse, hOld⟩)
    · exact ⟨hUse, Or.inr ⟨hEq, by omega⟩⟩
    · refine ⟨hUse, ?_⟩
      rcases hOld with hLess | ⟨hEq, hSlot⟩
      · exact Or.inl hLess
      · exact Or.inr ⟨hEq, by omega⟩

theorem self_not_mem_before
    {k : Nat} :
    (⟨p, k⟩ : DmsRecordID) ∉ before m p k := by
  rintro ⟨_, hLess | ⟨_, hSlot⟩⟩
  · exact absurd hLess (lt_irrefl _)
  · exact absurd hSlot (lt_irrefl _)

/- The records before the end of a page. -/
theorem mem_before_next
    {rid : DmsRecordID} :
    rid ∈ before m (p + 1) 0 ↔
      rid ∈ before m p
        (Page.numSlots m (pageAddress p)) := by
  simp only [before, Set.mem_ofPred_eq]
  constructor
  · rintro ⟨hUse, hLess | ⟨_, hSlot⟩⟩
    · refine ⟨hUse, ?_⟩
      by_cases hEq : rid.pageID = p
      · right
        refine ⟨hEq, ?_⟩
        have hIn := hUse.1
        rw [hEq] at hIn
        exact hIn
      · exact Or.inl (by omega)
    · omega
  · rintro ⟨hUse, hLess | ⟨hEq, _⟩⟩
    · exact ⟨hUse, Or.inl (by omega)⟩
    · exact ⟨hUse, Or.inl (by omega)⟩

/- The records passed so far are among the live ones. -/
theorem before_subset
    {k : Nat}
    (hIn : p < n * dmsPagesPerSegment) :
    before m p k ⊆ liveIn m n := by
  rintro rid ⟨hUse, hLess | ⟨hEq, _⟩⟩
  · exact ⟨by omega, hUse⟩
  · exact ⟨by omega, hUse⟩

/-
  One slot: an empty one is skipped, a record with a new key
  joins the index, any other record ends the load.
-/
theorem LoadedTo.slot
    {i j k : Nat}
    (hLoaded : LoadedTo h m fileSize st segments pages
      (before m (j + i * dmsPagesPerSegment) k))
    (hIn : j + i * dmsPagesPerSegment <
      n * dmsPagesPerSegment)
    (hPage : Page.Readable m
      (pageAddress (j + i * dmsPagesPerSegment)))
    (hSlot : k < Page.numSlots m
      (pageAddress (j + i * dmsPagesPerSegment))) :
    (∃ t, loadSlot h (segmentOffset i) i j st k =
        .ok (0, t) ∧
        LoadedTo h m fileSize t segments pages
          (before m (j + i * dmsPagesPerSegment) (k + 1))) ∨
      ∃ rc t, loadSlot h (segmentOffset i) i j st k =
        .ok (rc, t) ∧ rc ≠ 0 ∧ ¬ DistinctKeys m n := by
  have hAddress : segmentOffset i + j * dmsPageSize =
      pageAddress (j + i * dmsPagesPerSegment) := by
    simp only [segmentOffset, pageAddress,
      dmsFileSegmentSize, dmsPageSize, dmsPagesPerSegment]
    omega
  generalize hName : j + i * dmsPagesPerSegment = p at *
  simp only [loadSlot, hAddress, hName, hLoaded.file]
  by_cases hEmpty :
      Page.slot m (pageAddress p) k = dmsSlotEmpty
  · left
    refine ⟨st, by rw [if_pos hEmpty]; rfl, ?_⟩
    have hSame : before m p (k + 1) = before m p k := by
      ext rid
      rw [mem_before_succ]
      constructor
      · rintro (⟨hUse, rfl⟩ | hOld)
        · exact absurd hEmpty hUse.2
        · exact hOld
      · exact Or.inr
    rw [hSame]
    exact hLoaded
  · have hUse : InUse m ⟨p, k⟩ := ⟨hSlot, hEmpty⟩
    have hLive : (⟨p, k⟩ : DmsRecordID) ∈ liveIn m n :=
      ⟨hIn, hUse⟩
    have hForm : BSONObj.WellFormed
        ⟨m, recordAddress m ⟨p, k⟩⟩ :=
      hPage.form k hUse
    have hData : BSONObj.ofData m
        (pageAddress p + Page.slot m (pageAddress p) k +
          sizeofRecord) =
        .ok ⟨m, recordAddress m ⟨p, k⟩⟩ :=
      hForm.ofData_eq
    rw [if_neg hEmpty]
    simp only [hData, bind, Except.bind, pure, Except.pure]
    rcases hForm.hasId_or_none with
      ⟨off, key, hId⟩ | ⟨hNone, hNoKey⟩
    · by_cases hTaken : ∃ rid ∈ before m p k,
          KeyAt m (recordAddress m rid) key
      · -- a record before this one has the same key
        right
        rcases hTaken with ⟨rid, hOld, hKey⟩
        rw [hLoaded.index.isIDExist_of_mem hId hOld hKey]
        refine ⟨_, st, rfl, by decide, ?_⟩
        intro hDistinct
        have hSame := hDistinct.distinct rid
          (before_subset hIn hOld) ⟨p, k⟩ hLive key hKey
          ⟨off, hId⟩
        exact self_not_mem_before (hSame ▸ hOld)
      · left
        have hFresh : ∀ rid ∈ before m p k,
            ¬ KeyAt m (recordAddress m rid) key := by
          intro rid hOld hKey
          exact hTaken ⟨rid, hOld, hKey⟩
        rw [hLoaded.index.isIDExist_of_fresh hId hFresh]
        have hNew : (⟨p, k⟩ : DmsRecordID) ∉ before m p k :=
          self_not_mem_before
        rcases hLoaded.index.createIndex hId hNew with
          ⟨mgr, hResult, hCovers⟩
        simp only [hResult, ne_eq, not_true, if_false]
        refine ⟨_, rfl, hLoaded.file, hLoaded.size,
          hLoaded.header, hLoaded.body, hLoaded.free,
          hCovers.congr ?_, ?_⟩
        · intro rid
          rw [mem_before_succ, Set.mem_insert_iff]
          constructor
          · rintro (rfl | hOld)
            · exact Or.inl ⟨hUse, rfl⟩
            · exact Or.inr hOld
          · rintro (⟨_, hNew⟩ | hOld)
            · exact Or.inl hNew
            · exact Or.inr hOld
        · intro rid hRid rid' hRid' key' hKey hKey'
          rw [mem_before_succ] at hRid hRid'
          rcases hRid with ⟨_, rfl⟩ | hOld
          · rcases hRid' with ⟨_, rfl⟩ | hOld'
            · rfl
            · have hSame : key' = key :=
                hKey.unique ⟨off, hId⟩
              exact absurd (hSame ▸ hKey') (hFresh _ hOld')
          · rcases hRid' with ⟨_, rfl⟩ | hOld'
            · have hSame : key' = key :=
                hKey'.unique ⟨off, hId⟩
              exact absurd (hSame ▸ hKey) (hFresh _ hOld)
            · exact hLoaded.distinct _ hOld _ hOld' _ hKey
                hKey'
    · -- the record has no id that may be indexed
      right
      have hRefused : isIDExist h m st.2
          ⟨m, recordAddress m ⟨p, k⟩⟩ = .ok edbInvalidArg :=
        isIDExist_of_none hNone
      rw [hRefused]
      refine ⟨_, st, rfl, by decide, ?_⟩
      intro hDistinct
      rcases hDistinct.keyed ⟨p, k⟩ hLive with
        ⟨key, off, hId⟩
      have hSome := hId.idKey_eq.symm.trans hNoKey
      simp at hSome

end Slots

------------------------------------------------------------
-- Pages and Segments
------------------------------------------------------------

section Walk

variable {h : List UInt8 → Nat} {m : Memory}
variable {fileSize n : Nat} {st : Loaded}

/- One page: its free space is entered, its slots follow. -/
theorem LoadedTo.page
    {i j segments : Nat}
    (hLoaded : LoadedTo h m fileSize st segments
      (j + i * dmsPagesPerSegment)
      (before m (j + i * dmsPagesPerSegment) 0))
    (hIn : j + i * dmsPagesPerSegment <
      n * dmsPagesPerSegment)
    (hPage : Page.Readable m
      (pageAddress (j + i * dmsPagesPerSegment))) :
    (∃ t, loadPage h (segmentOffset i) i st j = .ok (0, t) ∧
        LoadedTo h m fileSize t segments
          (j + 1 + i * dmsPagesPerSegment)
          (before m (j + 1 + i * dmsPagesPerSegment) 0)) ∨
      ∃ rc t, loadPage h (segmentOffset i) i st j =
        .ok (rc, t) ∧ rc ≠ 0 ∧ ¬ DistinctKeys m n := by
  have hFile := hLoaded.file
  subst hFile
  have hAddress : segmentOffset i + j * dmsPageSize =
      pageAddress (j + i * dmsPagesPerSegment) := by
    simp only [segmentOffset, pageAddress,
      dmsFileSegmentSize, dmsPageSize, dmsPagesPerSegment]
    omega
  have hEntered : LoadedTo h st.1.file fileSize
      ({ st.1 with
        freeSpaceMap := st.1.freeSpaceMap.insert
          (Page.freeSpace st.1.file (pageAddress
            (j + i * dmsPagesPerSegment)))
          (j + dmsPagesPerSegment * i) }, st.2)
      segments (j + 1 + i * dmsPagesPerSegment)
      (before st.1.file (j + i * dmsPagesPerSegment) 0) := by
    refine ⟨rfl, hLoaded.size, hLoaded.header,
      hLoaded.body, ?_, hLoaded.index, hLoaded.distinct⟩
    rw [show j + 1 + i * dmsPagesPerSegment =
        j + i * dmsPagesPerSegment + 1 by omega,
      List.range_succ, List.map_append,
      Nat.mul_comm dmsPagesPerSegment i]
    apply (MultiMap.perm_insert _ _ _).trans
    exact (hLoaded.free.cons _).trans
      (List.perm_append_singleton _ _).symm
  simp only [loadPage, hAddress]
  rcases forUntil_range_spec
      (loadSlot h (segmentOffset i) i j)
      (fun k t => LoadedTo h st.1.file fileSize t segments
        (j + 1 + i * dmsPagesPerSegment)
        (before st.1.file (j + i * dmsPagesPerSegment) k))
      (fun _ _ => ¬ DistinctKeys st.1.file n) hEntered
      (fun k hk t ht => ht.slot hIn hPage hk) with
    ⟨t, hLoop, hDone⟩ | hStopped
  · left
    refine ⟨t, hLoop, hDone.file, hDone.size, hDone.header,
      hDone.body, hDone.free, hDone.index.congr ?_, ?_⟩
    · intro rid
      rw [show j + 1 + i * dmsPagesPerSegment =
        j + i * dmsPagesPerSegment + 1 by omega]
      exact mem_before_next.symm
    · intro rid hRid rid' hRid'
      rw [show j + 1 + i * dmsPagesPerSegment =
        j + i * dmsPagesPerSegment + 1 by omega,
        mem_before_next] at hRid hRid'
      exact hDone.distinct rid hRid rid' hRid'
  · exact Or.inr hStopped

/- The first 16 segments are mapped where they belong. -/
theorem loadOffset_eq
    {i : Nat}
    (hFew : i < 16) :
    loadOffset i = segmentOffset i := by
  simp only [loadOffset, segmentOffset, dmsFileHeaderSize,
    dmsFileSegmentSize]
  rw [wrapInt_of_range (by omega) (by omega)]
  omega

/- A load that ended early met a failure or a bad record. -/
def Stopped
    (m : Memory)
    (n : Nat)
    (failure : Nat → Option Errno) : Prop :=
  (∃ i, failure i ≠ none) ∨ ¬ DistinctKeys m n

theorem LoadedTo.segment
    (hImage : Image m fileSize n)
    (failure : Nat → Option Errno)
    {i : Nat}
    (hIn : i < n)
    (hLoaded : LoadedTo h m fileSize st i
      (i * dmsPagesPerSegment)
      (before m (i * dmsPagesPerSegment) 0)) :
    (∃ t, loadSegment h failure st i = .ok (0, t) ∧
        LoadedTo h m fileSize t (i + 1)
          ((i + 1) * dmsPagesPerSegment)
          (before m ((i + 1) * dmsPagesPerSegment) 0)) ∨
      ∃ rc t, loadSegment h failure st i = .ok (rc, t) ∧
        rc ≠ 0 ∧ Stopped m n failure := by
  have hFew := hImage.few
  have hFits := hImage.fits
  simp only [segmentOffset, dmsFileHeaderSize,
    dmsFileSegmentSize] at hFits
  have hPositive : 0 < dmsFileSegmentSize := by decide
  have hInside : segmentOffset i + dmsFileSegmentSize ≤
      st.1.fileSize := by
    rw [hLoaded.size]
    simp only [segmentOffset, dmsFileHeaderSize,
      dmsFileSegmentSize]
    omega
  have hSmall : segmentOffset i + dmsFileSegmentSize <
      18446744073709551616 := by
    simp only [segmentOffset, dmsFileHeaderSize,
      dmsFileSegmentSize]
    omega
  have hStart : LoadedTo h m fileSize
      ({ st.1 with body := st.1.body ++ [segmentOffset i] },
        st.2) (i + 1) (0 + i * dmsPagesPerSegment)
      (before m (0 + i * dmsPagesPerSegment) 0) := by
    rw [Nat.zero_add]
    refine ⟨hLoaded.file, hLoaded.size, hLoaded.header, ?_,
      hLoaded.free, hLoaded.index, hLoaded.distinct⟩
    rw [List.range_succ, List.map_append, ← hLoaded.body]
    rfl
  have hRound : ∀ j < dmsPagesPerSegment, ∀ t,
      LoadedTo h m fileSize t (i + 1)
        (j + i * dmsPagesPerSegment)
        (before m (j + i * dmsPagesPerSegment) 0) →
      (∃ u, loadPage h (segmentOffset i) i t j =
          .ok (0, u) ∧ LoadedTo h m fileSize u (i + 1)
            (j + 1 + i * dmsPagesPerSegment)
            (before m (j + 1 + i * dmsPagesPerSegment) 0)) ∨
        ∃ rc u, loadPage h (segmentOffset i) i t j =
          .ok (rc, u) ∧ rc ≠ 0 ∧ ¬ DistinctKeys m n := by
    intro j hj t ht
    have hPage : j + i * dmsPagesPerSegment <
        n * dmsPagesPerSegment := by
      simp only [dmsPagesPerSegment] at hj ⊢
      omega
    exact ht.page hPage (hImage.page _ hPage)
  unfold loadSegment
  rw [loadOffset_eq (by omega)]
  cases hFailure : failure i with
  | some errno =>
  right
  rw [ossMmapFileMap_fails errno hPositive hInside]
  exact ⟨_, st, rfl, mmapError_ne_ok errno,
    Or.inl ⟨i, by simp [hFailure]⟩⟩
  | none =>
  rw [ossMmapFileMap_maps hPositive hInside]
  rcases forUntil_range_spec
      (loadPage h (segmentOffset i) i)
      (fun j t => LoadedTo h m fileSize t (i + 1)
        (j + i * dmsPagesPerSegment)
        (before m (j + i * dmsPagesPerSegment) 0))
      (fun _ _ => ¬ DistinctKeys m n) hStart hRound with
    ⟨t, hLoop, hDone⟩ | hStopped
  · left
    refine ⟨t, hLoop, ?_⟩
    rw [Nat.succ_mul, Nat.add_comm (i * dmsPagesPerSegment)]
    exact hDone
  · rcases hStopped with ⟨rc, t, hLoop, hCode, hNot⟩
    exact Or.inr ⟨rc, t, hLoop, hCode, Or.inr hNot⟩

/- Before the first page there is nothing. -/
theorem before_zero
    (m : Memory) :
    before m 0 0 = ∅ := by
  ext rid
  simp [before]

/- The records before the end of the file are the live ones. -/
theorem mem_before_all
    {rid : DmsRecordID} :
    rid ∈ before m (n * dmsPagesPerSegment) 0 ↔
      rid ∈ liveIn m n := by
  simp only [before, liveIn, Set.mem_ofPred_eq]
  constructor
  · rintro ⟨hUse, hLess | ⟨_, hSlot⟩⟩
    · exact ⟨hLess, hUse⟩
    · omega
  · rintro ⟨hLess, hUse⟩
    exact ⟨hUse, Or.inl hLess⟩

/- The walk over all segments of an image. -/
theorem Image.loadSegments
    (hImage : Image m fileSize n)
    (failure : Nat → Option Errno)
    (hStart : LoadedTo h m fileSize st 0 0 ∅) :
    (∃ t, loadSegments h failure st = .ok (0, t) ∧
        LoadedTo h m fileSize t n (n * dmsPagesPerSegment)
          (liveIn m n)) ∨
      ∃ rc t, loadSegments h failure st = .ok (rc, t) ∧
        rc ≠ 0 ∧ Stopped m n failure := by
  have hFew := hImage.few
  have hCount : st.1.headerSize = n * dmsPagesPerSegment := by
    unfold headerSize
    rw [hStart.file]
    exact hImage.count
  have hSigned : toSigned st.1.headerSize =
      ((n * dmsPagesPerSegment : Nat) : Int) := by
    rw [hCount]
    apply toSigned_of_lt
    simp only [dmsPagesPerSegment]
    omega
  have hWhole : (toSigned st.1.headerSize).tmod
      (dmsPagesPerSegment : Nat) = 0 := by
    rw [hSigned]
    simp
  have hSegments : ((toSigned st.1.headerSize).tdiv
      (dmsPagesPerSegment : Nat)).toNat = n := by
    rw [hSigned]
    simp
  have hBegin : LoadedTo h m fileSize st 0
      (0 * dmsPagesPerSegment)
      (before m (0 * dmsPagesPerSegment) 0) := by
    rw [Nat.zero_mul, before_zero]
    exact hStart
  unfold DmsFile.loadSegments
  simp only
  rw [if_neg (by rw [hWhole]; simp), hSegments]
  rcases forUntil_range_spec
      (loadSegment h failure)
      (fun i t => LoadedTo h m fileSize t i
        (i * dmsPagesPerSegment)
        (before m (i * dmsPagesPerSegment) 0))
      (fun _ _ => Stopped m n failure) hBegin
      (fun i hi t ht => ht.segment hImage failure hi) with
    ⟨t, hLoop, hDone⟩ | hStopped
  · left
    refine ⟨t, hLoop, hDone.file, hDone.size, hDone.header,
      hDone.body, hDone.free, hDone.index.congr ?_, ?_⟩
    · exact fun rid => mem_before_all
    · intro rid hRid rid' hRid'
      exact hDone.distinct rid (mem_before_all.mpr hRid) rid'
        (mem_before_all.mpr hRid')
  · exact Or.inr hStopped

end Walk

------------------------------------------------------------
-- Loading an Image
------------------------------------------------------------

section Image

variable {h : List UInt8 → Nat} {s : DmsFile} {n : Nat}

/- Loading into a data file and an index that are empty. -/
theorem Image.loadData
    (hImage : Image s.file s.fileSize n)
    (failure : Nat → Option Errno)
    (hBody : s.body = [])
    (hFree : s.freeSpaceMap = MultiMap.empty) :
    (∃ t, loadData h failure (s, IxmBucketManager.init) =
        .ok (edbOk, t) ∧
        LoadedTo h s.file s.fileSize t n
          (n * dmsPagesPerSegment) (liveIn s.file n)) ∨
      ∃ rc t, loadData h failure (s, IxmBucketManager.init) =
        .ok (rc, t) ∧ rc ≠ edbOk ∧
          Stopped s.file n failure := by
  have hFits := hImage.fits
  simp only [segmentOffset] at hFits
  have hStart : LoadedTo h s.file s.fileSize
      ({ s with header := true }, IxmBucketManager.init)
      0 0 ∅ := by
    refine ⟨rfl, rfl, rfl, hBody, ?_,
      Covers.init h s.file _, ?_⟩
    · simp [hFree]
    · intro rid hRid
      exact absurd hRid (Set.notMem_empty rid)
  have hSegments := hImage.loadSegments
    (fun i => failure (i + 1)) hStart
  have hLater : Stopped s.file n (fun i => failure (i + 1)) →
      Stopped s.file n failure := by
    rintro (⟨i, hFailure⟩ | hNot)
    · exact Or.inl ⟨i + 1, hFailure⟩
    · exact Or.inr hNot
  have hLoaded : (∃ t, DmsFile.loadSegments h
        (fun i => failure (i + 1))
        ({ s with header := true }, IxmBucketManager.init) =
          .ok (0, t) ∧
        LoadedTo h s.file s.fileSize t n
          (n * dmsPagesPerSegment) (liveIn s.file n)) ∨
      ∃ rc t, DmsFile.loadSegments h
        (fun i => failure (i + 1))
        ({ s with header := true }, IxmBucketManager.init) =
          .ok (rc, t) ∧ rc ≠ 0 ∧
          Stopped s.file n failure := by
    rcases hSegments with hDone | ⟨rc, t, hLoad, hCode, hStop⟩
    · exact Or.inl hDone
    · exact Or.inr ⟨rc, t, hLoad, hCode, hLater hStop⟩
  unfold DmsFile.loadData
  by_cases hHeader : s.header = true
  · rw [if_pos hHeader]
    have hSame : ({ s with header := true } : DmsFile) = s := by
      rcases s with ⟨_, _, _, _, _⟩
      simpa using hHeader.symm
    rw [hSame] at hLoaded
    exact hLoaded
  · have hInside : 0 + dmsFileHeaderSize ≤ s.fileSize := by
      omega
    rw [if_neg hHeader]
    cases hFailure : failure 0 with
    | some errno =>
        right
        rw [ossMmapFileMap_fails errno (by decide) hInside]
        exact ⟨_, _, rfl, mmapError_ne_ok errno,
          Or.inl ⟨0, by simp [hFailure]⟩⟩
    | none =>
        rw [ossMmapFileMap_maps (by decide) hInside]
        exact hLoaded

/- A complete load has found distinct keys. -/
theorem LoadedTo.distinctKeys
    {m : Memory}
    {fileSize pages : Nat}
    {t : Loaded}
    (hLoaded : LoadedTo h m fileSize t n pages
      (liveIn m n)) :
    DistinctKeys m n := by
  refine ⟨?_, hLoaded.distinct⟩
  intro rid hRid
  rcases List.mem_map.mp ((hLoaded.index.ids rid).mpr hRid)
    with ⟨v, hv, rfl⟩
  rcases hLoaded.index.points v hv with ⟨off, k, hId, _⟩
  exact ⟨k, off, hId⟩

end Image

------------------------------------------------------------
-- Opening
------------------------------------------------------------

section Opening

variable (h : List UInt8 → Nat) (file : Memory)

/- A new data file: the header and no segments. -/
def created : DmsFile :=
  ((opened file 0).grow dmsFileHeaderSize).writeHeader

theorem created_headerSize :
    (created file).headerSize = 0 := by
  simp (disch := omega) only [created, writeHeader,
    headerSize, Memory.word_setWord_of_disjoint,
    Memory.word_setWord]

theorem good_created :
    Good (created file) := by
  have hPages : (created file).numPages = 0 := by
    simp [created, writeHeader, grow, opened, numPages]
  have hBody : (created file).body.length = 0 := rfl
  refine ⟨⟨rfl, rfl, ?_, ?_, by rw [hBody]; decide⟩, ?_, ?_⟩
  · simp [created, writeHeader, grow, opened, segmentOffset]
  · rw [created_headerSize, hPages]
  · intro p hp
    omega
  · rw [hPages]
    exact List.Perm.refl _

theorem created_not_live
    (rid : DmsRecordID) :
    ¬ (created file).Live rid := by
  intro hLive
  have hIn := hLive.1
  simp [created, writeHeader, grow, opened, numPages] at hIn

theorem extendFile_header
    (s : DmsFile) :
    s.extendFile dmsFileHeaderSize none =
      (edbOk, s.grow dmsFileHeaderSize) := by
  rw [extendFile, if_neg (by decide)]

theorem initHeader_success :
    (opened file 0).initHeader .success =
      (edbOk, created file) := by
  rw [initHeader, extendFile_header]
  rfl

variable {file}

/- A header that is created without an error is complete. -/
theorem created_of_initHeader
    {creation : HeaderCreation}
    {t : DmsFile}
    (hHeader : (opened file 0).initHeader creation =
      (edbOk, t)) :
    t = created file := by
  cases creation with
  | success =>
      rw [initHeader_success, Prod.mk.injEq] at hHeader
      exact hHeader.2.symm
  | writeFails written errno =>
      unfold initHeader extendFile at hHeader
      rw [if_neg (by decide), Prod.mk.injEq] at hHeader
      have hPositive := errno.2
      have hCode : (errno.1 : Int) = 0 := hHeader.1
      omega
  | mapFails errno =>
      rw [initHeader, Prod.mk.injEq] at hHeader
      exact absurd hHeader.1 (mmapError_ne_ok errno)

variable {h}

/- The header is mapped, and it counts no segments. -/
theorem loadData_created
    (failure : Nat → Option Errno)
    (mgr : IxmBucketManager) :
    DmsFile.loadData h failure (created file, mgr) =
      .ok (edbOk, (created file, mgr)) := by
  have hHeader : (created file).header = true := rfl
  unfold DmsFile.loadData DmsFile.loadSegments
  simp only [hHeader, if_true, created_headerSize]
  rfl

variable (h file)

/- Opening an empty file creates the header. -/
theorem init_created :
    init h .success (fun _ => none) file 0 =
      .ok (edbOk, (created file, IxmBucketManager.init)) := by
  unfold init
  rw [if_pos rfl, initHeader_success]
  simp only
  rw [if_neg (by simp), loadData_created]

variable {h file}

/- Opening an empty file can do nothing else. -/
theorem created_of_init
    {creation : HeaderCreation}
    {failure : Nat → Option Errno}
    {t : Loaded}
    (hInit : init h creation failure file 0 =
      .ok (edbOk, t)) :
    t.1 = created file := by
  unfold init at hInit
  rw [if_pos rfl] at hInit
  cases hHeader : (opened file 0).initHeader creation with
  | mk rc s =>
      rw [hHeader] at hInit
      by_cases hCode : rc = edbOk
      · rw [hCode] at hHeader
        rw [created_of_initHeader hHeader] at hInit
        simp only [hCode] at hInit
        rw [if_neg (by simp), loadData_created] at hInit
        simp only [Except.ok.injEq, Prod.mk.injEq, true_and]
          at hInit
        rw [← hInit]
      · simp only [Except.ok.injEq, Prod.mk.injEq, if_pos hCode]
          at hInit
        exact absurd hInit.1 hCode

end Opening

------------------------------------------------------------
-- Restart
------------------------------------------------------------

/- A good file of at most 16 segments is an image. -/
theorem Good.image
    {s : DmsFile}
    (hGood : Good s)
    (hFew : s.body.length ≤ 16) :
    Image s.file s.fileSize s.body.length := by
  refine ⟨hFew, hGood.count, ?_, ?_⟩
  · rw [hGood.size]
  · intro p hp
    exact (hGood.page p hp).readable

/-
  A load of an image with an empty start, in which no mapping
  call fails, succeeds exactly when all live records have
  distinct keys, and then index, segment list and free-space
  map describe the image.
-/
theorem loadData_rebuilds
    (h : List UInt8 → Nat)
    (s : DmsFile)
    (n : Nat)
    (hImage : Image s.file s.fileSize n)
    (hBody : s.body = [])
    (hFree : s.freeSpaceMap = MultiMap.empty)
    (failure : Nat → Option Errno)
    (hMap : ∀ i, failure i = none) :
    ∃ rc t,
      DmsFile.loadData h failure
        (s, IxmBucketManager.init) = .ok (rc, t) ∧
      (rc = edbOk ↔ DistinctKeys s.file n) ∧
      (rc = edbOk →
        t.1.file = s.file ∧
        (∀ q off k, HasId q off k →
          (∀ rid,
            findIndex h t.1.file t.2 q =
                .ok (edbOk, some rid) ↔
              rid ∈ liveIn s.file n ∧
                KeyAt s.file (recordAddress s.file rid) k) ∧
          ((∀ rid ∈ liveIn s.file n,
              ¬ KeyAt s.file (recordAddress s.file rid) k) →
            findIndex h t.1.file t.2 q =
              .ok (edbInvalidArg, none))) ∧
        t.1.body = (List.range n).map segmentOffset ∧
        t.1.freeSpaceMap.entries.Perm
          ((List.range (n * dmsPagesPerSegment)).map
            (fun p => (Page.freeSpace s.file
              (pageAddress p), p)))) := by
  rcases hImage.loadData (h := h) failure hBody hFree with
    ⟨t, hLoad, hDone⟩ | ⟨rc, t, hLoad, hCode, hStop⟩
  · have hDistinct := hDone.distinctKeys
    refine ⟨edbOk, t, hLoad, by simp [hDistinct], ?_⟩
    intro _
    refine ⟨hDone.file, ?_, hDone.body, hDone.free⟩
    intro q off k hId
    rw [hDone.file]
    rcases hDone.index.findIndex_cases hId with
      ⟨rid, hIn, hKey, hFound⟩ | ⟨hAbsent, hMissed⟩
    · rw [hFound]
      refine ⟨?_, ?_⟩
      · intro rid'
        constructor
        · intro hSame
          simp only [Except.ok.injEq, Prod.mk.injEq,
            Option.some.injEq, true_and] at hSame
          exact hSame ▸ ⟨hIn, hKey⟩
        · rintro ⟨hIn', hKey'⟩
          rw [hDistinct.distinct rid hIn rid' hIn' k hKey
            hKey']
      · intro hAbsent
        exact absurd hKey (hAbsent rid hIn)
    · rw [hMissed]
      refine ⟨?_, fun _ => rfl⟩
      intro rid
      constructor
      · intro hSame
        simp at hSame
      · rintro ⟨hIn, hKey⟩
        exact absurd hKey (hAbsent rid hIn)
  · have hNot : ¬ DistinctKeys s.file n := by
      rcases hStop with ⟨i, hFailure⟩ | hNot
      · exact absurd (hMap i) hFailure
      · exact hNot
    refine ⟨rc, t, hLoad, ?_, fun hOk => absurd hOk hCode⟩
    constructor
    · intro hOk
      exact absurd hOk hCode
    · intro hDistinct
      exact absurd hDistinct hNot

/- A new data file with one document on its first page. -/
def oneDocument : DmsFile :=
  match (created (fun _ => 0)).insert [.success]
      (textDocument 1 22) with
  | .ok r => r.state
  | .error _ => created (fun _ => 0)

theorem oneDocument_body :
    oneDocument.body.length = 1 := by
  decide +kernel

/- The document is placed on the new file. -/
theorem placeable_created :
    (created (fun _ => 0)).Placeable (textDocument 1 22) := by
  have hLength : (textDocument 1 22).length = 22 :=
    textDocument_length (by decide)
  refine ⟨by rw [hLength]; decide, ?_, by decide⟩
  rintro ⟨page, hPage, _⟩
  rw [(good_created (fun _ => 0)).pageToOffset_of_ge
    (Nat.zero_le _)] at hPage
  simp at hPage

theorem insert_oneDocument :
    ∃ r, (created (fun _ => 0)).insert [.success]
        (textDocument 1 22) = .ok r ∧
      r.state = oneDocument ∧
      InsertOutcome (created (fun _ => 0)) (textDocument 1 22)
        r := by
  have hForm : (textDocument 1 22).WellFormed :=
    textDocument_wellFormed (by decide) (by decide)
      (by decide)
  have hClean : Extension.success.Clean := trivial
  rcases (good_created (fun _ => 0)).insert hForm
      placeable_created hClean [] with
    ⟨r, hResult, _, hOutcome⟩
  refine ⟨r, hResult, ?_, hOutcome⟩
  unfold oneDocument
  rw [hResult]

theorem good_oneDocument :
    Good oneDocument := by
  rcases insert_oneDocument with ⟨r, _, hState, hOutcome⟩
  rw [← hState]
  cases hOutcome with
  | added hAdded => exact hAdded.good
  | refused _ hSame => exact hSame.good

theorem loadData_rebuilds_oneDocument :
    ∃ rc t,
      DmsFile.loadData hashFunc (fun _ => none)
        (opened oneDocument.file oneDocument.fileSize,
          IxmBucketManager.init) = .ok (rc, t) ∧
      (rc = edbOk ↔ DistinctKeys oneDocument.file 1) ∧
      (rc = edbOk →
        t.1.file = oneDocument.file ∧
        (∀ q off k, HasId q off k →
          (∀ rid,
            findIndex hashFunc t.1.file t.2 q =
                .ok (edbOk, some rid) ↔
              rid ∈ liveIn oneDocument.file 1 ∧
                KeyAt oneDocument.file
                  (recordAddress oneDocument.file rid) k) ∧
          ((∀ rid ∈ liveIn oneDocument.file 1,
              ¬ KeyAt oneDocument.file
                (recordAddress oneDocument.file rid) k) →
            findIndex hashFunc t.1.file t.2 q =
              .ok (edbInvalidArg, none))) ∧
        t.1.body = (List.range 1).map segmentOffset ∧
        t.1.freeSpaceMap.entries.Perm
          ((List.range (1 * dmsPagesPerSegment)).map
            (fun p => (Page.freeSpace oneDocument.file
              (pageAddress p), p)))) := by
  have hImage := good_oneDocument.image
    (by rw [oneDocument_body]; decide)
  rw [oneDocument_body] at hImage
  exact loadData_rebuilds hashFunc
    (opened oneDocument.file oneDocument.fileSize) 1
    hImage rfl rfl (fun _ => none) (fun _ => rfl)

------------------------------------------------------------
-- Loads That Succeed
------------------------------------------------------------

section Success

variable {h : List UInt8 → Nat} {st t : Loaded}
variable {failure : Nat → Option Errno} {rc : Int}

/- Loading a slot only touches the index. -/
theorem loadSlot_file
    {data i j k : Nat}
    (hLoad : loadSlot h data i j st k = .ok (rc, t)) :
    t.1 = st.1 := by
  simp only [loadSlot] at hLoad
  split at hLoad
  · simp only [pure, Except.pure, Except.ok.injEq,
      Prod.mk.injEq] at hLoad
    rw [← hLoad.2]
  · simp only [bind, Except.bind] at hLoad
    split at hLoad
    · simp at hLoad
    · split at hLoad
      · simp at hLoad
      · split at hLoad
        · simp only [pure, Except.pure, Except.ok.injEq,
            Prod.mk.injEq] at hLoad
          rw [← hLoad.2]
        · split at hLoad
          · simp at hLoad
          · simp only [pure, Except.pure, Except.ok.injEq,
              Prod.mk.injEq] at hLoad
            rw [← hLoad.2]

/- Loading a page changes the map and the index alone. -/
theorem loadPage_frame
    {data i j : Nat}
    (hLoad : loadPage h data i st j = .ok (rc, t)) :
    t.1.file = st.1.file ∧ t.1.fileSize = st.1.fileSize ∧
      t.1.body = st.1.body := by
  unfold loadPage at hLoad
  refine forUntil_preserves
    (P := fun u : Loaded => u.1.file = st.1.file ∧
      u.1.fileSize = st.1.fileSize ∧ u.1.body = st.1.body)
    ?_ ?_ hLoad
  · intro u k _ rc v hSame hStep
    rw [loadSlot_file hStep]
    exact hSame
  · exact ⟨rfl, rfl, rfl⟩

/-
  Loading a segment leaves the file and at most maps the
  segment at its load offset.
-/
theorem loadSegment_frame
    {i : Nat}
    (hLoad : loadSegment h failure st i = .ok (rc, t)) :
    t.1.file = st.1.file ∧ t.1.fileSize = st.1.fileSize ∧
      ∀ d ∈ t.1.body, d ∈ st.1.body ∨ d = loadOffset i := by
  unfold loadSegment at hLoad
  split at hLoad
  · simp only [Except.ok.injEq, Prod.mk.injEq] at hLoad
    rw [← hLoad.2]
    exact ⟨rfl, rfl, fun d hd => Or.inl hd⟩
  · rename_i rc' data hMap
    have hData : data = loadOffset i := by
      rcases ossMmapFileMap_cases st.1.fileSize
          (loadOffset i) dmsFileSegmentSize_pos (failure i)
        with ⟨rc, _, hNone⟩ | hSome
      · rw [hMap] at hNone
        simp at hNone
      · rw [hMap, Prod.mk.injEq] at hSome
        exact Option.some.inj hSome.2
    refine forUntil_preserves
      (P := fun u : Loaded => u.1.file = st.1.file ∧
        u.1.fileSize = st.1.fileSize ∧
          ∀ d ∈ u.1.body, d ∈ st.1.body ∨ d = loadOffset i)
      ?_ ?_ hLoad
    · intro u j _ rc v hSame hStep
      rcases loadPage_frame hStep with ⟨hFile, hSize, hBody⟩
      rw [hFile, hSize, hBody]
      exact hSame
    · refine ⟨rfl, rfl, ?_⟩
      intro d hd
      rw [List.mem_append, List.mem_singleton] at hd
      rcases hd with hOld | hNew
      · exact Or.inl hOld
      · exact Or.inr (hNew.trans hData)

/- The offset of the seventeenth segment is out of range. -/
theorem loadSegment_sixteen
    (hSize : st.1.fileSize < 9223372036854775808) :
    ∃ u, loadSegment h failure st 16 =
      .ok (edbInvalidArg, u) := by
  have hOffset : loadOffset 16 = 18446744071562133504 := by
    decide
  have hMap : ossMmapFileMap st.1.fileSize (loadOffset 16)
      dmsFileSegmentSize (failure 16) =
        (edbInvalidArg, none) := by
    unfold ossMmapFileMap
    rw [hOffset, if_neg (by decide), if_pos (by
      simp only [dmsFileSegmentSize]
      omega)]
  exact ⟨st, by rw [loadSegment, hMap]⟩

/- A page count that fits an `int` counts whole segments. -/
theorem numSegments_eq
    {n : Nat}
    (hCount : st.1.headerSize = n * dmsPagesPerSegment)
    (hSmall : n < 67108864) :
    ((toSigned st.1.headerSize).tdiv
      (dmsPagesPerSegment : Nat)).toNat = n := by
  have hSigned : toSigned st.1.headerSize =
      ((n * dmsPagesPerSegment : Nat) : Int) := by
    rw [hCount]
    apply toSigned_of_lt
    simp only [dmsPagesPerSegment]
    omega
  rw [hSigned]
  simp

/- A load that succeeds had at most 16 segments to map. -/
theorem loadSegments_few
    {n : Nat}
    (hCount : st.1.headerSize = n * dmsPagesPerSegment)
    (hSmall : n < 67108864)
    (hSize : st.1.fileSize < 9223372036854775808)
    (hLoad : loadSegments h failure st = .ok (0, t)) :
    n ≤ 16 := by
  have hSegments := numSegments_eq hCount hSmall
  unfold loadSegments at hLoad
  simp only at hLoad
  split at hLoad
  · simp at hLoad
  · rw [hSegments] at hLoad
    by_contra hMany
    rcases forUntil_round
        (P := fun u : Loaded =>
          u.1.fileSize < 9223372036854775808)
        (fun u i rc v hBound hStep => by
          rw [(loadSegment_frame hStep).2.1]
          exact hBound)
        hSize hLoad (List.mem_range.mpr (by omega : 16 < n))
      with ⟨u, v, hBound, hStep⟩
    rcases @loadSegment_sixteen h u failure hBound with ⟨w, hRefused⟩
    rw [hRefused] at hStep
    simp at hStep

/- A load maps segments at load offsets and nothing else. -/
theorem loadSegments_frame
    {n : Nat}
    (hCount : st.1.headerSize = n * dmsPagesPerSegment)
    (hSmall : n < 67108864)
    (hLoad : loadSegments h failure st = .ok (rc, t)) :
    t.1.file = st.1.file ∧ t.1.fileSize = st.1.fileSize ∧
      ∀ d ∈ t.1.body,
        d ∈ st.1.body ∨ ∃ i < n, d = loadOffset i := by
  have hSegments := numSegments_eq hCount hSmall
  unfold loadSegments at hLoad
  simp only at hLoad
  split at hLoad
  · simp only [Except.ok.injEq, Prod.mk.injEq] at hLoad
    rw [← hLoad.2]
    exact ⟨rfl, rfl, fun d hd => Or.inl hd⟩
  · rw [hSegments] at hLoad
    refine forUntil_preserves
      (P := fun u : Loaded => u.1.file = st.1.file ∧
        u.1.fileSize = st.1.fileSize ∧
          ∀ d ∈ u.1.body,
            d ∈ st.1.body ∨ ∃ i < n, d = loadOffset i)
      ?_ ?_ hLoad
    · intro u i hi rc' v hOld hStep
      rcases loadSegment_frame hStep with
        ⟨hFile, hSize, hBody⟩
      refine ⟨hFile.trans hOld.1, hSize.trans hOld.2.1, ?_⟩
      intro d hd
      rcases hBody d hd with hBefore | hNew
      · exact hOld.2.2 d hBefore
      · exact Or.inr ⟨i, List.mem_range.mp hi, hNew⟩
    · exact ⟨rfl, rfl, fun d hd => Or.inl hd⟩

end Success

section Reopening

variable {h : List UInt8 → Nat} {s : DmsFile}

theorem liveIn_eq
    (s : DmsFile)
    (rid : DmsRecordID) :
    rid ∈ liveIn s.file s.body.length ↔ s.Live rid :=
  Iff.rfl

/- What a complete load of a good file has rebuilt. -/
theorem Good.of_loaded
    (hGood : Good s)
    {t : Loaded}
    {R : Set DmsRecordID}
    (hLoaded : LoadedTo h s.file s.fileSize t
      s.body.length s.numPages R) :
    Good t.1 ∧ t.1.body = s.body := by
  have hBody : t.1.body = s.body := by
    rw [hGood.body]
    exact hLoaded.body
  have hPages : t.1.numPages = s.numPages := by
    rw [numPages, hBody]
    rfl
  refine ⟨⟨⟨hLoaded.header, ?_, ?_, ?_, ?_⟩, ?_, ?_⟩, hBody⟩
  · rw [hBody]
    exact hGood.body
  · rw [hBody, hLoaded.size]
    exact hGood.size
  · rw [hPages, headerSize, hLoaded.file]
    exact hGood.count
  · rw [hBody]
    exact hGood.bound
  · rw [hPages, hLoaded.file]
    exact hGood.page
  · rw [hPages, hLoaded.file]
    exact hLoaded.free

/- Opening a file that is laid out loads its image. -/
theorem Layout.init_eq
    (hLayout : Layout s)
    (creation : HeaderCreation)
    (failure : Nat → Option Errno) :
    DmsFile.init h creation failure s.file s.fileSize =
      DmsFile.loadData h failure
        (opened s.file s.fileSize, IxmBucketManager.init) := by
  have hSize : s.fileSize ≠ 0 := by
    rw [hLayout.size]
    simp only [segmentOffset, dmsFileHeaderSize]
    omega
  rw [DmsFile.init, if_neg hSize]

/- Opening it loads the segments that the header counts. -/
theorem Layout.loadSegments_of_init
    (hLayout : Layout s)
    {creation : HeaderCreation}
    {failure : Nat → Option Errno}
    {t : Loaded}
    (hInit : DmsFile.init h creation failure s.file
      s.fileSize = .ok (edbOk, t)) :
    loadSegments h (fun i => failure (i + 1))
        ({ opened s.file s.fileSize with header := true },
          IxmBucketManager.init) = .ok (edbOk, t) ∧
      s.body.length ≤ 16 := by
  have hBound := hLayout.bound
  simp only [maxSegments] at hBound
  have hSize : s.fileSize < 9223372036854775808 := by
    rw [hLayout.size]
    simp only [segmentOffset, dmsFileHeaderSize,
      dmsFileSegmentSize]
    omega
  rw [hLayout.init_eq, DmsFile.loadData,
    if_neg (by simp [opened])] at hInit
  split at hInit
  · rename_i rc hMap
    simp only [Except.ok.injEq, Prod.mk.injEq] at hInit
    exact absurd hInit.1
      (ossMmapFileMap_none (by decide) hMap)
  · exact ⟨hInit,
      loadSegments_few hLayout.count hBound hSize hInit⟩

/- What a process that opened a good file again has. -/
structure Restored
    (h : List UInt8 → Nat)
    (s : DmsFile)
    (t : DmsFile)
    (mgr : IxmBucketManager) : Prop where
  good : Good t
  body : t.body = s.body
  file : t.file = s.file
  size : t.fileSize = s.fileSize
  index : Covers h s.file (recordAddress s.file) mgr
    (liveIn s.file s.body.length)

/-
  Opening a good file again, if it succeeds, restores its
  state.
-/
theorem Good.restored_of_init
    (hGood : Good s)
    {creation : HeaderCreation}
    {failure : Nat → Option Errno}
    {t : DmsFile}
    {mgr : IxmBucketManager}
    (hInit : DmsFile.init h creation failure s.file
      s.fileSize = .ok (edbOk, (t, mgr))) :
    s.body.length ≤ 16 ∧ Restored h s t mgr ∧
      DistinctKeys s.file s.body.length := by
  have hFew := (hGood.loadSegments_of_init hInit).2
  rw [hGood.init_eq] at hInit
  have hImage : Image (opened s.file s.fileSize).file
      (opened s.file s.fileSize).fileSize s.body.length :=
    hGood.image hFew
  rcases hImage.loadData (h := h) failure rfl rfl with
    ⟨t', hLoad, hDone⟩ | ⟨rc, t', hLoad, hCode, _⟩
  · rw [hInit] at hLoad
    simp only [Except.ok.injEq, Prod.mk.injEq, true_and]
      at hLoad
    rw [← hLoad] at hDone
    have hRebuilt := hGood.of_loaded hDone
    exact ⟨hFew, ⟨hRebuilt.1, hRebuilt.2, hDone.file,
      hDone.size, hDone.index⟩, hDone.distinctKeys⟩
  · rw [hInit] at hLoad
    simp only [Except.ok.injEq, Prod.mk.injEq] at hLoad
    exact absurd hLoad.1.symm hCode

/- A file without records has no two records of one key. -/
theorem distinctKeys_of_empty
    (hNone : ∀ rid, ¬ s.Live rid) :
    DistinctKeys s.file s.body.length := by
  constructor
  · intro rid hLive
    exact absurd hLive (hNone rid)
  · intro rid hLive
    exact absurd hLive (hNone rid)

/-
  Opening a good file of at most 16 segments with distinct
  keys succeeds when no mapping call fails.
-/
theorem Good.init_ok
    (hGood : Good s)
    (hFew : s.body.length ≤ 16)
    (hDistinct : DistinctKeys s.file s.body.length)
    (creation : HeaderCreation) :
    ∃ t mgr,
      DmsFile.init h creation (fun _ => none) s.file
        s.fileSize = .ok (edbOk, (t, mgr)) := by
  have hImage : Image (opened s.file s.fileSize).file
      (opened s.file s.fileSize).fileSize s.body.length :=
    hGood.image hFew
  rw [hGood.init_eq]
  rcases hImage.loadData (h := h) (fun _ => none) rfl rfl with
    ⟨⟨t, mgr⟩, hLoad, _⟩ | ⟨_, _, _, _, hStop⟩
  · exact ⟨t, mgr, hLoad⟩
  · rcases hStop with ⟨i, hFailure⟩ | hNot
    · exact absurd rfl hFailure
    · exact absurd hDistinct hNot

end Reopening

end DmsFile

end EmeraldDb
