import EmeraldDb.Dms.FreeSpace
import EmeraldDb.Dms.Load

/-
  Opening a file that has grown.

  An extension maps its segment at the end of the file, an
  offset of 64 bits.  A load computes the offset again, from
  the number of the segment and in 32 bits.  The two agree
  for the segments below two gigabytes and for no others.

  Key definitions include:
    * `DmsFile.Grown`

  Key results include:
    * `DmsFile.loadOffset_eq_iff`
    * `DmsFile.Grown.good`
    * `DmsFile.segmentOffsets_agree`
-/

namespace EmeraldDb

abbrev dmsMaxPages : Nat := 262144
abbrev dmsMaxSegments : Nat := dmsMaxPages / dmsPagesPerSegment

namespace DmsFile

------------------------------------------------------------
-- Offsets
------------------------------------------------------------

/- Only the first 16 segments are mapped where they belong. -/
theorem loadOffset_eq_iff
    {i : Nat}
    (hMax : i < dmsMaxSegments) :
    loadOffset i = segmentOffset i ↔ i < 16 := by
  constructor
  · intro hEq
    -- A wrapped offset is below two gigabytes or, from a
    -- negative number, close to the end of the 64-bit range.
    simp only [loadOffset, wrapInt, toSigned, ofSigned,
      segmentOffset, dmsFileHeaderSize,
      dmsFileSegmentSize] at hEq
    simp only [dmsMaxSegments, dmsMaxPages,
      dmsPagesPerSegment] at hMax
    omega
  · exact loadOffset_eq

------------------------------------------------------------
-- Growth
------------------------------------------------------------

/-
  A file that was empty, got its header and was then extended
  by successful calls.  The list has the offset at which each
  of the calls mapped its segment.
-/
inductive Grown (file : Memory) : List Nat → DmsFile → Prop
| created {creation : HeaderCreation} {t : DmsFile} :
    (opened file 0).initHeader creation = (edbOk, t) →
      Grown file [] t
| extended {offsets : List Nat} {s t : DmsFile}
    {ext : Extension} :
    Grown file offsets s →
      s.extendSegment ext = (edbOk, t) →
        Grown file (offsets ++ [s.fileSize]) t

section Growth

variable {file : Memory} {offsets : List Nat} {s : DmsFile}

theorem extended_of_extendSegment
    {t : DmsFile}
    {ext : Extension}
    (hExtend : s.extendSegment ext = (edbOk, t)) :
    t = s.extended := by
  rcases extendSegment_cases s ext with
    ⟨rc, n, hCode, _, hFail⟩ | hDone
  · rw [hFail, Prod.mk.injEq] at hExtend
    exact absurd hExtend.1 hCode
  · rw [hDone, Prod.mk.injEq] at hExtend
    exact hExtend.2.symm

/- The segments of a grown file are the mapped offsets. -/
theorem Grown.body
    (hGrown : Grown file offsets s) :
    s.body = offsets := by
  induction hGrown with
  | created hHeader =>
      rw [created_of_initHeader hHeader]
      rfl
  | extended _ hExtend ih =>
      rw [extended_of_extendSegment hExtend, extended_body, ih]

/- A grown file is in order and has no record. -/
theorem Grown.good
    (hGrown : Grown file offsets s)
    (hFew : offsets.length < maxSegments) :
    Good s ∧ ∀ rid, ¬ s.Live rid := by
  induction hGrown with
  | created hHeader =>
      rw [created_of_initHeader hHeader]
      exact ⟨good_created file, created_not_live file⟩
  | @extended offsets s t ext hBefore hExtend ih =>
      rw [List.length_append, List.length_singleton] at hFew
      have hOld := ih (by omega)
      have hMore : s.body.length + 1 < maxSegments := by
        rw [hBefore.body]
        exact hFew
      have hNew := hOld.1.extended hMore
      rw [extended_of_extendSegment hExtend]
      refine ⟨hNew.good, ?_⟩
      intro rid hLive
      exact hOld.2 rid ((hNew.live rid).mp hLive)

/- Extension number `i + 1` maps segment `i` in its place. -/
theorem Grown.offsets_eq
    (hGrown : Grown file offsets s)
    (hFew : offsets.length < maxSegments) :
    offsets = (List.range offsets.length).map
      segmentOffset := by
  have hBody := (hGrown.good hFew).1.body
  rw [hGrown.body] at hBody
  exact hBody

/- A file can grow to every size below the limit. -/
theorem exists_grown
    (file : Memory)
    {n : Nat}
    (hFew : n < maxSegments) :
    ∃ offsets s, Grown file offsets s ∧
      offsets.length = n := by
  induction n with
  | zero =>
      have hHeader : (opened file 0).initHeader .success =
          (edbOk, created file) := by
        rw [initHeader, extendFile_header]
        rfl
      exact ⟨[], created file, .created hHeader, rfl⟩
  | succ n ih =>
      rcases ih (by omega) with
        ⟨offsets, s, hGrown, hLength⟩
      have hLayout : Layout s :=
        (hGrown.good (by omega)).1.toLayout
      refine ⟨offsets ++ [s.fileSize], s.extended,
        hGrown.extended (extendSegment_success _), ?_⟩
      rw [List.length_append, hLength, List.length_singleton]

end Growth

------------------------------------------------------------
-- Agreement
------------------------------------------------------------

section Agreement

variable {file : Memory} {offsets : List Nat} {s : DmsFile}

/- A grown file can be opened while it has 16 segments. -/
theorem Grown.init_ok_iff
    (hGrown : Grown file offsets s)
    (hFew : offsets.length < maxSegments)
    (h : List UInt8 → Nat)
    (creation : HeaderCreation) :
    (∃ t, init h creation (fun _ => none) s.file s.fileSize =
      .ok (edbOk, t)) ↔ offsets.length ≤ 16 := by
  have hGood := hGrown.good hFew
  have hLength : s.body.length = offsets.length := by
    rw [hGrown.body]
  constructor
  · rintro ⟨⟨t, mgr⟩, hInit⟩
    rw [← hLength]
    exact (hGood.1.restored_of_init hInit).1
  · intro hSmall
    rcases @Good.init_ok h s hGood.1 (by omega)
        (distinctKeys_of_empty hGood.2) creation with
      ⟨t, mgr, hInit⟩
    exact ⟨(t, mgr), hInit⟩

/-
  In a file grown by extensions up to the largest allowed
  size, the offsets that a load passes to map are those at
  which the segments were mapped exactly when there are at
  most 16 segments, and just then the file can be opened.
-/
theorem segmentOffsets_agree
    (hMax : offsets.length ≤ dmsMaxSegments)
    (hGrown : Grown file offsets s)
    (h : List UInt8 → Nat)
    (creation : HeaderCreation) :
    ((∀ i offset, offsets[i]? = some offset →
        loadOffset i = offset) ↔ offsets.length ≤ 16) ∧
      ((∃ t, init h creation (fun _ => none) s.file
          s.fileSize = .ok (edbOk, t)) ↔
        offsets.length ≤ 16) := by
  have hFew : offsets.length < maxSegments :=
    lt_of_le_of_lt hMax (by decide)
  have hOffset : ∀ i, i < offsets.length →
      offsets[i]? = some (segmentOffset i) := by
    intro i hi
    rw [hGrown.offsets_eq hFew, List.getElem?_map,
      List.getElem?_range hi, Option.map_some]
  refine ⟨⟨?_, ?_⟩, hGrown.init_ok_iff hFew h creation⟩
  · intro hAgree
    by_contra hMany
    have hLast := hAgree 16 _ (hOffset 16 (by omega))
    rw [loadOffset_eq_iff (by decide)] at hLast
    omega
  · intro hSmall i offset hAt
    have hi : i < offsets.length :=
      (List.getElem?_eq_some_iff.mp hAt).1
    rw [hOffset i hi, Option.some.injEq] at hAt
    rw [← hAt]
    exact loadOffset_eq (by omega)

/- A file of two segments over zero bytes. -/
theorem segmentOffsets_agree_two :
    ((∀ i offset, [65536, 134283264][i]? = some offset →
        loadOffset i = offset) ↔
      [65536, 134283264].length ≤ 16) ∧
      ((∃ t, init (fun _ => 0) .success (fun _ => none)
          (created (fun _ => 0)).extended.extended.file
          (created (fun _ => 0)).extended.extended.fileSize =
            .ok (edbOk, t)) ↔
        [65536, 134283264].length ≤ 16) := by
  have hHeader : (opened (fun _ => 0) 0).initHeader
      .success = (edbOk, created (fun _ => 0)) := by
    rw [initHeader, extendFile_header]
    rfl
  have hOne : Grown (fun _ => 0) [65536]
      (created (fun _ => 0)).extended :=
    (Grown.created hHeader).extended
      (extendSegment_success _)
  have hTwo : Grown (fun _ => 0) [65536, 134283264]
      (created (fun _ => 0)).extended.extended :=
    hOne.extended (extendSegment_success _)
  exact segmentOffsets_agree (by decide) hTwo _ _

/-
  In a file of 17 segments the last one was mapped behind two
  gigabytes, and the load asks for an offset close to the end
  of the 64-bit range.
-/
theorem segmentOffsets_disagree :
    ∃ offsets s, Grown (fun _ => 0) offsets s ∧
      offsets.length = 17 ∧
      offsets.length ≤ dmsMaxSegments ∧
      offsets[16]? = some 2147549184 ∧
      loadOffset 16 = 18446744071562133504 := by
  rcases exists_grown (fun _ => 0) (n := 17) (by decide) with
    ⟨offsets, s, hGrown, hLength⟩
  refine ⟨offsets, s, hGrown, hLength, ?_, ?_, by decide⟩
  · rw [hLength]
    decide
  · rw [hGrown.offsets_eq (by rw [hLength]; decide),
      List.getElem?_map, hLength]
    rfl

end Agreement

end DmsFile

end EmeraldDb
