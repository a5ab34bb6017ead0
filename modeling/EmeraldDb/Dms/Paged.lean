import EmeraldDb.Dms.Capacity
import EmeraldDb.Dms.SlotPage

/-
  Properties of every mapped page.

  A property that a new page has and that depends on the
  bytes of the page alone is kept for all mapped pages by
  every extension, successful or not, and by a change to one
  page that keeps it there.  The segments may be mapped
  anywhere in the file, and nothing is asked of the
  free-space map.

  Key definitions include:
    * `DmsFile.IsPage`
    * `DmsFile.PageProperty`
    * `DmsFile.Paged`
    * `DmsFile.Turns`

  Key results include:
    * `DmsFile.Paged.withPage`
    * `DmsFile.Paged.insertLoop`
    * `DmsFile.Paged.restart`
-/

namespace EmeraldDb

namespace DmsFile

variable {s t : DmsFile} {record : BSONObj}
  {p page page' : Nat}

------------------------------------------------------------
-- Mapped Pages
------------------------------------------------------------

/- An address at which a page is mapped. -/
def IsPage (s : DmsFile) (page : Nat) : Prop :=
  ∃ d ∈ s.body, ∃ j < dmsPagesPerSegment,
    page = d + j * dmsPageSize

theorem isPage_of_pageToOffset
    (hPage : s.pageToOffset p = some page) :
    s.IsPage page := by
  unfold pageToOffset at hPage
  split at hPage
  · cases hPage
  · cases hSegment : s.body[p / dmsPagesPerSegment]? with
    | none =>
        rw [hSegment] at hPage
        cases hPage
    | some d =>
        rw [hSegment, Option.map_some, Option.some.injEq]
          at hPage
        refine ⟨d, List.mem_of_getElem? hSegment,
          p % dmsPagesPerSegment, Nat.mod_lt _ (by decide),
          ?_⟩
        rw [← hPage, Nat.mul_comm]

/-
  A property of the bytes of a page that fresh pages have.
-/
structure PageProperty
    (P : Memory → Nat → Prop) : Prop where
  frame : ∀ {m m' page}, P m page →
    Memory.Same m page m' page dmsPageSize → P m' page
  fresh : ∀ {m page}, Page.Fresh m page → P m page

/-
  The segments lie behind the file header, inside the file
  and apart from each other, and their pages have the
  property.
-/
structure Paged
    (P : Memory → Nat → Prop)
    (s : DmsFile) : Prop where
  sized : dmsFileHeaderSize ≤ s.fileSize
  behind : ∀ d ∈ s.body, dmsFileHeaderSize ≤ d
  inside : ∀ d ∈ s.body,
    d + dmsFileSegmentSize ≤ s.fileSize
  apart : ∀ d ∈ s.body, ∀ e ∈ s.body, d = e ∨
    d + dmsFileSegmentSize ≤ e ∨ e + dmsFileSegmentSize ≤ d
  page : ∀ page, s.IsPage page → P s.file page

namespace Paged

variable {P : Memory → Nat → Prop}

theorem pageToOffset
    (hPaged : Paged P s)
    (hPage : s.pageToOffset p = some page) :
    P s.file page :=
  hPaged.page page (isPage_of_pageToOffset hPage)

/- A mapped page lies behind the header, inside the file. -/
theorem bounds
    (hPaged : Paged P s)
    (hPage : s.IsPage page) :
    dmsFileHeaderSize ≤ page ∧
      page + dmsPageSize ≤ s.fileSize := by
  rcases hPage with ⟨d, hSegment, j, hIndex, rfl⟩
  have hLow := hPaged.behind d hSegment
  have hHigh := hPaged.inside d hSegment
  simp only [dmsPagesPerSegment, dmsFileSegmentSize,
    dmsPageSize] at *
  omega

/- Two pages are at the same address or apart. -/
theorem pages_apart
    (hPaged : Paged P s)
    (hPage : s.IsPage page)
    (hPage' : s.IsPage page')
    (hNe : page' ≠ page) :
    page' + dmsPageSize ≤ page ∨
      page + dmsPageSize ≤ page' := by
  rcases hPage with ⟨d, hSegment, j, hIndex, rfl⟩
  rcases hPage' with ⟨e, hSegment', i, hIndex', rfl⟩
  have hApart := hPaged.apart d hSegment e hSegment'
  simp only [dmsPagesPerSegment, dmsFileSegmentSize,
    dmsPageSize] at *
  omega

theorem created
    (file : Memory) :
    Paged P (DmsFile.created file) := by
  have hBody : (DmsFile.created file).body = [] := rfl
  refine ⟨?_, ?_, ?_, ?_, ?_⟩
  · simp [DmsFile.created, writeHeader, DmsFile.grow, opened]
  · rw [hBody]
    simp
  · rw [hBody]
    simp
  · rw [hBody]
    simp
  · rintro page ⟨d, hSegment, _⟩
    rw [hBody] at hSegment
    simp at hSegment

/- A change to one page that keeps the property there. -/
theorem withPage
    (hPaged : Paged P s)
    (hProperty : PageProperty P)
    (hPage : s.IsPage page)
    {m : Memory}
    (hLocal : Page.Local s.file m page)
    (hKeep : P m page)
    (M : MultiMap Nat Nat) :
    Paged P (s.withPage m M) := by
  refine ⟨hPaged.sized, hPaged.behind, hPaged.inside,
    hPaged.apart, ?_⟩
  intro page' hPage'
  by_cases hEq : page' = page
  · rw [hEq]
    exact hKeep
  · exact hProperty.frame (hPaged.page page' hPage')
      (hLocal.same (hPaged.pages_apart hPage hPage' hEq))

------------------------------------------------------------
-- Extension
------------------------------------------------------------

theorem grow
    (hPaged : Paged P s)
    (hProperty : PageProperty P)
    (n : Nat) :
    Paged P (s.grow n) := by
  refine ⟨Nat.le_add_right_of_le hPaged.sized,
    hPaged.behind, ?_, hPaged.apart, ?_⟩
  · intro d hd
    exact Nat.le_add_right_of_le (hPaged.inside d hd)
  · intro page hPage
    exact hProperty.frame (hPaged.page page hPage)
      (Memory.same_fill_of_disjoint _ _
        (Or.inl (hPaged.bounds hPage).2)).symm

theorem extended
    (hPaged : Paged P s)
    (hProperty : PageProperty P) :
    Paged P s.extended := by
  have hSize : s.extended.fileSize =
      s.fileSize + dmsFileSegmentSize := rfl
  have hMem : ∀ d ∈ s.extended.body,
      d ∈ s.body ∨ d = s.fileSize := by
    intro d hd
    rw [extended_body, List.mem_append, List.mem_singleton]
      at hd
    exact hd
  refine ⟨Nat.le_add_right_of_le hPaged.sized, ?_, ?_, ?_,
    ?_⟩
  · intro d hd
    rcases hMem d hd with hOld | hNew
    · exact hPaged.behind d hOld
    · rw [hNew]
      exact hPaged.sized
  · intro d hd
    rcases hMem d hd with hOld | hNew
    · exact Nat.le_add_right_of_le (hPaged.inside d hOld)
    · rw [hNew, hSize]
  · intro d hd e he
    rcases hMem d hd with hOldD | hNewD
    · rcases hMem e he with hOldE | hNewE
      · exact hPaged.apart d hOldD e hOldE
      · rw [hNewE]
        exact Or.inr (Or.inl (hPaged.inside d hOldD))
    · rcases hMem e he with hOldE | hNewE
      · rw [hNewD]
        exact Or.inr (Or.inr (hPaged.inside e hOldE))
      · exact Or.inl (hNewD.trans hNewE.symm)
  · rintro page ⟨d, hd, j, hIndex, rfl⟩
    rcases hMem d hd with hOld | hNew
    · have hPage : s.IsPage (d + j * dmsPageSize) :=
        ⟨d, hOld, j, hIndex, rfl⟩
      rcases hPaged.bounds hPage with ⟨hLow, hHigh⟩
      exact hProperty.frame (hPaged.page _ hPage)
        (same_extended s hLow hHigh)
    · rw [hNew]
      exact hProperty.fresh
        (s.fresh_extended hPaged.sized hIndex)

theorem extendSegment
    (hPaged : Paged P s)
    (hProperty : PageProperty P)
    (ext : Extension) :
    Paged P (s.extendSegment ext).2 := by
  rcases s.extendSegment_cases ext with
    ⟨rc, n, _, _, hFail⟩ | hDone
  · rw [hFail]
    exact hPaged.grow hProperty n
  · rw [hDone]
    exact hPaged.extended hProperty

------------------------------------------------------------
-- Restart
------------------------------------------------------------

/-
  Opening a file again whose segments are where a load maps
  them: every segment that is mapped was mapped before.
-/
theorem restart
    (hPaged : Paged P s)
    (hLayout : Layout s)
    {h : List UInt8 → Nat}
    {creation : HeaderCreation}
    {failure : Nat → Option Errno}
    {mgr : IxmBucketManager}
    (hInit : DmsFile.init h creation failure s.file
      s.fileSize = .ok (edbOk, (t, mgr))) :
    Paged P t := by
  rcases hLayout.loadSegments_of_init hInit with
    ⟨hLoad, hFew⟩
  rcases loadSegments_frame hLayout.count hLayout.bound hLoad
    with ⟨hFile, hSize, hOffset⟩
  have hBody : ∀ d ∈ t.body, d ∈ s.body := by
    intro d hd
    rcases hOffset d hd with hNone | ⟨i, hIndex, rfl⟩
    · simp [opened] at hNone
    · rw [loadOffset_eq (by omega), hLayout.body]
      exact List.mem_map.mpr
        ⟨i, List.mem_range.mpr hIndex, rfl⟩
  refine ⟨?_, ?_, ?_, ?_, ?_⟩
  · rw [hSize]
    exact hPaged.sized
  · intro d hd
    exact hPaged.behind d (hBody d hd)
  · intro d hd
    rw [hSize]
    exact hPaged.inside d (hBody d hd)
  · intro d hd e he
    exact hPaged.apart d (hBody d hd) e (hBody e he)
  · rintro page ⟨d, hd, j, hIndex, rfl⟩
    rw [hFile]
    exact hPaged.page _ ⟨d, hBody d hd, j, hIndex, rfl⟩

end Paged

------------------------------------------------------------
-- Turns of an Insertion
------------------------------------------------------------

/-
  `Q` holds of the state in which an insertion has found its
  page, if it finds one.
-/
def Turns
    (Q : DmsFile → Prop)
    (record : BSONObj) :
    List Extension → DmsFile → Prop
| [], s =>
    s.findPage record.length ≠ dmsInvalidPageID → Q s
| ext :: exts, s =>
    if s.findPage record.length = dmsInvalidPageID then
      (s.extendSegment ext).1 = edbOk →
        Turns Q record exts (s.extendSegment ext).2
    else Q s

theorem Turns.of_all
    {Q : DmsFile → Prop}
    (hAll : ∀ u, Q u)
    (exts : List Extension)
    (s : DmsFile) :
    Turns Q record exts s := by
  induction exts generalizing s with
  | nil => exact fun _ => hAll s
  | cons ext exts ih =>
      unfold Turns
      split
      · exact fun _ => ih _
      · exact hAll s

/-
  Induction on the extensions: what they keep and the last
  turn keeps, the insertion keeps.
-/
theorem Turns.insertLoop
    {Q I : DmsFile → Prop}
    (hExtend : ∀ u ext, I u → I (u.extendSegment ext).2)
    (hTurn : ∀ u rc r, I u → Q u →
      u.insertPage (u.findPage record.length) record rc =
        .ok r → I r.state)
    {exts : List Extension}
    {rc : Int}
    {r : InsertResult}
    (hTurns : Turns Q record exts s)
    (hStart : I s)
    (hCall : DmsFile.insertLoop record exts rc s = .ok r) :
    I r.state := by
  induction exts generalizing s rc with
  | nil =>
      simp only [DmsFile.insertLoop] at hCall
      split at hCall
      · cases hCall
      · rename_i hFound
        exact hTurn s rc r hStart (hTurns hFound) hCall
  | cons ext exts ih =>
      unfold Turns at hTurns
      by_cases hFound :
          s.findPage record.length = dmsInvalidPageID
      · rw [if_pos hFound] at hTurns
        have hNext := hExtend s ext hStart
        cases hStep : s.extendSegment ext with
        | mk rc' u =>
            rw [hStep] at hTurns hNext
            by_cases hCode : rc' = edbOk
            · rw [hCode] at hStep hTurns
              rw [insertLoop_extended hFound hStep] at hCall
              exact ih (hTurns rfl) hNext hCall
            · rw [insertLoop_failed hFound hStep hCode,
                Except.ok.injEq] at hCall
              rw [← hCall]
              exact hNext
      · rw [if_neg hFound] at hTurns
        rw [insertLoop_found hFound] at hCall
        exact hTurn s rc r hStart hTurns hCall

end DmsFile

end EmeraldDb
