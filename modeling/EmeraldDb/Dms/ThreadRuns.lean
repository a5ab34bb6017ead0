import EmeraldDb.Dms.PageIds

/-
  Runs of threads on one data file.

  If no thread reads the size of the free-space map while
  another is between the two halves of an update, every state
  of a run is consistent, and page ids are unique whenever no
  update and no extension is under way.  A thread that reads
  the size too early gives a page id away twice.

  Key definitions include:
    * `DmsThreads.ThreadGuard`
    * `DmsThreads.SizeUndisturbed`
    * `DmsThreads.PageIdsUnique`

  Key results include:
    * `DmsThreads.Consistent.step`
    * `DmsThreads.pageIds_unique`
    * `DmsThreads.pageIds_not_unique`
-/

namespace EmeraldDb

open DmsFile

namespace DmsThreads

variable {c t : DmsThreads} {a : Nat}

------------------------------------------------------------
-- Guards
------------------------------------------------------------

/-
  Records are well formed; page ids fit 32 bits; an insertion
  does not reorganise a page that has live records; a removal
  does not name the slot behind the last one.
-/
def ThreadGuard
    (c : DmsThreads)
    (op : Nat × ThreadOp) : Prop :=
  match c.thread op.1, op.2 with
  | .idle, .insert record => record.WellFormed
  | .mapping _, .extend _ =>
      c.dmsFile.numPages + dmsPagesPerSegment < 4294967296
  | .found call pageID, .next =>
      ∀ page, c.dmsFile.pageToOffset pageID = some page →
        needsRecover c.dmsFile.file page
            call.record.length = true →
          ∀ k, ¬ Page.Live c.dmsFile.file page k
  | .searching rid page, .next =>
      rid.slotID ≠ Page.numSlots c.dmsFile.file page
  | _, _ => True

/- No update is under way when the size of the map is read. -/
def SizeUndisturbed
    (c : DmsThreads)
    (op : Nat × ThreadOp) : Prop :=
  match c.thread op.1, op.2 with
  | .mapped _ _, .next => ∀ b, (c.thread b).pending = []
  | _, _ => True

abbrev GuardedStep :
    DmsThreads → Nat × ThreadOp → DmsThreads → Prop :=
  Guarded ThreadGuard Step

abbrev UndisturbedStep :
    DmsThreads → Nat × ThreadOp → DmsThreads → Prop :=
  Guarded SizeUndisturbed GuardedStep

------------------------------------------------------------
-- Steps
------------------------------------------------------------

theorem getMutex_some
    {st : Thread}
    (hStep : c.getMutex a st = some t) :
    c.mutex = none ∧
      t = { c.move a st with mutex := some a } := by
  unfold getMutex at hStep
  split at hStep
  · rename_i hFree
    exact ⟨hFree, (Option.some.inj hStep).symm⟩
  · simp at hStep

theorem getExtendMutex_some
    {st : Thread}
    (hStep : c.getExtendMutex a st = some t) :
    c.extendMutex = none ∧
      t = { c.move a st with extendMutex := some a } := by
  unfold getExtendMutex at hStep
  split at hStep
  · rename_i hFree
    exact ⟨hFree, (Option.some.inj hStep).symm⟩
  · simp at hStep

namespace Consistent

/- A call ends, or begins its update. -/
theorem start
    (hConsistent : Consistent c)
    {old : Thread}
    (hState : c.thread a = old)
    (hHolds : old.holdsMutex = true)
    (hExtend : old.holdsExtendMutex = false)
    (hPending : old.pending = [])
    {begun : Begun}
    (hShared : Shared c.dmsFile [] c.entered →
      Shared begun.finish.state [] c.entered ∧
        Inside c.dmsFile begun.finish.state) :
    Consistent (c.start a begun) := by
  have hOld := hConsistent.shared
  rw [DmsThreads.pending, hConsistent.mutex.value_of_holder
    (hState ▸ hHolds), hState, hPending] at hOld
  rcases hShared hOld with ⟨hNext, hInside⟩
  have hBegun := hNext.begun
  have hSame := hInside.begun
  cases begun with
  | done r =>
      exact hConsistent.update hState hHolds rfl hExtend rfl
        hSame (fun _ => hBegun) trivial
  | updating s e rc written =>
      exact hConsistent.update hState hHolds rfl hExtend rfl
        hSame (fun _ => hBegun) trivial

/- The pages are written as `insert` says. -/
theorem found
    (hConsistent : Consistent c)
    {call : InsertCall}
    {pageID : Nat}
    (hState : c.thread a = .found call pageID)
    (hStill : ∀ page,
      c.dmsFile.pageToOffset pageID = some page →
        needsRecover c.dmsFile.file page
            call.record.length = true →
          ∀ k, ¬ Page.Live c.dmsFile.file page k)
    {begun : Begun}
    (hCall : c.dmsFile.beginInsert pageID call.record
      call.rc = .ok begun) :
    Consistent (c.start a begun) := by
  have hForm := hConsistent.valid a
  rw [hState] at hForm
  have hPage : c.dmsFile.insertPage pageID call.record
      call.rc = .ok begun.finish := by
    rw [insertPage_begun, hCall]
    rfl
  apply hConsistent.start hState rfl rfl rfl
  intro hShared
  exact hShared.insertPage hForm hStill hPage

theorem searching
    (hConsistent : Consistent c)
    {rid : DmsRecordID}
    {page : Nat}
    (hState : c.thread a = .searching rid page)
    (hSlot : rid.slotID ≠ Page.numSlots c.dmsFile.file page) :
    Consistent
      (c.start a (c.dmsFile.beginRemove page rid)) := by
  have hOffset := hConsistent.valid a
  rw [hState] at hOffset
  have hRemove : (c.dmsFile.remove rid).2 =
      (c.dmsFile.beginRemove page rid).finish.state := by
    rw [remove_begun,
      show c.dmsFile.pageToOffset rid.pageID = some page
        from hOffset]
  apply hConsistent.start hState rfl rfl rfl
  intro hShared
  rw [← hRemove]
  exact hShared.remove hOffset hSlot

/- Steps 1 to 4 of an extension, with or without success. -/
theorem mapping
    (hConsistent : Consistent c)
    {call : InsertCall}
    (hState : c.thread a = .mapping call)
    (hFits : c.dmsFile.numPages + dmsPagesPerSegment <
      4294967296)
    {ext : Extension}
    (hStep : c.step (a, .extend ext) = some t) :
    Consistent t := by
  have hForm := hConsistent.valid a
  rw [hState] at hForm
  simp only [DmsThreads.step, hState] at hStep
  rcases c.dmsFile.newSegment_cases ext with
    ⟨rc, n, hFail⟩ | hDone
  · simp only [hFail, Option.some.injEq] at hStep
    rw [← hStep]
    apply hConsistent.extend hState rfl rfl rfl rfl
    · intro p page hOffset
      exact hOffset
    · intro hShared
      exact hShared.grow n
    · trivial
  · simp only [hDone, Option.some.injEq] at hStep
    rw [← hStep]
    have hSegment := (hConsistent.shared.withSegment hFits).2
    apply hConsistent.extend hState rfl rfl rfl rfl
    · intro p page hOffset
      rw [pageToOffset_congr (withSegment_body _)]
      exact hOffset
    · intro hShared
      exact (hShared.withSegment hFits).1
    · exact ⟨hForm, hSegment⟩

/- The size counts the pages if no update is under way. -/
theorem mapped
    (hConsistent : Consistent c)
    {call : InsertCall}
    {data : Nat}
    (hState : c.thread a = .mapped call data)
    (hQuiet : ∀ b, (c.thread b).pending = []) :
    Consistent (c.move a (.entering call data
      c.dmsFile.freeSpaceMap.size 0)) := by
  have hValid := hConsistent.valid a
  rw [hState] at hValid
  have hPending : c.pending = [] := by
    unfold DmsThreads.pending
    cases hOwner : c.mutex with
    | none => rfl
    | some b => exact hQuiet b
  have hEntered : c.entered = [] := by
    rw [DmsThreads.entered,
      hConsistent.extendMutex.value_of_holder
        (by rw [hState]; rfl), hState]
    rfl
  have hShared := hConsistent.shared
  rw [hPending, hEntered] at hShared
  have hNext : Thread.Valid c.dmsFile (.entering call data
      c.dmsFile.freeSpaceMap.size 0) :=
    ⟨hValid.1, hValid.2, hShared.size_eq, Nat.zero_le _⟩
  exact hConsistent.move hState rfl rfl rfl rfl hNext

/- The new pages are entered, and then they join the body. -/
theorem entering
    (hConsistent : Consistent c)
    {call : InsertCall}
    {data freeMapSize i : Nat}
    (hState : c.thread a = .entering call data freeMapSize i)
    (hStep : c.step (a, .next) = some t) :
    Consistent t := by
  have hValid := hConsistent.valid a
  rw [hState] at hValid
  rcases hValid with ⟨hForm, hSegment, hSize, hCount⟩
  simp only [DmsThreads.step, hState] at hStep
  split at hStep
  · rename_i hMore
    rw [Option.some.injEq] at hStep
    rw [← hStep]
    apply hConsistent.extend hState rfl rfl rfl rfl
    · intro p page hOffset
      exact hOffset
    · intro hShared
      have hNext := hShared.enter_extra
        (newEntry freeMapSize i)
      have hEntries : (Thread.entering call data freeMapSize i
          ).entered ++ [newEntry freeMapSize i] =
            (Thread.entering call data freeMapSize (i + 1)
              ).entered := by
        simp only [Thread.entered, List.range_succ,
          List.map_append, List.map_cons, List.map_nil]
      rw [← hEntries]
      exact hNext
    · exact ⟨hForm, ⟨hSegment.fits, hSegment.low,
        hSegment.above, hSegment.inside, hSegment.fresh⟩,
        hSize, hMore⟩
  · rename_i hDone
    have hAll : i = dmsPagesPerSegment := by
      omega
    rw [Option.some.injEq] at hStep
    rw [← hStep]
    have hPush : ∀ {pending},
        Shared c.dmsFile pending
          (Thread.entering call data freeMapSize i).entered →
        Shared (c.dmsFile.pushSegment data) pending [] := by
      intro pending hShared
      simp only [Thread.entered, hSize, hAll] at hShared
      exact hShared.pushSegment hSegment
    have hNext : Shared (c.dmsFile.pushSegment data)
        c.pending [] := by
      have hShared := hConsistent.shared
      rw [DmsThreads.entered,
        hConsistent.extendMutex.value_of_holder
          (by rw [hState]; rfl), hState] at hShared
      exact hPush hShared
    apply hConsistent.extend hState rfl rfl rfl rfl
    · intro p page hOffset
      exact hConsistent.shared.toMapped.pageToOffset_append
        hNext.toMapped rfl hOffset
    · exact hPush
    · exact hForm

/- Every guarded step leaves a consistent state. -/
theorem step
    {op : Nat × ThreadOp}
    (hConsistent : Consistent c)
    (hStep : UndisturbedStep c op t) :
    Consistent t := by
  rcases op with ⟨a, op⟩
  rcases hStep with ⟨hQuiet, hGuard, hStep⟩
  have hValid := hConsistent.valid a
  unfold Step at hStep
  cases hState : c.thread a with
  | idle =>
      cases op with
      | insert record =>
          simp only [DmsThreads.step, hState,
            Option.some.injEq] at hStep
          simp only [ThreadGuard, hState] at hGuard
          rw [← hStep]
          exact hConsistent.move hState rfl rfl rfl rfl hGuard
      | remove rid =>
          simp only [DmsThreads.step, hState] at hStep
          split at hStep
          · rw [Option.some.injEq] at hStep
            exact hStep ▸ hConsistent
          · rename_i page hOffset
            rw [Option.some.injEq] at hStep
            rw [← hStep]
            exact hConsistent.move hState rfl rfl rfl rfl
              hOffset
      | _ => simp [DmsThreads.step, hState] at hStep
  | retry call =>
      cases op with
      | next =>
          simp only [DmsThreads.step, hState] at hStep
          rcases getMutex_some hStep with ⟨hFree, rfl⟩
          rw [hState] at hValid
          exact hConsistent.getMutex hState hFree rfl rfl rfl
            rfl hValid
      | _ => simp [DmsThreads.step, hState] at hStep
  | finding call =>
      cases op with
      | next =>
          simp only [DmsThreads.step, hState] at hStep
          rw [hState] at hValid
          split at hStep
          · rw [Option.some.injEq] at hStep
            rw [← hStep]
            exact hConsistent.move hState rfl rfl rfl rfl
              hValid
          · rw [Option.some.injEq] at hStep
            rw [← hStep]
            exact hConsistent.move hState rfl rfl rfl rfl
              hValid
      | _ => simp [DmsThreads.step, hState] at hStep
  | full call =>
      cases op with
      | next =>
          simp only [DmsThreads.step, hState,
            Option.some.injEq] at hStep
          rw [hState] at hValid
          rw [← hStep]
          exact hConsistent.releaseMutex hState rfl rfl rfl rfl
            rfl hValid
      | _ => simp [DmsThreads.step, hState] at hStep
  | extending call =>
      cases op with
      | next =>
          simp only [DmsThreads.step, hState] at hStep
          rw [hState] at hValid
          split at hStep
          · rename_i hFree
            rw [Option.some.injEq] at hStep
            rw [← hStep]
            exact hConsistent.getExtendMutex hState hFree rfl
              rfl rfl rfl hValid
          · rw [Option.some.injEq] at hStep
            rw [← hStep]
            exact hConsistent.move hState rfl rfl rfl rfl
              hValid
      | _ => simp [DmsThreads.step, hState] at hStep
  | waiting call =>
      cases op with
      | next =>
          simp only [DmsThreads.step, hState] at hStep
          rcases getExtendMutex_some hStep with ⟨hFree, rfl⟩
          rw [hState] at hValid
          exact hConsistent.getExtendMutex hState hFree rfl rfl
            rfl rfl hValid
      | _ => simp [DmsThreads.step, hState] at hStep
  | mapping call =>
      cases op with
      | extend ext =>
          simp only [ThreadGuard, hState] at hGuard
          exact hConsistent.mapping hState hGuard hStep
      | _ => simp [DmsThreads.step, hState] at hStep
  | mapped call data =>
      cases op with
      | next =>
          simp only [SizeUndisturbed, hState] at hQuiet
          simp only [DmsThreads.step, hState,
            Option.some.injEq] at hStep
          rw [← hStep]
          exact hConsistent.mapped hState hQuiet
      | _ => simp [DmsThreads.step, hState] at hStep
  | entering call data freeMapSize i =>
      cases op with
      | next => exact hConsistent.entering hState hStep
      | _ => simp [DmsThreads.step, hState] at hStep
  | extended call =>
      cases op with
      | next =>
          simp only [DmsThreads.step, hState,
            Option.some.injEq] at hStep
          rw [hState] at hValid
          rw [← hStep]
          exact hConsistent.releaseExtendMutex hState rfl rfl
            rfl rfl rfl hValid
      | _ => simp [DmsThreads.step, hState] at hStep
  | failed rc =>
      cases op with
      | next =>
          simp only [DmsThreads.step, hState,
            Option.some.injEq] at hStep
          rw [← hStep]
          exact hConsistent.releaseExtendMutex hState rfl rfl
            rfl rfl rfl trivial
      | _ => simp [DmsThreads.step, hState] at hStep
  | found call pageID =>
      cases op with
      | next =>
          simp only [ThreadGuard, hState] at hGuard
          simp only [DmsThreads.step, hState] at hStep
          split at hStep
          · simp at hStep
          · rename_i begun hCall
            rw [Option.some.injEq] at hStep
            rw [← hStep]
            exact hConsistent.found hState hGuard hCall
      | _ => simp [DmsThreads.step, hState] at hStep
  | removing rid page =>
      cases op with
      | next =>
          simp only [DmsThreads.step, hState] at hStep
          rcases getMutex_some hStep with ⟨hFree, rfl⟩
          rw [hState] at hValid
          exact hConsistent.getMutex hState hFree rfl rfl rfl
            rfl hValid
      | _ => simp [DmsThreads.step, hState] at hStep
  | searching rid page =>
      cases op with
      | next =>
          simp only [ThreadGuard, hState] at hGuard
          simp only [DmsThreads.step, hState,
            Option.some.injEq] at hStep
          rw [← hStep]
          exact hConsistent.searching hState hGuard
      | _ => simp [DmsThreads.step, hState] at hStep
  | updating e rc written =>
      cases op with
      | next =>
          simp only [DmsThreads.step, hState,
            Option.some.injEq] at hStep
          rw [← hStep]
          apply hConsistent.update hState rfl rfl rfl rfl
          · exact ⟨rfl, rfl,
              fun _ _ _ => Memory.Same.refl _ _ _⟩
          · exact Shared.enter_iff.mpr
          · trivial
      | _ => simp [DmsThreads.step, hState] at hStep
  | unlocking rc written =>
      cases op with
      | next =>
          simp only [DmsThreads.step, hState,
            Option.some.injEq] at hStep
          rw [← hStep]
          exact hConsistent.releaseMutex hState rfl rfl rfl rfl
            rfl trivial
      | _ => simp [DmsThreads.step, hState] at hStep

end Consistent

------------------------------------------------------------
-- Runs
------------------------------------------------------------

/- No update and no extension is under way. -/
def Quiet (c : DmsThreads) : Prop :=
  ∀ a, ¬ (c.thread a).Busy

/- One entry for every page id below the count, no other. -/
def PageIdsUnique (s : DmsFile) : Prop :=
  (s.freeSpaceMap.entries.map Prod.snd).Perm
    (List.range s.getNumPages)

/- No thread has started. -/
def startThreads (f : DmsFile) : DmsThreads where
  dmsFile := f
  mutex := none
  extendMutex := none
  thread := fun _ => .idle

theorem consistent_start
    {f : DmsFile}
    (hGood : f.Good) :
    Consistent (startThreads f) := by
  have hSound := hGood.sound
  refine ⟨?_, ?_, ⟨hSound.toMapped, ?_, ?_⟩, ?_⟩
  · intro a
    simp [startThreads, Thread.holdsMutex]
  · intro a
    simp [startThreads, Thread.holdsExtendMutex]
  · intro p hPage
    have hIn : p < f.numPages :=
      hGood.toLayout.getNumPages_eq ▸ hPage
    have hAt : f.pageAt p = pageAddress p :=
      hGood.pageAt_eq hPage
    simp only [startThreads, hAt]
    exact hGood.page p hIn
  · rw [pending, entered]
    simp only [startThreads, ownerValue_none, List.nil_append,
      List.append_nil]
    exact hSound.free
  · intro a
    trivial

theorem Consistent.pageIdsUnique
    (hConsistent : Consistent c)
    (hQuiet : Quiet c) :
    PageIdsUnique c.dmsFile := by
  have hPending : c.pending = [] := by
    unfold pending
    cases c.mutex with
    | none => rfl
    | some a =>
        have hNot := hQuiet a
        cases hState : c.thread a with
        | updating e rc written =>
            rw [hState] at hNot
            exact absurd trivial hNot
        | _ => simp [ownerValue, hState, Thread.pending]
  have hEntered : c.entered = [] := by
    unfold entered
    cases c.extendMutex with
    | none => rfl
    | some a =>
        have hNot := hQuiet a
        cases hState : c.thread a with
        | entering call data freeMapSize i =>
            rw [hState] at hNot
            exact absurd trivial hNot
        | _ => simp [ownerValue, hState, Thread.entered]
  have hFree := hConsistent.shared.free
  rw [hPending, hEntered, List.append_nil,
    List.nil_append] at hFree
  have hIds := hFree.map Prod.snd
  rw [pageEntries, List.map_map] at hIds
  apply hIds.trans
  apply List.Perm.of_eq
  exact List.map_id _

/-
  In every run of threads in which the size of the map is
  read only while no update is under way, page ids are unique
  whenever no update and no extension is under way.
-/
theorem pageIds_unique
    {f : DmsFile}
    (hGood : f.Good)
    {ops : List (Nat × ThreadOp)}
    (hRun : Steps UndisturbedStep (startThreads f) ops t)
    (hQuiet : Quiet t) :
    PageIdsUnique t.dmsFile := by
  have hKept : ∀ c op t, Consistent c →
      UndisturbedStep c op t → Consistent t :=
    fun _ _ _ hConsistent hStep => hConsistent.step hStep
  have hConsistent := hRun.invariant hKept
    (consistent_start hGood)
  exact hConsistent.pageIdsUnique hQuiet

------------------------------------------------------------
-- Runs that Can Be Computed
------------------------------------------------------------

/- A check for every guard but that of a new insertion. -/
def guarded
    (c : DmsThreads)
    (op : Nat × ThreadOp) : Bool :=
  match c.thread op.1, op.2 with
  | .idle, .insert _ => false
  | .mapping _, .extend _ =>
      decide (c.dmsFile.numPages + dmsPagesPerSegment <
        4294967296)
  | .found call pageID, .next =>
      match c.dmsFile.pageToOffset pageID with
      | none => true
      | some page =>
          !needsRecover c.dmsFile.file page call.record.length
  | .searching rid page, .next =>
      decide (rid.slotID ≠ Page.numSlots c.dmsFile.file page)
  | _, _ => true

theorem threadGuard_of_guarded
    {op : Nat × ThreadOp}
    (hChecked : c.guarded op = true) :
    ThreadGuard c op := by
  unfold guarded at hChecked
  unfold ThreadGuard
  split at hChecked
  · simp at hChecked
  · simpa using hChecked
  · rename_i call pageID _ _
    intro page hOffset hNeed
    simp [hOffset, hNeed] at hChecked
  · simpa using hChecked
  · trivial

/- Take the steps one after another as long as they pass. -/
def runs
    (c : DmsThreads) :
    List (Nat × ThreadOp) → Option DmsThreads
| [] => some c
| op :: ops =>
    if c.guarded op then
      match c.step op with
      | some t => runs t ops
      | none => none
    else none

theorem steps_of_runs
    {ops : List (Nat × ThreadOp)}
    (hRuns : c.runs ops = some t) :
    Steps GuardedStep c ops t := by
  induction ops generalizing c with
  | nil =>
      simp only [runs, Option.some.injEq] at hRuns
      exact hRuns ▸ .nil c
  | cons op ops ih =>
      simp only [runs] at hRuns
      split at hRuns
      · rename_i hChecked
        split at hRuns
        · rename_i u hStep
          exact .cons ⟨threadGuard_of_guarded hChecked, hStep⟩
            (ih hRuns)
        · simp at hRuns
      · simp at hRuns

/- A step moves one thread at most. -/
theorem step_other
    {op : ThreadOp}
    (hStep : c.step (a, op) = some t)
    {b : Nat}
    (hNe : b ≠ a) :
    t.thread b = c.thread b := by
  have hMove : ∀ st, Function.update c.thread a st b =
      c.thread b :=
    fun st => Function.update_of_ne hNe st c.thread
  cases hState : c.thread a with
  | found call pageID =>
      cases op with
      | next =>
          simp only [step, hState] at hStep
          split at hStep
          · simp at hStep
          · rename_i begun _
            cases begun with
            | done r =>
                cases hStep
                exact hMove _
            | updating s e rc written =>
                cases hStep
                exact hMove _
      | _ => simp [step, hState] at hStep
  | searching rid page =>
      cases op with
      | next =>
          simp only [step, hState] at hStep
          cases hBegun : c.dmsFile.beginRemove page rid with
          | done r =>
              rw [hBegun] at hStep
              cases hStep
              exact hMove _
          | updating s e rc written =>
              rw [hBegun] at hStep
              cases hStep
              exact hMove _
      | _ => simp [step, hState] at hStep
  | _ =>
      cases op
      all_goals
        simp only [step, hState, getMutex, getExtendMutex]
          at hStep
      all_goals repeat' split at hStep
      all_goals cases hStep
      all_goals first | exact hMove _ | rfl

theorem run_other
    {ops : List (Nat × ThreadOp)}
    (hRun : Steps GuardedStep c ops t)
    {b : Nat}
    (hNone : ∀ op ∈ ops, b ≠ op.1) :
    t.thread b = c.thread b := by
  induction hRun with
  | nil c => rfl
  | cons hStep _ ih =>
      rename_i op ops _
      have hRest := ih (fun op hIn =>
        hNone op (List.mem_cons_of_mem _ hIn))
      rw [hRest]
      exact step_other hStep.2 (hNone op List.mem_cons_self)

/-
  Does no thread of `ids` disturb a step of the run that reads
  the size of the map?
-/
def calm (ids : List Nat) :
    DmsThreads → List (Nat × ThreadOp) → Bool
| _, [] => true
| c, op :: ops =>
    (match c.thread op.1, op.2 with
      | .mapped _ _, .next =>
          ids.all (fun b => decide ((c.thread b).pending = []))
      | _, _ => true) &&
    (match c.step op with
      | some t => calm ids t ops
      | none => true)

/- The threads of a calm run are all that are not idle. -/
theorem undisturbed_of_calm
    {ids : List Nat}
    {ops : List (Nat × ThreadOp)}
    (hRun : Steps GuardedStep c ops t)
    (hIdle : ∀ b ∉ ids, c.thread b = .idle)
    (hOnly : ∀ op ∈ ops, op.1 ∈ ids)
    (hCalm : calm ids c ops = true) :
    Steps UndisturbedStep c ops t := by
  induction hRun with
  | nil c => exact .nil c
  | @cons c u t op ops hStep hRest ih =>
      have hOp := hOnly op List.mem_cons_self
      have hNext : c.step op = some u := hStep.2
      rw [calm, hNext, Bool.and_eq_true] at hCalm
      have hOthers : ∀ b ∉ ids, u.thread b = .idle := by
        intro b hOut
        have hNe : b ≠ op.1 := fun hEq => hOut (hEq.symm ▸ hOp)
        rw [step_other hNext hNe]
        exact hIdle b hOut
      refine .cons ⟨?_, hStep⟩ (ih hOthers
        (fun o hIn => hOnly o (List.mem_cons_of_mem _ hIn))
        hCalm.2)
      have hHere := hCalm.1
      unfold SizeUndisturbed
      rcases op with ⟨a, op⟩
      dsimp only at hHere ⊢
      split
      · rename_i hState
        rw [hState] at hHere
        intro b
        by_cases hIn : b ∈ ids
        · exact of_decide_eq_true
            (List.all_eq_true.mp hHere b hIn)
        · rw [hIdle b hIn]
          rfl
      · trivial

/- A busy thread holds a latch. -/
theorem not_busy
    {st : Thread}
    (hMutex : st.holdsMutex = false)
    (hExtend : st.holdsExtendMutex = false) :
    ¬ st.Busy := by
  cases st
  all_goals
    simp_all [Thread.Busy, Thread.holdsMutex,
      Thread.holdsExtendMutex]

/- Only the threads of `ids` have moved, and all are done. -/
theorem quiet_of_only
    {ids : List Nat}
    {ops : List (Nat × ThreadOp)}
    (hRun : Steps GuardedStep c ops t)
    (hIdle : ∀ b ∉ ids, c.thread b = .idle)
    (hOnly : ∀ op ∈ ops, op.1 ∈ ids)
    (hDone : ∀ b ∈ ids, (t.thread b).holdsMutex = false ∧
      (t.thread b).holdsExtendMutex = false) :
    Quiet t := by
  intro b
  by_cases hIn : b ∈ ids
  · exact not_busy (hDone b hIn).1 (hDone b hIn).2
  · have hNone : ∀ op ∈ ops, b ≠ op.1 :=
      fun op hOp hEq => hIn (hEq.symm ▸ hOnly op hOp)
    rw [run_other hRun hNone, hIdle b hIn]
    exact id

------------------------------------------------------------
-- Two Insertions
------------------------------------------------------------

/- Steps of one thread without a choice. -/
def nexts (a n : Nat) : List (Nat × ThreadOp) :=
  List.replicate n (a, .next)

/- A new file, and a thread that begins an insertion. -/
def oneThread : DmsThreads :=
  (startThreads (created (fun _ => 0))).move 0
    (.retry (.start (textDocument 1 22)))

/- Two threads that begin an insertion. -/
def twoThreads : DmsThreads :=
  oneThread.move 1 (.retry (.start (textDocument 1 22)))

/-
  Both threads find no page.  The second one extends the file
  while the first one waits for it; then they write.
-/
def takingTurns : List (Nat × ThreadOp) :=
  nexts 0 3 ++ nexts 1 4 ++ nexts 0 1 ++
    [(1, .extend .success)] ++ nexts 1 35 ++ nexts 0 7 ++
    nexts 1 5

def bothInserted : DmsThreads :=
  (twoThreads.runs takingTurns).getD twoThreads

theorem runs_getD
    {ops : List (Nat × ThreadOp)}
    (hRuns : (c.runs ops).isSome = true) :
    c.runs ops = some ((c.runs ops).getD c) := by
  cases hResult : c.runs ops with
  | none => simp [hResult] at hRuns
  | some t => rfl

theorem textDocument_start
    (c : DmsThreads)
    (hIdle : c.thread a = .idle) :
    GuardedStep c (a, .insert (textDocument 1 22))
      (c.move a (.retry (.start (textDocument 1 22)))) := by
  have hForm : (textDocument 1 22).WellFormed :=
    textDocument_wellFormed (by decide) (by decide)
      (by decide)
  refine ⟨?_, ?_⟩
  · simp only [ThreadGuard, hIdle]
    exact hForm
  · simp only [Step, step, hIdle]

/- A run of the two threads behind their first steps. -/
theorem steps_twoThreads
    {ops : List (Nat × ThreadOp)}
    (hRuns : (twoThreads.runs ops).isSome = true) :
    Steps GuardedStep (startThreads (created (fun _ => 0)))
      ((0, .insert (textDocument 1 22)) ::
        (1, .insert (textDocument 1 22)) :: ops)
      ((twoThreads.runs ops).getD twoThreads) :=
  .cons (textDocument_start _ rfl)
    (.cons (textDocument_start _ rfl)
      (steps_of_runs (runs_getD hRuns)))

theorem pageIds_unique_twoThreads :
    bothInserted.dmsFile.numPages = 32 ∧
      PageIdsUnique bothInserted.dmsFile := by
  have hRun := @steps_twoThreads takingTurns
    (by decide +kernel)
  have hOnly : ∀ op ∈
      (0, ThreadOp.insert (textDocument 1 22)) ::
        (1, .insert (textDocument 1 22)) :: takingTurns,
          op.1 ∈ [0, 1] := by
    simp [takingTurns, nexts]
  have hQuiet : Quiet bothInserted :=
    quiet_of_only hRun (fun _ _ => rfl) hOnly
      (by decide +kernel)
  have hCalm := undisturbed_of_calm hRun (fun _ _ => rfl)
    hOnly (by decide +kernel)
  exact ⟨by decide +kernel,
    pageIds_unique (good_created (fun _ => 0)) hCalm hQuiet⟩

------------------------------------------------------------
-- A Page Id Given Twice
------------------------------------------------------------

/-
  Both threads find no page.  The first extends the file;
  the second extends it again, and reads the size of the map
  when the first has erased the entry of page 0.
-/
def twoOps : List (Nat × ThreadOp) :=
  nexts 0 3 ++ nexts 1 3 ++ nexts 0 1 ++
    [(0, .extend .success)] ++ nexts 0 35 ++ nexts 1 1 ++
    [(1, .extend .success)] ++ nexts 0 3 ++ nexts 1 1 ++
    nexts 0 2 ++ nexts 1 34

def twiceEntered : DmsThreads :=
  (twoThreads.runs twoOps).getD twoThreads

theorem steps_twice :
    Steps GuardedStep (startThreads (created (fun _ => 0)))
      ((0, .insert (textDocument 1 22)) ::
        (1, .insert (textDocument 1 22)) :: twoOps)
      twiceEntered :=
  steps_twoThreads (by decide +kernel)

theorem twiceEntered_quiet : Quiet twiceEntered := by
  have hOnly : ∀ op ∈
      (0, ThreadOp.insert (textDocument 1 22)) ::
        (1, .insert (textDocument 1 22)) :: twoOps,
          op.1 ∈ [0, 1] := by
    simp [twoOps, nexts]
  exact quiet_of_only steps_twice (fun _ _ => rfl) hOnly
    (by decide +kernel)

/- Not every run leaves page ids unique. -/
theorem pageIds_not_unique :
    ¬ ∀ ops t,
      Steps GuardedStep (startThreads (created (fun _ => 0)))
        ops t →
      Quiet t → PageIdsUnique t.dmsFile := by
  intro hClaim
  have hIds := hClaim _ _ steps_twice twiceEntered_quiet
  have hTwice : (twiceEntered.dmsFile.freeSpaceMap.entries.map
      Prod.snd).count 31 = 2 := by
    decide +kernel
  rw [hIds.count_eq, List.count_range] at hTwice
  split at hTwice
  · simp at hTwice
  · simp at hTwice

end DmsThreads

end EmeraldDb
