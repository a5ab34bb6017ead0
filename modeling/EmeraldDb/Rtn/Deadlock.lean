import EmeraldDb.Dms.LatchBalance
import EmeraldDb.Ixm.Latches
import EmeraldDb.Pd.Log
import EmeraldDb.Pmd.ManagerCalls

/-
  The latches of the server never block its threads for good.

  The threads of the server call the data file, the index and
  the manager of the threads, and any statement may write to
  the log.  One latch is held while another one is got in two
  places only: the latch of the mapped file below that of an
  extension, and the latch of the log below any other.  The
  call that waits for an event with the manager's latch held
  is safe only when its wait ends, and a line of the log only
  when it does not report a seek to the log.

  Key definitions include:
    * `ServerLatch`
    * `ServerCall`
    * `ServerCall.Safe`
    * `LogPart`

  Key results include:
    * `ServerCall.Safe.inOrder`
    * `server_deadlockFree`
-/

namespace EmeraldDb

open Traced

------------------------------------------------------------
-- The Data File
------------------------------------------------------------

/- The latch of the mapped file is got below an extension. -/
def DmsLatch.rank : DmsLatch → Nat
| .mutex => 0
| .extendMutex => 0
| .mapMutex => 1

theorem ossMmapFileMapLatched_climbs
    (fileSize : Except Errno Nat)
    (offset : Nat)
    {length : Nat}
    (hLength : length ≠ 0)
    (failure : Option Errno)
    {held : Held DmsLatch}
    (hBelow : ∀ e ∈ held, e.1.rank < 1) :
    Climbs DmsLatch.rank held held
      (ossMmapFileMapLatched fileSize offset length
        failure) := by
  unfold ossMmapFileMapLatched
  rw [if_neg hLength]
  apply Climbs.get hBelow
  rcases ossGetSize fileSize with ⟨rc, size⟩
  dsimp only
  by_cases hFails : rc < 0
  · rw [if_pos hFails]
    exact climbs_release_pure _ _ _ held _
  · rw [if_neg hFails]
    by_cases hOutside :
        (length + offset) % 18446744073709551616 > size
    · rw [if_pos hOutside]
      exact climbs_release_pure _ _ _ held _
    · rw [if_neg hOutside]
      cases failure with
      | none => exact climbs_release_pure _ _ _ held _
      | some errno => exact climbs_release_pure _ _ _ held _

namespace DmsFile

theorem mapSegmentLatched_climbs
    (s : DmsFile)
    (sizeFails : Option Errno)
    (offset : Nat)
    (failure : Option Errno)
    {held : Held DmsLatch}
    (hBelow : ∀ e ∈ held, e.1.rank < 1) :
    Climbs DmsLatch.rank held held
      (s.mapSegmentLatched sizeFails offset failure) := by
  have hSegment : dmsFileSegmentSize ≠ 0 := by decide
  unfold mapSegmentLatched
  apply (ossMmapFileMapLatched_climbs (s.sizeOf sizeFails)
    offset hSegment failure hBelow).bind
  rintro ⟨rc, data⟩ _
  dsimp only
  by_cases hCode : rc ≠ edbOk
  · rw [if_pos hCode]
    exact climbs_pure _ held _
  · rw [if_neg hCode]
    cases data with
    | none => exact climbs_pure _ held _
    | some data => exact climbs_pure _ held _

theorem extendSegmentLatched_climbs
    (s : DmsFile)
    (sizeFails : Option Errno)
    (ext : Extension)
    {held : Held DmsLatch}
    (hBelow : ∀ e ∈ held, e.1.rank < 1) :
    Climbs DmsLatch.rank held held
      (s.extendSegmentLatched sizeFails ext) := by
  cases ext with
  | sizeFails errno => exact climbs_pure _ held _
  | writeFails written errno => exact climbs_pure _ held _
  | statFails errno =>
      have hSegment : dmsFileSegmentSize ≠ 0 := by decide
      exact (ossMmapFileMapLatched_climbs (.error errno)
        s.fileSize hSegment none hBelow).bind
          (fun _ _ => climbs_pure _ held _)
  | mapFails errno =>
      exact mapSegmentLatched_climbs _ _ _ _ hBelow
  | success =>
      exact mapSegmentLatched_climbs _ _ _ _ hBelow

theorem insertPageLatched_climbs
    (s : DmsFile)
    (pageID : Nat)
    {record : BSONObj}
    (hValid : record.isValid = true)
    (hFour : 4 ≤ record.objsize)
    (rc : Int) :
    Climbs DmsLatch.rank [(.mutex, .exclusive)] []
      (s.insertPageLatched pageID record rc) := by
  unfold insertPageLatched
  cases s.pageToOffset pageID with
  | none => exact climbs_release_pure _ _ _ [] _
  | some page =>
      dsimp only
      by_cases hMagic : Page.magic s.file page ≠ dmsPageMagic
      · rw [if_pos hMagic]
        exact climbs_release_pure _ _ _ [] _
      · rw [if_neg hMagic]
        obtain ⟨t, hPage⟩ : ∃ t : DmsFile, t =
            if needsRecover s.file page record.length then
              { s with file := Page.recoverSpace s.file page }
            else s := ⟨_, rfl⟩
        rw [← hPage]
        by_cases hFull : noRoom t.file page record.length
        · rw [if_pos hFull]
          exact climbs_release_pure _ _ _ [] _
        · rw [if_neg hFull]
          rcases t.insertRecord_returns page pageID hValid
            hFour rc with ⟨r, hRecord⟩
          apply (climbs_lift hRecord _ _).bind
          intro r' _
          exact climbs_release_pure _ _ _ [] _

/-
  An insertion climbs in each round, also when it waits for
  an extension by another thread.
-/
theorem insertLoopLatched_climbs
    {record : BSONObj}
    (hValid : record.isValid = true)
    (hFour : 4 ≤ record.objsize)
    (rounds : List Round)
    (rc : Int) :
    climbs DmsLatch.rank []
      (insertLoopLatched record rounds rc).ops [] := by
  induction rounds generalizing rc with
  | nil => rfl
  | cons round rounds ih =>
      unfold insertLoopLatched
      apply climbs_get (by simp)
      dsimp only
      by_cases hFound : round.state.findPage record.length =
          dmsInvalidPageID
      · rw [if_pos hFound]
        apply climbs_release
        by_cases hFree : round.free = true
        · rw [if_pos hFree]
          apply climbs_get (by simp)
          have hExtend : Climbs DmsLatch.rank
              [(.extendMutex, .exclusive)]
              [(.extendMutex, .exclusive)]
              (round.extending.extendSegmentLatched
                round.sizeFails round.ext) :=
            extendSegmentLatched_climbs _ _ _
              (by simp [DmsLatch.rank])
          apply hExtend.before
          rintro ⟨rc', t⟩ _
          dsimp only
          by_cases hCode : rc' ≠ 0
          · rw [if_pos hCode]
            exact climbs_release rfl
          · rw [if_neg hCode]
            exact climbs_release (ih rc')
        · rw [if_neg hFree]
          apply climbs_get (by simp)
          exact climbs_release (ih rc)
      · rw [if_neg hFound]
        exact (round.state.insertPageLatched_climbs _ hValid
          hFour rc).ops

theorem removeLatched_climbs
    (s t : DmsFile)
    (rid : DmsRecordID) :
    Climbs DmsLatch.rank [] [] (s.removeLatched t rid) := by
  unfold removeLatched
  cases s.pageToOffset rid.pageID with
  | none => exact climbs_pure _ [] _
  | some page =>
      apply Climbs.get (by simp)
      rcases t.searchSlot page rid with ⟨rc, slot⟩
      dsimp only
      by_cases hCode : rc ≠ 0
      · rw [if_pos hCode]
        exact climbs_release_pure _ _ _ [] _
      · rw [if_neg hCode]
        by_cases hEmpty : slot = dmsSlotEmpty
        · rw [if_pos hEmpty]
          exact climbs_release_pure _ _ _ [] _
        · rw [if_neg hEmpty]
          exact climbs_release_pure _ _ _ [] _

/- A lookup on a page, of a record whose length is in range. -/
theorem findLatched_climbs
    {s t : DmsFile}
    {rid : DmsRecordID}
    {page : Nat}
    (hPage : s.pageToOffset rid.pageID = some page)
    (hReadable : t.Readable page rid) :
    Climbs DmsLatch.rank [] [] (s.findLatched t rid) := by
  unfold findLatched
  unfold Readable at hReadable
  rw [hPage]
  apply Climbs.get (by simp)
  generalize t.searchSlot page rid = r at hReadable ⊢
  rcases r with ⟨rc, slot⟩
  dsimp only at hReadable ⊢
  by_cases hCode : rc ≠ 0
  · rw [if_pos hCode]
    exact climbs_release_pure _ _ _ [] _
  · rw [if_neg hCode]
    by_cases hEmpty : slot = dmsSlotEmpty
    · rw [if_pos hEmpty]
      exact climbs_release_pure _ _ _ [] _
    · rw [if_neg hEmpty]
      by_cases hFlag : Page.recordFlag t.file (page + slot) =
          dmsRecordFlagDropped
      · rw [if_pos hFlag]
        exact climbs_release_pure _ _ _ [] _
      · rw [if_neg hFlag]
        have hValid := hReadable (not_not.mp hCode) hEmpty hFlag
        have hData : BSONObj.ofData t.file
            (page + slot + sizeofRecord) =
            .ok ⟨t.file, page + slot + sizeofRecord⟩ :=
          if_pos hValid
        apply (climbs_lift hData _ _).bind
        intro o _
        exact climbs_release_pure _ _ _ [] _

end DmsFile

------------------------------------------------------------
-- All Latches
------------------------------------------------------------

inductive ServerLatch
| dms (l : DmsLatch)
| bucket (i : Fin ixmHashMapSize)
| edu (l : EduLatch)
| log
deriving DecidableEq

/- The latch of the log is got below any other latch. -/
def ServerLatch.rank : ServerLatch → Nat
| .dms l => l.rank
| .bucket _ => 0
| .edu _ => 0
| .log => 2

theorem ServerLatch.rank_lt
    {l : ServerLatch}
    (hOther : l ≠ .log) :
    l.rank < ServerLatch.log.rank := by
  cases l with
  | dms l => cases l <;> decide
  | bucket i => exact Nat.zero_lt_two
  | edu l => exact Nat.zero_lt_two
  | log => exact absurd rfl hOther

/- The latches of one part of the server. -/
theorem ServerLatch.inOrder
    {ι : Type}
    [DecidableEq ι]
    {f : ι → ServerLatch}
    (hInj : Function.Injective f)
    {ops : List (LatchOp ι)}
    (hClimbs : climbs (fun l => (f l).rank) [] ops []) :
    climbs ServerLatch.rank [] (ops.map (LatchOp.map f)) [] :=
  @climbs_map _ _ _ _ f hInj ServerLatch.rank [] [] ops hClimbs

/- A call of the index and the state that it finds. -/
inductive IndexCall
| isIDExist (h : List UInt8 → Nat) (m : Memory)
    (mgr : IxmBucketManager) (record : BSONObj)
| createIndex (h : List UInt8 → Nat)
    (mgr : IxmBucketManager) (record : BSONObj)
    (recordID : DmsRecordID)
| findIndex (h : List UInt8 → Nat) (m : Memory)
    (mgr : IxmBucketManager) (record : BSONObj)
| removeIndex (h : List UInt8 → Nat) (m : Memory)
    (mgr : IxmBucketManager) (record : BSONObj)

namespace IndexCall

open IxmBucketManager

def ops : IndexCall → List (LatchOp (Fin ixmHashMapSize))
| .isIDExist h m mgr record =>
    (isIDExistLatched h m mgr record).ops
| .createIndex h mgr record recordID =>
    (createIndexLatched h mgr record recordID).ops
| .findIndex h m mgr record =>
    (findIndexLatched h m mgr record).ops
| .removeIndex h m mgr record =>
    (removeIndexLatched h m mgr record).ops

/- The comparison of the keys throws nothing. -/
def Safe : IndexCall → Prop
| .isIDExist h m mgr record =>
    ∃ r, IxmBucketManager.isIDExist h m mgr record = .ok r
| .createIndex h mgr record recordID =>
    ∃ r, IxmBucketManager.createIndex h mgr record recordID =
      .ok r
| .findIndex h m mgr record =>
    ∃ r, IxmBucketManager.findIndex h m mgr record = .ok r
| .removeIndex h m mgr record =>
    ∃ r, IxmBucketManager.removeIndex h m mgr record = .ok r

theorem Safe.inOrder
    {c : IndexCall}
    (hSafe : c.Safe)
    (rank : Fin ixmHashMapSize → Nat) :
    climbs rank [] c.ops [] := by
  cases c with
  | isIDExist h m mgr record =>
      rcases hSafe with ⟨r, hResult⟩
      rw [← isIDExistLatched_result] at hResult
      exact (inBucket_climbs rank ⟨r, hResult⟩).ops
  | createIndex h mgr record recordID =>
      rcases hSafe with ⟨r, hResult⟩
      rw [← createIndexLatched_result] at hResult
      exact (inBucket_climbs rank ⟨r, hResult⟩).ops
  | findIndex h m mgr record =>
      rcases hSafe with ⟨r, hResult⟩
      rw [← findIndexLatched_result] at hResult
      exact (inBucket_climbs rank ⟨r, hResult⟩).ops
  | removeIndex h m mgr record =>
      rcases hSafe with ⟨r, hResult⟩
      rw [← removeIndexLatched_result] at hResult
      exact (inBucket_climbs rank ⟨r, hResult⟩).ops

end IndexCall

/- The manager has one latch, so a call that owns climbs. -/
theorem EduMgr.ManagerCall.Safe.inOrder
    {c : EduMgr.ManagerCall}
    (hSafe : c.Safe)
    (rank : EduLatch → Nat) :
    climbs rank [] c.ops [] :=
  climbs_of_owns (fun l l' => by cases l; cases l'; rfl)
    hSafe.owns

------------------------------------------------------------
-- Calls of the Server
------------------------------------------------------------

/-
  A call and the states that it finds.  An insertion has one
  state for each of its rounds; it may end within them.
-/
inductive ServerCall
| insert (rounds : List DmsFile.Round) (record : BSONObj)
| remove (s t : DmsFile) (rid : DmsRecordID)
| find (s t : DmsFile) (rid : DmsRecordID)
| extend (s : DmsFile) (sizeFails : Option Errno)
    (ext : DmsFile.Extension)
| index (c : IndexCall)
| edu (c : EduMgr.ManagerCall)

namespace ServerCall

def ops : ServerCall → List (LatchOp ServerLatch)
| .insert rounds record =>
    (DmsFile.insertLatched rounds record).ops.map
      (LatchOp.map .dms)
| .remove s t rid =>
    (s.removeLatched t rid).ops.map (LatchOp.map .dms)
| .find s t rid =>
    (s.findLatched t rid).ops.map (LatchOp.map .dms)
| .extend s sizeFails ext =>
    (s.extendSegmentLatched sizeFails ext).ops.map
      (LatchOp.map .dms)
| .index c => c.ops.map (LatchOp.map .bucket)
| .edu c => c.ops.map (LatchOp.map .edu)

/-
  What a call has to meet to give back what it gets, and no
  more than that.
-/
def Safe : ServerCall → Prop
| .insert _ record =>
    record.isValid = true ∧ 4 ≤ record.objsize
| .remove _ _ _ => True
| .find s t rid =>
    ∃ page, s.pageToOffset rid.pageID = some page ∧
      t.Readable page rid
| .extend _ _ _ => True
| .index c => c.Safe
| .edu c => c.Safe

theorem Safe.inOrder
    {c : ServerCall}
    (hSafe : c.Safe) :
    climbs ServerLatch.rank [] c.ops [] := by
  have hDms : Function.Injective ServerLatch.dms :=
    fun l l' hEq => ServerLatch.dms.inj hEq
  cases c with
  | insert rounds record =>
      exact ServerLatch.inOrder hDms
        (DmsFile.insertLoopLatched_climbs hSafe.1 hSafe.2
          rounds _)
  | remove s t rid =>
      exact ServerLatch.inOrder hDms
        (s.removeLatched_climbs t rid).ops
  | find s t rid =>
      rcases hSafe with ⟨page, hPage, hReadable⟩
      exact ServerLatch.inOrder hDms
        (DmsFile.findLatched_climbs hPage hReadable).ops
  | extend s sizeFails ext =>
      have hExtend : Climbs DmsLatch.rank [] []
          (s.extendSegmentLatched sizeFails ext) :=
        s.extendSegmentLatched_climbs sizeFails ext (by simp)
      exact ServerLatch.inOrder hDms hExtend.ops
  | index c =>
      exact ServerLatch.inOrder
        (fun i j hEq => ServerLatch.bucket.inj hEq)
        (IndexCall.Safe.inOrder hSafe _)
  | edu c =>
      exact ServerLatch.inOrder
        (fun l l' hEq => ServerLatch.edu.inj hEq)
        (EduMgr.ManagerCall.Safe.inOrder hSafe _)

/- No call gets the latch of the log by itself. -/
theorem below_log
    {c : ServerCall}
    {op : LatchOp ServerLatch}
    (hIn : op ∈ c.ops) :
    op.latch.rank < ServerLatch.log.rank := by
  apply ServerLatch.rank_lt
  have hMap : ∀ {ι : Type} {f : ι → ServerLatch}
      {ops : List (LatchOp ι)},
      (∀ l, f l ≠ .log) → op ∈ ops.map (LatchOp.map f) →
        op.latch ≠ .log := by
    intro ι f ops hNot hOp
    rcases List.mem_map.mp hOp with ⟨o, _, rfl⟩
    cases o <;> exact hNot _
  cases c <;> exact hMap (fun l => by simp) hIn

end ServerCall

/- The operations of a line of the log. -/
def LogLine.ops (l : LogLine) : List (LatchOp ServerLatch) :=
  l.latched.ops.map (LatchOp.map (fun _ => .log))

/- A line of the log that does not wait for itself. -/
def LogPart (part : List (LatchOp ServerLatch)) : Prop :=
  ∃ l : LogLine, ¬ l.Relocks ∧ part = l.ops

theorem LogPart.climbs
    {part : List (LatchOp ServerLatch)}
    (hPart : LogPart part) :
    climbs ServerLatch.rank [] part [] ∧
      ∀ op ∈ part, ServerLatch.log.rank ≤ op.latch.rank := by
  rcases hPart with ⟨l, hCalm, rfl⟩
  constructor
  · apply ServerLatch.inOrder
      (fun k k' _ => by cases k; cases k'; rfl)
    exact climbs_of_owns
      (fun k k' => by cases k; cases k'; rfl)
      ((balanced_iff _).mp
        (l.latched_balanced_iff.mpr hCalm))
  · intro op hIn
    rcases List.mem_map.mp hIn with ⟨o, _, rfl⟩
    cases o <;> exact le_refl _

/-
  Any number of threads, each with any calls in a row and with
  lines of the log anywhere: in every state that they reach an
  exclusive holder is alone, some thread waits for nothing as
  long as one is not done, and the threads can go on until all
  of them are done.
-/
theorem server_deadlockFree
    {τ : Type}
    [DecidableEq τ]
    [Fintype τ]
    {calls : τ → List ServerCall}
    (hSafe : ∀ i, ∀ c ∈ calls i, c.Safe)
    {traces : τ → List (LatchOp ServerLatch)}
    (hLogged : ∀ i, Woven LogPart
      ((calls i).flatMap ServerCall.ops) (traces i))
    {as : List (τ × LatchOp ServerLatch)}
    {s : LatchThreads τ ServerLatch}
    (hRun : Steps LatchThreads.Step
      (LatchThreads.start traces) as s) :
    (∀ i j l mode, (l, .exclusive) ∈ (s i).held →
      (l, mode) ∈ (s j).held → i = j) ∧
      (∀ i, (s i).ops ≠ [] → ∃ j, s.Free j) ∧
      ∃ bs t, Steps LatchThreads.Step s bs t ∧
        ∀ i, t i = ⟨[], []⟩ := by
  have hStart : LatchThreads.Sound ServerLatch.rank
      (LatchThreads.start traces) := by
    apply LatchThreads.sound_start
    intro i
    apply climbs_woven (fun part hPart => hPart.climbs)
      (hLogged i)
    · intro op hIn
      rcases List.mem_flatMap.mp hIn with ⟨c, _, hOp⟩
      exact ServerCall.below_log hOp
    · simp
    · exact climbs_flatMap
        (fun c hIn => (hSafe i c hIn).inOrder)
  have hSound : LatchThreads.Sound ServerLatch.rank s :=
    hRun.invariant (fun _ _ _ hOld hStep => hOld.step hStep)
      hStart
  have hTop : ∀ l : ServerLatch, l.rank ≤ 2 := by
    intro l
    by_cases hLog : l = .log
    · rw [hLog]
      exact le_refl _
    · exact (ServerLatch.rank_lt hLog).le
  exact ⟨hSound.alone, fun i hBusy => hSound.free hTop hBusy,
    hSound.completes hTop⟩

/- A manager without EDUs. -/
def EduMgr.noEdus : EduMgr.Live :=
  ⟨{}, fun id p hHolds => by
    rcases hHolds with hRun | hIdle
    · simp at hRun
    · simp at hIdle⟩

/- A line for a file that is not open yet. -/
def firstLine : LogLine where
  path := [47]
  level := .error
  isValid := false
  answers := ⟨none, 0, none⟩
  reported := ⟨none, 0, none⟩

/-
  One thread activates an EDU that is not there, which it
  logs, and one counts the EDUs.
-/
def activates : Bool → List (LatchOp ServerLatch)
| true =>
    [.get (.edu .mutex) .exclusive,
      .get .log .exclusive, .release .log .exclusive,
      .release (.edu .mutex) .exclusive]
| false =>
    [.get (.edu .mutex) .shared,
      .release (.edu .mutex) .shared]

/-
  The first thread writes its line while the second one waits
  for the latch of the manager.
-/
theorem server_deadlockFree_activates :
    ∃ s : LatchThreads Bool ServerLatch,
      Steps LatchThreads.Step (LatchThreads.start activates)
        [(true, .get (.edu .mutex) .exclusive),
          (true, .get .log .exclusive)] s ∧
      (∃ j, s.Free j) ∧
      ∃ bs t, Steps LatchThreads.Step s bs t ∧
        ∀ i, t i = ⟨[], []⟩ := by
  let calls : Bool → List ServerCall
    | true => [.edu (.latched (.activateEDU EduMgr.noEdus 0))]
    | false => [.edu (.getEDUCount EduMgr.noEdus.1 3)]
  have hSafe : ∀ i : Bool, ∀ c ∈ calls i, c.Safe := by
    intro i c hIn
    cases i <;>
      (rw [List.mem_singleton.mp hIn]; trivial)
  have hLine : LogPart
      [.get .log .exclusive, .release .log .exclusive] :=
    ⟨firstLine, fun h => absurd h.2.2.2 (by decide), by decide⟩
  have hLogged : ∀ i, Woven LogPart
      ((calls i).flatMap ServerCall.ops) (activates i) := by
    intro i
    cases i with
    | true => exact .op _ (.part hLine (.op _ .nil))
    | false => exact .op _ (.op _ .nil)
  have hRun : ∃ s, Steps LatchThreads.Step
      (LatchThreads.start activates)
        [(true, .get (.edu .mutex) .exclusive),
          (true, .get .log .exclusive)] s ∧
      (s false).ops = activates false := by
    refine ⟨_, .cons (.make true _ _ rfl ?_)
      (.cons (.make true _ _ (by simp; rfl) ?_) (.nil _)), rfl⟩
    · intro j mode
      cases j <;> simp [LatchThreads.start]
    · intro j mode
      cases j <;> simp [LatchThreads.start, LatchOp.after]
  rcases hRun with ⟨s, hSteps, hWaits⟩
  have hFree := server_deadlockFree hSafe hLogged hSteps
  refine ⟨s, hSteps, hFree.2.1 false ?_, hFree.2.2⟩
  rw [hWaits]
  simp [activates]

end EmeraldDb
