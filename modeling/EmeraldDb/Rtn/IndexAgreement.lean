import EmeraldDb.Rtn.Store

/-
  Runs of a server and the agreement of index and records.

  A run is a sequence of insertions, removals and restarts.
  Index and records agree when every entry points to the
  `_id` of the record in the live slot it names, and every
  live slot is named by exactly one entry.

  Key definitions include:
    * `ServerStep`
    * `IndexAgreement`

  Key results include:
    * `run_indexAgreement`
    * `run_not_indexAgreement`
-/

namespace EmeraldDb

open IxmBucketManager

------------------------------------------------------------
-- Runs of a Server
------------------------------------------------------------

inductive ServerOp
| insert
    (exts : List DmsFile.Extension)
    (record : BSONObj)
| remove (record : BSONObj)
| restart
    (creation : DmsFile.HeaderCreation)
    (failure : Nat → Option Errno)

/-
  One step of the server.  A restart opens the file that the
  last process left and ends in a new process if it succeeds.
-/
inductive ServerStep
    (h : List UInt8 → Nat) :
    Rtn → ServerOp → Rtn → Prop
| insert
    {s t : Rtn}
    {exts : List DmsFile.Extension}
    {record : BSONObj}
    {rc : Int}
    (hCall : s.rtnInsert h exts record = .ok (rc, t)) :
    ServerStep h s (.insert exts record) t
| remove
    {s t : Rtn}
    {record : BSONObj}
    {rc : Int}
    (hCall : s.rtnRemove h record = .ok (rc, t)) :
    ServerStep h s (.remove record) t
| restart
    {s t : Rtn}
    {creation : DmsFile.HeaderCreation}
    {failure : Nat → Option Errno}
    (hCall : Rtn.init h creation failure s.dmsFile.file
      s.dmsFile.fileSize = .ok (edbOk, t)) :
    ServerStep h s (.restart creation failure) t

/-
  Records are well formed, an insertion is one that the data
  file can place, and its extensions succeed or fail before
  they write a byte.
-/
def ServerGuard
    (h : List UInt8 → Nat)
    (s : Rtn) :
    ServerOp → Prop
| .insert exts record =>
    record.WellFormed ∧ Rtn.Insertable h s record ∧
      ∀ ext ∈ exts, ext.Clean
| .remove record => record.WellFormed
| .restart _ _ => True

/- The records of a step are well formed. -/
def ServerOp.WellFormed : ServerOp → Prop
| .insert _ record => record.WellFormed
| .remove record => record.WellFormed
| .restart _ _ => True

------------------------------------------------------------
-- Agreement
------------------------------------------------------------

/- The bytes at an address are the `_id` of an object. -/
def HoldsIdOf
    (m : Memory)
    (a : Nat)
    (o : BSONObj) : Prop :=
  ∃ off size n x,
    o.fieldOffset ixmKeyFieldName = .ok (some off) ∧
      BSONElement.IsElement ⟨o.mem, o.objdata + off⟩
        size n x ∧
      Memory.Same m a o.mem (o.objdata + off) size

/- A record id designates a live slot of a mapped page. -/
def LiveSlot
    (s : DmsFile)
    (rid : DmsRecordID)
    (page : Nat) : Prop :=
  s.pageToOffset rid.pageID = some page ∧
    Page.Live s.file page rid.slotID

structure IndexAgreement (s : Rtn) : Prop where
  entry : ∀ v ∈ s.ixmBucketMgr.entries, ∃ page,
    LiveSlot s.dmsFile v.recordID page ∧
      HoldsIdOf s.dmsFile.file v.data
        (Page.object s.dmsFile.file page v.recordID.slotID)
  slot : ∀ rid page, LiveSlot s.dmsFile rid page →
    s.ixmBucketMgr.entries.countP
      (fun v => decide (v.recordID = rid)) = 1

/- On a good file the live slots are the live records. -/
theorem liveSlot_iff
    {s : DmsFile}
    (hGood : s.Good)
    {rid : DmsRecordID}
    {page : Nat} :
    LiveSlot s rid page ↔
      page = DmsFile.pageAddress rid.pageID ∧ s.Live rid := by
  by_cases hIn : rid.pageID < s.numPages
  · rw [LiveSlot, hGood.pageToOffset_of_lt hIn,
      Option.some.injEq]
    constructor
    · rintro ⟨rfl, hLive⟩
      exact ⟨rfl, hIn, hLive⟩
    · rintro ⟨rfl, hLive⟩
      exact ⟨rfl, hLive.2⟩
  · rw [LiveSlot, hGood.pageToOffset_of_ge (by omega)]
    constructor
    · rintro ⟨hNone, _⟩
      simp at hNone
    · rintro ⟨_, hLive⟩
      exact absurd hLive.1 hIn

namespace Rtn.Agrees

variable {h : List UInt8 → Nat} {s t : Rtn}

/- Without pending records index and records agree. -/
theorem indexAgreement
    (hAgrees : Rtn.Agrees h s ∅) :
    IndexAgreement s := by
  have hCovers := hAgrees.index
  refine ⟨?_, ?_⟩
  · intro v hv
    have hLive := (hCovers.mem hv).1
    rcases hCovers.points v hv with ⟨off, k, hId, hData⟩
    rcases hId.element with ⟨size, n, x, hElem, _⟩
    refine ⟨_, (liveSlot_iff hAgrees.file).mpr ⟨rfl, hLive⟩,
      off, size, n, x, hId.field, hElem, ?_⟩
    rw [hData]
    exact Memory.Same.refl _ _ _
  · intro rid page hSlot
    have hLive := ((liveSlot_iff hAgrees.file).mp hSlot).2
    have hIn := (hCovers.ids rid).mpr
      ((settled_empty _ rid).mpr hLive)
    have hCount := List.count_eq_one_of_mem hCovers.nodup hIn
    rw [List.count_eq_countP, List.countP_map] at hCount
    rw [← hCount]
    apply List.countP_congr
    intro v _
    simp

/- A new process agrees when the old one's file is good. -/
theorem restored
    (hRestored : DmsFile.Restored h s.dmsFile t.dmsFile
      t.ixmBucketMgr)
    (hDistinct : DmsFile.DistinctKeys s.dmsFile.file
      s.dmsFile.body.length) :
    Rtn.Agrees h t ∅ := by
  have hAddr : t.dmsFile.addr =
      DmsFile.recordAddress s.dmsFile.file := by
    unfold DmsFile.addr
    rw [hRestored.file]
  have hLive : ∀ rid, t.dmsFile.Live rid ↔
      rid ∈ DmsFile.liveIn s.dmsFile.file
        s.dmsFile.body.length := by
    intro rid
    rw [← DmsFile.liveIn_eq, hRestored.file, hRestored.body]
  refine ⟨hRestored.good, ?_, ?_, ?_⟩
  · rw [hAddr, hRestored.file]
    apply hRestored.index.congr
    intro rid
    rw [settled_empty, hLive]
  · intro rid hl
    unfold DmsFile.HasKey
    rw [hAddr, hRestored.file]
    exact hDistinct.keyed rid ((hLive rid).mp hl)
  · intro rid hIn
    exact absurd hIn (Set.notMem_empty rid)

/- A restart that succeeds restores the agreement. -/
theorem restart
    (hAgrees : Rtn.Agrees h s ∅)
    {creation : DmsFile.HeaderCreation}
    {failure : Nat → Option Errno}
    (hCall : Rtn.init h creation failure s.dmsFile.file
      s.dmsFile.fileSize = .ok (edbOk, t)) :
    Rtn.Agrees h t ∅ := by
  have hInit : DmsFile.init h creation failure
      s.dmsFile.file s.dmsFile.fileSize =
        .ok (edbOk, (t.dmsFile, t.ixmBucketMgr)) := by
    simp only [Rtn.init, bind, Except.bind] at hCall
    split at hCall
    · simp at hCall
    · rename_i r hResult
      simp only [pure, Except.pure, Except.ok.injEq,
        Prod.mk.injEq] at hCall
      rcases r with ⟨rc, dms, ixm⟩
      rw [hResult, ← hCall.2, show rc = edbOk from hCall.1]
  rcases hAgrees.file.restored_of_init hInit with
    ⟨_, hRestored, hDistinct⟩
  exact restored hRestored hDistinct

/- Every guarded step of the server keeps the agreement. -/
theorem serverStep
    {a : ServerOp}
    (hAgrees : Rtn.Agrees h s ∅)
    (hStep : Guarded (ServerGuard h) (ServerStep h) s a t) :
    Rtn.Agrees h t ∅ := by
  rcases hStep with ⟨hGuard, hStep⟩
  cases hStep with
  | insert hCall =>
      have hInserted := (hAgrees.inserted_of_call hGuard.1
        hGuard.2.1 hGuard.2.2 hCall).2
      cases hInserted with
      | added _ _ _ hNext => exact hNext
      | refused _ _ hNext => exact hNext
  | remove hCall =>
      rcases hAgrees.rtnRemove_cases hGuard with
        ⟨_, _, _, u, _, _, _, hResult, _, _, hNext⟩ |
          ⟨_, hResult⟩
      · rw [hResult] at hCall
        simp only [Except.ok.injEq, Prod.mk.injEq] at hCall
        exact hCall.2 ▸ hNext
      · rw [hResult] at hCall
        simp only [Except.ok.injEq, Prod.mk.injEq] at hCall
        exact hCall.2 ▸ hAgrees
  | restart hCall => exact hAgrees.restart hCall

end Rtn.Agrees

/-
  In every state that a guarded run from a new store reaches,
  index and records agree.
-/
theorem run_indexAgreement
    (h : List UInt8 → Nat)
    (file : Memory)
    {s t : Rtn}
    {as : List ServerOp}
    (hInit : Rtn.init h .success (fun _ => none) file 0 =
      .ok (edbOk, s))
    (hRun : Steps (Guarded (ServerGuard h) (ServerStep h))
      s as t) :
    IndexAgreement t := by
  rw [Rtn.init_created] at hInit
  simp only [Except.ok.injEq, Prod.mk.injEq, true_and]
    at hInit
  subst hInit
  have hKept : ∀ s a t, Rtn.Agrees h s ∅ →
      Guarded (ServerGuard h) (ServerStep h) s a t →
        Rtn.Agrees h t ∅ :=
    fun _ _ _ hAgrees hStep => hAgrees.serverStep hStep
  exact (hRun.invariant hKept
    (Rtn.agrees_created h file)).indexAgreement

theorem insertDocument_serverStep
    {s : Rtn}
    {id size : Nat}
    (hCode : callCode (s.rtnInsert hashFunc [.success]
      (textDocument id size)) = some edbOk) :
    ServerStep hashFunc s
      (.insert [.success] (textDocument id size))
      (insertDocument s id size) :=
  .insert (call_eq hCode)

theorem removeDocument_serverStep
    {s : Rtn}
    {id : Nat}
    (hCode : callCode (s.rtnRemove hashFunc
      (textDocument id 22)) = some edbOk) :
    ServerStep hashFunc s (.remove (textDocument id 22))
      (removeDocument s id) :=
  .remove (call_eq hCode)

theorem restartStore_serverStep
    {s : Rtn}
    (hCode : callCode (Rtn.init hashFunc .success
      (fun _ => none) s.dmsFile.file s.dmsFile.fileSize) =
        some edbOk) :
    ServerStep hashFunc s (.restart .success (fun _ => none))
      (restartStore s) :=
  .restart (call_eq hCode)

/-
  Two documents are inserted and the first one is removed;
  the next process removes the second one.
-/
theorem run_indexAgreement_restart :
    IndexAgreement (removeDocument (restartStore
      (removeDocument twoDocuments 1)) 2) := by
  have hClean : ∀ ext ∈ [DmsFile.Extension.success],
      ext.Clean := by
    simp [DmsFile.Extension.Clean]
  rcases twoDocuments_codes with ⟨hOne, hTwo⟩
  rcases twoDocuments_steps with
    ⟨⟨hFirst, _⟩, ⟨hSecond, _⟩⟩
  have hRun : Steps (Guarded (ServerGuard hashFunc)
      (ServerStep hashFunc)) emptyStore
      [.insert [.success] (textDocument 1 22),
        .insert [.success] (textDocument 2 22),
        .remove (textDocument 1 22),
        .restart .success (fun _ => none),
        .remove (textDocument 2 22)]
      (removeDocument (restartStore
        (removeDocument twoDocuments 1)) 2) :=
    .cons ⟨⟨hFirst.1, hFirst.2, hClean⟩,
      insertDocument_serverStep hOne⟩
      (.cons ⟨⟨hSecond.1, hSecond.2, hClean⟩,
        insertDocument_serverStep hTwo⟩
        (.cons ⟨textDocument_form (by decide),
          removeDocument_serverStep (by decide +kernel)⟩
          (.cons ⟨trivial,
            restartStore_serverStep (by decide +kernel)⟩
            (.cons ⟨textDocument_form (by decide),
              removeDocument_serverStep (by decide +kernel)⟩
              (.nil _)))))
  exact run_indexAgreement hashFunc (fun _ => 0)
    (Rtn.init_created hashFunc (fun _ => 0)) hRun

------------------------------------------------------------
-- A Run That Breaks the Agreement
------------------------------------------------------------

/- The record that the reorganisation has moved. -/
def movedObject : BSONObj :=
  Page.object damagedStore.dmsFile.file 65536 1

/-
  An entry of the damaged store: its record is in slot 1 of
  page 0 and has its `_id` at displacement 4, but the bytes
  that the entry points to are others.
-/
theorem damagedStore_entry :
    LiveSlot damagedStore.dmsFile ⟨0, 1⟩ 65536 ∧
      movedObject.fieldOffset ixmKeyFieldName =
        .ok (some 4) ∧
      BSONElement.size ⟨movedObject.mem,
        movedObject.objdata + 4⟩ = .ok 9 ∧
      ∃ e ∈ (damagedStore.ixmBucketMgr.bucket 5).entries,
        e.2.recordID = ⟨0, 1⟩ ∧
          ¬ Memory.Same damagedStore.dmsFile.file e.2.data
            movedObject.mem (movedObject.objdata + 4) 9 := by
  refine ⟨⟨?_, ?_⟩, ?_, ?_, ?_⟩
  · decide +kernel
  · decide +kernel
  · decide +kernel
  · decide +kernel
  · decide +kernel

/- The operations that damage the store. -/
def damagingOps : List ServerOp :=
  [.insert [.success] (textDocument 1 1500000),
    .insert [.success] (textDocument 2 1500000),
    .remove (textDocument 1 22),
    .insert [.success] (textDocument 3 2000000)]

/-
  Not every run with well-formed records on a new store ends
  in agreement.
-/
theorem run_not_indexAgreement :
    ¬ ∀ as t,
      Steps (ServerStep hashFunc) emptyStore as t →
      (∀ a ∈ as, a.WellFormed) →
      IndexAgreement t := by
  intro hClaim
  rcases damagedStore_codes with ⟨h1, h2, h3, h4⟩
  have hRun : Steps (ServerStep hashFunc) emptyStore
      damagingOps damagedStore :=
    .cons (insertDocument_serverStep h1)
      (.cons (insertDocument_serverStep h2)
        (.cons (removeDocument_serverStep h3)
          (.cons (insertDocument_serverStep h4) (.nil _))))
  have hForm : ∀ a ∈ damagingOps, a.WellFormed := by
    intro a ha
    simp only [damagingOps, List.mem_cons, List.not_mem_nil,
      or_false] at ha
    rcases ha with rfl | rfl | rfl | rfl
    all_goals
      exact textDocument_wellFormed (by decide) (by decide)
        (by decide)
  have hAgreement := hClaim _ _ hRun hForm
  rcases damagedStore_entry with
    ⟨hSlot, hField, hSize, e, hEntry, hRecord, hDiffer⟩
  have hMember : e.2 ∈ damagedStore.ixmBucketMgr.entries :=
    mem_entries.mpr ⟨5, e.1, hEntry⟩
  rcases hAgreement.entry e.2 hMember with
    ⟨page, hSlot', off, size, n, x, hField', hElem, hSame⟩
  have hPage : page = 65536 := by
    rw [hRecord] at hSlot'
    simpa using hSlot'.1.symm.trans hSlot.1
  rw [hRecord, hPage] at hField' hElem hSame
  have hOff : off = 4 := by
    simpa using hField'.symm.trans hField
  rw [hOff] at hElem hSame
  have hNine : (size : Int) = 9 := by
    simpa using hElem.size_eq.symm.trans hSize
  have hNat : size = 9 := by omega
  rw [hNat] at hSame
  exact hDiffer hSame

end EmeraldDb
