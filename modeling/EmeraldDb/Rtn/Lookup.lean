import EmeraldDb.Rtn.Concurrent

/-
  Lookups among concurrent insertions and removals.

  `rtnFind` is two latched steps: `findIndex` reads the
  record id of a key from the index, and `dmsFile::find`
  reads the record.  A lookup is linearized at its first
  step: if no agent removes the record between the two, the
  second step returns what was stored at the first.

  Key definitions include:
    * `ServiceStep`
    * `FindsLinearizable`
    * `LookupsUndisturbed`

  Key results include:
    * `finds_linearizable`
    * `finds_not_linearizable`
-/

namespace EmeraldDb

open IxmBucketManager

------------------------------------------------------------
-- Finders
------------------------------------------------------------

/- Where a lookup is between its two latched steps. -/
inductive FinderState
| idle
| found
    (record : BSONObj)
    (rid : DmsRecordID)

/- The agents on their store, and the lookups by number. -/
structure Service where
  server : Server
  finder : Nat → FinderState

/- A step with what it returned. -/
inductive ServiceOp
| agent (op : Nat × AgentOp)
| findIndex
    (a : Nat)
    (record : BSONObj)
    (answer : Int × Option DmsRecordID)
| find
    (a : Nat)
    (reply : Int × Option BSONObj)

/- One latched step of an agent or of a lookup. -/
inductive ServiceStep
    (h : List UInt8 → Nat) :
    Service → ServiceOp → Service → Prop
| agent
    {s : Service}
    {op : Nat × AgentOp}
    {t : Server}
    (hStep : AgentStep h s.server op t) :
    ServiceStep h s (.agent op) { s with server := t }
| findIndexFails
    {s : Service}
    {a : Nat}
    {record : BSONObj}
    {rc : Int}
    (hIdle : s.finder a = .idle)
    (hCall : findIndex h s.server.store.dmsFile.file
      s.server.store.ixmBucketMgr record = .ok (rc, none)) :
    ServiceStep h s (.findIndex a record (rc, none)) s
| findIndex
    {s : Service}
    {a : Nat}
    {record : BSONObj}
    {rc : Int}
    {rid : DmsRecordID}
    (hIdle : s.finder a = .idle)
    (hCall : findIndex h s.server.store.dmsFile.file
      s.server.store.ixmBucketMgr record =
        .ok (rc, some rid)) :
    ServiceStep h s (.findIndex a record (rc, some rid))
      { s with
        finder := Function.update s.finder a
          (.found record rid) }
| find
    {s : Service}
    {a : Nat}
    {record : BSONObj}
    {rid : DmsRecordID}
    {reply : Int × Option BSONObj}
    (hState : s.finder a = .found record rid)
    (hCall : s.server.store.dmsFile.find rid = .ok reply) :
    ServiceStep h s (.find a reply)
      { s with finder := Function.update s.finder a .idle }

/- Is the step one of this lookup? -/
def ServiceOp.IsBy
    (a : Nat) : ServiceOp → Prop
| .agent _ => False
| .findIndex b _ _ => b = a
| .find b _ => b = a

/- A service that nobody has used yet. -/
def startService (store : Rtn) : Service where
  server := startServer store
  finder := fun _ => .idle

------------------------------------------------------------
-- Linearizable Lookups
------------------------------------------------------------

namespace Rtn

/- A record is in the data file and indexed under a key. -/
def Stored
    (s : Rtn)
    (k : BSONElement.Key)
    (rid : DmsRecordID) : Prop :=
  s.dmsFile.Live rid ∧
    ∃ v ∈ s.ixmBucketMgr.entries,
      v.recordID = rid ∧ entryKey s.dmsFile.file v = .ok k

/- No record is stored under the key of the argument. -/
def Absent
    (s : Rtn)
    (record : BSONObj) : Prop :=
  ∀ k, idKey record = some k → ∀ rid, ¬ s.Stored k rid

/-
  An object has the key of the argument and the bytes of a
  record that is stored under that key.
-/
def StoredAs
    (s : Rtn)
    (record obj : BSONObj) : Prop :=
  ∃ k rid,
    idKey record = some k ∧ idKey obj = some k ∧
      s.Stored k rid ∧
      obj.document = (s.dmsFile.object rid).document

end Rtn

/-
  Every completed lookup answers for the moment of its first
  step: it fails with `EDB_INVALIDARG` and the key is absent,
  or it returns a record that is stored under the key.
-/
def FindsLinearizable
    (step : Service → ServiceOp → Service → Prop)
    (s₀ : Service) : Prop :=
  ∀ as s, Steps step s₀ as s →
    (∀ a record rc t,
      step s (.findIndex a record (rc, none)) t →
        rc = edbInvalidArg ∧ s.server.store.Absent record) ∧
    ∀ a record rc rid t bs u reply v,
      step s (.findIndex a record (rc, some rid)) t →
      Steps step t bs u →
      (∀ op ∈ bs, ¬ op.IsBy a) →
      step u (.find a reply) v →
        ∃ obj, reply = (edbOk, some obj) ∧
          s.server.store.StoredAs record obj

/-
  The agents are guarded as before, and lookups are called
  with well-formed arguments.
-/
def ServiceGuard
    (h : List UInt8 → Nat)
    (s : Service) :
    ServiceOp → Prop
| .agent op => AgentGuard h s.server op
| .findIndex _ record _ => record.WellFormed
| .find _ _ => True

/- No agent removes a record that a lookup is about to read. -/
def LookupsUndisturbed
    (s : Service) :
    ServiceOp → Prop
| .agent (a, .remove) =>
    ∀ rid, s.server.agent a = .unindexed rid →
      ∀ b record, s.finder b ≠ .found record rid
| _ => True

abbrev GuardedServiceStep (h : List UInt8 → Nat) :
    Service → ServiceOp → Service → Prop :=
  Guarded (ServiceGuard h) (ServiceStep h)

abbrev UndisturbedStep (h : List UInt8 → Nat) :
    Service → ServiceOp → Service → Prop :=
  Guarded LookupsUndisturbed (GuardedServiceStep h)

------------------------------------------------------------
-- First Steps
------------------------------------------------------------

namespace Coherent

variable {h : List UInt8 → Nat} {s t : Server}
variable {rid : DmsRecordID}

/- What is stored under a key is settled and has that key. -/
theorem stored_iff
    (hCoherent : Coherent h s)
    (k : BSONElement.Key) :
    s.store.Stored k rid ↔ SettledKey s rid k := by
  have hIndex := hCoherent.agrees.index
  constructor
  · rintro ⟨_, v, hv, rfl, hEntry⟩
    exact ⟨hIndex.mem hv,
      ((hIndex.points v hv).entryKey_iff k).mp hEntry⟩
  · rintro ⟨hIn, hKey⟩
    rcases List.mem_map.mp ((hIndex.ids rid).mpr hIn) with
      ⟨v, hv, hRid⟩
    refine ⟨hIn.1, v, hv, hRid, ?_⟩
    rw [(hIndex.points v hv).entryKey_iff, hRid]
    exact hKey

/- A lookup in the index finds what is stored. -/
theorem findIndex_cases
    (hCoherent : Coherent h s)
    {record : BSONObj}
    (hForm : record.WellFormed) :
    (∃ k rid, idKey record = some k ∧
        s.store.Stored k rid ∧
        IxmBucketManager.findIndex h s.store.dmsFile.file
          s.store.ixmBucketMgr record =
            .ok (edbOk, some rid)) ∨
      s.store.Absent record ∧
        IxmBucketManager.findIndex h s.store.dmsFile.file
          s.store.ixmBucketMgr record =
            .ok (edbInvalidArg, none) := by
  rcases hForm.hasId_or_none with
    ⟨off, k, hId⟩ | ⟨hNone, hNoKey⟩
  · rcases hCoherent.agrees.index.findIndex_cases hId with
      ⟨rid, hIn, hKey, hFound⟩ | ⟨hAbsent, hMissed⟩
    · left
      exact ⟨k, rid, hId.idKey_eq,
        (hCoherent.stored_iff k).mpr ⟨hIn, hKey⟩, hFound⟩
    · right
      refine ⟨?_, hMissed⟩
      intro k' hKey' rid hStored
      have hSame : k = k' := by
        simpa using hId.idKey_eq.symm.trans hKey'
      have hSettled := (hCoherent.stored_iff k').mp hStored
      exact hAbsent rid hSettled.1 (hSame ▸ hSettled.2)
  · right
    refine ⟨?_, findIndex_of_none hNone⟩
    intro k hKey
    rw [hNoKey] at hKey
    simp at hKey

------------------------------------------------------------
-- Records between the Steps
------------------------------------------------------------

/- A step keeps every live record but the one it removes. -/
theorem agentStep_kept
    {op : Nat × AgentOp}
    (hCoherent : Coherent h s)
    (hStep : GuardedAgentStep h s op t)
    (hLive : s.store.dmsFile.Live rid)
    (hOther : op.2 = .remove →
      s.agent op.1 ≠ .unindexed rid) :
    t.store.dmsFile.Live rid ∧
      DmsFile.Kept s.store.dmsFile t.store.dmsFile rid := by
  have hHere : s.store.dmsFile.Live rid ∧
      DmsFile.Kept s.store.dmsFile s.store.dmsFile rid :=
    ⟨hLive, rfl, Memory.Same.refl _ _ _⟩
  rcases hStep with ⟨hGuard, hStep⟩
  cases hStep with
  | idExists _ _ _ => exact hHere
  | idFree _ _ => exact hHere
  | @insertFails a record exts r hState hCall hCode =>
      have hRemembers := hCoherent.remembers a
      rw [hState] at hRemembers
      have hOutcome := hCoherent.agrees.file.insert_of_call
        hRemembers.1 (hGuard.2 record hState) hGuard.1 hCall
      cases hOutcome with
      | added _ => exact absurd rfl hCode
      | refused _ hSame =>
          exact ⟨(hSame.live rid).mpr hLive,
            hSame.kept rid hLive⟩
  | @insert a record exts f data r hState hCall =>
      have hRemembers := hCoherent.remembers a
      rw [hState] at hRemembers
      have hOutcome := hCoherent.agrees.file.insert_of_call
        hRemembers.1 (hGuard.2 record hState) hGuard.1 hCall
      cases hOutcome with
      | added hAdded =>
          exact ⟨(hAdded.live rid).mpr (Or.inr hLive),
            hAdded.kept rid hLive⟩
  | createIndexFails _ _ _ => exact hHere
  | createIndex _ _ => exact hHere
  | removeIndexFails _ _ => exact hHere
  | removeIndex _ _ => exact hHere
  | @remove a r rc f hState hCall =>
      have hPending : r ∈ heldRecords s.agent := by
        refine ⟨a, ?_⟩
        rw [hState]
        rfl
      rcases hCoherent.agrees.removed hPending with
        ⟨g, hResult, hRemoved, _, _⟩
      have hSame : g = f := by
        rw [hResult, Prod.mk.injEq] at hCall
        exact hCall.2
      have hNe : rid ≠ r := by
        intro hEq
        exact hOther rfl (hEq ▸ hState)
      subst hSame
      exact ⟨(hRemoved.live rid).mpr ⟨hNe, hLive⟩,
        hRemoved.kept rid hNe hLive⟩

end Coherent

section Lookup

variable {h : List UInt8 → Nat} {s₀ s t : Service}
variable {op : ServiceOp}

/- Every guarded step keeps the server coherent. -/
theorem GuardedServiceStep.coherent
    (hStep : GuardedServiceStep h s op t)
    (hCoherent : Coherent h s.server) :
    Coherent h t.server := by
  rcases hStep with ⟨hGuard, hStep⟩
  cases hStep with
  | agent hAgent => exact hCoherent.agentStep ⟨hGuard, hAgent⟩
  | findIndexFails _ _ => exact hCoherent
  | findIndex _ _ => exact hCoherent
  | find _ _ => exact hCoherent

/- A lookup between its steps, and the record it found. -/
structure Following
    (h : List UInt8 → Nat)
    (s₀ : Service)
    (a : Nat)
    (record : BSONObj)
    (rid : DmsRecordID)
    (s : Service) : Prop where
  coherent : Coherent h s.server
  found : s.finder a = .found record rid
  live : s.server.store.dmsFile.Live rid
  kept : DmsFile.Kept s₀.server.store.dmsFile
    s.server.store.dmsFile rid

/- Undisturbed steps of others leave the record in place. -/
theorem Following.step
    {a : Nat}
    {record : BSONObj}
    {rid : DmsRecordID}
    (hForm : (s₀.server.store.dmsFile.object rid).WellFormed)
    (hFollowing : Following h s₀ a record rid s)
    (hOther : ¬ op.IsBy a)
    (hStep : UndisturbedStep h s op t) :
    Following h s₀ a record rid t := by
  have hCoherent := hStep.2.coherent hFollowing.coherent
  rcases hStep with ⟨hUndisturbed, hGuard, hStep⟩
  cases hStep with
  | @agent agentOp u hAgent =>
      have hNotRemoved : agentOp.2 = .remove →
          s.server.agent agentOp.1 ≠ .unindexed rid := by
        rcases agentOp with ⟨b, o⟩
        rintro rfl hState
        exact hUndisturbed rid hState a record
          hFollowing.found
      rcases hFollowing.coherent.agentStep_kept
          ⟨hGuard, hAgent⟩ hFollowing.live hNotRemoved with
        ⟨hLive, hKept⟩
      exact ⟨hCoherent, hFollowing.found, hLive,
        hFollowing.kept.trans hForm hKept⟩
  | findIndexFails _ _ => exact hFollowing
  | @findIndex b record' rc rid' _ _ =>
      have hNe : a ≠ b := fun hEq => hOther hEq.symm
      have hSame := Function.update_of_ne hNe (.found record' rid') s.finder
      exact ⟨hCoherent, hSame.trans hFollowing.found,
        hFollowing.live, hFollowing.kept⟩
  | @find b record' rid' reply _ _ =>
      have hNe : a ≠ b := fun hEq => hOther hEq.symm
      have hSame := Function.update_of_ne hNe .idle s.finder
      exact ⟨hCoherent, hSame.trans hFollowing.found,
        hFollowing.live, hFollowing.kept⟩

/- The second step returns what the first step found. -/
theorem Following.find
    {a : Nat}
    {record : BSONObj}
    {rid : DmsRecordID}
    {k : BSONElement.Key}
    {reply : Int × Option BSONObj}
    (hCoherent : Coherent h s₀.server)
    (hKey : idKey record = some k)
    (hStored : s₀.server.store.Stored k rid)
    (hFollowing : Following h s₀ a record rid s)
    (hStep : ServiceStep h s (.find a reply) t) :
    ∃ obj, reply = (edbOk, some obj) ∧
      s₀.server.store.StoredAs record obj := by
  have hForm := hCoherent.agrees.file.form hStored.1
  have hSettled := (hCoherent.stored_iff k).mp hStored
  cases hStep with
  | @find _ record' rid' _ hState hCall =>
      rw [hFollowing.found, FinderState.found.injEq] at hState
      rw [← hState.2, hFollowing.coherent.agrees.file.find
        hFollowing.live, Except.ok.injEq] at hCall
      rcases hFollowing.kept.keyAt hForm hSettled.2 with
        ⟨off, hId⟩
      exact ⟨_, hCall.symm, k, rid, hKey, hId.idKey_eq,
        hStored, hFollowing.kept.document_eq hForm⟩

end Lookup

------------------------------------------------------------
-- Runs
------------------------------------------------------------

/-
  In every run from a new store in which no record is removed
  while a lookup is about to read it, lookups are
  linearizable.
-/
theorem finds_linearizable
    (h : List UInt8 → Nat)
    (file : Memory)
    {store : Rtn}
    (hInit : Rtn.init h .success (fun _ => none) file 0 =
      .ok (edbOk, store)) :
    FindsLinearizable (UndisturbedStep h)
      (startService store) := by
  rw [Rtn.init_created] at hInit
  simp only [Except.ok.injEq, Prod.mk.injEq, true_and]
    at hInit
  subst hInit
  intro as s hRun
  have hPreserved : ∀ s op t, Coherent h s.server →
      UndisturbedStep h s op t → Coherent h t.server :=
    fun _ _ _ hCoherent hStep => hStep.2.coherent hCoherent
  have hCoherent : Coherent h s.server :=
    hRun.invariant hPreserved (coherent_created h file)
  refine ⟨?_, ?_⟩
  · rintro a record rc t ⟨_, hForm, hStep⟩
    cases hStep with
    | findIndexFails hIdle hCall =>
        rcases hCoherent.findIndex_cases hForm with
          ⟨k, rid, _, _, hFound⟩ | ⟨hAbsent, hMissed⟩
        · rw [hFound] at hCall
          simp at hCall
        · rw [hMissed] at hCall
          simp only [Except.ok.injEq, Prod.mk.injEq,
            and_true] at hCall
          exact ⟨hCall.symm, hAbsent⟩
  · rintro a record rc rid t bs u reply v ⟨_, hForm, hStep⟩
      hBetween hOthers ⟨_, _, hFind⟩
    cases hStep with
    | findIndex hIdle hCall =>
        rcases hCoherent.findIndex_cases hForm with
          ⟨k, rid', hKey, hStored, hFound⟩ | ⟨_, hMissed⟩
        · rw [hFound] at hCall
          simp only [Except.ok.injEq, Prod.mk.injEq,
            Option.some.injEq] at hCall
          rcases hCall with ⟨_, rfl⟩
          have hObject := hCoherent.agrees.file.form hStored.1
          have hNext : ∀ s' op t',
              Following h s a record rid' s' →
              Guarded (fun _ op => ¬ op.IsBy a)
                (UndisturbedStep h) s' op t' →
              Following h s a record rid' t' :=
            fun _ _ _ hFollowing hStep =>
              hFollowing.step hObject hStep.1 hStep.2
          have hFirst : Following h s a record rid'
              { s with
                finder := Function.update s.finder a
                  (.found record rid') } :=
            ⟨hCoherent, Function.update_self _ _ _, hStored.1,
              rfl, Memory.Same.refl _ _ _⟩
          have hLast := (hBetween.restrict hOthers).invariant
            hNext hFirst
          exact hLast.find hCoherent hKey hStored hFind
        · rw [hMissed] at hCall
          simp at hCall

------------------------------------------------------------
-- Two Lookups and an Insertion
------------------------------------------------------------

/- The document has been inserted and nobody is at work. -/
def singleService : Service where
  server := singleServer
  finder := fun _ => .idle

/- The first lookup has found the document in the index. -/
def foundService : Service where
  server := singleServer
  finder := Function.update (fun _ => .idle) 0
    (.found sharedDocument ⟨0, 0⟩)

theorem singleServer_findIndex :
    findIndex hashFunc singleServer.store.dmsFile.file
      singleServer.store.ixmBucketMgr sharedDocument =
        .ok (edbOk, some ⟨0, 0⟩) := by
  decide +kernel

/- No lookup is under way during the first insertion. -/
theorem steps_singleService :
    Steps (UndisturbedStep hashFunc)
      (startService emptyStore)
      (singleOps.map ServiceOp.agent) singleService := by
  have hLifted : ∀ s op t, GuardedAgentStep hashFunc s op t →
      UndisturbedStep hashFunc ⟨s, fun _ => .idle⟩
        (.agent op) ⟨t, fun _ => .idle⟩ := by
    intro s op t hStep
    refine ⟨?_, hStep.1, .agent hStep.2⟩
    rcases op with ⟨a, _ | _ | _ | _ | _⟩
    all_goals simp [LookupsUndisturbed]
  exact steps_singleOps.lift hLifted

theorem singleService_findIndex :
    UndisturbedStep hashFunc singleService
      (.findIndex 0 sharedDocument (edbOk, some ⟨0, 0⟩))
      foundService :=
  ⟨trivial, sharedDocument_wellFormed,
    .findIndex rfl singleServer_findIndex⟩

/- The document that an agent inserts during the lookup. -/
def otherDocument : BSONObj :=
  textDocument 2 22

/- The other document is written, and then indexed. -/
def writtenOther : Server :=
  (singleServer.checks 1 otherDocument).writes 1 otherDocument

def indexedOther : Server :=
  writtenOther.indexes 1 otherDocument
    (written otherDocument singleServer.store)

/- Both lookups are between their steps. -/
def foundTwice : Service where
  server := indexedOther
  finder := Function.update foundService.finder 1
    (.found sharedDocument ⟨0, 0⟩)

/- An insertion and the first step of a second lookup. -/
def otherOps : List ServiceOp :=
  [.agent (1, .isIDExist otherDocument),
    .agent (1, .insert [.success]),
    .findIndex 1 sharedDocument (edbOk, some ⟨0, 0⟩),
    .agent (1, .createIndex)]

theorem steps_otherOps :
    Steps (UndisturbedStep hashFunc) foundService otherOps
      foundTwice := by
  have hForm : otherDocument.WellFormed :=
    textDocument_form (by decide)
  have hFree : isIDExist hashFunc
      singleServer.store.dmsFile.file
      singleServer.store.ixmBucketMgr otherDocument =
        .ok edbOk := by
    decide +kernel
  have hPlace : singleServer.store.dmsFile.Placeable
      otherDocument :=
    DmsFile.placeable_of_room (textDocument_small 2)
      (by decide +kernel : _ = some dmsFileHeaderSize)
      (by decide +kernel) (by decide +kernel)
  have hUnclaimed : ∀ b k, b ≠ 1 →
      ¬ Claims (singleServer.agent b) k := by
    intro b k hNe
    by_cases hFirst : b = 0
    · rw [hFirst]
      exact id
    · simp only [singleServer, Server.indexes, Server.writes,
        Server.checks, startServer,
        Function.update_of_ne hFirst]
      exact id
  have hFind : findIndex hashFunc
      writtenOther.store.dmsFile.file
      writtenOther.store.ixmBucketMgr sharedDocument =
        .ok (edbOk, some ⟨0, 0⟩) := by
    decide +kernel
  exact .cons ⟨trivial, ⟨hForm,
      fun _ b k hNe _ => hUnclaimed b k hNe⟩,
      .agent (checks_step rfl hFree)⟩
    (.cons ⟨trivial, writes_guard rfl hPlace,
        .agent (writes_step rfl (by decide +kernel))⟩
      (.cons ⟨trivial, sharedDocument_wellFormed,
          .findIndex rfl hFind⟩
        (.cons ⟨trivial, trivial,
          .agent (indexes_step rfl (by decide +kernel))⟩
          (.nil _))))

/-
  The first lookup returns the document that was stored when
  it began.
-/
theorem finds_linearizable_twoLookups :
    ∃ obj,
      indexedOther.store.dmsFile.find ⟨0, 0⟩ =
        .ok (edbOk, some obj) ∧
      singleServer.store.StoredAs sharedDocument obj := by
  have hReturns : ∃ reply,
      indexedOther.store.dmsFile.find ⟨0, 0⟩ = .ok reply := by
    have hOk : (indexedOther.store.dmsFile.find
        ⟨0, 0⟩).isOk = true := by
      decide +kernel
    cases hResult : indexedOther.store.dmsFile.find ⟨0, 0⟩ with
    | error e =>
        rw [hResult] at hOk
        simp [Except.isOk, Except.toBool] at hOk
    | ok reply => exact ⟨reply, rfl⟩
  rcases hReturns with ⟨reply, hReply⟩
  have hFind : UndisturbedStep hashFunc foundTwice
      (.find 0 reply)
      { foundTwice with
        finder := Function.update foundTwice.finder 0 .idle } :=
    ⟨trivial, trivial, .find rfl hReply⟩
  have hOthers : ∀ op ∈ otherOps, ¬ op.IsBy 0 := by
    simp [otherOps, ServiceOp.IsBy]
  have hClaim := finds_linearizable hashFunc (fun _ => 0)
    (Rtn.init_created hashFunc (fun _ => 0))
  rcases (hClaim _ _ steps_singleService).2 _ _ _ _ _ _ _ _ _
      singleService_findIndex steps_otherOps hOthers hFind with
    ⟨obj, hSame, hStored⟩
  exact ⟨obj, hReply.trans (congrArg Except.ok hSame),
    hStored⟩

------------------------------------------------------------
-- A Lookup and a Removal
------------------------------------------------------------

/- The data file after the document is removed from it. -/
def clearedFile : DmsFile :=
  (singleServer.store.dmsFile.remove ⟨0, 0⟩).2

/- The agent has removed the document. -/
def clearedServer : Server where
  store := ⟨clearedFile, unindexedManager⟩
  agent := Function.update unindexedServer.agent 1 .idle
  log := unindexedServer.log

/- The lookup then finds an empty slot. -/
theorem clearedFile_find :
    clearedFile.find ⟨0, 0⟩ = .ok (edbSys, none) := by
  have hPage : clearedFile.pageToOffset 0 = some 65536 := by
    decide +kernel
  have hSlot : clearedFile.searchSlot 65536 ⟨0, 0⟩ =
      (edbOk, dmsSlotEmpty) := by
    decide +kernel
  simp only [DmsFile.find, hPage, hSlot]
  rw [if_neg (by simp), if_pos trivial]

/- A removal between the two steps of a lookup. -/
def disturbingOps : List ServiceOp :=
  [.agent (1, .removeIndex sharedDocument),
    .agent (1, .remove)]

def clearedService : Service where
  server := clearedServer
  finder := foundService.finder

theorem steps_disturbingOps :
    Steps (GuardedServiceStep hashFunc) foundService
      disturbingOps clearedService := by
  have hIdle : singleServer.agent 1 = .idle := rfl
  have hUnindexed : unindexedServer.agent 1 =
      .unindexed ⟨0, 0⟩ := rfl
  have hRemove : unindexedServer.store.dmsFile.remove ⟨0, 0⟩ =
      ((singleServer.store.dmsFile.remove ⟨0, 0⟩).1,
        clearedFile) := rfl
  exact .cons ⟨sharedDocument_wellFormed,
      .agent (.removeIndex hIdle singleServer_removeIndex)⟩
    (.cons ⟨trivial, .agent (.remove hUnindexed hRemove)⟩
      (.nil _))

/-
  Lookups are not linearizable in every guarded run: a lookup
  that finds a record which is then removed fails with
  `EDB_SYS`.
-/
theorem finds_not_linearizable :
    ¬ FindsLinearizable (GuardedServiceStep hashFunc)
      (startService emptyStore) := by
  intro hClaim
  have hRun : Steps (GuardedServiceStep hashFunc)
      (startService emptyStore)
      (singleOps.map ServiceOp.agent) singleService :=
    steps_singleService.mono (fun _ _ _ hStep => hStep.2)
  have hSecond : GuardedServiceStep hashFunc clearedService
      (.find 0 (edbSys, none))
      { clearedService with
        finder := Function.update clearedService.finder 0
          .idle } :=
    ⟨trivial, .find rfl clearedFile_find⟩
  have hOthers : ∀ op ∈ disturbingOps, ¬ op.IsBy 0 := by
    simp [disturbingOps, ServiceOp.IsBy]
  rcases (hClaim _ _ hRun).2 _ _ _ _ _ _ _ _ _
      singleService_findIndex.2 steps_disturbingOps hOthers
      hSecond with
    ⟨obj, hReply, _⟩
  simp at hReply

end EmeraldDb
