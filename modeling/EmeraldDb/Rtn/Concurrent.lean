import EmeraldDb.Rtn.IndexAgreement

/-
  Concurrent insertions and removals.

  Every agent runs `rtnInsert` as three latched steps and
  `rtnRemove` as two; the steps of different agents
  interleave freely.  An agent claims a key from its id check
  to its entry in the index.  If no id check passes on a key
  that another agent claims, ids stay unique.

  Key definitions include:
    * `AgentStep`
    * `Claims`
    * `Coherent`
    * `UniqueIds`

  Key results include:
    * `agents_uniqueIds`
    * `agents_not_uniqueIds`
-/

namespace EmeraldDb

open IxmBucketManager

------------------------------------------------------------
-- Agents
------------------------------------------------------------

/- Where an agent is between two latched steps. -/
inductive AgentState
| idle
| checked (record : BSONObj)
| written
    (record : BSONObj)
    (data : Nat)
    (rid : DmsRecordID)
| unindexed (rid : DmsRecordID)

inductive AgentOp
| isIDExist (record : BSONObj)
| insert (exts : List DmsFile.Extension)
| createIndex
| removeIndex (record : BSONObj)
| remove

/- A key enters the index or is taken out of it. -/
inductive AgentEvent
| inserted (key : Option BSONElement.Key)
| removed (key : Option BSONElement.Key)

/-
  The store, the agents by number, and the events so far,
  the latest first.
-/
structure Server where
  store : Rtn
  agent : Nat → AgentState
  log : List AgentEvent

/- One latched step of one agent. -/
inductive AgentStep
    (h : List UInt8 → Nat) :
    Server → Nat × AgentOp → Server → Prop
| idExists
    {s : Server}
    {a : Nat}
    {record : BSONObj}
    {rc : Int}
    (hIdle : s.agent a = .idle)
    (hCall : isIDExist h s.store.dmsFile.file
      s.store.ixmBucketMgr record = .ok rc)
    (hCode : rc ≠ edbOk) :
    AgentStep h s (a, .isIDExist record) s
| idFree
    {s : Server}
    {a : Nat}
    {record : BSONObj}
    (hIdle : s.agent a = .idle)
    (hCall : isIDExist h s.store.dmsFile.file
      s.store.ixmBucketMgr record = .ok edbOk) :
    AgentStep h s (a, .isIDExist record)
      { s with
        agent := Function.update s.agent a
          (.checked record) }
| insertFails
    {s : Server}
    {a : Nat}
    {record : BSONObj}
    {exts : List DmsFile.Extension}
    {r : DmsFile.InsertResult}
    (hState : s.agent a = .checked record)
    (hCall : s.store.dmsFile.insert exts record = .ok r)
    (hCode : r.rc ≠ edbOk) :
    AgentStep h s (a, .insert exts)
      { s with
        store := ⟨r.state, s.store.ixmBucketMgr⟩
        agent := Function.update s.agent a .idle }
| insert
    {s : Server}
    {a : Nat}
    {record : BSONObj}
    {exts : List DmsFile.Extension}
    {t : DmsFile}
    {data : Nat}
    {rid : DmsRecordID}
    (hState : s.agent a = .checked record)
    (hCall : s.store.dmsFile.insert exts record =
      .ok ⟨edbOk, t, some (data, rid)⟩) :
    AgentStep h s (a, .insert exts)
      { s with
        store := ⟨t, s.store.ixmBucketMgr⟩
        agent := Function.update s.agent a
          (.written record data rid) }
| createIndexFails
    {s : Server}
    {a : Nat}
    {record : BSONObj}
    {data : Nat}
    {rid : DmsRecordID}
    {rc : Int}
    {mgr : IxmBucketManager}
    (hState : s.agent a = .written record data rid)
    (hCall : createIndex h s.store.ixmBucketMgr
      ⟨s.store.dmsFile.file, data⟩ rid = .ok (rc, mgr))
    (hCode : rc ≠ edbOk) :
    AgentStep h s (a, .createIndex)
      { s with
        store := ⟨s.store.dmsFile, mgr⟩
        agent := Function.update s.agent a .idle }
| createIndex
    {s : Server}
    {a : Nat}
    {record : BSONObj}
    {data : Nat}
    {rid : DmsRecordID}
    {mgr : IxmBucketManager}
    (hState : s.agent a = .written record data rid)
    (hCall : createIndex h s.store.ixmBucketMgr
      ⟨s.store.dmsFile.file, data⟩ rid = .ok (edbOk, mgr)) :
    AgentStep h s (a, .createIndex)
      { store := ⟨s.store.dmsFile, mgr⟩
        agent := Function.update s.agent a .idle
        log := .inserted (idKey record) :: s.log }
| removeIndexFails
    {s : Server}
    {a : Nat}
    {record : BSONObj}
    {rc : Int}
    {mgr : IxmBucketManager}
    (hIdle : s.agent a = .idle)
    (hCall : removeIndex h s.store.dmsFile.file
      s.store.ixmBucketMgr record = .ok (rc, none, mgr)) :
    AgentStep h s (a, .removeIndex record)
      { s with store := ⟨s.store.dmsFile, mgr⟩ }
| removeIndex
    {s : Server}
    {a : Nat}
    {record : BSONObj}
    {rc : Int}
    {rid : DmsRecordID}
    {mgr : IxmBucketManager}
    (hIdle : s.agent a = .idle)
    (hCall : removeIndex h s.store.dmsFile.file
      s.store.ixmBucketMgr record =
        .ok (rc, some rid, mgr)) :
    AgentStep h s (a, .removeIndex record)
      { store := ⟨s.store.dmsFile, mgr⟩
        agent := Function.update s.agent a (.unindexed rid)
        log := .removed (idKey record) :: s.log }
| remove
    {s : Server}
    {a : Nat}
    {rid : DmsRecordID}
    {rc : Int}
    {t : DmsFile}
    (hState : s.agent a = .unindexed rid)
    (hCall : s.store.dmsFile.remove rid = (rc, t)) :
    AgentStep h s (a, .remove)
      { s with
        store := ⟨t, s.store.ixmBucketMgr⟩
        agent := Function.update s.agent a .idle }

------------------------------------------------------------
-- Claims
------------------------------------------------------------

/- The agent has checked a key and not yet published it. -/
def Claims
    (st : AgentState)
    (k : BSONElement.Key) : Prop :=
  match st with
  | .checked record => idKey record = some k
  | .written record _ _ => idKey record = some k
  | _ => False

/- The agent has a record that is not in the index. -/
def Holds
    (st : AgentState)
    (rid : DmsRecordID) : Prop :=
  match st with
  | .written _ _ r => r = rid
  | .unindexed r => r = rid
  | _ => False

/- The records that some agent holds. -/
def heldRecords
    (agent : Nat → AgentState) : Set DmsRecordID :=
  { rid | ∃ a, Holds (agent a) rid }

/-
  Records are well formed; an id check passes only on a key
  that no other agent claims; an insertion is one that the
  data file can place, with clean extensions.
-/
def AgentGuard
    (h : List UInt8 → Nat)
    (s : Server) :
    Nat × AgentOp → Prop
| (a, .isIDExist record) =>
    record.WellFormed ∧
      (isIDExist h s.store.dmsFile.file s.store.ixmBucketMgr
          record = .ok edbOk →
        ∀ b k, b ≠ a → idKey record = some k →
          ¬ Claims (s.agent b) k)
| (a, .insert exts) =>
    (∀ ext ∈ exts, ext.Clean) ∧
      ∀ record, s.agent a = .checked record →
        s.store.dmsFile.Placeable record
| (_, .createIndex) => True
| (_, .removeIndex record) => record.WellFormed
| (_, .remove) => True

abbrev GuardedAgentStep (h : List UInt8 → Nat) :
    Server → Nat × AgentOp → Server → Prop :=
  Guarded (AgentGuard h) (AgentStep h)

------------------------------------------------------------
-- Events
------------------------------------------------------------

/- Is the last event of a key its entry into the index? -/
def present
    (k : BSONElement.Key) :
    List AgentEvent → Prop
| [] => False
| .inserted l :: log => l = some k ∨ present k log
| .removed l :: log => l ≠ some k ∧ present k log

/- No key enters the index while it is present. -/
def SoundLog : List AgentEvent → Prop
| [] => True
| .inserted l :: log =>
    (∀ k, l = some k → ¬ present k log) ∧ SoundLog log
| .removed _ :: log => SoundLog log

/- A key that is present stays so until it is removed. -/
theorem present_of_append
    {k : BSONElement.Key}
    {log : List AgentEvent}
    (hPresent : present k log)
    {later : List AgentEvent}
    (hNone : AgentEvent.removed (some k) ∉ later) :
    present k (later ++ log) := by
  induction later with
  | nil => exact hPresent
  | cons e later ih =>
      have hRest : present k (later ++ log) := by
        apply ih
        intro hIn
        exact hNone (List.mem_cons_of_mem e hIn)
      cases e with
      | inserted l => exact Or.inr hRest
      | removed l =>
          refine ⟨?_, hRest⟩
          intro hEq
          apply hNone
          rw [hEq]
          exact List.mem_cons_self

theorem SoundLog.append_right
    {log later : List AgentEvent}
    (hSound : SoundLog (later ++ log)) :
    SoundLog log := by
  induction later with
  | nil => exact hSound
  | cons e later ih =>
      cases e with
      | inserted l => exact ih hSound.2
      | removed l => exact ih hSound

/-
  Between two entries of one key into the index there is a
  removal of that key.
-/
theorem SoundLog.removed_between
    {k : BSONElement.Key}
    {newer between older : List AgentEvent}
    (hSound : SoundLog (newer ++ .inserted (some k) ::
      (between ++ .inserted (some k) :: older))) :
    AgentEvent.removed (some k) ∈ between := by
  by_contra hNone
  have hTail := hSound.append_right
  have hHead : present k (.inserted (some k) :: older) :=
    Or.inl rfl
  exact hTail.1 k rfl (present_of_append hHead hNone)

------------------------------------------------------------
-- Agents That Exclude Each Other
------------------------------------------------------------

/- No two agents are in relation with the same thing. -/
def Exclusive
    {β : Type}
    (P : AgentState → β → Prop)
    (agent : Nat → AgentState) : Prop :=
  ∀ a b x, P (agent a) x → P (agent b) x → a = b

section Update

variable {agent : Nat → AgentState} {a : Nat}
variable {st : AgentState}

/- An agent takes what no other agent has. -/
theorem Exclusive.update
    {β : Type}
    {P : AgentState → β → Prop}
    (hExclusive : Exclusive P agent)
    (hNew : ∀ x, P st x → ∀ b, b ≠ a → ¬ P (agent b) x) :
    Exclusive P (Function.update agent a st) := by
  intro b c x hb hc
  simp only [Function.update_apply] at hb hc
  split at hb
  · rename_i hEq
    split at hc
    · rename_i hEq'
      rw [hEq, hEq']
    · rename_i hNe
      exact absurd hc (hNew x hb c hNe)
  · rename_i hNe
    split at hc
    · exact absurd hb (hNew x hc b hNe)
    · exact hExclusive b c x hb hc

/- An agent takes no more than it has. -/
theorem Exclusive.update_of_imp
    {β : Type}
    {P : AgentState → β → Prop}
    (hExclusive : Exclusive P agent)
    (hLess : ∀ x, P st x → P (agent a) x) :
    Exclusive P (Function.update agent a st) := by
  apply hExclusive.update
  intro x hx b hNe hb
  exact hNe (hExclusive b a x hb (hLess x hx))

theorem heldRecords_same
    (hSame : ∀ rid, Holds st rid ↔ Holds (agent a) rid) :
    heldRecords (Function.update agent a st) =
      heldRecords agent := by
  ext rid
  constructor
  · rintro ⟨b, hb⟩
    simp only [Function.update_apply] at hb
    split at hb
    · exact ⟨a, (hSame rid).mp hb⟩
    · exact ⟨b, hb⟩
  · rintro ⟨b, hb⟩
    refine ⟨b, ?_⟩
    simp only [Function.update_apply]
    split
    · rename_i hEq
      exact (hSame rid).mpr (hEq ▸ hb)
    · exact hb

/- An agent that holds nothing takes a record. -/
theorem heldRecords_acquire
    {rid : DmsRecordID}
    (hNone : ∀ r, ¬ Holds (agent a) r)
    (hOne : ∀ r, Holds st r ↔ r = rid) :
    heldRecords (Function.update agent a st) =
      insert rid (heldRecords agent) := by
  ext r
  rw [Set.mem_insert_iff]
  constructor
  · rintro ⟨b, hb⟩
    simp only [Function.update_apply] at hb
    split at hb
    · exact Or.inl ((hOne r).mp hb)
    · exact Or.inr ⟨b, hb⟩
  · rintro (hEq | ⟨b, hb⟩)
    · refine ⟨a, ?_⟩
      rw [Function.update_self]
      exact (hOne r).mpr hEq
    · refine ⟨b, ?_⟩
      rw [Function.update_of_ne]
      · exact hb
      · intro hEq
        exact hNone r (hEq ▸ hb)

/- An agent gives back the one record it holds. -/
theorem heldRecords_release
    {rid : DmsRecordID}
    (hExclusive : Exclusive Holds agent)
    (hNone : ∀ r, ¬ Holds st r)
    (hOne : ∀ r, Holds (agent a) r ↔ r = rid) :
    heldRecords (Function.update agent a st) =
      heldRecords agent \ {rid} := by
  ext r
  rw [Set.mem_sdiff, Set.mem_singleton_iff]
  constructor
  · rintro ⟨b, hb⟩
    simp only [Function.update_apply] at hb
    split at hb
    · exact absurd hb (hNone r)
    · rename_i hNe
      refine ⟨⟨b, hb⟩, ?_⟩
      intro hEq
      exact hNe (hExclusive b a r hb ((hOne r).mpr hEq))
  · rintro ⟨⟨b, hb⟩, hNe⟩
    refine ⟨b, ?_⟩
    rw [Function.update_of_ne]
    · exact hb
    · intro hEq
      exact hNe ((hOne r).mp (hEq ▸ hb))

end Update

------------------------------------------------------------
-- Coherent Servers
------------------------------------------------------------

/- A settled record with its key. -/
def SettledKey
    (s : Server)
    (rid : DmsRecordID)
    (k : BSONElement.Key) : Prop :=
  rid ∈ Rtn.settled s.store.dmsFile (heldRecords s.agent) ∧
    s.store.dmsFile.HasKey rid k

/- What an agent remembers is so. -/
def Remembers
    (f : DmsFile) :
    AgentState → Prop
| .checked record =>
    record.WellFormed ∧ ∃ off k, HasId record off k
| .written record data rid =>
    data = (f.object rid).objdata ∧
      ∃ off k, HasId record off k ∧ f.HasKey rid k
| _ => True

structure Coherent
    (h : List UInt8 → Nat)
    (s : Server) : Prop where
  agrees : Rtn.Agrees h s.store (heldRecords s.agent)
  holds : Exclusive Holds s.agent
  claims : Exclusive Claims s.agent
  remembers : ∀ a, Remembers s.store.dmsFile (s.agent a)
  fresh : ∀ a k, Claims (s.agent a) k →
    ∀ rid, ¬ SettledKey s rid k
  distinct : ∀ rid rid' k, SettledKey s rid k →
    SettledKey s rid' k → rid = rid'
  logged : ∀ k, present k s.log ↔ ∃ rid, SettledKey s rid k
  sound : SoundLog s.log

theorem Remembers.kept
    {f g : DmsFile}
    {st : AgentState}
    (hRemembers : Remembers f st)
    (hForm : ∀ rid, Holds st rid →
      (f.object rid).WellFormed)
    (hKept : ∀ rid, Holds st rid → DmsFile.Kept f g rid) :
    Remembers g st := by
  cases st with
  | idle => trivial
  | checked record => exact hRemembers
  | written record data rid =>
      rcases hRemembers with ⟨hData, off, k, hId, hKey⟩
      have hSame := hKept rid rfl
      exact ⟨hData.trans hSame.place.symm, off, k, hId,
        hSame.keyAt (hForm rid rfl) hKey⟩
  | unindexed rid => trivial

namespace Coherent

variable {h : List UInt8 → Nat} {s t : Server} {a : Nat}

theorem live
    (hCoherent : Coherent h s)
    {rid : DmsRecordID}
    (hHolds : Holds (s.agent a) rid) :
    s.store.dmsFile.Live rid :=
  hCoherent.agrees.pending rid ⟨a, hHolds⟩

/- Settled records that stay settled keep their keys. -/
theorem settledKey_congr
    (hCoherent : Coherent h s)
    (hSettled : ∀ rid,
      rid ∈ Rtn.settled t.store.dmsFile
          (heldRecords t.agent) ↔
        rid ∈ Rtn.settled s.store.dmsFile
          (heldRecords s.agent))
    (hKept : ∀ rid ∈ Rtn.settled s.store.dmsFile
        (heldRecords s.agent),
      DmsFile.Kept s.store.dmsFile t.store.dmsFile rid)
    (rid : DmsRecordID)
    (k : BSONElement.Key) :
    SettledKey t rid k ↔ SettledKey s rid k := by
  unfold SettledKey
  rw [hSettled rid]
  apply and_congr_right
  intro hIn
  exact (hKept rid hIn).keyAt_iff
    (hCoherent.agrees.file.form hIn.1)
    (hCoherent.agrees.keyed rid hIn.1) k

/- A change of the file that keeps the held records. -/
theorem remembers_kept
    (hCoherent : Coherent h s)
    {f : DmsFile}
    {b : Nat}
    (hKept : ∀ rid, Holds (s.agent b) rid →
      DmsFile.Kept s.store.dmsFile f rid) :
    Remembers f (s.agent b) := by
  apply (hCoherent.remembers b).kept
  · intro rid hHolds
    exact hCoherent.agrees.file.form (hCoherent.live hHolds)
  · exact hKept

/- A step that settles and unsettles no record. -/
theorem settled_same
    (hCoherent : Coherent h s)
    (hLog : t.log = s.log)
    (hKeys : ∀ rid k, SettledKey t rid k ↔ SettledKey s rid k)
    (hAgrees : Rtn.Agrees h t.store (heldRecords t.agent))
    (hHolds : Exclusive Holds t.agent)
    (hClaims : Exclusive Claims t.agent)
    (hRemembers : ∀ a, Remembers t.store.dmsFile (t.agent a))
    (hFresh : ∀ a k, Claims (t.agent a) k →
      ∀ rid, ¬ SettledKey s rid k) :
    Coherent h t := by
  refine ⟨hAgrees, hHolds, hClaims, hRemembers, ?_, ?_, ?_,
    ?_⟩
  · intro a k hClaim rid hKey
    exact hFresh a k hClaim rid ((hKeys rid k).mp hKey)
  · intro rid rid' k hKey hKey'
    exact hCoherent.distinct rid rid' k
      ((hKeys rid k).mp hKey) ((hKeys rid' k).mp hKey')
  · intro k
    rw [hLog, hCoherent.logged]
    exact exists_congr (fun rid => (hKeys rid k).symm)
  · rw [hLog]
    exact hCoherent.sound

/- The claims of the agents when one claims no more. -/
theorem fresh_of_imp
    (hCoherent : Coherent h s)
    {st : AgentState}
    (hLess : ∀ k, Claims st k → Claims (s.agent a) k) :
    ∀ b k, Claims (Function.update s.agent a st b) k →
      ∀ rid, ¬ SettledKey s rid k := by
  intro b k hClaim
  simp only [Function.update_apply] at hClaim
  split at hClaim
  · exact hCoherent.fresh a k (hLess k hClaim)
  · exact hCoherent.fresh b k hClaim

------------------------------------------------------------
-- Steps
------------------------------------------------------------

/- A key is checked that no other agent claims. -/
theorem idFree
    (hCoherent : Coherent h s)
    {record : BSONObj}
    (hForm : record.WellFormed)
    (hIdle : s.agent a = .idle)
    (hCall : isIDExist h s.store.dmsFile.file
      s.store.ixmBucketMgr record = .ok edbOk)
    (hOther : ∀ b k, b ≠ a → idKey record = some k →
      ¬ Claims (s.agent b) k) :
    Coherent h
      { s with
        agent := Function.update s.agent a
          (.checked record) } := by
  have hHeld : heldRecords (Function.update s.agent a
      (.checked record)) = heldRecords s.agent := by
    apply heldRecords_same
    intro rid
    rw [hIdle]
    exact Iff.rfl
  rcases hForm.hasId_or_none with
    ⟨off, k, hId⟩ | ⟨hNone, _⟩
  · have hFresh : ∀ rid, ¬ SettledKey s rid k := by
      rintro rid ⟨hIn, hKey⟩
      rw [hCoherent.agrees.index.isIDExist_of_mem hId hIn
        hKey] at hCall
      simp at hCall
    apply hCoherent.settled_same
    · rfl
    · intro rid k'
      simp only [SettledKey, hHeld]
    · rw [hHeld]
      exact hCoherent.agrees
    · apply hCoherent.holds.update_of_imp
      intro rid hHolds
      exact absurd hHolds id
    · apply hCoherent.claims.update
      intro k' hClaim b hNe
      exact hOther b k' hNe hClaim
    · rw [Function.forall_update_iff]
      exact ⟨⟨hForm, off, k, hId⟩,
        fun b _ => hCoherent.remembers b⟩
    · intro b k' hClaim
      simp only [Function.update_apply] at hClaim
      split at hClaim
      · have hSame : some k = some k' :=
          hId.idKey_eq.symm.trans hClaim
        simp only [Option.some.injEq] at hSame
        exact hSame ▸ hFresh
      · exact hCoherent.fresh b k' hClaim
  · rw [isIDExist_of_none hNone] at hCall
    simp at hCall

/- An insertion that the data file refuses. -/
theorem insertFails
    (hCoherent : Coherent h s)
    {record : BSONObj}
    {f : DmsFile}
    (hState : s.agent a = .checked record)
    (hSame : DmsFile.Unchanged s.store.dmsFile f) :
    Coherent h
      { s with
        store := ⟨f, s.store.ixmBucketMgr⟩
        agent := Function.update s.agent a .idle } := by
  have hHeld : heldRecords (Function.update s.agent a .idle) =
      heldRecords s.agent := by
    apply heldRecords_same
    intro rid
    rw [hState]
    exact Iff.rfl
  apply hCoherent.settled_same
  · rfl
  · apply hCoherent.settledKey_congr
    · intro rid
      simp only [hHeld, Rtn.settled, Set.mem_ofPred_eq,
        hSame.live]
    · intro rid hIn
      exact hSame.kept rid hIn.1
  · rw [hHeld]
    exact hCoherent.agrees.unchanged hSame
  · apply hCoherent.holds.update_of_imp
    intro rid hHolds
    exact absurd hHolds id
  · apply hCoherent.claims.update_of_imp
    intro k hClaim
    exact absurd hClaim id
  · rw [Function.forall_update_iff]
    refine ⟨trivial, ?_⟩
    intro b _
    apply hCoherent.remembers_kept
    intro rid hHolds
    exact hSame.kept rid (hCoherent.live hHolds)
  · apply hCoherent.fresh_of_imp
    intro k hClaim
    exact absurd hClaim id

/- An insertion holds its record until it is indexed. -/
theorem inserted
    (hCoherent : Coherent h s)
    {record : BSONObj}
    {f : DmsFile}
    {rid : DmsRecordID}
    (hState : s.agent a = .checked record)
    (hAdded : DmsFile.Added s.store.dmsFile f rid record) :
    Coherent h
      { s with
        store := ⟨f, s.store.ixmBucketMgr⟩
        agent := Function.update s.agent a
          (.written record (f.object rid).objdata rid) } := by
  have hRemembers := hCoherent.remembers a
  rw [hState] at hRemembers
  rcases hRemembers with ⟨hForm, off, k, hId⟩
  have hHeld : heldRecords (Function.update s.agent a
      (.written record (f.object rid).objdata rid)) =
        insert rid (heldRecords s.agent) := by
    apply heldRecords_acquire
    · intro r hHolds
      rw [hState] at hHolds
      exact hHolds
    · intro r
      exact eq_comm
  have hNotHeld : ∀ b, ¬ Holds (s.agent b) rid := by
    intro b hHolds
    exact hAdded.fresh (hCoherent.live hHolds)
  apply hCoherent.settled_same
  · rfl
  · apply hCoherent.settledKey_congr
    · intro r
      simp only [hHeld, Rtn.settled, Set.mem_ofPred_eq,
        hAdded.live, Set.mem_insert_iff, not_or]
      constructor
      · rintro ⟨hEq | hLive, hNe, hOut⟩
        · exact absurd hEq hNe
        · exact ⟨hLive, hOut⟩
      · rintro ⟨hLive, hOut⟩
        refine ⟨Or.inr hLive, ?_, hOut⟩
        intro hEq
        exact hAdded.fresh (hEq ▸ hLive)
    · intro r hIn
      exact hAdded.kept r hIn.1
  · rw [hHeld]
    exact hCoherent.agrees.added hAdded hForm hId
  · apply hCoherent.holds.update
    intro r hHolds b _
    rw [← show rid = r from hHolds]
    exact hNotHeld b
  · apply hCoherent.claims.update_of_imp
    intro k' hClaim
    rw [hState]
    exact hClaim
  · rw [Function.forall_update_iff]
    refine ⟨⟨rfl, off, k, hId, off, ?_⟩, ?_⟩
    · exact hAdded.keyAt hForm hId
    · intro b _
      apply hCoherent.remembers_kept
      intro r hHolds
      exact hAdded.kept r (hCoherent.live hHolds)
  · apply hCoherent.fresh_of_imp
    intro k' hClaim
    rw [hState]
    exact hClaim

/- Indexing a held record publishes its key. -/
theorem createIndex
    (hCoherent : Coherent h s)
    {record : BSONObj}
    {data : Nat}
    {rid : DmsRecordID}
    (hState : s.agent a = .written record data rid) :
    ∃ mgr,
      IxmBucketManager.createIndex h s.store.ixmBucketMgr
        ⟨s.store.dmsFile.file, data⟩ rid =
          .ok (edbOk, mgr) ∧
      Coherent h
        { store := ⟨s.store.dmsFile, mgr⟩
          agent := Function.update s.agent a .idle
          log := .inserted (idKey record) :: s.log } := by
  have hRemembers := hCoherent.remembers a
  rw [hState] at hRemembers
  rcases hRemembers with ⟨hData, off, k, hId, hKey⟩
  have hOne : ∀ r, Holds (s.agent a) r ↔ r = rid := by
    intro r
    rw [hState]
    exact eq_comm
  have hPending : rid ∈ heldRecords s.agent :=
    ⟨a, (hOne rid).mpr rfl⟩
  have hLive := hCoherent.agrees.pending rid hPending
  have hClaim : Claims (s.agent a) k := by
    rw [hState]
    exact hId.idKey_eq
  have hHeld : heldRecords (Function.update s.agent a .idle) =
      heldRecords s.agent \ {rid} :=
    heldRecords_release hCoherent.holds (fun _ => id) hOne
  rcases hCoherent.agrees.created hPending with
    ⟨mgr, hResult, hAgrees⟩
  rw [hData]
  refine ⟨mgr, hResult, ?_⟩
  -- the settled records are the old ones and `rid`
  have hKeys : ∀ r l, SettledKey
      { store := ⟨s.store.dmsFile, mgr⟩
        agent := Function.update s.agent a .idle
        log := .inserted (idKey record) :: s.log } r l ↔
      r = rid ∧ l = k ∨ SettledKey s r l := by
    intro r l
    simp only [SettledKey, hHeld, Rtn.settled,
      Set.mem_ofPred_eq, Set.mem_sdiff,
      Set.mem_singleton_iff, not_and, not_not]
    constructor
    · rintro ⟨⟨hl, hOut⟩, hHas⟩
      by_cases hIn : r ∈ heldRecords s.agent
      · have hEq := hOut hIn
        exact Or.inl ⟨hEq, KeyAt.unique hHas (hEq ▸ hKey)⟩
      · exact Or.inr ⟨⟨hl, hIn⟩, hHas⟩
    · rintro (⟨rfl, rfl⟩ | ⟨⟨hl, hOut⟩, hHas⟩)
      · exact ⟨⟨hLive, fun _ => rfl⟩, hKey⟩
      · exact ⟨⟨hl, fun hIn => absurd hIn hOut⟩, hHas⟩
  refine ⟨hHeld ▸ hAgrees, ?_, ?_, ?_, ?_, ?_, ?_, ?_⟩
  · apply hCoherent.holds.update_of_imp
    intro r hHolds
    exact absurd hHolds id
  · apply hCoherent.claims.update_of_imp
    intro l hClaims
    exact absurd hClaims id
  · rw [Function.forall_update_iff]
    exact ⟨trivial, fun b _ => hCoherent.remembers b⟩
  · intro b l hClaims r hSettled
    simp only [Function.update_apply] at hClaims
    split at hClaims
    · exact hClaims
    · rename_i hNe
      rcases (hKeys r l).mp hSettled with ⟨_, rfl⟩ | hOld
      · exact hNe (hCoherent.claims b a l hClaims hClaim)
      · exact hCoherent.fresh b l hClaims r hOld
  · intro r r' l hSettled hSettled'
    rcases (hKeys r l).mp hSettled with ⟨rfl, rfl⟩ | hOld
    · rcases (hKeys r' l).mp hSettled' with ⟨rfl, _⟩ | hOld'
      · rfl
      · exact absurd hOld' (hCoherent.fresh a l hClaim r')
    · rcases (hKeys r' l).mp hSettled' with ⟨rfl, rfl⟩ | hOld'
      · exact absurd hOld (hCoherent.fresh a l hClaim r)
      · exact hCoherent.distinct r r' l hOld hOld'
  · intro l
    simp only [present, hId.idKey_eq, Option.some.injEq,
      hCoherent.logged]
    constructor
    · rintro (hEq | ⟨r, hOld⟩)
      · exact ⟨rid, (hKeys rid l).mpr
          (Or.inl ⟨rfl, hEq.symm⟩)⟩
      · exact ⟨r, (hKeys r l).mpr (Or.inr hOld)⟩
    · rintro ⟨r, hSettled⟩
      rcases (hKeys r l).mp hSettled with ⟨_, hEq⟩ | hOld
      · exact Or.inl hEq.symm
      · exact Or.inr ⟨r, hOld⟩
  · refine ⟨?_, hCoherent.sound⟩
    intro l hEq hPresent
    rw [hId.idKey_eq, Option.some.injEq] at hEq
    rcases (hCoherent.logged l).mp hPresent with ⟨r, hOld⟩
    exact hCoherent.fresh a l (hEq ▸ hClaim) r hOld

/- Taking a key out of the index holds its record. -/
theorem removeIndex_cases
    (hCoherent : Coherent h s)
    {record : BSONObj}
    (hForm : record.WellFormed)
    (hIdle : s.agent a = .idle) :
    (∃ rid mgr,
        IxmBucketManager.removeIndex h s.store.dmsFile.file
          s.store.ixmBucketMgr record =
            .ok (edbOk, some rid, mgr) ∧
        Coherent h
          { store := ⟨s.store.dmsFile, mgr⟩
            agent := Function.update s.agent a
              (.unindexed rid)
            log := .removed (idKey record) :: s.log }) ∨
      IxmBucketManager.removeIndex h s.store.dmsFile.file
        s.store.ixmBucketMgr record =
          .ok (edbInvalidArg, none,
            s.store.ixmBucketMgr) := by
  rcases hForm.hasId_or_none with
    ⟨off, k, hId⟩ | ⟨hNone, _⟩
  swap
  · exact Or.inr (removeIndex_of_none hNone)
  rcases hCoherent.agrees.unindexed hId with
    ⟨rid, mgr, hIn, hKey, hResult, hAgrees⟩ | ⟨_, hResult⟩
  swap
  · exact Or.inr hResult
  left
  refine ⟨rid, mgr, hResult, ?_⟩
  have hHeld : heldRecords (Function.update s.agent a
      (.unindexed rid)) =
        insert rid (heldRecords s.agent) := by
    apply heldRecords_acquire
    · intro r hHolds
      rw [hIdle] at hHolds
      exact hHolds
    · intro r
      exact eq_comm
  -- the settled records are the old ones without `rid`
  have hKeys : ∀ r l, SettledKey
      { store := ⟨s.store.dmsFile, mgr⟩
        agent := Function.update s.agent a (.unindexed rid)
        log := .removed (idKey record) :: s.log } r l ↔
      r ≠ rid ∧ SettledKey s r l := by
    intro r l
    simp only [SettledKey, hHeld, Rtn.settled,
      Set.mem_ofPred_eq, Set.mem_insert_iff, not_or]
    constructor
    · rintro ⟨⟨hl, hNe, hOut⟩, hHas⟩
      exact ⟨hNe, ⟨hl, hOut⟩, hHas⟩
    · rintro ⟨hNe, ⟨hl, hOut⟩, hHas⟩
      exact ⟨⟨hl, hNe, hOut⟩, hHas⟩
  refine ⟨hHeld ▸ hAgrees, ?_, ?_, ?_, ?_, ?_, ?_,
    hCoherent.sound⟩
  · apply hCoherent.holds.update
    intro r hHolds b _ hb
    rw [← show rid = r from hHolds] at hb
    exact hIn.2 ⟨b, hb⟩
  · apply hCoherent.claims.update_of_imp
    intro l hClaims
    exact absurd hClaims id
  · rw [Function.forall_update_iff]
    exact ⟨trivial, fun b _ => hCoherent.remembers b⟩
  · intro b l hClaims r hSettled
    have hLess : ∀ k', Claims (.unindexed rid) k' →
        Claims (s.agent a) k' :=
      fun _ hNo => absurd hNo id
    exact hCoherent.fresh_of_imp hLess b l hClaims r
      ((hKeys r l).mp hSettled).2
  · intro r r' l hSettled hSettled'
    exact hCoherent.distinct r r' l ((hKeys r l).mp hSettled).2
      ((hKeys r' l).mp hSettled').2
  · intro l
    simp only [present, hId.idKey_eq, ne_eq,
      Option.some.injEq, hCoherent.logged]
    constructor
    · rintro ⟨hNe, r, hOld⟩
      refine ⟨r, (hKeys r l).mpr ⟨?_, hOld⟩⟩
      intro hEq
      exact hNe (KeyAt.unique hKey (hEq ▸ hOld.2))
    · rintro ⟨r, hSettled⟩
      have hOld := (hKeys r l).mp hSettled
      refine ⟨?_, r, hOld.2⟩
      intro hEq
      exact hOld.1 (hCoherent.distinct r rid l hOld.2
        ⟨hIn, hEq ▸ hKey⟩)

/- Removing a held record from the file ends its removal. -/
theorem remove
    (hCoherent : Coherent h s)
    {rid : DmsRecordID}
    (hState : s.agent a = .unindexed rid) :
    ∃ f, s.store.dmsFile.remove rid = (edbOk, f) ∧
      Coherent h
        { s with
          store := ⟨f, s.store.ixmBucketMgr⟩
          agent := Function.update s.agent a .idle } := by
  have hOne : ∀ r, Holds (s.agent a) r ↔ r = rid := by
    intro r
    rw [hState]
    exact eq_comm
  have hPending : rid ∈ heldRecords s.agent :=
    ⟨a, (hOne rid).mpr rfl⟩
  have hHeld : heldRecords (Function.update s.agent a .idle) =
      heldRecords s.agent \ {rid} :=
    heldRecords_release hCoherent.holds (fun _ => id) hOne
  rcases hCoherent.agrees.removed hPending with
    ⟨f, hResult, hRemoved, _, hAgrees⟩
  refine ⟨f, hResult, ?_⟩
  apply hCoherent.settled_same
  · rfl
  · apply hCoherent.settledKey_congr
    · intro r
      simp only [hHeld, Rtn.settled, Set.mem_ofPred_eq,
        hRemoved.live, Set.mem_sdiff, Set.mem_singleton_iff,
        not_and, not_not]
      constructor
      · rintro ⟨⟨hNe, hLive⟩, hOut⟩
        exact ⟨hLive, fun hIn => hNe (hOut hIn)⟩
      · rintro ⟨hLive, hOut⟩
        refine ⟨⟨?_, hLive⟩, fun hIn => absurd hIn hOut⟩
        intro hEq
        exact hOut (hEq ▸ hPending)
    · intro r hIn
      apply hRemoved.kept r _ hIn.1
      intro hEq
      exact hIn.2 (hEq ▸ hPending)
  · rw [hHeld]
    exact hAgrees
  · apply hCoherent.holds.update_of_imp
    intro r hHolds
    exact absurd hHolds id
  · apply hCoherent.claims.update_of_imp
    intro k hClaim
    exact absurd hClaim id
  · rw [Function.forall_update_iff]
    refine ⟨trivial, ?_⟩
    intro b hNe
    apply hCoherent.remembers_kept
    intro r hHolds
    apply hRemoved.kept r _ (hCoherent.live hHolds)
    intro hEq
    exact hNe (hCoherent.holds b a r hHolds
      ((hOne r).mpr hEq))
  · apply hCoherent.fresh_of_imp
    intro k hClaim
    exact absurd hClaim id

/- Every guarded step of an agent keeps the server coherent. -/
theorem agentStep
    {op : Nat × AgentOp}
    (hCoherent : Coherent h s)
    (hStep : GuardedAgentStep h s op t) :
    Coherent h t := by
  rcases hStep with ⟨hGuard, hStep⟩
  cases hStep with
  | idExists _ _ _ => exact hCoherent
  | idFree hIdle hCall =>
      exact hCoherent.idFree hGuard.1 hIdle hCall
        (hGuard.2 hCall)
  | @insertFails a record exts r hState hCall hCode =>
      have hRemembers := hCoherent.remembers a
      rw [hState] at hRemembers
      have hOutcome := hCoherent.agrees.file.insert_of_call
        hRemembers.1 (hGuard.2 record hState) hGuard.1 hCall
      cases hOutcome with
      | added _ => exact absurd rfl hCode
      | refused _ hSame =>
          exact hCoherent.insertFails hState hSame
  | @insert a record exts f data rid hState hCall =>
      have hRemembers := hCoherent.remembers a
      rw [hState] at hRemembers
      have hOutcome := hCoherent.agrees.file.insert_of_call
        hRemembers.1 (hGuard.2 record hState) hGuard.1 hCall
      cases hOutcome with
      | added hAdded => exact hCoherent.inserted hState hAdded
  | createIndexFails hState hCall hCode =>
      rcases hCoherent.createIndex hState with ⟨_, hResult, _⟩
      rw [hResult] at hCall
      simp only [Except.ok.injEq, Prod.mk.injEq] at hCall
      exact absurd hCall.1.symm hCode
  | createIndex hState hCall =>
      rcases hCoherent.createIndex hState with
        ⟨mgr, hResult, hNext⟩
      rw [hResult] at hCall
      simp only [Except.ok.injEq, Prod.mk.injEq,
        true_and] at hCall
      exact hCall ▸ hNext
  | removeIndexFails hIdle hCall =>
      rcases hCoherent.removeIndex_cases hGuard hIdle with
        ⟨_, _, hResult, _⟩ | hResult
      · rw [hResult] at hCall
        simp at hCall
      · rw [hResult] at hCall
        simp only [Except.ok.injEq, Prod.mk.injEq,
          true_and] at hCall
        exact hCall.2 ▸ hCoherent
  | removeIndex hIdle hCall =>
      rcases hCoherent.removeIndex_cases hGuard hIdle with
        ⟨rid, mgr, hResult, hNext⟩ | hResult
      · rw [hResult] at hCall
        simp only [Except.ok.injEq, Prod.mk.injEq,
          Option.some.injEq] at hCall
        rcases hCall with ⟨_, hRid, hMgr⟩
        exact hRid ▸ hMgr ▸ hNext
      · rw [hResult] at hCall
        simp at hCall
  | remove hState hCall =>
      rcases hCoherent.remove hState with ⟨f, hResult, hNext⟩
      rw [hResult, Prod.mk.injEq] at hCall
      exact hCall.2 ▸ hNext

/- When every operation has completed, nothing is held. -/
theorem held_of_idle
    (hIdle : ∀ a, s.agent a = .idle) :
    heldRecords s.agent = ∅ := by
  ext rid
  simp [heldRecords, hIdle, Holds]

/- When every operation has completed, keys are distinct. -/
theorem distinct_of_idle
    (hCoherent : Coherent h s)
    (hIdle : ∀ a, s.agent a = .idle) :
    DmsFile.DistinctKeys s.store.dmsFile.file
      s.store.dmsFile.body.length := by
  have hSettled : ∀ rid, rid ∈ DmsFile.liveIn
      s.store.dmsFile.file s.store.dmsFile.body.length →
        rid ∈ Rtn.settled s.store.dmsFile
          (heldRecords s.agent) := by
    intro rid hLive
    rw [held_of_idle hIdle, Rtn.Agrees.settled_empty]
    exact hLive
  refine ⟨?_, ?_⟩
  · intro rid hLive
    exact hCoherent.agrees.keyed rid hLive
  · intro rid hLive rid' hLive' k hKey hKey'
    exact hCoherent.distinct rid rid' k
      ⟨hSettled rid hLive, hKey⟩ ⟨hSettled rid' hLive', hKey'⟩

end Coherent

------------------------------------------------------------
-- Unique Ids
------------------------------------------------------------

/- No two live slots hold records with the same `_id`. -/
def UniqueIds (f : DmsFile) : Prop :=
  ∀ rid rid' page page' k,
    LiveSlot f rid page → LiveSlot f rid' page' →
    idKey (Page.object f.file page rid.slotID) = some k →
    idKey (Page.object f.file page' rid'.slotID) = some k →
    rid = rid'

theorem uniqueIds_of_distinct
    {f : DmsFile}
    (hGood : f.Good)
    (hDistinct : DmsFile.DistinctKeys f.file f.body.length) :
    UniqueIds f := by
  have hHas : ∀ rid k, f.Live rid →
      idKey (Page.object f.file
        (DmsFile.pageAddress rid.pageID) rid.slotID) =
          some k →
      f.HasKey rid k := by
    intro rid k hLive hKey
    rcases hDistinct.keyed rid hLive with ⟨l, off, hId⟩
    have hSame : some l = some k :=
      hId.idKey_eq.symm.trans hKey
    simp only [Option.some.injEq] at hSame
    exact ⟨off, hSame ▸ hId⟩
  intro rid rid' page page' k hSlot hSlot' hKey hKey'
  rcases (liveSlot_iff hGood).mp hSlot with ⟨rfl, hLive⟩
  rcases (liveSlot_iff hGood).mp hSlot' with ⟨rfl, hLive'⟩
  exact hDistinct.distinct rid hLive rid' hLive' k
    (hHas rid k hLive hKey) (hHas rid' k hLive' hKey')

/- A server that no agent has used yet. -/
def startServer (store : Rtn) : Server where
  store := store
  agent := fun _ => .idle
  log := []

theorem coherent_created
    (h : List UInt8 → Nat)
    (file : Memory) :
    Coherent h (startServer (Rtn.created file)) := by
  have hHeld : heldRecords
      (startServer (Rtn.created file)).agent = ∅ :=
    Coherent.held_of_idle (fun _ => rfl)
  have hNone : ∀ rid k, ¬ SettledKey
      (startServer (Rtn.created file)) rid k := by
    rintro rid k ⟨hIn, _⟩
    exact DmsFile.created_not_live file rid hIn.1
  refine ⟨?_, ?_, ?_, ?_, ?_, ?_, ?_, trivial⟩
  · rw [hHeld]
    exact Rtn.agrees_created h file
  · intro a b rid hHolds
    exact absurd hHolds id
  · intro a b k hClaim
    exact absurd hClaim id
  · intro a
    trivial
  · intro a k hClaim
    exact absurd hClaim id
  · intro rid rid' k hKey
    exact absurd hKey (hNone rid k)
  · intro k
    constructor
    · intro hPresent
      exact absurd hPresent id
    · rintro ⟨rid, hKey⟩
      exact absurd hKey (hNone rid k)

/-
  In every guarded run of the agents from a new store: when
  every started operation has completed, ids are unique and
  the next start accepts them; between two entries of a key
  into the index it is removed; and a removal that has taken
  out its key succeeds.
-/
theorem agents_uniqueIds
    (h : List UInt8 → Nat)
    (file : Memory)
    {store : Rtn}
    {t : Server}
    {as : List (Nat × AgentOp)}
    (hInit : Rtn.init h .success (fun _ => none) file 0 =
      .ok (edbOk, store))
    (hRun : Steps (GuardedAgentStep h) (startServer store)
      as t) :
    ((∀ a, t.agent a = .idle) →
      UniqueIds t.store.dmsFile ∧
      DmsFile.DistinctKeys t.store.dmsFile.file
        t.store.dmsFile.body.length ∧
      (t.store.dmsFile.body.length ≤ 16 →
        ∀ creation, ∃ u, Rtn.init h creation
          (fun _ => none) t.store.dmsFile.file
            t.store.dmsFile.fileSize = .ok (edbOk, u))) ∧
    (∀ k newer between older,
      t.log = newer ++ .inserted (some k) ::
        (between ++ .inserted (some k) :: older) →
      AgentEvent.removed (some k) ∈ between) ∧
    ∀ a rid, t.agent a = .unindexed rid →
      ∃ f, t.store.dmsFile.remove rid = (edbOk, f) := by
  rw [Rtn.init_created] at hInit
  simp only [Except.ok.injEq, Prod.mk.injEq, true_and]
    at hInit
  subst hInit
  have hKept : ∀ s op t, Coherent h s →
      GuardedAgentStep h s op t → Coherent h t :=
    fun _ _ _ hCoherent hStep => hCoherent.agentStep hStep
  have hCoherent := hRun.invariant hKept
    (coherent_created h file)
  refine ⟨?_, ?_, ?_⟩
  · intro hIdle
    have hGood := hCoherent.agrees.file
    have hDistinct := hCoherent.distinct_of_idle hIdle
    refine ⟨uniqueIds_of_distinct hGood hDistinct, hDistinct,
      ?_⟩
    intro hFew creation
    rcases hGood.init_ok (h := h) hFew hDistinct creation with
      ⟨f, mgr, hOpen⟩
    refine ⟨⟨f, mgr⟩, ?_⟩
    simp only [Rtn.init, hOpen, bind, Except.bind, pure,
      Except.pure]
  · intro k newer between older hLog
    have hSound := hCoherent.sound
    rw [hLog] at hSound
    exact hSound.removed_between
  · intro a rid hState
    rcases hCoherent.remove hState with ⟨f, hResult, _⟩
    exact ⟨f, hResult⟩

------------------------------------------------------------
-- Two Agents with One Key
------------------------------------------------------------

/- The document that both agents insert. -/
def sharedDocument : BSONObj :=
  textDocument 1 22

theorem sharedDocument_wellFormed :
    sharedDocument.WellFormed :=
  textDocument_wellFormed (by decide) (by decide) (by decide)

/- A store, and the address and id of a record in it. -/
abbrev Written := Rtn × Nat × DmsRecordID

/- The store after a document is written. -/
def written
    (record : BSONObj)
    (s : Rtn) : Written :=
  match s.dmsFile.insert [.success] record with
  | .ok ⟨_, f, some w⟩ => (⟨f, s.ixmBucketMgr⟩, w)
  | _ => (s, 0, ⟨0, 0⟩)

/- The store after a written record is indexed. -/
def indexed (s : Rtn) (w : Written) : Rtn :=
  match createIndex hashFunc s.ixmBucketMgr
      ⟨s.dmsFile.file, w.2.1⟩ w.2.2 with
  | .ok (_, mgr) => ⟨s.dmsFile, mgr⟩
  | _ => s

/- The step that writes the document returns normally. -/
def writes
    (record : BSONObj)
    (s : Rtn) : Bool :=
  match s.dmsFile.insert [.success] record with
  | .ok ⟨rc, _, some _⟩ => rc == edbOk
  | _ => false

def indexes (s : Rtn) (w : Written) : Bool :=
  match createIndex hashFunc s.ixmBucketMgr
      ⟨s.dmsFile.file, w.2.1⟩ w.2.2 with
  | .ok (rc, _) => rc == edbOk
  | _ => false

theorem written_eq
    {record : BSONObj}
    {s : Rtn}
    (hWrites : writes record s = true) :
    s.dmsFile.insert [.success] record =
      .ok ⟨edbOk, (written record s).1.dmsFile,
        some ((written record s).2.1,
          (written record s).2.2)⟩ ∧
      (written record s).1.ixmBucketMgr = s.ixmBucketMgr := by
  unfold writes at hWrites
  unfold written
  split at hWrites
  · rename_i rc f w hResult
    simp only [hResult]
    have hCode : rc = edbOk := by
      simpa using hWrites
    rw [hCode]
    exact ⟨rfl, trivial⟩
  · simp at hWrites

theorem indexed_eq
    {s : Rtn}
    {w : Written}
    (hIndexes : indexes s w = true) :
    createIndex hashFunc s.ixmBucketMgr
        ⟨s.dmsFile.file, w.2.1⟩ w.2.2 =
      .ok (edbOk, (indexed s w).ixmBucketMgr) ∧
      (indexed s w).dmsFile = s.dmsFile := by
  unfold indexes at hIndexes
  unfold indexed
  split at hIndexes
  · rename_i rc mgr hResult
    simp only [hResult]
    have hCode : rc = edbOk := by
      simpa using hIndexes
    rw [hCode]
    exact ⟨rfl, trivial⟩
  · simp at hIndexes

/- The server after each step of an inserting agent. -/
def Server.checks
    (s : Server)
    (a : Nat)
    (record : BSONObj) : Server :=
  { s with
    agent := Function.update s.agent a (.checked record) }

def Server.writes
    (s : Server)
    (a : Nat)
    (record : BSONObj) : Server :=
  { s with
    store := (written record s.store).1
    agent := Function.update s.agent a
      (.written record (written record s.store).2.1
        (written record s.store).2.2) }

def Server.indexes
    (s : Server)
    (a : Nat)
    (record : BSONObj)
    (w : Written) : Server where
  store := indexed s.store w
  agent := Function.update s.agent a .idle
  log := .inserted (idKey record) :: s.log

section InsertingAgent

variable {s : Server} {a : Nat} {record : BSONObj}

theorem checks_step
    (hIdle : s.agent a = .idle)
    (hCall : isIDExist hashFunc s.store.dmsFile.file
      s.store.ixmBucketMgr record = .ok edbOk) :
    AgentStep hashFunc s (a, .isIDExist record)
      (s.checks a record) :=
  .idFree hIdle hCall

theorem writes_step
    (hState : s.agent a = .checked record)
    (hWrites : writes record s.store = true) :
    AgentStep hashFunc s (a, .insert [.success])
      (s.writes a record) := by
  rcases written_eq hWrites with ⟨hCall, hSame⟩
  have hStep := AgentStep.insert (h := hashFunc) hState hCall
  rw [← hSame] at hStep
  exact hStep

theorem indexes_step
    {w : Written}
    (hState : s.agent a = .written record w.2.1 w.2.2)
    (hIndexes : indexes s.store w = true) :
    AgentStep hashFunc s (a, .createIndex)
      (s.indexes a record w) := by
  rcases indexed_eq hIndexes with ⟨hCall, hSame⟩
  have hStep := AgentStep.createIndex hState hCall
  rw [← hSame] at hStep
  exact hStep

/- The guard of the step that writes the document. -/
theorem writes_guard
    (hState : s.agent a = .checked record)
    (hPlace : s.store.dmsFile.Placeable record) :
    AgentGuard hashFunc s (a, .insert [.success]) := by
  refine ⟨by simp [DmsFile.Extension.Clean], ?_⟩
  intro record' hOther
  rw [hState, AgentState.checked.injEq] at hOther
  exact hOther ▸ hPlace

end InsertingAgent

/- The record that the first agent writes. -/
def firstWritten : Written :=
  written sharedDocument emptyStore

/- The record that the second agent then writes. -/
def secondWritten : Written :=
  written sharedDocument firstWritten.1

/- One agent has inserted the document. -/
def singleServer : Server :=
  (((startServer emptyStore).checks 0 sharedDocument).writes 0
    sharedDocument).indexes 0 sharedDocument firstWritten

/- Two agents have written the document. -/
def writtenServer : Server :=
  ((((startServer emptyStore).checks 0 sharedDocument).checks
    1 sharedDocument).writes 0 sharedDocument).writes 1
      sharedDocument

/- Both agents have indexed their records. -/
def doubleServer : Server :=
  (writtenServer.indexes 0 sharedDocument firstWritten
    ).indexes 1 sharedDocument secondWritten

theorem emptyStore_free :
    isIDExist hashFunc emptyStore.dmsFile.file
      emptyStore.ixmBucketMgr sharedDocument = .ok edbOk := by
  decide +kernel

/- One agent alone. -/
def singleOps : List (Nat × AgentOp) :=
  [(0, .isIDExist sharedDocument), (0, .insert [.success]),
    (0, .createIndex)]

/- Two agents step by step in turn. -/
def doubleOps : List (Nat × AgentOp) :=
  [(0, .isIDExist sharedDocument),
    (1, .isIDExist sharedDocument),
    (0, .insert [.success]), (1, .insert [.success]),
    (0, .createIndex), (1, .createIndex)]

theorem steps_singleOps :
    Steps (GuardedAgentStep hashFunc) (startServer emptyStore)
      singleOps singleServer := by
  have hPlace : emptyStore.dmsFile.Placeable
      sharedDocument :=
    emptyStore_placeable (textDocument_small 1)
  exact .cons ⟨⟨sharedDocument_wellFormed,
      fun _ _ _ _ _ => id⟩, checks_step rfl emptyStore_free⟩
    (.cons ⟨writes_guard rfl hPlace,
        writes_step rfl (by decide +kernel)⟩
      (.cons ⟨trivial, indexes_step rfl (by decide +kernel)⟩
        (.nil _)))

/- The index after the document is taken out of it. -/
def unindexedManager : IxmBucketManager :=
  match removeIndex hashFunc singleServer.store.dmsFile.file
      singleServer.store.ixmBucketMgr sharedDocument with
  | .ok (_, _, mgr) => mgr
  | _ => singleServer.store.ixmBucketMgr

/- An agent has taken the document out of the index. -/
def unindexedServer : Server where
  store := ⟨singleServer.store.dmsFile, unindexedManager⟩
  agent := Function.update singleServer.agent 1
    (.unindexed ⟨0, 0⟩)
  log := .removed (idKey sharedDocument) :: singleServer.log

theorem singleServer_removeIndex :
    removeIndex hashFunc singleServer.store.dmsFile.file
      singleServer.store.ixmBucketMgr sharedDocument =
        .ok (edbOk, some ⟨0, 0⟩, unindexedManager) := by
  have hAnswer : (removeIndex hashFunc
      singleServer.store.dmsFile.file
      singleServer.store.ixmBucketMgr sharedDocument).map
        (fun r => (r.1, r.2.1)) =
          .ok (edbOk, some ⟨0, 0⟩) := by
    decide +kernel
  unfold unindexedManager
  cases hResult : removeIndex hashFunc
      singleServer.store.dmsFile.file
      singleServer.store.ixmBucketMgr sharedDocument with
  | error e =>
      rw [hResult] at hAnswer
      simp [Except.map] at hAnswer
  | ok r =>
      rw [hResult] at hAnswer
      simp only [Except.map, Except.ok.injEq,
        Prod.mk.injEq] at hAnswer
      rcases r with ⟨rc, rid, mgr⟩
      rw [show rc = edbOk from hAnswer.1,
        show rid = some ⟨0, 0⟩ from hAnswer.2]

/- The server after an agent has removed its record. -/
def Server.removes
    (s : Server)
    (a : Nat)
    (rid : DmsRecordID) : Server :=
  { s with
    store :=
      ⟨(s.store.dmsFile.remove rid).2, s.store.ixmBucketMgr⟩
    agent := Function.update s.agent a .idle }

/-
  The first agent inserts the document again while the second
  one removes its old record.
-/
def replacingServer : Server :=
  ((unindexedServer.checks 0 sharedDocument).writes 0
    sharedDocument).removes 1 ⟨0, 0⟩

def replacedServer : Server :=
  replacingServer.indexes 0 sharedDocument
    (written sharedDocument unindexedServer.store)

def replacingOps : List (Nat × AgentOp) :=
  [(1, .removeIndex sharedDocument),
    (0, .isIDExist sharedDocument),
    (0, .insert [.success]), (1, .remove),
    (0, .createIndex)]

theorem steps_replacingOps :
    Steps (GuardedAgentStep hashFunc) (startServer emptyStore)
      (singleOps ++ replacingOps) replacedServer := by
  have hFree : isIDExist hashFunc
      unindexedServer.store.dmsFile.file
      unindexedServer.store.ixmBucketMgr sharedDocument =
        .ok edbOk := by
    decide +kernel
  have hPlace : unindexedServer.store.dmsFile.Placeable
      sharedDocument :=
    DmsFile.placeable_of_room (textDocument_small 1)
      (by decide +kernel : _ = some dmsFileHeaderSize)
      (by decide +kernel) (by decide +kernel)
  have hUnclaimed : ∀ b k, b ≠ 0 →
      ¬ Claims (unindexedServer.agent b) k := by
    intro b k hNe
    by_cases hSecond : b = 1
    · rw [hSecond]
      exact id
    · simp only [unindexedServer, singleServer,
        Server.indexes, Server.writes, Server.checks,
        startServer, Function.update_of_ne hSecond,
        Function.update_of_ne hNe]
      exact id
  exact steps_singleOps.append
    (.cons ⟨sharedDocument_wellFormed,
        .removeIndex rfl singleServer_removeIndex⟩
      (.cons ⟨⟨sharedDocument_wellFormed,
          fun _ b k hNe _ => hUnclaimed b k hNe⟩,
          checks_step rfl hFree⟩
        (.cons ⟨writes_guard rfl hPlace,
            writes_step rfl (by decide +kernel)⟩
          (.cons ⟨trivial, .remove rfl rfl⟩
            (.cons ⟨trivial,
              indexes_step rfl (by decide +kernel)⟩
              (.nil _))))))

theorem replacedServer_idle
    (a : Nat) :
    replacedServer.agent a = .idle := by
  by_cases hFirst : a = 0
  · rw [hFirst]
    rfl
  by_cases hSecond : a = 1
  · rw [hSecond]
    rfl
  simp only [replacedServer, replacingServer, unindexedServer,
    singleServer, Server.indexes, Server.removes,
    Server.writes, Server.checks, startServer,
    Function.update_of_ne hSecond,
    Function.update_of_ne hFirst]

/-
  The log has the key twice, with its removal in between, and
  a restart finds one record.
-/
theorem agents_uniqueIds_replaced :
    UniqueIds replacedServer.store.dmsFile ∧
      (∃ u, Rtn.init hashFunc .success (fun _ => none)
        replacedServer.store.dmsFile.file
          replacedServer.store.dmsFile.fileSize =
            .ok (edbOk, u)) ∧
      AgentEvent.removed (some (intKey 1)) ∈
        [AgentEvent.removed (idKey sharedDocument)] := by
  have hKey : idKey sharedDocument = some (intKey 1) :=
    idKey_textDocument (by decide) (by decide) (by decide)
  have hAll := agents_uniqueIds hashFunc (fun _ => 0)
    (Rtn.init_created hashFunc (fun _ => 0))
    steps_replacingOps
  have hDone := hAll.1 replacedServer_idle
  refine ⟨hDone.1, hDone.2.2 (by decide +kernel) _,
    hAll.2.1 (intKey 1) [] _ [] ?_⟩
  rw [← hKey]
  rfl

/- The two copies of the document in the final store. -/
theorem doubleServer_twins :
    LiveSlot doubleServer.store.dmsFile ⟨0, 0⟩ 65536 ∧
      LiveSlot doubleServer.store.dmsFile ⟨0, 1⟩ 65536 ∧
      idKey (Page.object doubleServer.store.dmsFile.file
        65536 0) = some (intKey 1) ∧
      idKey (Page.object doubleServer.store.dmsFile.file
        65536 1) = some (intKey 1) := by
  refine ⟨⟨?_, ?_⟩, ⟨?_, ?_⟩, ?_, ?_⟩
  · decide +kernel
  · decide +kernel
  · decide +kernel
  · decide +kernel
  · decide +kernel
  · decide +kernel

theorem steps_doubleOps :
    Steps (AgentStep hashFunc) (startServer emptyStore)
      doubleOps doubleServer :=
  .cons (checks_step rfl emptyStore_free)
    (.cons (checks_step rfl emptyStore_free)
      (.cons (writes_step rfl (by decide +kernel))
        (.cons (writes_step rfl (by decide +kernel))
          (.cons (indexes_step rfl (by decide +kernel))
            (.cons (indexes_step rfl (by decide +kernel))
              (.nil _))))))

theorem doubleServer_idle
    (a : Nat) :
    doubleServer.agent a = .idle := by
  by_cases hSecond : a = 1
  · rw [hSecond]
    rfl
  by_cases hFirst : a = 0
  · rw [hFirst]
    rfl
  simp only [doubleServer, writtenServer, Server.indexes,
    Server.writes, Server.checks, startServer,
    Function.update_of_ne hSecond,
    Function.update_of_ne hFirst]

/-
  Not every run whose operations have all completed ends with
  unique ids.
-/
theorem agents_not_uniqueIds :
    ¬ ∀ as t,
      Steps (AgentStep hashFunc) (startServer emptyStore)
        as t →
      (∀ a, t.agent a = .idle) →
      UniqueIds t.store.dmsFile := by
  intro hClaim
  have hUnique := hClaim _ _ steps_doubleOps doubleServer_idle
  rcases doubleServer_twins with
    ⟨hSlot, hSlot', hKey, hKey'⟩
  have hSame := hUnique ⟨0, 0⟩ ⟨0, 1⟩ _ _ _ hSlot hSlot'
    hKey hKey'
  simp at hSame

end EmeraldDb
