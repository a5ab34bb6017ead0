import EmeraldDb.Bson.Document
import EmeraldDb.Lib.KeyedQueue
import EmeraldDb.Lib.Transition

/-
  The index is a queue of record ids for every key.

  A key is the type byte and the value bytes of an `_id`.
  Whatever the hash function, creating an index entry appends
  the record id to the queue of the key, a search returns the
  oldest id of the key and a removal deletes it.  The bytes
  of the mapped file may change as long as the elements that
  the entries point to keep theirs.

  Key definitions include:
    * `IxmBucketManager.queue`
    * `FifoCall`
    * `FifoStep`
    * `IndexStep`

  Key results include:
    * `IxmBucketManager.queue_createIndex`
    * `IxmBucketManager.queue_removeIndex`
    * `IndexStep.refines`
    * `index_keyedFifo`
-/

namespace EmeraldDb

open IxmBucketManager

------------------------------------------------------------
-- The Keyed Queue
------------------------------------------------------------

abbrev IdQueues :=
  KeyedQueue BSONElement.Key DmsRecordID

/-
  A call on records with these keys, if they have one, or a
  change to the file.
-/
inductive FifoCall
| createIndex
    (k : Option BSONElement.Key)
    (rid : DmsRecordID)
| findIndex (k : Option BSONElement.Key)
| removeIndex (k : Option BSONElement.Key)
| isIDExist (k : Option BSONElement.Key)
| write

/- The code of a call and the record id it returns. -/
abbrev FifoReply :=
  Int × Option DmsRecordID

/- The oldest record id of a key. -/
def oldest (ids : List DmsRecordID) : FifoReply :=
  match ids.head? with
  | some rid => (edbOk, some rid)
  | none => (edbInvalidArg, none)

def fifoReply
    (Q : IdQueues) :
    FifoCall → FifoReply
| .createIndex (some _) _ => (edbOk, none)
| .findIndex (some k) => oldest (Q k)
| .removeIndex (some k) => oldest (Q k)
| .isIDExist (some k) =>
    (if Q k = [] then edbOk else edbIxmIdExist, none)
| .write => (edbOk, none)
| _ => (edbInvalidArg, none)

def fifoNext
    (Q : IdQueues) :
    FifoCall → IdQueues
| .createIndex (some k) rid => Q.push k rid
| .removeIndex (some k) => Q.pop k
| _ => Q

inductive FifoStep :
    IdQueues → FifoCall × FifoReply → IdQueues → Prop
| call
    (Q : IdQueues)
    (c : FifoCall) :
    FifoStep Q (c, fifoReply Q c) (fifoNext Q c)

------------------------------------------------------------
-- The Queues of an Index
------------------------------------------------------------

namespace IxmBucketManager

variable {h : List UInt8 → Nat} {m m' : Memory}
variable {mgr mgr' : IxmBucketManager}
variable {o : BSONObj} {off : Nat} {k : BSONElement.Key}

/- Does an entry point to an element with this key? -/
def hasKey
    (m : Memory)
    (k : BSONElement.Key)
    (v : IxmEleHash) : Bool :=
  decide (entryKey m v = .ok k)

/- The record ids of a key, in the order of its range. -/
def queue
    (h : List UInt8 → Nat)
    (m : Memory)
    (mgr : IxmBucketManager) : IdQueues :=
  fun k => KeyedQueue.ofList (hasKey m) IxmEleHash.recordID
    (mgr.range (h k.2)) k

theorem queue_init :
    queue h m IxmBucketManager.init = KeyedQueue.empty := by
  funext k
  simp [queue, KeyedQueue.ofList, KeyedQueue.empty, range,
    IxmBucketManager.init, MultiMap.equalRange]

/- A lookup finds the oldest entry of the key. -/
theorem head_queue :
    (queue h m mgr k).head? =
      (lookup h m mgr k).map IxmEleHash.recordID :=
  KeyedQueue.head_ofList _ _ _ _

theorem queue_eq_nil_iff :
    queue h m mgr k = [] ↔ lookup h m mgr k = none := by
  rw [← List.head?_eq_none_iff, head_queue,
    Option.map_eq_none_iff]

/- A changed bucket is the range of its own hash numbers. -/
theorem range_setBucket
    (mgr : IxmBucketManager)
    (n l : Nat)
    (b : IxmBucket)
    (hSame : ∀ l', l' ≠ n →
      b.equalRange l' =
        (mgr.bucket (bucketIdx n)).equalRange l') :
    (mgr.setBucket n b).range l =
      if l = n then b.equalRange n else mgr.range l := by
  by_cases hBucket : bucketIdx l = bucketIdx n
  · have hSet : (mgr.setBucket n b).range l =
        b.equalRange l := by
      simp [range, setBucket, hBucket]
    rw [hSet]
    by_cases hEq : l = n
    · rw [if_pos hEq, hEq]
    · rw [if_neg hEq, hSame l hEq, range, hBucket]
  · have hNe : l ≠ n := fun hEq => hBucket (hEq ▸ rfl)
    rw [if_neg hNe]
    simp [range, setBucket, Function.update_of_ne hBucket]

/- The element of a record has the key of the record. -/
theorem hasKey_iff
    (hId : HasId o off k)
    (rid : DmsRecordID)
    (k' : BSONElement.Key) :
    hasKey o.mem k' ⟨o.objdata + off, rid⟩ = true ↔
      k' = k := by
  simp only [hasKey, entryKey, hId.key, Except.ok.injEq,
    decide_eq_true_eq]
  exact eq_comm

/- Indexing a record appends its id to the queue. -/
theorem queue_createIndex
    (hId : HasId o off k)
    {rid : DmsRecordID}
    {rc : Int}
    (hCall : createIndex h mgr o rid = .ok (rc, mgr')) :
    rc = edbOk ∧
      queue h o.mem mgr' = (queue h o.mem mgr).push k rid := by
  simp only [createIndex, hId.processData_eq, hashNum,
    hId.key, bind, Except.bind, pure, Except.pure,
    Except.ok.injEq, Prod.mk.injEq] at hCall
  refine ⟨hCall.1.symm, ?_⟩
  rw [← hCall.2]
  funext k'
  have hRange := range_setBucket mgr (h k.2) (h k'.2)
    ((mgr.bucket (bucketIdx (h k.2))).insert (h k.2)
      ⟨o.objdata + off, rid⟩)
    (fun l' hNe => MultiMap.equalRange_insert_of_ne _ _ hNe)
  rw [MultiMap.equalRange_insert_self] at hRange
  by_cases hKey : k' = k
  · subst hKey
    rw [KeyedQueue.push_self, queue, hRange, if_pos rfl,
      KeyedQueue.ofList_append
        ((hasKey_iff hId rid k').mpr rfl)]
    rfl
  · have hOther := Bool.eq_false_iff.mpr
      (mt (hasKey_iff hId rid k').mp hKey)
    rw [KeyedQueue.push_of_ne _ _ hKey, queue, hRange]
    by_cases hHash : h k'.2 = h k.2
    · rw [if_pos hHash, KeyedQueue.ofList_append_of_ne hOther,
        queue, hHash]
      rfl
    · rw [if_neg hHash]
      rfl

/- A removal deletes the oldest id of the queue. -/
theorem queue_removeIndex
    (hIndexed : Indexed h m mgr)
    (hId : HasId o off k)
    {rc : Int}
    {found : Option DmsRecordID}
    (hCall : removeIndex h m mgr o =
      .ok (rc, found, mgr')) :
    (rc, found) = oldest (queue h m mgr k) ∧
      queue h m mgr' = (queue h m mgr).pop k := by
  cases hFound : lookup h m mgr k with
  | none =>
      rw [hIndexed.removeIndex_of_none hId hFound] at hCall
      simp only [Except.ok.injEq, Prod.mk.injEq] at hCall
      rcases hCall with ⟨hCode, hNone, hSame⟩
      have hEmpty := queue_eq_nil_iff.mpr hFound
      refine ⟨?_, ?_⟩
      · rw [oldest, hEmpty, ← hCode, ← hNone]
        rfl
      · rw [← hSame]
        funext k'
        by_cases hKey : k' = k
        · rw [hKey, KeyedQueue.pop_self, hEmpty, List.tail_nil]
        · rw [KeyedQueue.pop_of_ne _ hKey]
  | some v =>
      simp only [removeIndex, hId.processData_eq, hashNum,
        hId.key, hIndexed.firstMatch_range hId, hFound, bind,
        Except.bind, pure, Except.pure, Except.ok.injEq,
        Prod.mk.injEq] at hCall
      rcases hCall with ⟨hCode, hRid, hNext⟩
      refine ⟨?_, ?_⟩
      · rw [oldest, head_queue, hFound, ← hCode, ← hRid]
        rfl
      · rw [← hNext]
        funext k'
        have hRange := range_setBucket mgr (h k.2) (h k'.2)
          ((mgr.bucket (bucketIdx (h k.2))).eraseFirst
            (h k.2) (fun w => decide (w = v)))
          (fun l' hNe =>
            MultiMap.equalRange_eraseFirst_of_ne _ _ hNe)
        rw [MultiMap.equalRange_eraseFirst_self] at hRange
        by_cases hKey : k' = k
        · subst hKey
          rw [KeyedQueue.pop_self, queue, hRange, if_pos rfl]
          exact KeyedQueue.ofList_eraseFirst hFound
        · have hOther : hasKey m k' v = false := by
            have hOwn := (lookup_some hFound).2
            simp only [hasKey, hOwn, Except.ok.injEq,
              decide_eq_false_iff_not]
            exact Ne.symm hKey
          rw [KeyedQueue.pop_of_ne _ hKey, queue, hRange]
          by_cases hHash : h k'.2 = h k.2
          · rw [if_pos hHash,
              KeyedQueue.ofList_eraseFirst_of_ne hOther,
              queue, hHash]
            rfl
          · rw [if_neg hHash]
            rfl

theorem Indexed.removeIndex_kept
    (hIndexed : Indexed h m mgr)
    (hId : HasId o off k)
    {rc : Int}
    {found : Option DmsRecordID}
    (hCall : removeIndex h m mgr o =
      .ok (rc, found, mgr')) :
    Indexed h m mgr' := by
  cases hFound : lookup h m mgr k with
  | none =>
      rw [hIndexed.removeIndex_of_none hId hFound,
        Except.ok.injEq, Prod.mk.injEq, Prod.mk.injEq]
        at hCall
      exact hCall.2.2 ▸ hIndexed
  | some v =>
      rcases hIndexed.removeIndex_of_some hId hFound with
        ⟨mgr'', hResult, _, hNext⟩
      rw [hResult, Except.ok.injEq, Prod.mk.injEq,
        Prod.mk.injEq] at hCall
      exact hCall.2.2 ▸ hNext

/- The elements of the entries keep their bytes. -/
def KeepsElements
    (m m' : Memory)
    (mgr : IxmBucketManager) : Prop :=
  ∀ v ∈ mgr.entries, ∀ s n x,
    BSONElement.IsElement ⟨m, v.data⟩ s n x →
      Memory.Same m v.data m' v.data s

theorem queue_frame
    (hIndexed : Indexed h m mgr)
    (hSame : KeepsElements m m' mgr) :
    queue h m' mgr = queue h m mgr := by
  funext k
  unfold queue KeyedQueue.ofList
  apply congrArg (List.map IxmEleHash.recordID)
  apply List.filter_congr
  intro v hv
  have hMember := mem_entries_of_range hv
  rcases hIndexed.entry hMember with
    ⟨s, n, x, k', hElem, _, _⟩
  unfold hasKey entryKey
  rw [hElem.key_congr ⟨m', v.data⟩
    (hSame v hMember s n x hElem)]

end IxmBucketManager

/-
  A record has no key exactly if its `_id` is missing or of
  a type that is not indexed.
-/
theorem idKey_eq_none_iff
    {o : BSONObj}
    (hForm : o.WellFormed) :
    idKey o = none ↔
      ∀ off, o.fieldOffset ixmKeyFieldName = .ok (some off) →
        ¬ IdType (o.mem (o.objdata + off)) := by
  rcases hForm.hasId_or_none with ⟨off, k, hId⟩ | hNone
  · constructor
    · intro hKey
      rw [hId.idKey_eq] at hKey
      cases hKey
    · intro hAbsent
      exact absurd hId.idType (hAbsent off hId.field)
  · refine ⟨?_, fun _ => hNone.2⟩
    intro _ off hField hType
    have hData := hNone.1
    simp only [processData, BSONObj.getField, hField, bind,
      Except.bind, pure, Except.pure, Option.map_some] at hData
    rw [if_neg] at hData
    · simp at hData
    · intro hNeither
      rcases hType with hInt | hString
      · exact hNeither.1 hInt
      · exact hNeither.2 hString

------------------------------------------------------------
-- Runs
------------------------------------------------------------

/-
  Calls on well-formed records, each labelled with the key of
  its record and its reply.  The record of a new entry is in
  the mapped file; the others may be anywhere.
-/
inductive IndexStep
    (h : List UInt8 → Nat) :
    Memory × IxmBucketManager → FifoCall × FifoReply →
      Memory × IxmBucketManager → Prop
| createIndex
    {m : Memory}
    {mgr mgr' : IxmBucketManager}
    {a : Nat}
    {rid : DmsRecordID}
    {rc : Int}
    (hForm : BSONObj.WellFormed ⟨m, a⟩)
    (hCall : IxmBucketManager.createIndex h mgr ⟨m, a⟩ rid =
      .ok (rc, mgr')) :
    IndexStep h (m, mgr)
      (.createIndex (idKey ⟨m, a⟩) rid, (rc, none))
      (m, mgr')
| findIndex
    {m : Memory}
    {mgr : IxmBucketManager}
    {o : BSONObj}
    {rc : Int}
    {found : Option DmsRecordID}
    (hForm : o.WellFormed)
    (hCall : IxmBucketManager.findIndex h m mgr o =
      .ok (rc, found)) :
    IndexStep h (m, mgr) (.findIndex (idKey o), (rc, found))
      (m, mgr)
| removeIndex
    {m : Memory}
    {mgr mgr' : IxmBucketManager}
    {o : BSONObj}
    {rc : Int}
    {found : Option DmsRecordID}
    (hForm : o.WellFormed)
    (hCall : IxmBucketManager.removeIndex h m mgr o =
      .ok (rc, found, mgr')) :
    IndexStep h (m, mgr) (.removeIndex (idKey o), (rc, found))
      (m, mgr')
| isIDExist
    {m : Memory}
    {mgr : IxmBucketManager}
    {o : BSONObj}
    {rc : Int}
    (hForm : o.WellFormed)
    (hCall : IxmBucketManager.isIDExist h m mgr o = .ok rc) :
    IndexStep h (m, mgr) (.isIDExist (idKey o), (rc, none))
      (m, mgr)
| write
    {m m' : Memory}
    {mgr : IxmBucketManager}
    (hSame : KeepsElements m m' mgr) :
    IndexStep h (m, mgr) (.write, (edbOk, none)) (m', mgr)

/- Every call is the call on the queues of the index. -/
theorem IndexStep.refines
    {h : List UInt8 → Nat}
    {st st' : Memory × IxmBucketManager}
    {l : FifoCall × FifoReply}
    (hStep : IndexStep h st l st')
    (hIndexed : Indexed h st.1 st.2) :
    Indexed h st'.1 st'.2 ∧
      FifoStep (queue h st.1 st.2) l
        (queue h st'.1 st'.2) := by
  cases hStep with
  | @createIndex m mgr mgr' a rid rc hForm hCall =>
      rcases hForm.hasId_or_none with
        ⟨off, k, hId⟩ | ⟨hNone, hKey⟩
      · rcases queue_createIndex hId hCall with
          ⟨hCode, hNext⟩
        rcases @createIndex_eq h mgr _ _ _ hId rid
          with ⟨mgr'', hResult, _, hKept⟩
        rw [hResult, Except.ok.injEq, Prod.mk.injEq] at hCall
        refine ⟨hCall.2 ▸ hKept hIndexed, ?_⟩
        rw [hId.idKey_eq, hCode, hNext]
        exact .call _ (.createIndex (some k) rid)
      · simp only [IxmBucketManager.createIndex, hNone, bind,
          Except.bind, pure, Except.pure, Except.ok.injEq,
          Prod.mk.injEq] at hCall
        rw [hKey, ← hCall.1, ← hCall.2]
        exact ⟨hIndexed, .call _ (.createIndex none rid)⟩
  | @findIndex m mgr o rc found hForm hCall =>
      refine ⟨hIndexed, ?_⟩
      rcases hForm.hasId_or_none with
        ⟨off, k, hId⟩ | ⟨hNone, hKey⟩
      · have hReply : (rc, found) =
            oldest (queue h m mgr k) := by
          rw [hIndexed.findIndex_eq hId, Except.ok.injEq]
            at hCall
          rw [← hCall, oldest, head_queue]
          cases lookup h m mgr k with
          | none => rfl
          | some v => rfl
        rw [hId.idKey_eq, hReply]
        exact .call _ (.findIndex (some k))
      · rw [findIndex_of_none hNone, Except.ok.injEq] at hCall
        rw [hKey, ← hCall]
        exact .call _ (.findIndex none)
  | @removeIndex m mgr mgr' o rc found hForm hCall =>
      rcases hForm.hasId_or_none with
        ⟨off, k, hId⟩ | ⟨hNone, hKey⟩
      · rcases queue_removeIndex hIndexed hId hCall with
          ⟨hReply, hNext⟩
        refine ⟨hIndexed.removeIndex_kept hId hCall, ?_⟩
        rw [hId.idKey_eq, hReply, hNext]
        exact .call _ (.removeIndex (some k))
      · rw [removeIndex_of_none hNone, Except.ok.injEq,
          Prod.mk.injEq, Prod.mk.injEq] at hCall
        rw [hKey, ← hCall.1, ← hCall.2.1, ← hCall.2.2]
        exact ⟨hIndexed, .call _ (.removeIndex none)⟩
  | @isIDExist m mgr o rc hForm hCall =>
      refine ⟨hIndexed, ?_⟩
      rcases hForm.hasId_or_none with
        ⟨off, k, hId⟩ | ⟨hNone, hKey⟩
      · have hReply : rc =
            if queue h m mgr k = [] then edbOk
              else edbIxmIdExist := by
          rw [hIndexed.isIDExist_eq hId, Except.ok.injEq]
            at hCall
          rw [← hCall]
          simp only [queue_eq_nil_iff]
          cases lookup h m mgr k with
          | none => rfl
          | some v => rfl
        rw [hId.idKey_eq, hReply]
        exact .call _ (.isIDExist (some k))
      · rw [isIDExist_of_none hNone, Except.ok.injEq] at hCall
        rw [hKey, ← hCall]
        exact .call _ (.isIDExist none)
  | @write m m' mgr hSame =>
      refine ⟨hIndexed.frame hSame, ?_⟩
      simp only [queue_frame hIndexed hSame]
      exact .call _ .write

/- No call on a well-formed record fails to return. -/
theorem index_returns
    {h : List UInt8 → Nat}
    {m : Memory}
    {mgr : IxmBucketManager}
    (hIndexed : Indexed h m mgr)
    {o : BSONObj}
    (hForm : o.WellFormed) :
    (∃ r, isIDExist h m mgr o = .ok r) ∧
      (∃ r, findIndex h m mgr o = .ok r) ∧
      (∃ r, removeIndex h m mgr o = .ok r) ∧
      ∀ rid, ∃ r, createIndex h mgr o rid = .ok r := by
  rcases hForm.hasId_or_none with ⟨off, k, hId⟩ | ⟨hNone, _⟩
  · refine ⟨⟨_, hIndexed.isIDExist_eq hId⟩,
      ⟨_, hIndexed.findIndex_eq hId⟩, ?_, ?_⟩
    · cases hFound : lookup h m mgr k with
      | none =>
          exact ⟨_, hIndexed.removeIndex_of_none hId hFound⟩
      | some v =>
          rcases hIndexed.removeIndex_of_some hId hFound with
            ⟨mgr', hResult, _⟩
          exact ⟨_, hResult⟩
    · intro rid
      rcases @createIndex_eq h mgr _ _ _ hId rid
        with ⟨mgr', hResult, _⟩
      exact ⟨_, hResult⟩
  · refine ⟨⟨_, isIDExist_of_none hNone⟩,
      ⟨_, findIndex_of_none hNone⟩,
      ⟨_, removeIndex_of_none hNone⟩, ?_⟩
    intro rid
    refine ⟨(edbInvalidArg, mgr), ?_⟩
    simp only [createIndex, hNone, bind, Except.bind, pure,
      Except.pure]

/-
  Every run of the index from its start is, call by call and
  reply by reply, a run of the keyed queues, and in every
  state it reaches every call returns.
-/
theorem index_keyedFifo
    (h : List UInt8 → Nat)
    {m₀ m : Memory}
    {mgr : IxmBucketManager}
    {ls : List (FifoCall × FifoReply)}
    (hRun : Steps (IndexStep h) (m₀, IxmBucketManager.init)
      ls (m, mgr)) :
    Steps FifoStep KeyedQueue.empty ls (queue h m mgr) ∧
      ∀ o : BSONObj, o.WellFormed →
        (∃ r, isIDExist h m mgr o = .ok r) ∧
        (∃ r, findIndex h m mgr o = .ok r) ∧
        (∃ r, removeIndex h m mgr o = .ok r) ∧
        ∀ rid, ∃ r, createIndex h mgr o rid = .ok r := by
  have hMatched : ∀ st l st' Q,
      (Indexed h st.1 st.2 ∧ Q = queue h st.1 st.2) →
      IndexStep h st l st' →
      ∃ Q', FifoStep Q l Q' ∧
        Indexed h st'.1 st'.2 ∧ Q' = queue h st'.1 st'.2 := by
    rintro st l st' Q ⟨hIndexed, rfl⟩ hStep
    rcases hStep.refines hIndexed with ⟨hNext, hFifo⟩
    exact ⟨_, hFifo, hNext, rfl⟩
  rcases hRun.simulation hMatched
      ⟨indexed_init, queue_init.symm⟩ with
    ⟨Q, hFifo, hIndexed, hQueue⟩
  exact ⟨hQueue ▸ hFifo,
    fun o hForm => index_returns hIndexed hForm⟩

/- The manager behind a new entry for the document. -/
def withEntry
    (mgr : IxmBucketManager)
    (rid : DmsRecordID) : IxmBucketManager :=
  match createIndex hashFunc mgr (textDocument 1 22) rid with
  | .ok (_, mgr') => mgr'
  | .error _ => mgr

theorem createIndex_withEntry
    (mgr : IxmBucketManager)
    (rid : DmsRecordID) :
    createIndex hashFunc mgr (textDocument 1 22) rid =
      .ok (edbOk, withEntry mgr rid) := by
  have hId : HasId (textDocument 1 22) 4 (intKey 1) :=
    textDocument_hasId (by decide) (by decide) (by decide)
  rcases @createIndex_eq hashFunc mgr _ _ _ hId rid with
    ⟨mgr', hCall, _⟩
  unfold withEntry
  rw [hCall]

/-
  Two entries of one key: the first one is found and removed,
  and the key is there still.
-/
theorem index_keyedFifo_twoEntries :
    ∃ mgr : IxmBucketManager,
      Steps FifoStep KeyedQueue.empty
        [(.createIndex (idKey (textDocument 1 22)) ⟨0, 0⟩,
            (edbOk, none)),
          (.createIndex (idKey (textDocument 1 22)) ⟨0, 1⟩,
            (edbOk, none)),
          (.findIndex (idKey (textDocument 1 22)),
            (edbOk, some ⟨0, 0⟩)),
          (.removeIndex (idKey (textDocument 1 22)),
            (edbOk, some ⟨0, 0⟩)),
          (.isIDExist (idKey (textDocument 1 22)),
            (edbIxmIdExist, none))]
        (queue hashFunc (textDocument 1 22).mem mgr) ∧
      ∃ r, findIndex hashFunc (textDocument 1 22).mem mgr
        (textDocument 1 22) = .ok r := by
  have hForm : (textDocument 1 22).WellFormed :=
    textDocument_wellFormed (by decide) (by decide)
      (by decide)
  have hFind : findIndex hashFunc (textDocument 1 22).mem
      (withEntry (withEntry .init ⟨0, 0⟩) ⟨0, 1⟩)
      (textDocument 1 22) = .ok (edbOk, some ⟨0, 0⟩) := by
    rfl
  have hRemove : ∃ mgr, removeIndex hashFunc
      (textDocument 1 22).mem
      (withEntry (withEntry .init ⟨0, 0⟩) ⟨0, 1⟩)
      (textDocument 1 22) = .ok (edbOk, some ⟨0, 0⟩, mgr) ∧
      isIDExist hashFunc (textDocument 1 22).mem mgr
        (textDocument 1 22) = .ok edbIxmIdExist :=
    ⟨_, rfl, rfl⟩
  rcases hRemove with ⟨mgr, hCall, hExist⟩
  have hFifo := index_keyedFifo hashFunc
    (.cons (.createIndex hForm (createIndex_withEntry _ _))
      (.cons (.createIndex hForm (createIndex_withEntry _ _))
        (.cons (.findIndex hForm hFind)
          (.cons (.removeIndex hForm hCall)
            (.cons (.isIDExist hForm hExist) (.nil _))))))
  exact ⟨mgr, hFifo.1, (hFifo.2 _ hForm).2.1⟩

end EmeraldDb
