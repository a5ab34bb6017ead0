import EmeraldDb.Ixm.Bucket

/-
  What the index operations do to the list of all entries.

  `HasId o off k` says that the record `o` has an indexable
  `_id` with key `k` at displacement `off`.  `Indexed h m mgr`
  says that every entry of the index points to a complete
  element of the file `m` and sits in the bucket and under
  the hash number of that element's value.

  Key results include:
    * `HasId.congr`
    * `WellFormed.hasId_or_none`
    * `IxmBucketManager.Indexed.isIDExist_eq`
    * `IxmBucketManager.Indexed.findIndex_eq`
    * `IxmBucketManager.Indexed.removeIndex_of_some`
    * `IxmBucketManager.createIndex_eq`
-/

namespace EmeraldDb

open IxmBucketManager

------------------------------------------------------------
-- The Key of a Record
------------------------------------------------------------

/- An `_id` of this type byte may be indexed. -/
def IdType (b : UInt8) : Prop :=
  BSONType.ofByte b = some .numberInt ∨
    BSONType.ofByte b = some .string

instance (b : UInt8) : Decidable (IdType b) :=
  inferInstanceAs (Decidable (_ ∨ _))

/-
  The record's `_id` is the complete element at displacement
  `off`; it has key `k`.
-/
structure HasId
    (o : BSONObj)
    (off : Nat)
    (k : BSONElement.Key) : Prop where
  field : o.fieldOffset ixmKeyFieldName = .ok (some off)
  idType : IdType (o.mem (o.objdata + off))
  element : ∃ s n x,
    BSONElement.IsElement ⟨o.mem, o.objdata + off⟩ s n x ∧
      off + s < o.length
  key : BSONElement.key ⟨o.mem, o.objdata + off⟩ = .ok k

/- The key of a record, if it has an indexable `_id`. -/
def idKey (o : BSONObj) : Option BSONElement.Key :=
  match processData o with
  | .ok (some e) => e.key.toOption
  | _ => none

theorem ixmKeyFieldName_nonzero :
    ∀ c ∈ ixmKeyFieldName, c ≠ 0 := by
  simp [ixmKeyFieldName]

namespace HasId

variable {o : BSONObj} {off : Nat} {k : BSONElement.Key}

theorem processData_eq
    (hId : HasId o off k) :
    processData o =
      .ok (some ⟨o.mem, o.objdata + off⟩) := by
  have hType := hId.idType
  simp only [processData, BSONObj.getField, hId.field, bind,
    Except.bind, pure, Except.pure, Option.map_some]
  rw [if_neg]
  intro hNeither
  rcases hType with hInt | hString
  · exact hNeither.1 hInt
  · exact hNeither.2 hString

theorem idKey_eq
    (hId : HasId o off k) :
    idKey o = some k := by
  simp [idKey, hId.processData_eq, hId.key, Except.toOption]

/- A record has one key. -/
theorem unique
    (hId : HasId o off k)
    {off' : Nat}
    {k' : BSONElement.Key}
    (hId' : HasId o off' k') :
    k = k' := by
  simpa using hId.idKey_eq.symm.trans hId'.idKey_eq

/- A record copied byte by byte has the same key. -/
theorem congr
    (hId : HasId o off k)
    (hForm : o.WellFormed)
    (o' : BSONObj)
    (hSame : Memory.Same o.mem o.objdata o'.mem o'.objdata
      o.length) :
    HasId o' off k := by
  rcases hId.element with ⟨s, n, x, hElem, hFits⟩
  have hBlock : Memory.Same o.mem (o.objdata + off) o'.mem
      (o'.objdata + off) s :=
    hSame.slice (by omega)
  refine ⟨?_, ?_, ⟨s, n, x, ?_, ?_⟩, ?_⟩
  · rw [hForm.fieldOffset_congr o' hSame
      ixmKeyFieldName_nonzero]
    exact hId.field
  · rw [← hSame off (by omega)]
    exact hId.idType
  · exact hElem.congr _ hBlock
  · rw [hForm.length_congr o' hSame]
    exact hFits
  · rw [hElem.key_congr ⟨o'.mem, o'.objdata + off⟩
      hBlock]
    exact hId.key

end HasId

/- A well-formed record has a key or is refused. -/
theorem BSONObj.WellFormed.hasId_or_none
    {o : BSONObj}
    (hForm : o.WellFormed) :
    (∃ off k, HasId o off k) ∨
      processData o = .ok none ∧ idKey o = none := by
  rcases hForm.fieldOffset_eq ixmKeyFieldName with
    ⟨found, hFound, hSpec⟩
  cases found with
  | none =>
      right
      have hNone : processData o = .ok none := by
        simp [processData, BSONObj.getField, hFound, bind,
          Except.bind, pure, Except.pure]
      exact ⟨hNone, by simp [idKey, hNone]⟩
  | some off =>
      rcases hSpec off rfl with ⟨s, n, x, hElem, hFits⟩
      by_cases hType : IdType (o.mem (o.objdata + off))
      · left
        exact ⟨off, _, hFound, hType,
          ⟨s, n, x, hElem, by omega⟩, hElem.key_eq⟩
      · right
        have hNone : processData o = .ok none := by
          simp only [processData, BSONObj.getField, hFound,
            bind, Except.bind, pure, Except.pure,
            Option.map_some]
          rw [if_pos]
          unfold IdType at hType
          simpa [BSONElement.type] using hType
        exact ⟨hNone, by simp [idKey, hNone]⟩

------------------------------------------------------------
-- Placement of Entries
------------------------------------------------------------

namespace IxmBucketManager

variable {h : List UInt8 → Nat} {m m' : Memory}
variable {mgr : IxmBucketManager}

/- Key of the element that an entry points to. -/
def entryKey
    (m : Memory)
    (v : IxmEleHash) : Except Fault BSONElement.Key :=
  BSONElement.key ⟨m, v.data⟩

/-
  An entry under hash number `n` in bucket `i` points to a
  complete element whose value has that hash number.
-/
def Placed
    (h : List UInt8 → Nat)
    (m : Memory)
    (i : Fin ixmHashMapSize)
    (e : Nat × IxmEleHash) : Prop :=
  ∃ s n x k,
    BSONElement.IsElement ⟨m, e.2.data⟩ s n x ∧
      entryKey m e.2 = .ok k ∧
      e.1 = h k.2 ∧ i = bucketIdx e.1

def Indexed
    (h : List UInt8 → Nat)
    (m : Memory)
    (mgr : IxmBucketManager) : Prop :=
  ∀ i, ∀ e ∈ (mgr.bucket i).entries, Placed h m i e

theorem mem_entries
    {v : IxmEleHash} :
    v ∈ mgr.entries ↔
      ∃ i n, (n, v) ∈ (mgr.bucket i).entries := by
  simp [entries]

theorem mem_entries_of_range
    {n : Nat}
    {v : IxmEleHash}
    (hMember : v ∈ mgr.range n) :
    v ∈ mgr.entries := by
  rw [mem_entries]
  exact ⟨bucketIdx n, n,
    (MultiMap.mem_equalRange _ _ _).mp hMember⟩

namespace Indexed

/- Every entry has a key and is in the range of its hash. -/
theorem entry
    (hIndexed : Indexed h m mgr)
    {v : IxmEleHash}
    (hMember : v ∈ mgr.entries) :
    ∃ s n x k,
      BSONElement.IsElement ⟨m, v.data⟩ s n x ∧
        entryKey m v = .ok k ∧ v ∈ mgr.range (h k.2) := by
  rw [mem_entries] at hMember
  rcases hMember with ⟨i, l, hEntry⟩
  rcases hIndexed i (l, v) hEntry with
    ⟨s, n, x, k, hElem, hKey, hHash, hBucket⟩
  refine ⟨s, n, x, k, hElem, hKey, ?_⟩
  simp only at hHash hBucket
  subst hHash
  subst hBucket
  exact (MultiMap.mem_equalRange _ _ _).mpr hEntry

/- An index survives changes outside its elements. -/
theorem frame
    (hIndexed : Indexed h m mgr)
    (hSame : ∀ v ∈ mgr.entries, ∀ s n x,
      BSONElement.IsElement ⟨m, v.data⟩ s n x →
        Memory.Same m v.data m' v.data s) :
    Indexed h m' mgr := by
  intro i e he
  rcases hIndexed i e he with
    ⟨s, n, x, k, hElem, hKey, hHash, hBucket⟩
  have hMember : e.2 ∈ mgr.entries := by
    rw [mem_entries]
    exact ⟨i, e.1, he⟩
  have hBlock := hSame e.2 hMember s n x hElem
  refine ⟨s, n, x, k, hElem.congr _ hBlock, ?_, hHash,
    hBucket⟩
  unfold entryKey
  rw [hElem.key_congr ⟨m', e.2.data⟩ hBlock]
  exact hKey

end Indexed

theorem indexed_init :
    Indexed h m IxmBucketManager.init := by
  intro i e he
  simp [IxmBucketManager.init] at he

------------------------------------------------------------
-- Lookup
------------------------------------------------------------

/- The loop finds the first entry with the key of `src`. -/
theorem firstMatch_eq
    {src : BSONElement}
    {s n x : Nat}
    {k : BSONElement.Key}
    (hSrc : BSONElement.IsElement src s n x)
    (hKey : src.key = .ok k)
    {vs : List IxmEleHash}
    (hElems : ∀ v ∈ vs, ∃ s n x,
      BSONElement.IsElement ⟨m, v.data⟩ s n x) :
    firstMatch m src vs = .ok
      (vs.find? (fun v => decide (entryKey m v = .ok k))) := by
  induction vs with
  | nil => rfl
  | cons v vs ih =>
      rcases hElems v (by simp) with ⟨s', n', x', hElem⟩
      have hRest := ih
        (fun w hw => hElems w (List.mem_cons_of_mem v hw))
      have hIff :
          (((src.type, src.mem.bytes (src.value n) x) :
              BSONElement.Key) =
            (BSONElement.type ⟨m, v.data⟩,
              m.bytes (BSONElement.value ⟨m, v.data⟩ n')
                x')) ↔
            entryKey m v = .ok k := by
        have hSame := hSrc.key_eq.symm.trans hKey
        simp only [Except.ok.injEq] at hSame
        rw [entryKey, hElem.key_eq, ← hSame,
          Except.ok.injEq]
        exact eq_comm
      simp only [firstMatch, hSrc.sameKey_eq hElem, bind,
        Except.bind, decide_eq_true_eq, pure, Except.pure,
        List.find?_cons]
      by_cases hMatch : entryKey m v = .ok k
      · rw [if_pos (hIff.mpr hMatch)]
        simp [hMatch]
      · rw [if_neg (fun hEq => hMatch (hIff.mp hEq)), hRest]
        simp [hMatch]

variable {o : BSONObj} {off : Nat} {k : BSONElement.Key}

/- The entry that a lookup of key `k` finds. -/
def lookup
    (h : List UInt8 → Nat)
    (m : Memory)
    (mgr : IxmBucketManager)
    (k : BSONElement.Key) : Option IxmEleHash :=
  (mgr.range (h k.2)).find?
    (fun v => decide (entryKey m v = .ok k))

theorem lookup_some
    {v : IxmEleHash}
    (hFound : lookup h m mgr k = some v) :
    v ∈ mgr.entries ∧ entryKey m v = .ok k := by
  refine ⟨mem_entries_of_range
    (List.mem_of_find?_eq_some hFound), ?_⟩
  simpa using List.find?_some hFound

namespace Indexed

theorem lookup_none_iff
    (hIndexed : Indexed h m mgr) :
    lookup h m mgr k = none ↔
      ∀ v ∈ mgr.entries, entryKey m v ≠ .ok k := by
  constructor
  · intro hNone v hMember hKey
    rcases hIndexed.entry hMember with
      ⟨s, n, x, k', _, hKey', hRange⟩
    have hSame : k' = k := by
      simpa using hKey'.symm.trans hKey
    subst hSame
    have hNot := List.find?_eq_none.mp hNone v hRange
    simp [hKey] at hNot
  · intro hAbsent
    apply List.find?_eq_none.mpr
    intro v hRange
    simpa using hAbsent v (mem_entries_of_range hRange)

/- The search over the range of a record's hash. -/
theorem firstMatch_range
    (hIndexed : Indexed h m mgr)
    (hId : HasId o off k) :
    firstMatch m ⟨o.mem, o.objdata + off⟩
      (mgr.range (h k.2)) = .ok (lookup h m mgr k) := by
  rcases hId.element with ⟨s, n, x, hElem, _⟩
  apply firstMatch_eq hElem hId.key
  intro v hRange
  rcases hIndexed.entry (mem_entries_of_range hRange) with
    ⟨s', n', x', _, hElem', _, _⟩
  exact ⟨s', n', x', hElem'⟩

theorem isIDExist_eq
    (hIndexed : Indexed h m mgr)
    (hId : HasId o off k) :
    isIDExist h m mgr o = .ok
      (if (lookup h m mgr k).isSome then edbIxmIdExist
        else edbOk) := by
  simp only [isIDExist, hId.processData_eq, hashNum, hId.key,
    hIndexed.firstMatch_range hId, bind, Except.bind, pure,
    Except.pure]
  cases lookup h m mgr k with
  | none => rfl
  | some v => rfl

theorem findIndex_eq
    (hIndexed : Indexed h m mgr)
    (hId : HasId o off k) :
    findIndex h m mgr o = .ok
      (match lookup h m mgr k with
      | some v => (edbOk, some v.recordID)
      | none => (edbInvalidArg, none)) := by
  simp only [findIndex, hId.processData_eq, hashNum, hId.key,
    hIndexed.firstMatch_range hId, bind, Except.bind, pure,
    Except.pure]
  cases lookup h m mgr k with
  | none => rfl
  | some v => rfl

end Indexed

------------------------------------------------------------
-- Updates
------------------------------------------------------------

/- Changing one bucket changes the entries of that bucket. -/
theorem perm_flatMap_update
    {ι : Type}
    [DecidableEq ι]
    {β : Type}
    (f : ι → List β)
    {i : ι}
    {new : List β}
    {v : β}
    (hNew : new.Perm (v :: f i))
    {l : List ι}
    (hNodup : l.Nodup)
    (hMember : i ∈ l) :
    (l.flatMap (Function.update f i new)).Perm
      (v :: l.flatMap f) := by
  induction l with
  | nil => simp at hMember
  | cons j l ih =>
      rw [List.nodup_cons] at hNodup
      simp only [List.flatMap_cons]
      by_cases hHead : j = i
      · subst hHead
        have hTail :
            l.flatMap (Function.update f j new) =
              l.flatMap f := by
          apply List.flatMap_congr
          intro a ha
          apply Function.update_of_ne
          intro hEq
          exact hNodup.1 (hEq ▸ ha)
        rw [hTail, Function.update_self]
        exact hNew.append_right (l.flatMap f)
      · have hIn : i ∈ l := by
          rcases List.mem_cons.mp hMember with hEq | hIn
          · exact absurd hEq.symm hHead
          · exact hIn
        rw [Function.update_of_ne hHead]
        exact ((ih hNodup.2 hIn).append_left (f j)).trans
          List.perm_middle

theorem entries_setBucket
    (mgr : IxmBucketManager)
    (n : Nat)
    (b : IxmBucket) :
    (mgr.setBucket n b).entries =
      (List.finRange ixmHashMapSize).flatMap
        (Function.update
          (fun i => (mgr.bucket i).entries.map Prod.snd)
          (bucketIdx n) (b.entries.map Prod.snd)) := by
  unfold entries setBucket
  apply List.flatMap_congr
  intro i _
  by_cases hEq : i = bucketIdx n
  · subst hEq
    simp
  · simp [Function.update_of_ne hEq]

/- A bucket with one more entry. -/
theorem perm_entries_setBucket
    (mgr : IxmBucketManager)
    {n : Nat}
    {b : IxmBucket}
    {e : Nat × IxmEleHash}
    (hNew : b.entries.Perm
      (e :: (mgr.bucket (bucketIdx n)).entries)) :
    (mgr.setBucket n b).entries.Perm
      (e.2 :: mgr.entries) := by
  rw [entries_setBucket]
  apply perm_flatMap_update
    (fun i => (mgr.bucket i).entries.map Prod.snd)
  · exact hNew.map Prod.snd
  · exact List.nodup_finRange _
  · exact List.mem_finRange _

theorem setBucket_setBucket
    (mgr : IxmBucketManager)
    (n : Nat)
    (b : IxmBucket) :
    (mgr.setBucket n b).setBucket n
      (mgr.bucket (bucketIdx n)) = mgr := by
  simp [setBucket]

/- A bucket with one entry less. -/
theorem perm_entries_of_setBucket
    (mgr : IxmBucketManager)
    {n : Nat}
    {b : IxmBucket}
    {e : Nat × IxmEleHash}
    (hOld : (mgr.bucket (bucketIdx n)).entries.Perm
      (e :: b.entries)) :
    mgr.entries.Perm
      (e.2 :: (mgr.setBucket n b).entries) := by
  have hBack : ((mgr.setBucket n b).setBucket n
      (mgr.bucket (bucketIdx n))).entries.Perm
        (e.2 :: (mgr.setBucket n b).entries) := by
    apply perm_entries_setBucket
    simpa [setBucket] using hOld
  rwa [setBucket_setBucket] at hBack

theorem Indexed.setBucket
    (hIndexed : Indexed h m mgr)
    {n : Nat}
    {b : IxmBucket}
    (hBucket : ∀ e ∈ b.entries,
      Placed h m (bucketIdx n) e) :
    Indexed h m (mgr.setBucket n b) := by
  intro i e he
  by_cases hEq : i = bucketIdx n
  · subst hEq
    apply hBucket
    simpa [IxmBucketManager.setBucket] using he
  · apply hIndexed
    simpa [IxmBucketManager.setBucket,
      Function.update_of_ne hEq] using he

/- Indexing a record adds the entry that points to its id. -/
theorem createIndex_eq
    (hId : HasId o off k)
    (rid : DmsRecordID) :
    ∃ mgr',
      createIndex h mgr o rid = .ok (edbOk, mgr') ∧
      mgr'.entries.Perm
        (⟨o.objdata + off, rid⟩ :: mgr.entries) ∧
      (Indexed h o.mem mgr → Indexed h o.mem mgr') := by
  refine ⟨mgr.setBucket (h k.2)
    ((mgr.bucket (bucketIdx (h k.2))).insert (h k.2)
      ⟨o.objdata + off, rid⟩), ?_, ?_, ?_⟩
  · simp only [createIndex, hId.processData_eq, hashNum,
      hId.key, bind, Except.bind, pure, Except.pure]
  · exact mgr.perm_entries_setBucket
      (MultiMap.perm_insert _ _ _)
  · intro hIndexed
    apply hIndexed.setBucket
    intro e he
    rw [MultiMap.mem_insert] at he
    rcases he with rfl | hOld
    · rcases hId.element with ⟨s, n, x, hElem, _⟩
      exact ⟨s, n, x, k, hElem, hId.key, rfl, rfl⟩
    · exact hIndexed _ e hOld

/- Removing a key that is absent changes nothing. -/
theorem Indexed.removeIndex_of_none
    (hIndexed : Indexed h m mgr)
    (hId : HasId o off k)
    (hNone : lookup h m mgr k = none) :
    removeIndex h m mgr o =
      .ok (edbInvalidArg, none, mgr) := by
  simp only [removeIndex, hId.processData_eq, hashNum,
    hId.key, hIndexed.firstMatch_range hId, hNone, bind,
    Except.bind, pure, Except.pure]

/- Removing a key takes out the entry that lookup finds. -/
theorem Indexed.removeIndex_of_some
    (hIndexed : Indexed h m mgr)
    (hId : HasId o off k)
    {v : IxmEleHash}
    (hFound : lookup h m mgr k = some v) :
    ∃ mgr',
      removeIndex h m mgr o =
        .ok (edbOk, some v.recordID, mgr') ∧
      mgr.entries.Perm (v :: mgr'.entries) ∧
      Indexed h m mgr' := by
  refine ⟨mgr.setBucket (h k.2)
    ((mgr.bucket (bucketIdx (h k.2))).eraseFirst (h k.2)
      (fun w => decide (w = v))), ?_, ?_, ?_⟩
  · simp only [removeIndex, hId.processData_eq, hashNum,
      hId.key, hIndexed.firstMatch_range hId, hFound, bind,
      Except.bind, pure, Except.pure]
  · apply mgr.perm_entries_of_setBucket (e := (h k.2, v))
    apply MultiMap.perm_eraseFirst
    -- the match itself is the first entry equal to it
    have hRange := List.mem_of_find?_eq_some hFound
    have hSome :
        ((mgr.bucket (bucketIdx (h k.2))).equalRange
          (h k.2)).find? (fun w => decide (w = v)) ≠
            none := by
      intro hNone
      have hNot := List.find?_eq_none.mp hNone v hRange
      simp at hNot
    rcases Option.ne_none_iff_exists'.mp hSome with
      ⟨w, hw⟩
    have hEq : w = v := by
      simpa using List.find?_some hw
    rw [hEq] at hw
    exact hw
  · apply hIndexed.setBucket
    intro e he
    exact hIndexed _ e (MultiMap.mem_of_mem_eraseFirst _ he)

/- Operations on a record that may not be indexed. -/
theorem isIDExist_of_none
    (hNone : processData o = .ok none) :
    isIDExist h m mgr o = .ok edbInvalidArg := by
  simp [isIDExist, hNone, bind, Except.bind, pure,
    Except.pure]

theorem findIndex_of_none
    (hNone : processData o = .ok none) :
    findIndex h m mgr o = .ok (edbInvalidArg, none) := by
  simp [findIndex, hNone, bind, Except.bind, pure,
    Except.pure]

theorem removeIndex_of_none
    (hNone : processData o = .ok none) :
    removeIndex h m mgr o =
      .ok (edbInvalidArg, none, mgr) := by
  simp [removeIndex, hNone, bind, Except.bind, pure,
    Except.pure]

end IxmBucketManager

end EmeraldDb
