import EmeraldDb.Ixm.Index

/-
  An index that covers a set of records.

  `Covers h m addr mgr R` says that the index `mgr` over the
  file `m` has exactly one entry for every record id in `R`,
  that this entry points to the record's `_id` element, and
  that it has no other entries.  `addr` gives the address of
  every record's object.

  Key definitions include:
    * `KeyAt`
    * `Covers`

  Key results include:
    * `Covers.frame`
    * `Covers.isIDExist_of_mem`
    * `Covers.isIDExist_of_fresh`
    * `Covers.findIndex_cases`
    * `Covers.createIndex`
    * `Covers.removeIndex_cases`
-/

namespace EmeraldDb

open IxmBucketManager

/- Address of the object of a record. -/
abbrev Addresses :=
  DmsRecordID → Nat

/- The record at an address has an indexable `_id`. -/
def KeyAt
    (m : Memory)
    (a : Nat)
    (k : BSONElement.Key) : Prop :=
  ∃ off, HasId ⟨m, a⟩ off k

theorem KeyAt.unique
    {m : Memory}
    {a : Nat}
    {k k' : BSONElement.Key}
    (hKey : KeyAt m a k)
    (hKey' : KeyAt m a k') :
    k = k' := by
  rcases hKey with ⟨off, hId⟩
  rcases hKey' with ⟨off', hId'⟩
  exact hId.unique hId'

/- An entry points to the `_id` of its record. -/
def PointsToId
    (m : Memory)
    (addr : Addresses)
    (v : IxmEleHash) : Prop :=
  ∃ off k, HasId ⟨m, addr v.recordID⟩ off k ∧
    v.data = addr v.recordID + off

structure Covers
    (h : List UInt8 → Nat)
    (m : Memory)
    (addr : Addresses)
    (mgr : IxmBucketManager)
    (R : Set DmsRecordID) : Prop where
  indexed : Indexed h m mgr
  points : ∀ v ∈ mgr.entries, PointsToId m addr v
  ids : ∀ rid,
    rid ∈ mgr.entries.map IxmEleHash.recordID ↔ rid ∈ R
  nodup : (mgr.entries.map IxmEleHash.recordID).Nodup

theorem PointsToId.entryKey_iff
    {m : Memory}
    {addr : Addresses}
    {v : IxmEleHash}
    (hPoints : PointsToId m addr v)
    (k : BSONElement.Key) :
    entryKey m v = .ok k ↔ KeyAt m (addr v.recordID) k := by
  rcases hPoints with ⟨off, k', hId, hData⟩
  have hEntry : entryKey m v = .ok k' := by
    unfold entryKey
    rw [hData]
    exact hId.key
  constructor
  · intro hKey
    have hSame : k' = k := by
      simpa using hEntry.symm.trans hKey
    exact ⟨off, hSame ▸ hId⟩
  · intro hKey
    rw [hEntry, KeyAt.unique ⟨off, hId⟩ hKey]

namespace Covers

variable {h : List UInt8 → Nat} {m m' : Memory}
variable {addr addr' : Addresses}
variable {mgr : IxmBucketManager}
variable {R : Set DmsRecordID}

theorem init
    (h : List UInt8 → Nat)
    (m : Memory)
    (addr : Addresses) :
    Covers h m addr IxmBucketManager.init ∅ := by
  have hEmpty : IxmBucketManager.init.entries = [] := by
    simp [entries, IxmBucketManager.init]
  refine ⟨indexed_init, ?_, ?_, ?_⟩
  · intro v hv
    simp [hEmpty] at hv
  · intro rid
    simp [hEmpty]
  · simp [hEmpty]

theorem mem
    (hCovers : Covers h m addr mgr R)
    {v : IxmEleHash}
    (hMember : v ∈ mgr.entries) :
    v.recordID ∈ R :=
  (hCovers.ids _).mp (List.mem_map_of_mem hMember)

/- The same set, described differently. -/
theorem congr
    {R' : Set DmsRecordID}
    (hCovers : Covers h m addr mgr R)
    (hSame : ∀ rid, rid ∈ R ↔ rid ∈ R') :
    Covers h m addr mgr R' := by
  have hEq : R = R' := Set.ext hSame
  exact hEq ▸ hCovers

/-
  The covered records may be anywhere in another memory as
  long as their objects are in place and unchanged.
-/
theorem frame
    (hCovers : Covers h m addr mgr R)
    (hForm : ∀ rid ∈ R, BSONObj.WellFormed ⟨m, addr rid⟩)
    (hPlace : ∀ rid ∈ R, addr' rid = addr rid)
    (hSame : ∀ rid ∈ R, Memory.Same m (addr rid) m'
      (addr rid) (BSONObj.length ⟨m, addr rid⟩)) :
    Covers h m' addr' mgr R := by
  refine ⟨?_, ?_, hCovers.ids, hCovers.nodup⟩
  · apply hCovers.indexed.frame
    intro v hv s n x hElem
    rcases hCovers.points v hv with ⟨off, k, hId, hData⟩
    rcases hId.element with ⟨s', n', x', hElem', hFits⟩
    have hSize : s' = s := by
      have hLeft := hElem'.size_eq
      rw [← hData, hElem.size_eq] at hLeft
      have hInt : (s' : Int) = s := by
        simpa using hLeft.symm
      exact_mod_cast hInt
    rw [hData]
    exact (hSame _ (hCovers.mem hv)).slice (by omega)
  · intro v hv
    have hIn := hCovers.mem hv
    rcases hCovers.points v hv with ⟨off, k, hId, hData⟩
    refine ⟨off, k, ?_, ?_⟩
    · rw [hPlace _ hIn]
      exact hId.congr (hForm _ hIn) _ (hSame _ hIn)
    · rw [hPlace _ hIn]
      exact hData

------------------------------------------------------------
-- Lookup
------------------------------------------------------------

variable {q : BSONObj} {off : Nat} {k : BSONElement.Key}

theorem lookup_some_spec
    (hCovers : Covers h m addr mgr R)
    {v : IxmEleHash}
    (hFound : lookup h m mgr k = some v) :
    v ∈ mgr.entries ∧ v.recordID ∈ R ∧
      KeyAt m (addr v.recordID) k := by
  have hEntry := lookup_some hFound
  exact ⟨hEntry.1, hCovers.mem hEntry.1,
    ((hCovers.points v hEntry.1).entryKey_iff k).mp
      hEntry.2⟩

theorem lookup_none_iff
    (hCovers : Covers h m addr mgr R) :
    lookup h m mgr k = none ↔
      ∀ rid ∈ R, ¬ KeyAt m (addr rid) k := by
  rw [hCovers.indexed.lookup_none_iff]
  constructor
  · intro hAbsent rid hIn hKey
    rcases List.mem_map.mp ((hCovers.ids rid).mpr hIn) with
      ⟨v, hv, rfl⟩
    exact hAbsent v hv
      (((hCovers.points v hv).entryKey_iff k).mpr hKey)
  · intro hAbsent v hv hKey
    exact hAbsent _ (hCovers.mem hv)
      (((hCovers.points v hv).entryKey_iff k).mp hKey)

/- The id check fails on a covered key and on no other. -/
theorem isIDExist_of_mem
    (hCovers : Covers h m addr mgr R)
    (hId : HasId q off k)
    {rid : DmsRecordID}
    (hIn : rid ∈ R)
    (hKey : KeyAt m (addr rid) k) :
    isIDExist h m mgr q = .ok edbIxmIdExist := by
  rw [hCovers.indexed.isIDExist_eq hId]
  cases hCase : lookup h m mgr k with
  | none =>
      exact absurd hKey (hCovers.lookup_none_iff.mp hCase
        rid hIn)
  | some v => rfl

theorem isIDExist_of_fresh
    (hCovers : Covers h m addr mgr R)
    (hId : HasId q off k)
    (hFresh : ∀ rid ∈ R, ¬ KeyAt m (addr rid) k) :
    isIDExist h m mgr q = .ok edbOk := by
  rw [hCovers.indexed.isIDExist_eq hId,
    hCovers.lookup_none_iff.mpr hFresh]
  rfl

/- What a lookup finds is a covered record with the key. -/
theorem findIndex_cases
    (hCovers : Covers h m addr mgr R)
    (hId : HasId q off k) :
    (∃ rid ∈ R, KeyAt m (addr rid) k ∧
        findIndex h m mgr q = .ok (edbOk, some rid)) ∨
      ((∀ rid ∈ R, ¬ KeyAt m (addr rid) k) ∧
        findIndex h m mgr q = .ok (edbInvalidArg, none)) := by
  rw [hCovers.indexed.findIndex_eq hId]
  cases hCase : lookup h m mgr k with
  | none =>
      exact Or.inr ⟨hCovers.lookup_none_iff.mp hCase, rfl⟩
  | some v =>
      have hSpec := hCovers.lookup_some_spec hCase
      exact Or.inl ⟨v.recordID, hSpec.2.1, hSpec.2.2, rfl⟩

------------------------------------------------------------
-- Updates
------------------------------------------------------------

/- Indexing a record adds it to the covered set. -/
theorem createIndex
    (hCovers : Covers h m addr mgr R)
    {rid : DmsRecordID}
    (hId : HasId ⟨m, addr rid⟩ off k)
    (hFresh : rid ∉ R) :
    ∃ mgr',
      IxmBucketManager.createIndex h mgr ⟨m, addr rid⟩ rid =
        .ok (edbOk, mgr') ∧
      Covers h m addr mgr' (insert rid R) := by
  rcases @createIndex_eq h mgr _ _ _ hId rid with
    ⟨mgr', hResult, hPerm, hIndexed⟩
  have hIds := hPerm.map IxmEleHash.recordID
  refine ⟨mgr', hResult, hIndexed hCovers.indexed, ?_, ?_, ?_⟩
  · intro v hv
    rcases List.mem_cons.mp (hPerm.mem_iff.mp hv) with
      rfl | hOld
    · exact ⟨off, k, hId, rfl⟩
    · exact hCovers.points v hOld
  · intro r
    rw [hIds.mem_iff, List.map_cons, List.mem_cons,
      hCovers.ids, Set.mem_insert_iff]
  · rw [hIds.nodup_iff, List.map_cons, List.nodup_cons,
      hCovers.ids]
    exact ⟨hFresh, hCovers.nodup⟩

/- Removing a covered key takes out a record with it. -/
theorem removeIndex_cases
    (hCovers : Covers h m addr mgr R)
    (hId : HasId q off k) :
    (∃ rid ∈ R, ∃ mgr', KeyAt m (addr rid) k ∧
        IxmBucketManager.removeIndex h m mgr q =
          .ok (edbOk, some rid, mgr') ∧
        Covers h m addr mgr' (R \ {rid})) ∨
      ((∀ rid ∈ R, ¬ KeyAt m (addr rid) k) ∧
        IxmBucketManager.removeIndex h m mgr q =
          .ok (edbInvalidArg, none, mgr)) := by
  cases hCase : lookup h m mgr k with
  | none =>
      right
      exact ⟨hCovers.lookup_none_iff.mp hCase,
        hCovers.indexed.removeIndex_of_none hId hCase⟩
  | some v =>
      left
      have hSpec := hCovers.lookup_some_spec hCase
      rcases hCovers.indexed.removeIndex_of_some hId hCase with
        ⟨mgr', hResult, hPerm, hIndexed⟩
      have hIds := hPerm.map IxmEleHash.recordID
      have hNodup := hIds.nodup_iff.mp hCovers.nodup
      rw [List.map_cons, List.nodup_cons] at hNodup
      refine ⟨v.recordID, hSpec.2.1, mgr', hSpec.2.2, hResult,
        hIndexed, ?_, ?_, hNodup.2⟩
      · intro w hw
        exact hCovers.points w
          (hPerm.mem_iff.mpr (List.mem_cons_of_mem v hw))
      · intro r
        rw [Set.mem_sdiff, Set.mem_singleton_iff,
          ← hCovers.ids, hIds.mem_iff, List.map_cons,
          List.mem_cons]
        constructor
        · intro hr
          refine ⟨Or.inr hr, ?_⟩
          intro hEq
          exact hNodup.1 (hEq ▸ hr)
        · rintro ⟨hEq | hr, hNe⟩
          · exact absurd hEq hNe
          · exact hr

end Covers

end EmeraldDb
