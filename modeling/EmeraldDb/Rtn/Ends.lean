import EmeraldDb.Dms.LatchBalance
import EmeraldDb.Dms.Space
import EmeraldDb.Rtn.SameRecord

/-
  When the calls of the record store end, read off the store.

  A search ends if each index entry that it comes to can be
  compared, a lookup if the record it finds has a length word
  in range, and an insertion if the free-space map offers a
  page or an extension fails.  The store may be in any state;
  on a sound file the free space of the pages tells.

  Key definitions include:
    * `IdElement`
    * `IxmBucketManager.Searchable`
    * `IxmBucketManager.Unknown`
    * `DmsFile.PlacedOn`
    * `Rtn.Settles`

  Key results include:
    * `searches_iff`
    * `findIndex_some_iff`
    * `Rtn.insertEnds_iff`
    * `Rtn.settles_iff`
    * `DmsFile.find_returns_iff`
-/

namespace EmeraldDb

open IxmBucketManager

------------------------------------------------------------
-- Comparing Elements
------------------------------------------------------------

/-
  An element can be compared with another one that has a
  different type or a name that ends.
-/
def BSONElement.Comparable (src dest : BSONElement) : Prop :=
  src.type = dest.type →
    (dest.mem.strnlen (dest.data + 1)
      bsonObjMaxInternalSize).isSome

/- The element of the entry has the key of `src`. -/
def Matches
    (m : Memory)
    (src : BSONElement)
    (v : IxmEleHash) : Prop :=
  src.sameKey ⟨m, v.data⟩ = .ok true

/-
  The element can be compared with that of every entry up to
  the first one that has its key.
-/
def Scannable
    (m : Memory)
    (src : BSONElement)
    (vs : List IxmEleHash) : Prop :=
  ∀ before v after, vs = before ++ v :: after →
    (∀ w ∈ before, ¬ Matches m src w) →
    src.Comparable ⟨m, v.data⟩

/- The first entry whose element has the key of `src`. -/
def FirstWithKey
    (m : Memory)
    (src : BSONElement)
    (vs : List IxmEleHash)
    (v : IxmEleHash) : Prop :=
  ∃ before after, vs = before ++ v :: after ∧
    (∀ w ∈ before, ¬ Matches m src w) ∧ Matches m src v

section Scan

variable {m : Memory} {src : BSONElement}
variable {v : IxmEleHash} {vs : List IxmEleHash}

theorem scannable_cons :
    Scannable m src (v :: vs) ↔
      src.Comparable ⟨m, v.data⟩ ∧
        (¬ Matches m src v → Scannable m src vs) := by
  constructor
  · intro hAll
    refine ⟨hAll [] v vs rfl (by simp), ?_⟩
    intro hOther before w after hSplit hBefore
    apply hAll (v :: before) w after (by rw [hSplit]; rfl)
    intro u hu
    rcases List.mem_cons.mp hu with rfl | hIn
    · exact hOther
    · exact hBefore u hIn
  · rintro ⟨hFirst, hRest⟩ before w after hSplit hBefore
    cases before with
    | nil =>
        obtain ⟨rfl, rfl⟩ := List.cons.inj hSplit
        exact hFirst
    | cons u before =>
        obtain ⟨rfl, rfl⟩ := List.cons.inj hSplit
        exact hRest (hBefore v List.mem_cons_self) before w
          after rfl
          (fun w hIn => hBefore w (List.mem_cons_of_mem v hIn))

/- The loop stops with the first entry with the key. -/
theorem firstMatch_some
    (hMatch : firstMatch m src vs = .ok (some v)) :
    FirstWithKey m src vs v := by
  induction vs with
  | nil => cases hMatch
  | cons w vs ih =>
      unfold firstMatch at hMatch
      rcases bind_ok hMatch with ⟨same, hSame, hRest⟩
      cases same with
      | true =>
          rw [if_pos rfl] at hRest
          obtain rfl := Option.some.inj (Except.ok.inj hRest)
          exact ⟨[], vs, rfl, by simp, hSame⟩
      | false =>
          rw [if_neg (by simp)] at hRest
          rcases ih hRest with
            ⟨before, after, hSplit, hBefore, hKey⟩
          refine ⟨w :: before, after, by rw [hSplit]; rfl, ?_,
            hKey⟩
          intro u hu
          rcases List.mem_cons.mp hu with rfl | hIn
          · unfold Matches
            rw [hSame]
            simp
          · exact hBefore u hIn

/- It comes to its end if no entry has the key. -/
theorem firstMatch_none
    (hMatch : firstMatch m src vs = .ok none) :
    ∀ v ∈ vs, ¬ Matches m src v := by
  induction vs with
  | nil => simp
  | cons w vs ih =>
      unfold firstMatch at hMatch
      rcases bind_ok hMatch with ⟨same, hSame, hRest⟩
      cases same with
      | true =>
          rw [if_pos rfl] at hRest
          cases hRest
      | false =>
          rw [if_neg (by simp)] at hRest
          intro u hu
          rcases List.mem_cons.mp hu with rfl | hIn
          · unfold Matches
            rw [hSame]
            simp
          · exact ih hRest u hIn

theorem FirstWithKey.mem
    (hFirst : FirstWithKey m src vs v) :
    v ∈ vs ∧ Matches m src v := by
  rcases hFirst with ⟨before, after, rfl, _, hKey⟩
  exact ⟨by simp, hKey⟩

/- There is one first entry with the key. -/
theorem FirstWithKey.unique
    {w : IxmEleHash}
    (hFirst : FirstWithKey m src vs v)
    (hOther : FirstWithKey m src vs w) :
    v = w := by
  induction vs with
  | nil => exact absurd hFirst.mem.1 List.not_mem_nil
  | cons u vs ih =>
      rcases hFirst with ⟨_ | ⟨u', before⟩, after, hSplit,
        hBefore, hKey⟩
      · obtain ⟨rfl, rfl⟩ := List.cons.inj hSplit
        rcases hOther with ⟨_ | ⟨u', before'⟩, after', hSplit',
          hBefore', _⟩
        · exact (List.cons.inj hSplit').1
        · obtain ⟨rfl, _⟩ := List.cons.inj hSplit'
          exact absurd hKey (hBefore' u List.mem_cons_self)
      · obtain ⟨rfl, rfl⟩ := List.cons.inj hSplit
        rcases hOther with ⟨_ | ⟨u', before'⟩, after', hSplit',
          hBefore', hKey'⟩
        · obtain ⟨rfl, _⟩ := List.cons.inj hSplit'
          exact absurd hKey' (hBefore u List.mem_cons_self)
        · obtain ⟨rfl, hTail⟩ := List.cons.inj hSplit'
          apply ih
          · exact ⟨before, after, rfl, fun x hx => hBefore x
              (List.mem_cons_of_mem u hx), hKey⟩
          · exact ⟨before', after', hTail, fun x hx =>
              hBefore' x (List.mem_cons_of_mem u hx), hKey'⟩

/-
  The comparison of an element that may be indexed ends if
  the two can be compared, and else runs off the name.
-/
theorem sameKey_cases
    (dest : BSONElement)
    {s n l : Nat}
    (hWithin : src.Within s n l)
    (hType : IdType src.type) :
    (src.Comparable dest ∧ Returns (src.sameKey dest)) ∨
      ¬ src.Comparable dest ∧
        src.sameKey dest = .error .stray := by
  unfold BSONElement.sameKey BSONElement.Comparable
  by_cases hSame : src.type = dest.type
  · have hNotEoo : dest.type ≠ 0 := hSame ▸ hWithin.notEoo
    have hEoo : dest.eoo = false := by
      simpa [BSONElement.eoo] using hNotEoo
    rw [if_pos hSame, forall_prop_of_true hSame]
    rw [hSame] at hType
    cases hName : dest.mem.strnlen (dest.data + 1)
        bsonObjMaxInternalSize with
    | none =>
        have hSize : dest.fieldNameSize = .error .stray := by
          simp [BSONElement.fieldNameSize, hEoo, hName]
        have hValue : dest.valuesize = .error .stray := by
          simp [BSONElement.valuesize, BSONElement.size, hEoo,
            hSize, bind, Except.bind]
        right
        refine ⟨by simp, ?_⟩
        simp only [hWithin.valuesize_eq, hValue, bind,
          Except.bind]
    | some k =>
        have hSize : dest.fieldNameSize = .ok (k + 1) := by
          simp [BSONElement.fieldNameSize, hEoo, hName]
        have hValue : ∃ x, dest.valuesize = .ok x := by
          unfold BSONElement.valuesize BSONElement.size
          rw [hEoo, hSize]
          rcases hType with hInt | hString
          · rw [hInt]
            exact ⟨_, rfl⟩
          · rw [hString]
            exact ⟨_, rfl⟩
        rcases hValue with ⟨x, hValue⟩
        left
        refine ⟨by simp, ?_⟩
        simp only [hWithin.valuesize_eq, hValue, hWithin.name,
          hSize, bind, Except.bind]
        split
        · exact returns_ok _
        · exact returns_ok _
  · left
    rw [if_neg hSame]
    exact ⟨fun hEq => absurd hEq hSame, returns_ok _⟩

theorem firstMatch_cons :
    firstMatch m src (v :: vs) =
      (src.sameKey ⟨m, v.data⟩ >>= fun same =>
        if same then pure (some v) else firstMatch m src vs) :=
  rfl

/- So does the loop, if it comes to such an entry. -/
theorem firstMatch_cases
    {s n l : Nat}
    (hWithin : src.Within s n l)
    (hType : IdType src.type)
    (vs : List IxmEleHash) :
    (Scannable m src vs ∧ Returns (firstMatch m src vs)) ∨
      ¬ Scannable m src vs ∧
        firstMatch m src vs = .error .stray := by
  induction vs with
  | nil =>
      left
      refine ⟨?_, returns_ok _⟩
      intro before v after hSplit
      exact absurd hSplit.symm (by simp)
  | cons v vs ih =>
      rw [scannable_cons, firstMatch_cons]
      rcases sameKey_cases ⟨m, v.data⟩ hWithin hType with
        ⟨hComparable, same, hSame⟩ | ⟨hNot, hError⟩
      · unfold Matches
        rw [hSame]
        cases same with
        | true =>
            left
            exact ⟨⟨hComparable, fun hOther =>
              absurd rfl hOther⟩, returns_ok _⟩
        | false =>
            have hTail : (Except.ok false >>= fun same =>
                if same then pure (some v)
                else firstMatch m src vs) =
                  firstMatch m src vs := rfl
            rw [hTail]
            rcases ih with ⟨hScan, hReturns⟩ | ⟨hNot, hError⟩
            · exact Or.inl ⟨⟨hComparable, fun _ => hScan⟩,
                hReturns⟩
            · right
              refine ⟨?_, hError⟩
              rintro ⟨_, hScan⟩
              exact hNot (hScan (by simp))
      · right
        rw [hError]
        exact ⟨fun hBoth => hNot hBoth.1, rfl⟩

theorem firstMatch_returns_iff
    {s n l : Nat}
    (hWithin : src.Within s n l)
    (hType : IdType src.type) :
    Returns (firstMatch m src vs) ↔ Scannable m src vs := by
  rcases firstMatch_cases (m := m) hWithin hType vs with
    ⟨hScan, hReturns⟩ | ⟨hNot, hError⟩
  · exact iff_of_true hReturns hScan
  · rw [hError]
    exact iff_of_false (not_returns_error _) hNot

end Scan

------------------------------------------------------------
-- The Key of a Record
------------------------------------------------------------

/- The record's `_id` may be indexed, and has this key. -/
structure IdElement
    (o : BSONObj)
    (e : BSONElement)
    (k : BSONElement.Key) : Prop where
  field : o.getField ixmKeyFieldName = .ok (some e)
  idType : IdType e.type
  key : e.key = .ok k

theorem processData_some_iff
    {o : BSONObj}
    {e : BSONElement} :
    processData o = .ok (some e) ↔
      o.getField ixmKeyFieldName = .ok (some e) ∧
        IdType e.type := by
  unfold processData IdType
  cases o.getField ixmKeyFieldName with
  | error fault => simp [bind, Except.bind]
  | ok found =>
      cases found with
      | none => simp [bind, Except.bind, pure, Except.pure]
      | some e' =>
          simp only [bind, Except.bind, pure, Except.pure,
            Except.ok.injEq, Option.some.injEq]
          split
          · rename_i hOther
            constructor
            · intro hNone
              cases Except.ok.inj hNone
            · rintro ⟨rfl, hType⟩
              rcases hType with hInt | hString
              · exact absurd hInt hOther.1
              · exact absurd hString hOther.2
          · rename_i hType
            constructor
            · intro hSome
              obtain rfl := Option.some.inj
                (Except.ok.inj hSome)
              exact ⟨rfl, by
                rw [not_and_or, not_not, not_not] at hType
                exact hType⟩
            · rintro ⟨rfl, _⟩
              rfl

section Record

variable {h : List UInt8 → Nat} {m : Memory}
variable {mgr : IxmBucketManager} {o : BSONObj}

/-
  A record that is walked without leaving it has no `_id`
  that may be indexed, or one within it, with a key.
-/
theorem idElement_cases
    (hWalk : o.Walkable)
    (hPositive : 0 < o.length) :
    (processData o = .ok none ∧
      ∀ e k, ¬ IdElement o e k) ∨
    ∃ e k s n l, processData o = .ok (some e) ∧
      IdElement o e k ∧ e.Within s n l := by
  have hSelf : SameRecord o o :=
    ⟨hWalk, hPositive, rfl, Memory.Same.refl _ _ _⟩
  rcases hSelf.processData_cases with ⟨hNone, _⟩ |
    ⟨d, s, n, l, hSome, _, hWithin, _⟩
  · left
    refine ⟨hNone, ?_⟩
    intro e k hId
    have hFound := processData_some_iff.mpr
      ⟨hId.field, hId.idType⟩
    rw [hNone] at hFound
    cases Except.ok.inj hFound
  · right
    rcases processData_some_iff.mp hSome with ⟨hField, hType⟩
    have hKey : ∃ k, BSONElement.key
        ⟨o.mem, o.objdata + d⟩ = .ok k := by
      simp only [BSONElement.key, hWithin.valuesize_eq,
        hWithin.name, bind, Except.bind]
      exact ⟨_, rfl⟩
    rcases hKey with ⟨k, hKey⟩
    exact ⟨⟨o.mem, o.objdata + d⟩, k, s, n, l, hSome,
      ⟨hField, hType, hKey⟩, hWithin⟩

theorem IdElement.unique
    {e e' : BSONElement}
    {k k' : BSONElement.Key}
    (hId : IdElement o e k)
    (hId' : IdElement o e' k') :
    e = e' ∧ k = k' := by
  have hSame : e = e' := by
    simpa using hId.field.symm.trans hId'.field
  subst hSame
  exact ⟨rfl, by simpa using hId.key.symm.trans hId'.key⟩

theorem IdElement.hashNum_eq
    {e : BSONElement}
    {k : BSONElement.Key}
    (hId : IdElement o e k)
    (h : List UInt8 → Nat) :
    hashNum h e = .ok (h k.2) := by
  simp [hashNum, hId.key, bind, Except.bind, pure,
    Except.pure]

/- The entries under the record's key can be compared. -/
def IxmBucketManager.Searchable
    (h : List UInt8 → Nat)
    (m : Memory)
    (mgr : IxmBucketManager)
    (o : BSONObj) : Prop :=
  ∀ e k, IdElement o e k →
    Scannable m e (mgr.range (h k.2))

theorem searches_iff
    (hWalk : o.Walkable)
    (hPositive : 0 < o.length) :
    Searches h m mgr o ↔ Searchable h m mgr o := by
  unfold Searches Searchable
  rcases idElement_cases hWalk hPositive with
    ⟨hNone, hNever⟩ | ⟨e, k, s, n, l, hSome, hId, hWithin⟩
  · refine iff_of_true ⟨none, hNone, by simp⟩ ?_
    intro e k hId
    exact absurd hId (hNever e k)
  · have hScan := @firstMatch_returns_iff m e
      (mgr.range (h k.2)) s n l hWithin hId.idType
    constructor
    · rintro ⟨found, hFound, hRest⟩ e' k' hId'
      obtain ⟨rfl, rfl⟩ := hId.unique hId'
      rw [hSome, Except.ok.injEq] at hFound
      rcases hRest e hFound.symm with ⟨x, hHash, hReturns⟩
      rw [hId.hashNum_eq, Except.ok.injEq] at hHash
      rw [← hHash] at hReturns
      exact hScan.mp hReturns
    · intro hAll
      refine ⟨some e, hSome, ?_⟩
      rintro e' ⟨⟩
      exact ⟨_, hId.hashNum_eq h, hScan.mpr (hAll e k hId)⟩

/- The record id that a lookup finds. -/
theorem findIndex_some_iff
    (hWalk : o.Walkable)
    (hPositive : 0 < o.length)
    (hSearches : Searchable h m mgr o)
    (rid : DmsRecordID) :
    (∃ rc, findIndex h m mgr o = .ok (rc, some rid)) ↔
      ∃ e k v, IdElement o e k ∧
        FirstWithKey m e (mgr.range (h k.2)) v ∧
        v.recordID = rid := by
  unfold findIndex
  rcases idElement_cases hWalk hPositive with
    ⟨hNone, hNever⟩ | ⟨e, k, s, n, l, hSome, hId, hWithin⟩
  · rw [hNone]
    refine iff_of_false ?_ ?_
    · simp [bind, Except.bind, pure, Except.pure]
    · rintro ⟨e, k, v, hId, _⟩
      exact hNever e k hId
  · rcases (firstMatch_returns_iff hWithin hId.idType).mpr
      (hSearches e k hId) with ⟨found, hFound⟩
    simp only [hSome, hId.hashNum_eq, hFound, bind,
      Except.bind]
    cases found with
    | none =>
        refine iff_of_false (by simp [pure, Except.pure]) ?_
        rintro ⟨e', k', v, hId', hFirst, _⟩
        obtain ⟨rfl, rfl⟩ := hId.unique hId'
        exact firstMatch_none hFound v hFirst.mem.1
          hFirst.mem.2
    | some w =>
        have hFirst := firstMatch_some hFound
        simp only [pure, Except.pure, Except.ok.injEq,
          Prod.mk.injEq, Option.some.injEq,
          exists_eq_left']
        constructor
        · rintro rfl
          exact ⟨e, k, w, hId, hFirst, rfl⟩
        · rintro ⟨e', k', v, hId', hFirst', rfl⟩
          obtain ⟨rfl, rfl⟩ := hId.unique hId'
          rw [hFirst.unique hFirst']

/- The record has a key that no entry of the index has. -/
def IxmBucketManager.Unknown
    (h : List UInt8 → Nat)
    (m : Memory)
    (mgr : IxmBucketManager)
    (o : BSONObj) : Prop :=
  ∃ e k, IdElement o e k ∧
    ∀ v ∈ mgr.range (h k.2), ¬ Matches m e v

theorem isIDExist_ok_iff
    (hWalk : o.Walkable)
    (hPositive : 0 < o.length)
    (hSearches : Searchable h m mgr o) :
    isIDExist h m mgr o = .ok edbOk ↔
      Unknown h m mgr o := by
  unfold isIDExist Unknown
  rcases idElement_cases hWalk hPositive with
    ⟨hNone, hNever⟩ | ⟨e, k, s, n, l, hSome, hId, hWithin⟩
  · rw [hNone]
    refine iff_of_false ?_ ?_
    · simp [bind, Except.bind, pure, Except.pure]
    · rintro ⟨e, k, hId, _⟩
      exact hNever e k hId
  · rcases (firstMatch_returns_iff hWithin hId.idType).mpr
      (hSearches e k hId) with ⟨found, hFound⟩
    simp only [hSome, hId.hashNum_eq, hFound, bind,
      Except.bind]
    cases found with
    | none =>
        exact iff_of_true rfl
          ⟨e, k, hId, firstMatch_none hFound⟩
    | some w =>
        have hFirst := firstMatch_some hFound
        refine iff_of_false (by
          simp [pure, Except.pure]) ?_
        rintro ⟨e', k', hId', hNever⟩
        obtain ⟨rfl, rfl⟩ := hId.unique hId'
        exact hNever w hFirst.mem.1 hFirst.mem.2

/- The id check does not throw what a handler catches. -/
theorem isIDExist_caught_iff
    (hWalk : o.Walkable)
    (hPositive : 0 < o.length) :
    Caught .assertion (isIDExist h m mgr o) ↔
      Searchable h m mgr o := by
  rcases idElement_cases hWalk hPositive with
    ⟨hNone, hNever⟩ | ⟨e, k, s, n, l, hSome, hId, hWithin⟩
  · refine iff_of_true ?_ ?_
    · unfold isIDExist
      rw [hNone]
      exact caught_ok _ _
    · intro e k hId
      exact absurd hId (hNever e k)
  · have hCheck : isIDExist h m mgr o =
        (firstMatch m e (mgr.range (h k.2)) >>= fun found =>
          pure (if found.isSome then edbIxmIdExist
            else edbOk)) := by
      simp only [isIDExist, hSome, hId.hashNum_eq, bind,
        Except.bind]
      cases firstMatch m e (mgr.range (h k.2)) with
      | error fault => rfl
      | ok found => cases found <;> rfl
    have hOnly : Searchable h m mgr o ↔
        Scannable m e (mgr.range (h k.2)) := by
      constructor
      · intro hAll
        exact hAll e k hId
      · intro hScan e' k' hId'
        obtain ⟨rfl, rfl⟩ := hId.unique hId'
        exact hScan
    rw [hCheck, hOnly]
    rcases firstMatch_cases (m := m) hWithin hId.idType
        (mgr.range (h k.2)) with
      ⟨hScan, found, hFound⟩ | ⟨hNot, hError⟩
    · rw [hFound]
      exact iff_of_true (caught_ok _ _) hScan
    · rw [hError]
      refine iff_of_false ?_ hNot
      exact fun hCaught => by
        simpa using caught_error.mp hCaught

end Record

------------------------------------------------------------
-- Reading Keys
------------------------------------------------------------

/- Read the key of a record, if its `_id` may be indexed. -/
def readKey
    (record : BSONObj) :
    Except Fault (Option BSONElement.Key) := do
  match ← processData record with
  | none => return none
  | some e =>
      let k ← e.key
      return some k

/- The library reads the key of a record or refuses it. -/
def KeyRead (record : BSONObj) : Prop :=
  Caught .assertion (readKey record)

/- The entry of a record into the index needs its key only. -/
theorem createIndex_caught_iff
    {h : List UInt8 → Nat}
    {record : BSONObj}
    (mgr : IxmBucketManager)
    (rid : DmsRecordID) :
    Caught .assertion (createIndex h mgr record rid) ↔
      KeyRead record := by
  unfold KeyRead createIndex readKey
  rw [caught_bind, caught_bind]
  apply and_congr_right
  intro _
  apply forall_congr'
  intro found
  apply imp_congr_right
  intro _
  cases found with
  | none => simp [pure, Except.pure]
  | some e =>
      simp only [hashNum, bind_assoc]
      rw [caught_bind, caught_bind]
      simp [pure, Except.pure, bind, Except.bind]

/- A copy of a record has the record's key. -/
theorem SameRecord.keyRead
    {record copied : BSONObj}
    (hSame : SameRecord record copied) :
    KeyRead copied := by
  unfold KeyRead readKey
  rcases hSame.processData_cases with ⟨_, hNone⟩ |
    ⟨k, s, n, l, _, hSome, hElem, hBlock⟩
  · rw [hNone]
    exact caught_ok _ _
  · have hCopy := hElem.congr
      ⟨copied.mem, copied.objdata + k⟩ hBlock
    simp only [hSome, BSONElement.key, hCopy.valuesize_eq,
      hCopy.name, bind, Except.bind]
    exact caught_ok _ _

------------------------------------------------------------
-- Space in the Data File
------------------------------------------------------------

namespace DmsFile

/-
  Where a damaged header lets the place of the record reach
  into it, the record's key can be read nevertheless, or the
  library refuses what is left of the record.
-/
def KeyKept
    (exts : List Extension)
    (s : DmsFile)
    (record : BSONObj) : Prop :=
  ∀ t p page,
    PlacedOn record.length exts
      (if dmsMaxRecord < record.length then edbInvalidArg
        else edbOk) s edbOk t p →
    t.pageToOffset p = some page →
    Page.magic t.file page = dmsPageMagic →
    let m := (t.prepared page record.length).file
    noRoom m page record.length = false →
    offsetData m page record.length + sizeofRecord <
      sizeofPageHeader →
    KeyRead ⟨writtenOver m page record,
      page + offsetData m page record.length + sizeofRecord⟩

variable {s : DmsFile} {exts : List Extension}
variable {record : BSONObj}

/- Whether the loop comes to an end is seen from the map. -/
theorem pageFound_iff
    (n : Nat)
    (exts : List Extension)
    (s : DmsFile) :
    PageFound n exts s ↔
      PageOffered n exts s.freeSpaceMap := by
  induction exts generalizing s with
  | nil => exact s.findPage_offers n
  | cons ext exts ih =>
      unfold PageFound PageOffered
      rw [s.findPage_offers n]
      apply or_congr_right
      by_cases hSuccess : ext = .success
      · subst hSuccess
        rw [extendSegment_success, ih]
        simp only [ne_eq, not_true_eq_false, false_or]
        rfl
      · exact iff_of_true
          (Or.inl (s.extendSegment_ne_ok hSuccess))
          (Or.inl hSuccess)

/- The pages of an orderly file have intact headers. -/
theorem Orderly.placed_behind
    {rc rc' : Int}
    {t : DmsFile}
    {p page : Nat}
    (hOrderly : Orderly s record.length)
    (hFits : s.numPages + dmsPagesPerSegment * exts.length <
      4294967296)
    (hPlaced : PlacedOn record.length exts rc s rc' t p)
    (hOffset : t.pageToOffset p = some page)
    (hRoom : noRoom (t.prepared page record.length).file page
      record.length = false) :
    sizeofPageHeader ≤
      offsetData (t.prepared page record.length).file page
        record.length + sizeofRecord := by
  have hLast := hOrderly.placedOn hFits hPlaced
  have hPage : p < t.getNumPages := by
    by_contra hOut
    rw [pageToOffset_none (Nat.le_of_not_lt hOut)] at hOffset
    cases hOffset
  obtain rfl : t.pageAt p = page := by
    rw [pageAt, hOffset, Option.getD_some]
  have hShape := hLast.prepared_shape hPage
  have hFree := room_of_noRoom hShape hRoom
  have hPlace := hShape.offsetData_eq hFree
  have hSlots := hShape.slots
  simp only [Page.Room, sizeofPageHeader, sizeofRecord,
    sizeofSlot] at hFree hPlace hSlots ⊢
  omega

theorem Orderly.keyKept
    (hOrderly : Orderly s record.length)
    (hFits : s.numPages + dmsPagesPerSegment * exts.length <
      4294967296) :
    s.KeyKept exts record := by
  intro t p page hPlaced hOffset _ m hRoom hOver
  have hBehind := hOrderly.placed_behind hFits hPlaced hOffset
    hRoom
  exact absurd hOver (Nat.not_lt.mpr hBehind)

/- Behind the header the copy is the record. -/
theorem writtenOver_sameRecord
    {m : Memory}
    {page : Nat}
    (hWalk : record.Walkable)
    (hFour : 4 ≤ record.length)
    (hBehind : sizeofPageHeader ≤
      offsetData m page record.length + sizeofRecord) :
    SameRecord record ⟨writtenOver m page record,
      page + offsetData m page record.length +
        sizeofRecord⟩ := by
  have hCopy := writtenOver_same m page record hBehind
  refine ⟨hWalk, by omega, ?_, hCopy⟩
  unfold BSONObj.length
  rw [BSONObj.objsize_of_same hFour hCopy]

end DmsFile

------------------------------------------------------------
-- Insertions
------------------------------------------------------------

section Insert

variable {h : List UInt8 → Nat} {s : Rtn}
variable {record : BSONObj} {exts : List DmsFile.Extension}

/- A copy of a record with a key gets an entry. -/
theorem SameRecord.createIndex_ok
    {m : Memory}
    {mgr : IxmBucketManager}
    {copied : BSONObj}
    (hSame : SameRecord record copied)
    (hUnknown : Unknown h m mgr record)
    (mgr' : IxmBucketManager)
    (rid : DmsRecordID) :
    ∃ ixm, createIndex h mgr' copied rid =
      .ok (edbOk, ixm) := by
  rcases hUnknown with ⟨e, k, hId, _⟩
  have hSome := processData_some_iff.mpr
    ⟨hId.field, hId.idType⟩
  rcases hSame.processData_cases with ⟨hNone, _⟩ |
    ⟨d, w, n, l, _, hFound, hElem, hBlock⟩
  · rw [hNone] at hSome
    cases Except.ok.inj hSome
  · have hCopy := hElem.congr
      ⟨copied.mem, copied.objdata + d⟩ hBlock
    simp only [createIndex, hFound, hashNum, BSONElement.key,
      hCopy.valuesize_eq, hCopy.name, bind, Except.bind]
    exact ⟨_, rfl⟩

/- The steps of an insertion that returns no error. -/
theorem Rtn.rtnInsert_ok
    {t : Rtn}
    (hCall : s.rtnInsert h exts record = .ok (edbOk, t)) :
    isIDExist h s.dmsFile.file s.ixmBucketMgr record =
        .ok edbOk ∧
      ∃ r data rid, s.dmsFile.insert exts record = .ok r ∧
        r.rc = edbOk ∧ r.written = some (data, rid) ∧
        t.dmsFile = r.state := by
  unfold Rtn.rtnInsert at hCall
  rcases bind_ok hCall with ⟨rc, hCheck, hRest⟩
  by_cases hPassed : rc = 0
  · subst hPassed
    rw [if_neg (by decide)] at hRest
    rcases bind_ok hRest with ⟨r, hInsert, hLast⟩
    by_cases hCode : r.rc = 0
    · rw [if_neg (not_not.mpr hCode)] at hLast
      rcases DmsFile.insertLoop_ok_written hInsert hCode with
        ⟨data, rid, hWritten⟩
      simp only [hWritten] at hLast
      rcases bind_ok hLast with ⟨_, _, hState⟩
      refine ⟨hCheck, r, data, rid, hInsert, hCode, hWritten,
        ?_⟩
      have hPair := Except.ok.inj hState
      rw [← (Prod.mk.inj hPair).2]
    · rw [if_pos hCode] at hLast
      have hPair := Except.ok.inj hLast
      exact absurd (Prod.mk.inj hPair).1 hCode
  · rw [if_pos hPassed] at hRest
    have hPair := Except.ok.inj hRest
    exact absurd (Prod.mk.inj hPair).1 hPassed

/-
  The store can end the insertion of a record: the entries
  under its key can be compared, and if none has the key, the
  free-space map offers a page or an extension fails, and the
  key survives on the page.
-/
structure Rtn.Settles
    (h : List UInt8 → Nat)
    (exts : List DmsFile.Extension)
    (s : Rtn)
    (record : BSONObj) : Prop where
  searchable :
    Searchable h s.dmsFile.file s.ixmBucketMgr record
  offered :
    Unknown h s.dmsFile.file s.ixmBucketMgr record →
    DmsFile.PageOffered record.length exts
      s.dmsFile.freeSpaceMap
  kept :
    Unknown h s.dmsFile.file s.ixmBucketMgr record →
    s.dmsFile.KeyKept exts record

/-
  When a handler that catches the exceptions of the library
  sees the end of an insertion, in any state of the store.
-/
theorem Rtn.insertEnds_iff
    (hWalk : record.Walkable)
    (hValid : record.isValid = true)
    (hFour : 4 ≤ record.length) :
    s.InsertEnds h exts record ↔
      s.Settles h exts record := by
  have hPositive : 0 < record.length := by omega
  have hCheck := @isIDExist_caught_iff h s.dmsFile.file
    s.ixmBucketMgr record hWalk hPositive
  constructor
  · intro hEnds
    have hSearch := hCheck.mp hEnds.check
    have hOk := isIDExist_ok_iff hWalk hPositive hSearch
    refine ⟨hSearch, ?_, ?_⟩
    · intro hUnknown
      exact (DmsFile.pageFound_iff _ _ _).mp
        (hEnds.page (hOk.mpr hUnknown))
    · intro hUnknown t p page hPlaced hOffset hMagic m hRoom _
      rcases DmsFile.insertPage_written hFour hValid hOffset
        hMagic hRoom edbOk with
        ⟨r, rid, hCall, hCode, hWritten, hFile⟩
      have hInsert : s.dmsFile.insert exts record = .ok r := by
        rw [DmsFile.insert, hPlaced.insertLoop_eq, hCall]
      have hIndex := hEnds.index (hOk.mpr hUnknown) r _ rid
        hInsert hCode hWritten
      rw [createIndex_caught_iff, hFile] at hIndex
      exact hIndex
  · intro hSettles
    have hSearch := hSettles.searchable
    have hOk := isIDExist_ok_iff hWalk hPositive hSearch
    refine ⟨hCheck.mpr hSearch, ?_, ?_⟩
    · intro hPassed
      exact (DmsFile.pageFound_iff _ _ _).mpr
        (hSettles.offered (hOk.mp hPassed))
    · intro hPassed r data rid hCall hCode hWritten
      rw [createIndex_caught_iff]
      rcases DmsFile.insertLoop_placed hCall hWritten with
        ⟨rc, t, p, hPlaced, hPage⟩
      rcases DmsFile.insertPage_of_written hFour hValid hPage
        hWritten with
        ⟨page, hOffset, hMagic, hRoom, hSame, hData, hFile⟩
      rw [hSame] at hCode
      subst hCode
      rw [hFile, hData]
      by_cases hOver : DmsFile.offsetData
          (t.prepared page record.length).file page
            record.length + sizeofRecord < sizeofPageHeader
      · exact hSettles.kept (hOk.mp hPassed) t p page hPlaced
          hOffset hMagic hRoom hOver
      · have hSame := DmsFile.writtenOver_sameRecord hWalk
          hFour (Nat.le_of_not_lt hOver)
        exact hSame.keyRead

/- On a sound file the pages themselves tell. -/
theorem Rtn.settles_iff
    (hSound : s.dmsFile.Sound)
    (hFits : s.dmsFile.numPages +
      dmsPagesPerSegment * exts.length < 4294967296) :
    s.Settles h exts record ↔
      Searchable h s.dmsFile.file s.ixmBucketMgr record ∧
        (Unknown h s.dmsFile.file s.ixmBucketMgr record →
          s.dmsFile.SpaceFound exts record.length) := by
  have hSpace := hSound.offered_iff (n := record.length)
    hFits
  constructor
  · intro hSettles
    exact ⟨hSettles.searchable,
      fun hUnknown => hSpace.mp (hSettles.offered hUnknown)⟩
  · rintro ⟨hSearch, hPlace⟩
    exact ⟨hSearch,
      fun hUnknown => hSpace.mpr (hPlace hUnknown),
      fun _ => (hSound.orderly record.length).keyKept hFits⟩

/-
  On an orderly file an insertion returns no error exactly
  when no entry has the record's key and a page has room.
-/
theorem Rtn.rtnInsert_ok_iff
    (hOrderly : s.dmsFile.Orderly record.length)
    (hFits : s.dmsFile.numPages +
      dmsPagesPerSegment * exts.length < 4294967296)
    (hWalk : record.Walkable)
    (hValid : record.isValid = true)
    (hFour : 4 ≤ record.length)
    (hSearch :
      Searchable h s.dmsFile.file s.ixmBucketMgr record) :
    (∃ t, s.rtnInsert h exts record = .ok (edbOk, t)) ↔
      Unknown h s.dmsFile.file s.ixmBucketMgr record ∧
        DmsFile.RoomFound exts s.dmsFile record := by
  have hPositive : 0 < record.length := by omega
  have hOk := isIDExist_ok_iff hWalk hPositive hSearch
  have hRoom := @DmsFile.insert_ok_iff s.dmsFile exts record
    hFour hValid
  constructor
  · rintro ⟨t, hCall⟩
    rcases Rtn.rtnInsert_ok hCall with
      ⟨hPassed, r, data, rid, hInsert, hCode, _⟩
    exact ⟨hOk.mp hPassed, hRoom.mp ⟨r, hInsert, hCode⟩⟩
  · rintro ⟨hUnknown, hFound⟩
    rcases hRoom.mpr hFound with ⟨r, hInsert, hCode⟩
    rcases DmsFile.insertLoop_ok_written hInsert hCode with
      ⟨data, rid, hWritten⟩
    rcases DmsFile.insertLoop_placed hInsert hWritten with
      ⟨rc, t, p, hPlaced, hPage⟩
    rcases DmsFile.insertPage_of_written hFour hValid hPage
      hWritten with
      ⟨page, hOffset, _, hFree, _, hData, hFile⟩
    have hBehind := hOrderly.placed_behind hFits hPlaced
      hOffset hFree
    have hSame := DmsFile.writtenOver_sameRecord hWalk hFour
      hBehind
    rw [← hFile, ← hData] at hSame
    rcases hSame.createIndex_ok (h := h) hUnknown
      s.ixmBucketMgr rid with ⟨mgr, hIndex⟩
    refine ⟨⟨r.state, mgr⟩, ?_⟩
    simp only [Rtn.rtnInsert, hOk.mpr hUnknown, hInsert, hCode,
      hWritten, hIndex, bind, Except.bind, ne_eq,
      not_true_eq_false, if_false]
    rfl

/- The record that it inserts is one more. -/
theorem Rtn.rtnInsert_enters
    {t : Rtn}
    (hOrderly : s.dmsFile.Orderly record.length)
    (hFits : s.dmsFile.numPages +
      dmsPagesPerSegment * exts.length < 4294967296)
    (hFour : 4 ≤ record.length)
    (hValid : record.isValid = true)
    (hCall : s.rtnInsert h exts record = .ok (edbOk, t)) :
    ∃ rid, DmsFile.Enters s.dmsFile t.dmsFile rid record := by
  rcases Rtn.rtnInsert_ok hCall with
    ⟨_, r, data, rid, hInsert, _, hWritten, hState⟩
  rw [hState]
  exact ⟨rid, hOrderly.insert_enters hFits hFour hValid
    hInsert hWritten⟩

end Insert

------------------------------------------------------------
-- Lookups
------------------------------------------------------------

/- A lookup throws if the record's length is out of range. -/
theorem DmsFile.find_returns_iff
    {s : DmsFile}
    {rid : DmsRecordID} :
    Returns (s.find rid) ↔
      ∀ page, s.pageToOffset rid.pageID = some page →
        s.Readable page rid := by
  unfold find Readable
  cases hOffset : s.pageToOffset rid.pageID with
  | none => simp
  | some page =>
      simp only [Option.some.injEq, forall_eq']
      rcases s.searchSlot page rid with ⟨rc, slot⟩
      simp only
      by_cases hCode : rc = 0
      · by_cases hEmpty : slot = dmsSlotEmpty
        · simp [hCode, hEmpty]
        · by_cases hFlag : Page.recordFlag s.file
              (page + slot) = dmsRecordFlagDropped
          · simp [hCode, hEmpty, hFlag]
          · simp only [hCode, hEmpty, hFlag, ne_eq,
              not_true_eq_false, not_false_eq_true, if_false,
              forall_true_left, BSONObj.ofData]
            split
            · rename_i hValid
              exact iff_of_true (returns_ok _) hValid
            · rename_i hInvalid
              exact iff_of_false (not_returns_error _) hInvalid
      · simp [hCode]

end EmeraldDb
