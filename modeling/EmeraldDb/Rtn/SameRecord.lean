import EmeraldDb.Bson.Walk
import EmeraldDb.Rtn.Returns

/-
  The calls of the record store for a copied record.

  Where a record is walked without leaving it, a call of the
  store depends on its bytes only: for another record with
  the same bytes it has the same result, whatever lies behind
  the two records.

  Key definitions include:
    * `SameRecord`

  Key results include:
    * `SameRecord.rtnInsert_congr`
    * `SameRecord.rtnFind_congr`
    * `SameRecord.rtnRemove_congr`
-/

namespace EmeraldDb

open IxmBucketManager

/- Two records with the same bytes, which can be walked. -/
structure SameRecord (o o' : BSONObj) : Prop where
  walk : o.Walkable
  positive : 0 < o.length
  length : o'.length = o.length
  bytes : Memory.Same o.mem o.objdata o'.mem o'.objdata
    o.length

namespace SameRecord

variable {o o' : BSONObj} {h : List UInt8 → Nat}

------------------------------------------------------------
-- The Index
------------------------------------------------------------

/- Both have no `_id`, or both have it at the same place. -/
theorem processData_cases
    (hSame : SameRecord o o') :
    (processData o = .ok none ∧ processData o' = .ok none) ∨
      ∃ k s n l,
        processData o = .ok (some ⟨o.mem, o.objdata + k⟩) ∧
        processData o' =
          .ok (some ⟨o'.mem, o'.objdata + k⟩) ∧
        BSONElement.Within ⟨o.mem, o.objdata + k⟩ s n l ∧
        Memory.Same o.mem (o.objdata + k) o'.mem
          (o'.objdata + k) l := by
  rcases hSame.walk.fieldOffset_cases o' hSame.positive
      hSame.length hSame.bytes ixmKeyFieldName_nonzero with
    ⟨found, hFound, hFound', hSpec⟩
  cases found with
  | none =>
      left
      simp [processData, BSONObj.getField, hFound, hFound',
        bind, Except.bind, pure, Except.pure]
  | some k =>
      rcases hSpec k rfl with ⟨hInside, s, n, hElem⟩
      have hBlock : Memory.Same o.mem (o.objdata + k) o'.mem
          (o'.objdata + k) (o.length - k) :=
        hSame.bytes.slice (by omega)
      have hType := hElem.type_congr
        ⟨o'.mem, o'.objdata + k⟩ hBlock
      simp only [processData, BSONObj.getField, hFound,
        hFound', bind, Except.bind, pure, Except.pure,
        Option.map_some, hType]
      by_cases hOther :
          BSONType.ofByte (BSONElement.type
              ⟨o.mem, o.objdata + k⟩) ≠ some .numberInt ∧
            BSONType.ofByte (BSONElement.type
              ⟨o.mem, o.objdata + k⟩) ≠ some .string
      · left
        rw [if_pos hOther, if_pos hOther]
        exact ⟨rfl, rfl⟩
      · right
        rw [if_neg hOther, if_neg hOther]
        exact ⟨k, s, n, o.length - k, rfl, rfl, hElem, hBlock⟩

theorem firstMatch_congr
    (e' : BSONElement)
    {e : BSONElement}
    {s n l : Nat}
    (hElem : BSONElement.Within e s n l)
    (hBlock : Memory.Same e.mem e.data e'.mem e'.data l)
    (m : Memory)
    (vs : List IxmEleHash) :
    firstMatch m e' vs = firstMatch m e vs := by
  induction vs with
  | nil => rfl
  | cons v vs ih =>
      simp only [firstMatch, ih,
        hElem.sameKey_congr e' hBlock ⟨m, v.data⟩]

theorem isIDExist_congr
    (hSame : SameRecord o o')
    (m : Memory)
    (mgr : IxmBucketManager) :
    isIDExist h m mgr o' = isIDExist h m mgr o := by
  rcases hSame.processData_cases with ⟨hNone, hNone'⟩ |
    ⟨k, s, n, l, hSome, hSome', hElem, hBlock⟩
  · simp only [isIDExist, hNone, hNone']
  · have hKey := hElem.key_congr
      ⟨o'.mem, o'.objdata + k⟩ hBlock
    have hMatch := firstMatch_congr
      ⟨o'.mem, o'.objdata + k⟩ hElem hBlock m
    simp only [isIDExist, hSome, hSome', hashNum, hKey, hMatch,
      bind, Except.bind]

theorem removeIndex_congr
    (hSame : SameRecord o o')
    (m : Memory)
    (mgr : IxmBucketManager) :
    removeIndex h m mgr o' = removeIndex h m mgr o := by
  rcases hSame.processData_cases with ⟨hNone, hNone'⟩ |
    ⟨k, s, n, l, hSome, hSome', hElem, hBlock⟩
  · simp only [removeIndex, hNone, hNone']
  · have hKey := hElem.key_congr
      ⟨o'.mem, o'.objdata + k⟩ hBlock
    have hMatch := firstMatch_congr
      ⟨o'.mem, o'.objdata + k⟩ hElem hBlock m
    simp only [removeIndex, hSome, hSome', hashNum, hKey,
      hMatch, bind, Except.bind]

theorem findIndex_congr
    (hSame : SameRecord o o')
    (m : Memory)
    (mgr : IxmBucketManager) :
    findIndex h m mgr o' = findIndex h m mgr o := by
  rw [findIndex_eq_map, findIndex_eq_map,
    hSame.removeIndex_congr]

------------------------------------------------------------
-- The Data File
------------------------------------------------------------

theorem writeRecord_congr
    (hSame : SameRecord o o')
    (m : Memory)
    (page : Nat) :
    DmsFile.writeRecord m page o' =
      DmsFile.writeRecord m page o := by
  unfold DmsFile.writeRecord
  simp only [hSame.length]
  funext x
  unfold Memory.copy
  split
  · rename_i hInside
    exact (hSame.bytes _ (by omega)).symm
  · rfl

theorem insertPage_congr
    (hSame : SameRecord o o')
    (s : DmsFile)
    (pageID : Nat)
    (rc : Int) :
    s.insertPage pageID o' rc = s.insertPage pageID o rc := by
  simp only [DmsFile.insertPage, DmsFile.insertRecord,
    hSame.length, hSame.writeRecord_congr]

theorem insertLoop_congr
    (hSame : SameRecord o o')
    (exts : List DmsFile.Extension)
    (rc : Int)
    (s : DmsFile) :
    DmsFile.insertLoop o' exts rc s =
      DmsFile.insertLoop o exts rc s := by
  induction exts generalizing rc s with
  | nil =>
      simp only [DmsFile.insertLoop, hSame.length,
        hSame.insertPage_congr]
  | cons ext exts ih =>
      simp only [DmsFile.insertLoop, hSame.length,
        hSame.insertPage_congr, ih]

theorem insert_congr
    (hSame : SameRecord o o')
    (exts : List DmsFile.Extension)
    (s : DmsFile) :
    s.insert exts o' = s.insert exts o := by
  simp only [DmsFile.insert, hSame.length,
    hSame.insertLoop_congr]

------------------------------------------------------------
-- The Store
------------------------------------------------------------

theorem rtnInsert_congr
    (hSame : SameRecord o o')
    (exts : List DmsFile.Extension)
    (s : Rtn) :
    s.rtnInsert h exts o' = s.rtnInsert h exts o := by
  simp only [Rtn.rtnInsert, hSame.isIDExist_congr,
    hSame.insert_congr]

theorem rtnFind_congr
    (hSame : SameRecord o o')
    (s : Rtn) :
    s.rtnFind h o' = s.rtnFind h o := by
  simp only [Rtn.rtnFind, hSame.findIndex_congr]

theorem rtnRemove_congr
    (hSame : SameRecord o o')
    (s : Rtn) :
    s.rtnRemove h o' = s.rtnRemove h o := by
  simp only [Rtn.rtnRemove, hSame.removeIndex_congr]

end SameRecord

end EmeraldDb
