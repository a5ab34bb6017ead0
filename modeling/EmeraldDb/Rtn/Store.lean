import EmeraldDb.Bson.Document
import EmeraldDb.Lib.Transition
import EmeraldDb.Rtn.Calls

/-
  The record store as a map from keys to documents.

  A run of the store is a sequence of calls with their
  answers.  The answers are those of a finite map as long as
  every insertion is one that the data file can place.

  Key definitions include:
    * `StoreOp`
    * `StoreStep`
    * `MapStep`
    * `LossyStep`
    * `Represents`

  Key results include:
    * `store_refines_map`
    * `store_not_map`
-/

namespace EmeraldDb

open IxmBucketManager

------------------------------------------------------------
-- Calls and Answers
------------------------------------------------------------

inductive StoreOp
| insert (record : BSONObj)
| find (inRecord : BSONObj)
| remove (record : BSONObj)

namespace StoreOp

/- The argument of a call. -/
def argument : StoreOp → BSONObj
| insert record => record
| find inRecord => inRecord
| remove record => record

end StoreOp

abbrev Document :=
  List UInt8

/- Result code and, for a lookup, the copied document. -/
structure StoreAnswer where
  rc : Int
  document : Option Document
deriving DecidableEq

abbrev StoreEvent :=
  StoreOp × StoreAnswer

/-
  A call that returns.  Extensions succeed, and an insertion
  may make any number of them.
-/
inductive StoreStep
    (h : List UInt8 → Nat) :
    Rtn → StoreEvent → Rtn → Prop
| insert
    {s t : Rtn}
    {record : BSONObj}
    {rc : Int}
    (n : Nat)
    (hCall : s.rtnInsert h (List.replicate n .success)
      record = .ok (rc, t)) :
    StoreStep h s (.insert record, ⟨rc, none⟩) t
| find
    {s : Rtn}
    {inRecord : BSONObj}
    {rc : Int}
    {found : Option BSONObj}
    (hCall : s.rtnFind h inRecord = .ok (rc, found)) :
    StoreStep h s
      (.find inRecord, ⟨rc, found.map BSONObj.document⟩) s
| remove
    {s t : Rtn}
    {record : BSONObj}
    {rc : Int}
    (hCall : s.rtnRemove h record = .ok (rc, t)) :
    StoreStep h s (.remove record, ⟨rc, none⟩) t

------------------------------------------------------------
-- The Map
------------------------------------------------------------

abbrev Contents :=
  BSONElement.Key → Option Document

/- The map without documents. -/
def Contents.empty : Contents :=
  fun _ => none

/- What a map from keys to documents answers. -/
inductive MapStep :
    Contents → StoreEvent → Contents → Prop
| inserted
    {f : Contents}
    {record : BSONObj}
    {k : BSONElement.Key}
    (hKey : idKey record = some k)
    (hFresh : f k = none) :
    MapStep f (.insert record, ⟨edbOk, none⟩)
      (Function.update f k (some record.document))
| refused
    {f : Contents}
    {record : BSONObj}
    {rc : Int}
    (hCode : rc ≠ edbOk) :
    MapStep f (.insert record, ⟨rc, none⟩) f
| found
    {f : Contents}
    {inRecord : BSONObj}
    {k : BSONElement.Key}
    {d : Document}
    (hKey : idKey inRecord = some k)
    (hIn : f k = some d) :
    MapStep f (.find inRecord, ⟨edbOk, some d⟩) f
| missed
    {f : Contents}
    {inRecord : BSONObj}
    {rc : Int}
    (hAbsent : ∀ k, idKey inRecord = some k → f k = none)
    (hCode : rc ≠ edbOk) :
    MapStep f (.find inRecord, ⟨rc, none⟩) f
| removed
    {f : Contents}
    {record : BSONObj}
    {k : BSONElement.Key}
    {d : Document}
    (hKey : idKey record = some k)
    (hIn : f k = some d) :
    MapStep f (.remove record, ⟨edbOk, none⟩)
      (Function.update f k none)
| unremoved
    {f : Contents}
    {record : BSONObj}
    {rc : Int}
    (hAbsent : ∀ k, idKey record = some k → f k = none)
    (hCode : rc ≠ edbOk) :
    MapStep f (.remove record, ⟨rc, none⟩) f

/-
  A call whose answer arrives was made, once.  Without an
  answer, it was made once or not at all.
-/
inductive LossyStep :
    Contents → StoreOp × Option StoreAnswer → Contents → Prop
| answered
    {f g : Contents}
    {op : StoreOp}
    {answer : StoreAnswer}
    (hMap : MapStep f (op, answer) g) :
    LossyStep f (op, some answer) g
| lostReply
    {f g : Contents}
    {op : StoreOp}
    {answer : StoreAnswer}
    (hMap : MapStep f (op, answer) g) :
    LossyStep f (op, none) g
| lostRequest
    (f : Contents)
    (op : StoreOp) :
    LossyStep f (op, none) f

/-
  The live records of a file are the documents of a map: one
  record for every key in the map, with the document's bytes.
-/
structure Represents
    (s : DmsFile)
    (f : Contents) : Prop where
  distinct : Rtn.Distinct s
  mem : ∀ k d, f k = some d ↔ ∃ rid,
    s.Live rid ∧ s.HasKey rid k ∧ (s.object rid).document = d

namespace Represents

variable {s t : DmsFile} {f : Contents}
variable {k : BSONElement.Key}

theorem absent_iff
    (hMap : Represents s f) :
    f k = none ↔ ∀ rid, s.Live rid → ¬ s.HasKey rid k := by
  constructor
  · intro hNone rid hLive hKey
    have hSome := (hMap.mem k _).mpr
      ⟨rid, hLive, hKey, rfl⟩
    rw [hNone] at hSome
    simp at hSome
  · intro hAbsent
    cases hCase : f k with
    | none => rfl
    | some d =>
        rcases (hMap.mem k d).mp hCase with
          ⟨rid, hLive, hKey, _⟩
        exact absurd hKey (hAbsent rid hLive)

/- The map of a file with the same records. -/
theorem of_kept
    (hMap : Represents s f)
    (hGood : s.Good)
    (hKeyed : ∀ rid, s.Live rid → ∃ k, s.HasKey rid k)
    (hLive : ∀ rid, t.Live rid ↔ s.Live rid)
    (hKept : ∀ rid, s.Live rid → DmsFile.Kept s t rid) :
    Represents t f := by
  have hKey : ∀ rid, s.Live rid → ∀ k,
      (t.HasKey rid k ↔ s.HasKey rid k) :=
    fun rid hl k => (hKept rid hl).keyAt_iff
      (hGood.form hl) (hKeyed rid hl) k
  refine ⟨?_, ?_⟩
  · intro rid rid' k hl hl' hHas hHas'
    rw [hLive] at hl hl'
    rw [hKey _ hl] at hHas
    rw [hKey _ hl'] at hHas'
    exact hMap.distinct rid rid' k hl hl' hHas hHas'
  · intro k d
    rw [hMap.mem]
    constructor
    · rintro ⟨rid, hl, hHas, hDocument⟩
      refine ⟨rid, (hLive rid).mpr hl,
        (hKey rid hl k).mpr hHas, ?_⟩
      rw [← hDocument]
      exact (hKept rid hl).document_eq (hGood.form hl)
    · rintro ⟨rid, hl, hHas, hDocument⟩
      rw [hLive] at hl
      refine ⟨rid, hl, (hKey rid hl k).mp hHas, ?_⟩
      rw [← hDocument]
      exact ((hKept rid hl).document_eq
        (hGood.form hl)).symm

/- The map of a file whose records all stay. -/
theorem unchanged
    (hMap : Represents s f)
    (hGood : s.Good)
    (hKeyed : ∀ rid, s.Live rid → ∃ k, s.HasKey rid k)
    (hSame : DmsFile.Unchanged s t) :
    Represents t f :=
  hMap.of_kept hGood hKeyed hSame.live hSame.kept

/- A record with a new key adds that key to the map. -/
theorem added
    (hMap : Represents s f)
    (hGood : s.Good)
    (hKeyed : ∀ rid, s.Live rid → ∃ k, s.HasKey rid k)
    {record : BSONObj}
    {rid : DmsRecordID}
    {off : Nat}
    (hForm : record.WellFormed)
    (hId : HasId record off k)
    (hFresh : ∀ r, s.Live r → ¬ s.HasKey r k)
    (hAdded : DmsFile.Added s t rid record) :
    Represents t
      (Function.update f k (some record.document)) := by
  have hKey : ∀ r, s.Live r → ∀ l,
      (t.HasKey r l ↔ s.HasKey r l) :=
    fun r hLive l => (hAdded.kept r hLive).keyAt_iff
      (hGood.form hLive) (hKeyed r hLive) l
  have hNew : t.HasKey rid k :=
    ⟨off, hAdded.keyAt hForm hId⟩
  have hDocument := hAdded.document_eq hForm
  refine ⟨?_, ?_⟩
  · intro r r' l hLive hLive' hHas hHas'
    rcases (hAdded.live r).mp hLive with rfl | hOld
    · rcases (hAdded.live r').mp hLive' with rfl | hOld'
      · rfl
      · rw [hKey r' hOld', hHas.unique hNew] at hHas'
        exact absurd hHas' (hFresh r' hOld')
    · rcases (hAdded.live r').mp hLive' with rfl | hOld'
      · rw [hKey r hOld, hHas'.unique hNew] at hHas
        exact absurd hHas (hFresh r hOld)
      · rw [hKey r hOld] at hHas
        rw [hKey r' hOld'] at hHas'
        exact hMap.distinct r r' l hOld hOld' hHas hHas'
  · intro l d
    by_cases hEq : l = k
    · subst hEq
      rw [Function.update_self, Option.some.injEq]
      constructor
      · intro hSame
        exact ⟨rid, (hAdded.live rid).mpr (Or.inl rfl), hNew,
          hDocument.trans hSame⟩
      · rintro ⟨r, hLive, hHas, hSame⟩
        rcases (hAdded.live r).mp hLive with rfl | hOld
        · exact hDocument.symm.trans hSame
        · rw [hKey r hOld] at hHas
          exact absurd hHas (hFresh r hOld)
    · rw [Function.update_of_ne hEq, hMap.mem]
      constructor
      · rintro ⟨r, hLive, hHas, hSame⟩
        refine ⟨r, (hAdded.live r).mpr (Or.inr hLive),
          (hKey r hLive l).mpr hHas, ?_⟩
        rw [← hSame]
        exact (hAdded.kept r hLive).document_eq
          (hGood.form hLive)
      · rintro ⟨r, hLive, hHas, hSame⟩
        rcases (hAdded.live r).mp hLive with rfl | hOld
        · exact absurd (hHas.unique hNew) hEq
        · refine ⟨r, hOld, (hKey r hOld l).mp hHas, ?_⟩
          rw [← hSame]
          exact ((hAdded.kept r hOld).document_eq
            (hGood.form hOld)).symm

/- Removing the record of a key takes the key out. -/
theorem removed
    (hMap : Represents s f)
    (hGood : s.Good)
    (hKeyed : ∀ rid, s.Live rid → ∃ k, s.HasKey rid k)
    {rid : DmsRecordID}
    (hLive : s.Live rid)
    (hHas : s.HasKey rid k)
    (hRemoved : DmsFile.Removed s t rid) :
    Represents t (Function.update f k none) := by
  have hKey : ∀ r, r ≠ rid → s.Live r → ∀ l,
      (t.HasKey r l ↔ s.HasKey r l) :=
    fun r hNe hl l => (hRemoved.kept r hNe hl).keyAt_iff
      (hGood.form hl) (hKeyed r hl) l
  refine ⟨?_, ?_⟩
  · intro r r' l hl hl' hOne hTwo
    rw [hRemoved.live] at hl hl'
    rw [hKey r hl.1 hl.2] at hOne
    rw [hKey r' hl'.1 hl'.2] at hTwo
    exact hMap.distinct r r' l hl.2 hl'.2 hOne hTwo
  · intro l d
    by_cases hEq : l = k
    · subst hEq
      rw [Function.update_self]
      constructor
      · intro hNone
        simp at hNone
      · rintro ⟨r, hl, hOne, _⟩
        rw [hRemoved.live] at hl
        rw [hKey r hl.1 hl.2] at hOne
        exact absurd (hMap.distinct r rid l hl.2 hLive hOne
          hHas) hl.1
    · rw [Function.update_of_ne hEq, hMap.mem]
      constructor
      · rintro ⟨r, hl, hOne, hSame⟩
        have hNe : r ≠ rid := by
          intro hR
          exact hEq (hOne.unique (hR ▸ hHas))
        refine ⟨r, (hRemoved.live r).mpr ⟨hNe, hl⟩,
          (hKey r hNe hl l).mpr hOne, ?_⟩
        rw [← hSame]
        exact (hRemoved.kept r hNe hl).document_eq
          (hGood.form hl)
      · rintro ⟨r, hl, hOne, hSame⟩
        rw [hRemoved.live] at hl
        refine ⟨r, hl.2, (hKey r hl.1 hl.2 l).mp hOne, ?_⟩
        rw [← hSame]
        exact ((hRemoved.kept r hl.1 hl.2).document_eq
          (hGood.form hl.2)).symm

end Represents

------------------------------------------------------------
-- Calls on Text Documents
------------------------------------------------------------

/- Result code and state of a call, if it returned. -/
def callCode (r : Except Fault (Int × Rtn)) : Option Int :=
  match r with
  | .ok (rc, _) => some rc
  | .error _ => none

def stateAfter
    (s : Rtn)
    (r : Except Fault (Int × Rtn)) : Rtn :=
  match r with
  | .ok (_, t) => t
  | .error _ => s

theorem call_eq
    {s : Rtn}
    {r : Except Fault (Int × Rtn)}
    {rc : Int}
    (hCode : callCode r = some rc) :
    r = .ok (rc, stateAfter s r) := by
  cases r with
  | error e => simp [callCode] at hCode
  | ok v =>
      rcases v with ⟨rc', t⟩
      simp only [callCode, Option.some.injEq] at hCode
      rw [hCode]
      rfl

/- The new store over zero bytes. -/
def emptyStore : Rtn :=
  Rtn.created (fun _ => 0)

/- The store after inserting a document with one extension. -/
def insertDocument
    (s : Rtn)
    (id size : Nat) : Rtn :=
  stateAfter s (s.rtnInsert hashFunc [.success]
    (textDocument id size))

/- The store after removing the document with an id. -/
def removeDocument (s : Rtn) (id : Nat) : Rtn :=
  stateAfter s (s.rtnRemove hashFunc (textDocument id 22))

theorem insertDocument_step
    {s : Rtn}
    {id size : Nat}
    (hCode : callCode (s.rtnInsert hashFunc [.success]
      (textDocument id size)) = some edbOk) :
    StoreStep hashFunc s
      (.insert (textDocument id size), ⟨edbOk, none⟩)
      (insertDocument s id size) :=
  .insert 1 (call_eq hCode)

/- The store that the next process loads from the file. -/
def restartStore (s : Rtn) : Rtn :=
  stateAfter s (Rtn.init hashFunc .success (fun _ => none)
    s.dmsFile.file s.dmsFile.fileSize)

/- Result code of a lookup and the document that it found. -/
def callAnswer
    (r : Except Fault (Int × Option BSONObj)) :
    Option StoreAnswer :=
  match r with
  | .ok (rc, found) => some ⟨rc, found.map BSONObj.document⟩
  | .error _ => none

theorem findDocument_step
    {s : Rtn}
    {id : Nat}
    {answer : StoreAnswer}
    (hAnswer : callAnswer (s.rtnFind hashFunc
      (textDocument id 22)) = some answer) :
    StoreStep hashFunc s
      (.find (textDocument id 22), answer) s := by
  cases hCall : s.rtnFind hashFunc (textDocument id 22) with
  | error fault => simp [hCall, callAnswer] at hAnswer
  | ok r =>
      rcases r with ⟨rc, found⟩
      rw [hCall] at hAnswer
      obtain rfl := Option.some.inj hAnswer
      exact .find hCall

theorem removeDocument_step
    {s : Rtn}
    {id : Nat}
    (hCode : callCode (s.rtnRemove hashFunc
      (textDocument id 22)) = some edbOk) :
    StoreStep hashFunc s
      (.remove (textDocument id 22), ⟨edbOk, none⟩)
      (removeDocument s id) :=
  .remove (call_eq hCode)

------------------------------------------------------------
-- Refinement
------------------------------------------------------------

/-
  The arguments are well formed, and an insertion is one that
  the data file can place.
-/
def Admissible
    (h : List UInt8 → Nat)
    (s : Rtn) :
    StoreOp → Prop
| .insert record =>
    record.WellFormed ∧ Rtn.Insertable h s record
| .find inRecord => inRecord.WellFormed
| .remove record => record.WellFormed

/- Steps whose call is admissible. -/
abbrev AdmissibleStep (h : List UInt8 → Nat) :
    Rtn → StoreEvent → Rtn → Prop :=
  Guarded (fun s a => Admissible h s a.1) (StoreStep h)

/- The store and the map it stands for. -/
structure Simulates
    (h : List UInt8 → Nat)
    (s : Rtn)
    (f : Contents) : Prop where
  agrees : Rtn.Agrees h s ∅
  map : Represents s.dmsFile f

namespace Simulates

variable {h : List UInt8 → Nat} {s t : Rtn}
variable {f : Contents} {record : BSONObj} {rc : Int}

/- A key that no live record has is not in the map. -/
theorem absent
    (hSim : Simulates h s f)
    (hForm : record.WellFormed)
    (hAbsent : ∀ off k, HasId record off k →
      ∀ rid, s.dmsFile.Live rid → ¬ s.dmsFile.HasKey rid k) :
    ∀ k, idKey record = some k → f k = none := by
  intro k hKey
  rcases hForm.hasId_or_none with
    ⟨off, k', hId⟩ | ⟨_, hNone⟩
  · have hSame : k' = k := by
      simpa using hId.idKey_eq.symm.trans hKey
    exact hSim.map.absent_iff.mpr
      (hSame ▸ hAbsent off k' hId)
  · rw [hNone] at hKey
    simp at hKey

/- Every admissible step is a step of the map. -/
theorem step
    {a : StoreEvent}
    (hSim : Simulates h s f)
    (hStep : AdmissibleStep h s a t) :
    ∃ g, MapStep f a g ∧ Simulates h t g := by
  rcases hStep with ⟨hGuard, hStep⟩
  have hGood := hSim.agrees.file
  have hKeyed := hSim.agrees.keyed
  cases hStep with
  | insert n hCall =>
      have hClean : ∀ ext ∈
          List.replicate n DmsFile.Extension.success,
            ext.Clean := by
        intro ext hExt
        rw [(List.mem_replicate.mp hExt).2]
        trivial
      have hInserted := (hSim.agrees.inserted_of_call hGuard.1
        hGuard.2 hClean hCall).2
      cases hInserted with
      | added hId hFresh hAdded hAgrees =>
          exact ⟨_, .inserted hId.idKey_eq
            (hSim.map.absent_iff.mpr hFresh), hAgrees,
            hSim.map.added hGood hKeyed hGuard.1 hId hFresh
              hAdded⟩
      | refused hCode hSame hAgrees =>
          exact ⟨f, .refused hCode, hAgrees,
            hSim.map.unchanged hGood hKeyed hSame⟩
  | find hCall =>
      rcases hSim.agrees.rtnFind_cases hGuard with
        ⟨off, k, rid, hId, hLive, hHas, hFound⟩ |
          ⟨hAbsent, hMissed⟩
      · rw [hFound] at hCall
        simp only [Except.ok.injEq, Prod.mk.injEq] at hCall
        rw [← hCall.1, ← hCall.2]
        exact ⟨f, .found hId.idKey_eq
          ((hSim.map.mem k _).mpr ⟨rid, hLive, hHas, rfl⟩),
          hSim⟩
      · rw [hMissed] at hCall
        simp only [Except.ok.injEq, Prod.mk.injEq] at hCall
        rw [← hCall.1, ← hCall.2]
        exact ⟨f, .missed (hSim.absent hGuard hAbsent)
          (by decide), hSim⟩
  | remove hCall =>
      rcases hSim.agrees.rtnRemove_cases hGuard with
        ⟨off, k, rid, u, hId, hLive, hHas, hResult, _,
          hRemoved, hAgrees⟩ | ⟨hAbsent, hResult⟩
      · rw [hResult] at hCall
        simp only [Except.ok.injEq, Prod.mk.injEq] at hCall
        rw [← hCall.1, ← hCall.2]
        exact ⟨_, .removed hId.idKey_eq
          ((hSim.map.mem k _).mpr ⟨rid, hLive, hHas, rfl⟩),
          hAgrees, hSim.map.removed hGood hKeyed hLive hHas
            hRemoved⟩
      · rw [hResult] at hCall
        simp only [Except.ok.injEq, Prod.mk.injEq] at hCall
        rw [← hCall.1, ← hCall.2]
        exact ⟨f, .unremoved (hSim.absent hGuard hAbsent)
          (by decide), hSim⟩

/- Every admissible call returns. -/
theorem returns
    (hSim : Simulates h s f)
    {op : StoreOp}
    (hGuard : Admissible h s op) :
    ∃ answer t, StoreStep h s (op, answer) t := by
  cases op with
  | insert record =>
      have hClean : DmsFile.Extension.success.Clean := trivial
      rcases hSim.agrees.rtnInsert hGuard.1 hGuard.2 hClean []
        with ⟨rc, t, hCall, _, _⟩
      exact ⟨_, t, .insert 1 hCall⟩
  | find inRecord =>
      rcases hSim.agrees.rtnFind_cases hGuard with
        ⟨_, _, _, _, _, _, hCall⟩ | ⟨_, hCall⟩
      · exact ⟨_, s, .find hCall⟩
      · exact ⟨_, s, .find hCall⟩
  | remove record =>
      rcases hSim.agrees.rtnRemove_cases hGuard with
        ⟨_, _, _, t, _, _, _, hCall, _⟩ | ⟨_, hCall⟩
      · exact ⟨_, t, .remove hCall⟩
      · exact ⟨_, s, .remove hCall⟩

theorem created
    (h : List UInt8 → Nat)
    (file : Memory) :
    Simulates h (Rtn.created file) Contents.empty := by
  have hNone := DmsFile.created_not_live file
  refine ⟨Rtn.agrees_created h file, ?_, ?_⟩
  · intro rid _ _ hLive
    exact absurd hLive (hNone rid)
  · intro k d
    constructor
    · intro hSome
      simp [Contents.empty] at hSome
    · rintro ⟨rid, hLive, _⟩
      exact absurd hLive (hNone rid)

end Simulates

/-
  The answers of a run of admissible calls on a new store are
  those of a map, and every admissible call returns.
-/
theorem store_refines_map
    (h : List UInt8 → Nat)
    (file : Memory)
    {s t : Rtn}
    {as : List StoreEvent}
    (hInit : Rtn.init h .success (fun _ => none) file 0 =
      .ok (edbOk, s))
    (hRun : Steps (AdmissibleStep h) s as t) :
    ∃ f, Steps MapStep Contents.empty as f ∧
      Represents t.dmsFile f ∧
      ∀ op, Admissible h t op →
        ∃ answer u, StoreStep h t (op, answer) u := by
  rw [Rtn.init_created] at hInit
  simp only [Except.ok.injEq, Prod.mk.injEq, true_and]
    at hInit
  subst hInit
  have hMatched : ∀ s a t f, Simulates h s f →
      AdmissibleStep h s a t →
        ∃ g, MapStep f a g ∧ Simulates h t g :=
    fun _ _ _ _ hSim hStep => hSim.step hStep
  rcases hRun.simulation hMatched
      (Simulates.created h file) with
    ⟨f, hMap, hSim⟩
  exact ⟨f, hMap, hSim.map, fun _ hGuard =>
    hSim.returns hGuard⟩

/- Every small document can be placed in the empty store. -/
theorem emptyStore_placeable
    {record : BSONObj}
    (hSmall : record.length <
      dmsPageSize - sizeofPageHeader) :
    emptyStore.dmsFile.Placeable record := by
  refine ⟨hSmall, ?_, by decide⟩
  rintro ⟨page, hPage, _⟩
  have hNone := (DmsFile.good_created (fun _ => 0)).toLayout
    |>.pageToOffset_of_ge (p := DmsFile.findPage
      emptyStore.dmsFile record.length) (Nat.zero_le _)
  rw [show emptyStore.dmsFile = DmsFile.created (fun _ => 0)
    from rfl] at hPage hNone
  rw [hNone] at hPage
  simp at hPage

/- So it can where the page that is found has room. -/
theorem DmsFile.placeable_of_room
    {s : DmsFile}
    {record : BSONObj}
    {page : Nat}
    (hSmall : record.length < dmsPageSize - sizeofPageHeader)
    (hPage : s.pageToOffset (s.findPage record.length) =
      some page)
    (hRoom : DmsFile.needsRecover s.file page record.length =
      false)
    (hBound : s.body.length + 1 < maxSegments) :
    s.Placeable record := by
  refine ⟨hSmall, ?_, hBound⟩
  rintro ⟨page', hPage', hRecover, _⟩
  rw [hPage, Option.some.injEq] at hPage'
  subst hPage'
  rw [hRoom] at hRecover
  cases hRecover

/- A store with two documents on its first page. -/
def twoDocuments : Rtn :=
  insertDocument (insertDocument emptyStore 1 22) 2 22

theorem twoDocuments_codes :
    callCode (emptyStore.rtnInsert hashFunc [.success]
        (textDocument 1 22)) = some edbOk ∧
      callCode ((insertDocument emptyStore 1 22).rtnInsert
        hashFunc [.success] (textDocument 2 22)) =
          some edbOk := by
  constructor
  · decide +kernel
  · decide +kernel

theorem textDocument_small
    (id : Nat) :
    (textDocument id 22).length <
      dmsPageSize - sizeofPageHeader := by
  rw [textDocument_length (by decide)]
  decide

theorem textDocument_form
    {id : Nat}
    (hId : id < 4294967296) :
    (textDocument id 22).WellFormed :=
  textDocument_wellFormed hId (by decide) (by decide)

/- Both insertions are admissible. -/
theorem twoDocuments_steps :
    AdmissibleStep hashFunc emptyStore
        (.insert (textDocument 1 22), ⟨edbOk, none⟩)
        (insertDocument emptyStore 1 22) ∧
      AdmissibleStep hashFunc (insertDocument emptyStore 1 22)
        (.insert (textDocument 2 22), ⟨edbOk, none⟩)
        twoDocuments := by
  rcases twoDocuments_codes with ⟨hOne, hTwo⟩
  have hFirst : emptyStore.dmsFile.Placeable
      (textDocument 1 22) :=
    emptyStore_placeable (textDocument_small 1)
  have hSecond : (insertDocument emptyStore 1 22).dmsFile
      |>.Placeable (textDocument 2 22) :=
    DmsFile.placeable_of_room (textDocument_small 2)
      (by decide +kernel : _ = some dmsFileHeaderSize)
      (by decide +kernel) (by decide +kernel)
  constructor
  · exact ⟨⟨textDocument_form (by decide), fun _ => hFirst⟩,
      insertDocument_step hOne⟩
  · exact ⟨⟨textDocument_form (by decide), fun _ => hSecond⟩,
      insertDocument_step hTwo⟩

/-
  Two documents are inserted, the first one is found, removed
  and not found any more.
-/
theorem store_refines_map_twoDocuments :
    ∃ f, Steps MapStep Contents.empty
        [(.insert (textDocument 1 22), ⟨edbOk, none⟩),
          (.insert (textDocument 2 22), ⟨edbOk, none⟩),
          (.find (textDocument 1 22), ⟨edbOk,
            some (textDocument 1 22).document⟩),
          (.remove (textDocument 1 22), ⟨edbOk, none⟩),
          (.find (textDocument 1 22),
            ⟨edbInvalidArg, none⟩)] f ∧
      Represents (removeDocument twoDocuments 1).dmsFile f ∧
      ∀ op, Admissible hashFunc
          (removeDocument twoDocuments 1) op →
        ∃ answer u, StoreStep hashFunc
          (removeDocument twoDocuments 1) (op, answer) u := by
  have hForm : (textDocument 1 22).WellFormed :=
    textDocument_form (by decide)
  exact store_refines_map hashFunc (fun _ => 0)
    (Rtn.init_created hashFunc (fun _ => 0))
    (.cons twoDocuments_steps.1 (.cons twoDocuments_steps.2
      (.cons ⟨hForm, findDocument_step (by decide +kernel)⟩
        (.cons ⟨hForm,
          removeDocument_step (by decide +kernel)⟩
          (.cons ⟨hForm,
            findDocument_step (by decide +kernel)⟩
            (.nil _))))))

------------------------------------------------------------
-- A Run That No Map Answers
------------------------------------------------------------

/-
  Two documents on one page, and the first removed: the next
  large insertion on the page reorganises it.
-/
def holedStore : Rtn :=
  removeDocument (insertDocument
    (insertDocument emptyStore 1 1500000) 2 1500000) 1

/- The store after that insertion. -/
def damagedStore : Rtn :=
  insertDocument holedStore 3 2000000

theorem damagedStore_codes :
    callCode (emptyStore.rtnInsert hashFunc [.success]
        (textDocument 1 1500000)) = some edbOk ∧
      callCode ((insertDocument emptyStore 1 1500000).rtnInsert
        hashFunc [.success] (textDocument 2 1500000)) =
          some edbOk ∧
      callCode ((insertDocument
          (insertDocument emptyStore 1 1500000) 2
          1500000).rtnRemove hashFunc (textDocument 1 22)) =
            some edbOk ∧
      callCode (holedStore.rtnInsert hashFunc [.success]
        (textDocument 3 2000000)) = some edbOk := by
  refine ⟨?_, ?_, ?_, ?_⟩
  · decide +kernel
  · decide +kernel
  · decide +kernel
  · decide +kernel

/- The second document is no longer found. -/
theorem damagedStore_find :
    StoreStep hashFunc damagedStore
      (.find (textDocument 2 22), ⟨edbInvalidArg, none⟩)
      damagedStore :=
  findDocument_step (by decide +kernel)

/- The map step of an insertion or removal that succeeded. -/
theorem MapStep.insert_ok
    {f g : Contents}
    {record : BSONObj}
    {k : BSONElement.Key}
    (hKey : idKey record = some k)
    (hStep : MapStep f (.insert record, ⟨edbOk, none⟩) g) :
    g = Function.update f k (some record.document) := by
  cases hStep with
  | inserted hKey' _ =>
      have hSame := hKey'.symm.trans hKey
      simp only [Option.some.injEq] at hSame
      rw [hSame]
  | refused hCode => exact absurd rfl hCode

theorem MapStep.remove_ok
    {f g : Contents}
    {record : BSONObj}
    {k : BSONElement.Key}
    (hKey : idKey record = some k)
    (hStep : MapStep f (.remove record, ⟨edbOk, none⟩) g) :
    g = Function.update f k none := by
  cases hStep with
  | removed hKey' _ =>
      have hSame := hKey'.symm.trans hKey
      simp only [Option.some.injEq] at hSame
      rw [hSame]
  | unremoved _ hCode => exact absurd rfl hCode

/- The calls that damage the store, with their answers. -/
def damagingRun : List StoreEvent :=
  [(.insert (textDocument 1 1500000), ⟨edbOk, none⟩),
    (.insert (textDocument 2 1500000), ⟨edbOk, none⟩),
    (.remove (textDocument 1 22), ⟨edbOk, none⟩),
    (.insert (textDocument 3 2000000), ⟨edbOk, none⟩)]

theorem steps_damagingRun :
    Steps (StoreStep hashFunc) emptyStore damagingRun
      damagedStore := by
  rcases damagedStore_codes with ⟨h1, h2, h3, h4⟩
  exact .cons (insertDocument_step h1)
    (.cons (insertDocument_step h2)
      (.cons (removeDocument_step h3)
        (.cons (insertDocument_step h4) (.nil _))))

/- The id key of a text document. -/
theorem idKey_textDocument
    {id size : Nat}
    (hId : id < 4294967296)
    (hText : 22 ≤ size)
    (hMax : size ≤ bsonObjMaxInternalSize) :
    idKey (textDocument id size) = some (intKey id) :=
  (textDocument_hasId hId hText hMax).idKey_eq

/-
  Not every run of calls with well-formed arguments on a new
  store has the answers of a map.
-/
theorem store_not_map :
    ¬ ∀ as t,
      Steps (StoreStep hashFunc) emptyStore as t →
      (∀ a ∈ as, a.1.argument.WellFormed) →
      ∃ f, Steps MapStep Contents.empty as f := by
  intro hClaim
  have hRun : Steps (StoreStep hashFunc) emptyStore
      (damagingRun ++ [(.find (textDocument 2 22),
        ⟨edbInvalidArg, none⟩)]) damagedStore :=
    steps_damagingRun.append
      (Steps.cons damagedStore_find (Steps.nil _))
  have hForm : ∀ a ∈ damagingRun ++
      [(.find (textDocument 2 22), ⟨edbInvalidArg, none⟩)],
        a.1.argument.WellFormed := by
    intro a ha
    simp only [damagingRun, List.cons_append, List.nil_append,
      List.mem_cons, List.not_mem_nil, or_false] at ha
    rcases ha with rfl | rfl | rfl | rfl | rfl
    all_goals
      exact textDocument_wellFormed (by decide) (by decide)
        (by decide)
  rcases hClaim _ _ hRun hForm with ⟨f, hMap⟩
  rcases hMap.split with ⟨g, hFirst, hFind⟩
  -- after the four calls the map has the second document
  have hSome : g (intKey 2) ≠ none := by
    cases hFirst with
    | cons hOne hFirst =>
    cases hFirst with
    | cons hTwo hFirst =>
    cases hFirst with
    | cons hThree hFirst =>
    cases hFirst with
    | cons hFour hFirst =>
    cases hFirst
    rw [hFour.insert_ok (idKey_textDocument (by decide)
        (by decide) (by decide)),
      hThree.remove_ok (idKey_textDocument (by decide)
        (by decide) (by decide)),
      hTwo.insert_ok (idKey_textDocument (by decide)
        (by decide) (by decide)),
      Function.update_of_ne (by decide),
      Function.update_of_ne (by decide),
      Function.update_self]
    simp
  cases hFind with
  | cons hStep _ =>
      cases hStep with
      | missed hAbsent _ =>
          exact hSome (hAbsent _ (idKey_textDocument
            (by decide) (by decide) (by decide)))

end EmeraldDb
