import EmeraldDb.Pmd.Request

/-
  Insert requests for several records.

  A request announces a number of records and has their
  documents behind it, each with its length as its first
  word.  The handler takes the first document and answers for
  all of them: where it stores the one of several, it returns
  no error although the others are dropped.

  Key definitions include:
    * `MultiInsert`
    * `Rtn.AddedAll`
    * `NoneDropped`
    * `Stored`

  Key results include:
    * `pmdInsertCommand_ok_iff`
    * `pmdInsertCommand_multi`
-/

namespace EmeraldDb

open IxmBucketManager

------------------------------------------------------------
-- Requests
------------------------------------------------------------

/- The documents of the records, one behind the other. -/
def multiPayload (objs : List BSONObj) : List UInt8 :=
  objs.flatMap BSONObj.document

/- An insert request for the records of a list. -/
structure MultiInsert
    (m : Memory)
    (objs : List BSONObj) : Prop where
  header : msgExtractInsert m =
    (edbOk, some ((objs.length : Int),
      objStart objs.length sizeofMsgInsert))
  payload : m.bytes sizeofMsgInsert
    (multiPayload objs).length = multiPayload objs
  form : ∀ o ∈ objs, o.WellFormed

/- The records of a list are new, and there are no others. -/
def Rtn.AddedAll
    (s t : Rtn)
    (objs : List BSONObj) : Prop :=
  ∃ rids : List DmsRecordID,
    rids.Nodup ∧
      List.Forall₂ (fun rid o =>
        ¬ s.dmsFile.Holds rid ∧
          Memory.Same o.mem o.objdata t.dmsFile.file
            (t.dmsFile.objectAt rid).objdata o.length)
        rids objs ∧
      ∀ rid, t.dmsFile.Holds rid ↔
        rid ∈ rids ∨ s.dmsFile.Holds rid

/-
  The handler returns a code, and with the code `edbOk` it
  has added exactly the records of the request.
-/
def NoneDropped
    (result : Except Fault (Int × Option Rtn))
    (s : Rtn)
    (objs : List BSONObj) : Prop :=
  ∃ rc t, result = .ok (rc, t) ∧
    (rc = edbOk → ∃ u, t = some u ∧ s.AddedAll u objs)

/-
  The store takes the object: it is printed, its first field
  is its `_id`, no entry has its key, and a page has room.
-/
structure Stored
    (h : List UInt8 → Nat)
    (prints : BSONObj → Bool)
    (exts : List DmsFile.Extension)
    (s : Rtn)
    (o : BSONObj) : Prop where
  insertor : Insertor prints o
  unknown : Unknown h s.dmsFile.file s.ixmBucketMgr o
  room : DmsFile.RoomFound exts s.dmsFile o

------------------------------------------------------------
-- The First Record
------------------------------------------------------------

section First

variable {h : List UInt8 → Nat} {prints : BSONObj → Bool}
variable {exts : List DmsFile.Extension} {s u : Rtn}
variable {m : Memory} {objs : List BSONObj} {o : BSONObj}

/- What the extraction of the header has checked. -/
theorem MultiInsert.checked
    (hMulti : MultiInsert m objs) :
    msgOpCode m = opInsert ∧
      ¬ msgLen m < sizeofMsgInsert ∧
      m.int 8 = objs.length := by
  have hHeader := hMulti.header
  unfold msgExtractInsert at hHeader
  by_cases hPassed : msgCheckHeader m sizeofMsgInsert
      (some opInsert) = 0
  · simp only [hPassed, ne_eq, not_true_eq_false, if_false,
      Prod.mk.injEq, Option.some.injEq, true_and] at hHeader
    unfold msgCheckHeader at hPassed
    split at hPassed
    · exact absurd hPassed (by decide)
    · rename_i hLong
      simp only at hPassed
      split at hPassed
      · exact absurd hPassed (by decide)
      · rename_i hCode
        rw [ne_eq, not_not] at hCode
        exact ⟨hCode, hLong, hHeader.1⟩
  · simp [hPassed] at hHeader

/- The first document is where the handler looks for one. -/
theorem MultiInsert.first
    (hMulti : MultiInsert m (o :: objs)) :
    Memory.Same o.mem o.objdata m sizeofMsgInsert
      o.length := by
  have hDoc : o.document.length = o.length :=
    Memory.length_bytes _ _ _
  have hPayload := hMulti.payload
  rw [multiPayload, List.flatMap_cons, List.length_append,
    Memory.bytes_add] at hPayload
  have hBytes := (List.append_inj hPayload (by
    rw [Memory.length_bytes])).1
  rw [hDoc] at hBytes
  exact Memory.Same.symm (Memory.same_of_bytes_eq hBytes)

theorem MultiInsert.firstForm
    (hMulti : MultiInsert m (o :: objs)) :
    BSONObj.WellFormed ⟨m, sizeofMsgInsert⟩ ∧
      BSONObj.length ⟨m, sizeofMsgInsert⟩ = o.length := by
  have hForm := hMulti.form o List.mem_cons_self
  exact ⟨hForm.congr ⟨m, sizeofMsgInsert⟩ hMulti.first,
    hForm.length_congr ⟨m, sizeofMsgInsert⟩ hMulti.first⟩

/- A request without records has no address to read. -/
theorem pmdInsertCommand_nil
    (hMulti : MultiInsert m []) :
    pmdInsertCommand h prints exts s m =
      .error .nullObject := by
  rcases hMulti.checked with ⟨hCode, hLong, hCount⟩
  exact pmdInsertCommand_none hCode hLong hCount

/- The steps of a request that has records. -/
theorem MultiInsert.command
    (hMulti : MultiInsert m (o :: objs)) :
    (Insertor prints ⟨m, sizeofMsgInsert⟩ →
      pmdInsertCommand h prints exts s m =
        catchInsert
          (s.rtnInsert h exts ⟨m, sizeofMsgInsert⟩)) ∧
    (¬ Insertor prints ⟨m, sizeofMsgInsert⟩ →
      ∃ rc, rc ≠ edbOk ∧
        pmdInsertCommand h prints exts s m =
          .ok (rc, some s)) := by
  rcases hMulti.checked with ⟨hCode, hLong, hCount⟩
  have hFive := hMulti.firstForm.1.five_le
  have hSome : m.int 8 ≠ 0 := by
    rw [hCount, List.length_cons]
    omega
  rcases @pmdInsertCommand_some h prints exts s m hCode hLong
    hSome with ⟨hAccepted, hRefused⟩
  refine ⟨hAccepted, ?_⟩
  intro hOther
  rw [hRefused hOther, if_pos hFive]
  split
  · exact ⟨edbInvalidArg, by decide, rfl⟩
  · exact ⟨edbNoId, by decide, rfl⟩

/- When the request is answered with a code. -/
theorem MultiInsert.returns_iff
    (hMulti : MultiInsert m (o :: objs)) :
    Returns (pmdInsertCommand h prints exts s m) ↔
      (Insertor prints ⟨m, sizeofMsgInsert⟩ →
        s.Settles h exts ⟨m, sizeofMsgInsert⟩) := by
  rcases hMulti.firstForm with ⟨hForm, _⟩
  have hFour := hForm.five_le
  have hEnds := @Rtn.insertEnds_iff h s
    ⟨m, sizeofMsgInsert⟩ exts hForm.walkable
    hForm.isValid_eq_true (by
      unfold BSONObj.length
      omega)
  rcases @MultiInsert.command h prints exts s m objs o hMulti
    with ⟨hAccepted, hRefused⟩
  by_cases hRecord : Insertor prints ⟨m, sizeofMsgInsert⟩
  · rw [hAccepted hRecord, catchInsert_returns_iff,
      Rtn.rtnInsert_caught_iff, hEnds]
    simp [hRecord]
  · rcases hRefused hRecord with ⟨rc, _, hResult⟩
    rw [hResult]
    simp [hRecord]

/- When it is answered with the code of success. -/
theorem pmdInsertCommand_ok_iff
    (hMulti : MultiInsert m (o :: objs))
    (hOrderly : s.dmsFile.Orderly
      (BSONObj.length ⟨m, sizeofMsgInsert⟩))
    (hFits : s.dmsFile.numPages +
      dmsPagesPerSegment * exts.length < 4294967296)
    (hSettles : Insertor prints ⟨m, sizeofMsgInsert⟩ →
      s.Settles h exts ⟨m, sizeofMsgInsert⟩) :
    (∃ t, pmdInsertCommand h prints exts s m =
        .ok (edbOk, t)) ↔
      Stored h prints exts s ⟨m, sizeofMsgInsert⟩ := by
  rcases hMulti.firstForm with ⟨hForm, _⟩
  have hFour := hForm.five_le
  rcases @MultiInsert.command h prints exts s m objs o hMulti
    with ⟨hAccepted, hRefused⟩
  by_cases hRecord : Insertor prints ⟨m, sizeofMsgInsert⟩
  · have hStore := Rtn.rtnInsert_ok_iff hOrderly hFits
      hForm.walkable hForm.isValid_eq_true (by
        unfold BSONObj.length
        omega) (hSettles hRecord).searchable
    rw [hAccepted hRecord]
    constructor
    · rintro ⟨t, hCall⟩
      rcases catchInsert_ok hCall with ⟨u, hInsert, _⟩
      rcases hStore.mp ⟨u, hInsert⟩ with ⟨hUnknown, hRoom⟩
      exact ⟨hRecord, hUnknown, hRoom⟩
    · intro hStored
      rcases hStore.mpr ⟨hStored.unknown, hStored.room⟩ with
        ⟨u, hInsert⟩
      exact ⟨some u, by rw [hInsert]; rfl⟩
  · rcases hRefused hRecord with ⟨rc, hCode, hResult⟩
    rw [hResult]
    constructor
    · rintro ⟨t, hCall⟩
      exact absurd (Prod.mk.inj (Except.ok.inj hCall)).1 hCode
    · intro hStored
      exact absurd hStored.insertor hRecord

/- Then one record is entered, the first of the request. -/
theorem pmdInsertCommand_enters
    {t : Option Rtn}
    (hMulti : MultiInsert m (o :: objs))
    (hOrderly : s.dmsFile.Orderly
      (BSONObj.length ⟨m, sizeofMsgInsert⟩))
    (hFits : s.dmsFile.numPages +
      dmsPagesPerSegment * exts.length < 4294967296)
    (hCall : pmdInsertCommand h prints exts s m =
      .ok (edbOk, t)) :
    ∃ u rid, t = some u ∧
      DmsFile.Enters s.dmsFile u.dmsFile rid
        ⟨m, sizeofMsgInsert⟩ := by
  rcases hMulti.firstForm with ⟨hForm, _⟩
  have hFour := hForm.five_le
  rcases @MultiInsert.command h prints exts s m objs o hMulti
    with ⟨hAccepted, hRefused⟩
  by_cases hRecord : Insertor prints ⟨m, sizeofMsgInsert⟩
  · rw [hAccepted hRecord] at hCall
    rcases catchInsert_ok hCall with ⟨u, hInsert, hState⟩
    rcases Rtn.rtnInsert_enters hOrderly hFits (by
        unfold BSONObj.length
        omega) hForm.isValid_eq_true hInsert with
      ⟨rid, hEnters⟩
    exact ⟨u, rid, hState, hEnters⟩
  · rcases hRefused hRecord with ⟨rc, hCode, hResult⟩
    rw [hResult] at hCall
    exact absurd (Prod.mk.inj (Except.ok.inj hCall)).1 hCode

/- One record more is all the records of a list of one. -/
theorem Rtn.AddedAll.of_enters
    {rid : DmsRecordID}
    (hMulti : MultiInsert m [o])
    (hEnters : DmsFile.Enters s.dmsFile u.dmsFile rid
      ⟨m, sizeofMsgInsert⟩) :
    s.AddedAll u [o] := by
  have hData : Memory.Same o.mem o.objdata u.dmsFile.file
      (u.dmsFile.objectAt rid).objdata o.length := by
    have hLength := hMulti.firstForm.2
    have hCopy := hEnters.data
    rw [hLength] at hCopy
    exact Memory.Same.trans hMulti.first hCopy
  refine ⟨[rid], List.nodup_singleton rid, ?_, ?_⟩
  · exact .cons ⟨hEnters.fresh, hData⟩ .nil
  · intro r
    rw [hEnters.holds, List.mem_singleton]

/- They are no more than one. -/
theorem Rtn.AddedAll.length_le_one
    {rid : DmsRecordID}
    {record : BSONObj}
    (hAdded : s.AddedAll u objs)
    (hEnters : DmsFile.Enters s.dmsFile u.dmsFile rid
      record) :
    objs.length ≤ 1 := by
  rcases hAdded with ⟨rids, hNodup, hRecords, hHolds⟩
  have hSame : ∀ r ∈ rids, r = rid := by
    intro r hIn
    have hFresh : ¬ s.dmsFile.Holds r := by
      rcases List.forall₂_iff_get.mp hRecords with
        ⟨hLength, hAll⟩
      rcases List.get_of_mem hIn with ⟨i, rfl⟩
      exact (hAll i i.2 (hLength ▸ i.2)).1
    have hNew := (hHolds r).mpr (Or.inl hIn)
    exact ((hEnters.holds r).mp hNew).resolve_right hFresh
  rw [← hRecords.length_eq]
  match rids, hNodup, hSame with
  | [], _, _ => simp
  | [_], _, _ => simp
  | r :: r' :: rest, hNodup, hSame =>
      have hFirst := hSame r (by simp)
      have hSecond := hSame r' (by simp)
      simp [hFirst, hSecond] at hNodup

------------------------------------------------------------
-- Every Number of Records
------------------------------------------------------------

/-
  On an orderly file, a request is answered with a code and
  no record is dropped silently exactly when it has records,
  the store can end the insertion of the first, and there is
  only that one or the store does not take it.
-/
theorem pmdInsertCommand_multi
    (hMulti : MultiInsert m objs)
    (h : List UInt8 → Nat)
    (prints : BSONObj → Bool)
    (exts : List DmsFile.Extension)
    (s : Rtn)
    (hOrderly : s.dmsFile.Orderly
      (BSONObj.length ⟨m, sizeofMsgInsert⟩))
    (hFits : s.dmsFile.numPages +
      dmsPagesPerSegment * exts.length < 4294967296) :
    NoneDropped (pmdInsertCommand h prints exts s m) s objs ↔
      objs ≠ [] ∧
        (Insertor prints ⟨m, sizeofMsgInsert⟩ →
          s.Settles h exts ⟨m, sizeofMsgInsert⟩) ∧
        (objs.length = 1 ∨
          ¬ Stored h prints exts s ⟨m, sizeofMsgInsert⟩) := by
  cases objs with
  | nil =>
      rw [pmdInsertCommand_nil hMulti]
      simp [NoneDropped]
  | cons o objs =>
      constructor
      · rintro ⟨rc, t, hResult, hAdded⟩
        have hSettles := (@MultiInsert.returns_iff h prints exts
          s m objs o hMulti).mp ⟨_, hResult⟩
        refine ⟨by simp, hSettles, ?_⟩
        by_contra hBoth
        rw [not_or, not_not] at hBoth
        rcases hBoth with ⟨hSeveral, hStored⟩
        rcases (pmdInsertCommand_ok_iff hMulti hOrderly hFits
          hSettles).mpr hStored with ⟨t', hOk⟩
        obtain ⟨rfl, rfl⟩ := Prod.mk.inj
          (Except.ok.inj (hResult.symm.trans hOk))
        rcases pmdInsertCommand_enters hMulti hOrderly hFits hOk
          with ⟨u, rid, rfl, hEnters⟩
        rcases hAdded rfl with ⟨u', hState, hAll⟩
        obtain rfl := Option.some.inj hState
        have hOne := hAll.length_le_one hEnters
        rw [List.length_cons] at hOne hSeveral
        omega
      · rintro ⟨_, hSettles, hOne⟩
        rcases (@MultiInsert.returns_iff h prints exts s m objs
          o hMulti).mpr hSettles with ⟨⟨rc, t⟩, hResult⟩
        refine ⟨rc, t, hResult, ?_⟩
        rintro rfl
        have hStored := (pmdInsertCommand_ok_iff hMulti hOrderly
          hFits hSettles).mp ⟨t, hResult⟩
        have hSingle := hOne.resolve_right
          (fun hNot => hNot hStored)
        rw [List.length_cons, Nat.add_eq_right,
          List.length_eq_zero_iff] at hSingle
        subst hSingle
        rcases pmdInsertCommand_enters hMulti hOrderly hFits
          hResult with ⟨u, rid, rfl, hEnters⟩
        exact ⟨u, rfl, .of_enters hMulti hEnters⟩

end First

------------------------------------------------------------
-- Packets
------------------------------------------------------------

/- The request for the records of a list. -/
def multiPacket (objs : List BSONObj) : Memory :=
  let m : Memory := fun _ => 0
  let m := m.setWord 0
    (sizeofMsgInsert + (multiPayload objs).length)
  let m := m.setWord 4 (ofSigned opInsert)
  let m := m.setWord 8 objs.length
  m.store sizeofMsgInsert (multiPayload objs)

theorem length_le_multiPayload
    {objs : List BSONObj}
    (hForm : ∀ o ∈ objs, o.WellFormed) :
    objs.length ≤ (multiPayload objs).length := by
  induction objs with
  | nil => simp
  | cons o objs ih =>
      have hDoc : o.document.length = o.length :=
        Memory.length_bytes _ _ _
      have hLong := (hForm o List.mem_cons_self).length_eq
      have hRest := ih (fun o' hIn =>
        hForm o' (List.mem_cons_of_mem _ hIn))
      unfold multiPayload at hRest ⊢
      rw [List.flatMap_cons, List.length_append, hDoc,
        List.length_cons]
      omega

/- The header of a packet is in front of its payload. -/
theorem word_multiPacket
    (objs : List BSONObj)
    {a : Nat}
    (hHeader : a + 4 ≤ sizeofMsgInsert) :
    (multiPacket objs).word a =
      Memory.word
        (((Memory.setWord (fun _ => 0) 0
            (sizeofMsgInsert + (multiPayload objs).length)
          ).setWord 4 (ofSigned opInsert)).setWord 8
            objs.length) a := by
  apply Memory.word_congr
  intro i hi
  exact Memory.store_of_disjoint _ _ (by omega)

/- There is a request for every list of records. -/
theorem multiInsert_multiPacket
    {objs : List BSONObj}
    (hForm : ∀ o ∈ objs, o.WellFormed)
    (hSmall : sizeofMsgInsert + (multiPayload objs).length <
      2147483648) :
    MultiInsert (multiPacket objs) objs := by
  have hCount := length_le_multiPayload hForm
  have hLen : msgLen (multiPacket objs) =
      (sizeofMsgInsert + (multiPayload objs).length : Nat) := by
    unfold msgLen Memory.int
    rw [word_multiPacket objs (by decide),
      Memory.word_setWord_of_disjoint _ _ (by omega),
      Memory.word_setWord_of_disjoint _ _ (by omega),
      Memory.word_setWord_of_lt _ _ (by omega)]
    exact toSigned_of_lt hSmall
  have hCode : msgOpCode (multiPacket objs) = opInsert := by
    unfold msgOpCode Memory.int
    rw [word_multiPacket objs (by decide),
      Memory.word_setWord_of_disjoint _ _ (by omega),
      Memory.word_setWord_of_lt _ _ (by decide)]
    rfl
  have hNumber : (multiPacket objs).int 8 = objs.length := by
    unfold Memory.int
    rw [word_multiPacket objs (by decide),
      Memory.word_setWord_of_lt _ _ (by omega)]
    exact toSigned_of_lt (by omega)
  have hCheck : msgCheckHeader (multiPacket objs)
      sizeofMsgInsert (some opInsert) = edbOk := by
    unfold msgCheckHeader
    rw [hLen, if_neg (by omega)]
    simp only [hCode, ne_eq, not_true_eq_false, if_false]
  refine ⟨?_, Memory.bytes_store _ _ _, hForm⟩
  unfold msgExtractInsert
  simp only [hCheck, hNumber, ne_eq, not_true_eq_false,
    if_false]

/- Documents with the keys of a list. -/
def smallDocuments (ids : List Nat) : List BSONObj :=
  ids.map (fun id => textDocument id 22)

theorem multiInsert_small
    {ids : List Nat}
    (hIds : ∀ id ∈ ids, id < 4294967296)
    (hSmall : sizeofMsgInsert +
      (multiPayload (smallDocuments ids)).length <
        2147483648) :
    MultiInsert (multiPacket (smallDocuments ids))
      (smallDocuments ids) := by
  apply multiInsert_multiPacket _ hSmall
  intro o hIn
  rcases List.mem_map.mp hIn with ⟨id, hId, rfl⟩
  exact textDocument_wellFormed (hIds id hId) (by decide)
    (by decide)

/- The store on a new file. -/
abbrev newStore : Rtn :=
  Rtn.created (fun _ => 0)

theorem newStore_sound : newStore.dmsFile.Sound :=
  (DmsFile.good_created (fun _ => 0)).sound

/- It can end every insertion if it may extend its file. -/
theorem newStore_settles
    {ext : DmsFile.Extension}
    {o : BSONObj}
    (hSmall : o.length < dmsPageSize - sizeofPageHeader) :
    newStore.Settles (fun _ => 0) [ext] o := by
  apply (Rtn.settles_iff newStore_sound (by
    rw [List.length_singleton]
    decide)).mpr
  constructor
  · intro e k _ before v after hSplit
    have hNone : IxmBucketManager.init.range 0 = [] := rfl
    exact absurd (hNone.symm.trans hSplit) (by simp)
  · intro _
    exact Or.inr (Or.inr ⟨by simp, hSmall⟩)

/-
  One record is stored, and two are refused where the file
  cannot be extended.
-/
theorem pmdInsertCommand_multi_small :
    NoneDropped
        (pmdInsertCommand (fun _ => 0) (fun _ => true)
          [.success] newStore (multiPacket (smallDocuments [1])))
        newStore (smallDocuments [1]) ∧
      NoneDropped
        (pmdInsertCommand (fun _ => 0) (fun _ => true)
          [.sizeFails ⟨28, by decide⟩] newStore
          (multiPacket (smallDocuments [1, 2])))
        newStore (smallDocuments [1, 2]) := by
  constructor
  · apply (pmdInsertCommand_multi
      (multiInsert_small (by decide) (by decide))
      (fun _ => 0) (fun _ => true) [.success] newStore
      (newStore_sound.orderly _) (by decide)).mpr
    refine ⟨by decide, fun _ => ?_, Or.inl (by decide)⟩
    exact newStore_settles (by decide)
  · apply (pmdInsertCommand_multi
      (multiInsert_small (by decide) (by decide))
      (fun _ => 0) (fun _ => true)
      [.sizeFails ⟨28, by decide⟩] newStore
      (newStore_sound.orderly _) (by decide)).mpr
    refine ⟨by decide, fun _ => ?_, Or.inr ?_⟩
    · exact newStore_settles (by decide)
    · intro hStored
      rcases hStored.room with ⟨t, p, page, hPlaced, _⟩
      cases hPlaced with
      | found hFound hValid => exact hValid hFound.symm

/-
  Of two records that the store would take, it takes one and
  returns no error.
-/
theorem pmdInsertCommand_drops :
    MultiInsert (multiPacket (smallDocuments [1, 2]))
        (smallDocuments [1, 2]) ∧
      (∃ t, pmdInsertCommand (fun _ => 0) (fun _ => true)
        [.success] newStore
          (multiPacket (smallDocuments [1, 2])) =
        .ok (edbOk, t)) ∧
      ¬ NoneDropped
        (pmdInsertCommand (fun _ => 0) (fun _ => true)
          [.success] newStore
          (multiPacket (smallDocuments [1, 2])))
        newStore (smallDocuments [1, 2]) := by
  have hMulti := @multiInsert_small [1, 2] (by decide)
    (by decide)
  have hOk : (pmdInsertCommand (fun _ => 0) (fun _ => true)
      [.success] newStore
        (multiPacket (smallDocuments [1, 2]))).map
      (fun r => r.1) = .ok edbOk := by
    decide +kernel
  rcases map_ok hOk with ⟨⟨rc, t⟩, hResult, hCode⟩
  subst hCode
  refine ⟨hMulti, ⟨t, hResult⟩, ?_⟩
  rintro ⟨rc', t', hSame, hAdded⟩
  obtain ⟨rfl, rfl⟩ := Prod.mk.inj
    (Except.ok.inj (hResult.symm.trans hSame))
  rcases pmdInsertCommand_enters hMulti
      (newStore_sound.orderly _) (by decide) hResult with
    ⟨u, rid, rfl, hEnters⟩
  rcases hAdded rfl with ⟨u', hState, hAll⟩
  obtain rfl := Option.some.inj hState
  exact absurd (hAll.length_le_one hEnters) (by decide)

end EmeraldDb
