import EmeraldDb.Bson.Document
import EmeraldDb.Msg.Msg

/-
  What is built into a message is what is extracted from it.

  A builder that succeeds leaves the header, the words and
  the object of its message in the buffer, whatever the
  buffer held before and however it was made large enough.
  The extractor of that kind finds the object, and the other
  extractors of requests refuse the message.

  Key definitions include:
    * `HoldsMessage`
    * `HoldsBytes`
    * `Request`

  Key results include:
    * `msgBuild_cases`
    * `msgBuild_bytes`
    * `msgBuild_holds`
    * `HoldsMessage.extractCode_of_ne`
    * `msg_roundTrip`
-/

namespace EmeraldDb

variable {m : Memory} {b b' : MsgBuffer}
variable {opCode : Int} {fields : List Int}
variable {obj : Option BSONObj} {realloc : Option Memory}

------------------------------------------------------------
-- Messages in Memory
------------------------------------------------------------

/- A word fits its 32 bits. -/
def IsInt (v : Int) : Prop :=
  -2147483648 ≤ v ∧ v < 2147483648

instance (v : Int) : Decidable (IsInt v) :=
  inferInstanceAs (Decidable (_ ∧ _))

/- The object has its length word, and the word is valid. -/
def ValidSize (o : BSONObj) : Prop :=
  4 ≤ o.objsize ∧ o.objsize ≤ (bsonObjMaxInternalSize : Int)

/- The same length and the same bytes. -/
structure SameObject (o o' : BSONObj) : Prop where
  objsize : o'.objsize = o.objsize
  bytes : Memory.Same o.mem o.objdata o'.mem o'.objdata
    o.length

/- Size of an object, if there is one. -/
def bodySize (obj : Option BSONObj) : Int :=
  match obj with
  | some o => o.objsize
  | none => 0

/- The memory starts with this message. -/
structure HoldsMessage
    (m : Memory)
    (opCode : Int)
    (fields : List Int)
    (obj : Option BSONObj) : Prop where
  len : msgLen m = sizeofMsg fields.length + bodySize obj
  code : msgOpCode m = opCode
  field : ∀ i v, fields[i]? = some v →
    m.int (sizeofMsgHeader + 4 * i) = v
  body : ∀ o, obj = some o →
    SameObject o ⟨m, sizeofMsg fields.length⟩

/-
  The memory starts with this message, as far as it was
  written: the words are those of 32 bits, and of the object
  there are as many bytes as its length word says.
-/
structure HoldsBytes
    (m : Memory)
    (opCode : Int)
    (fields : List Int)
    (obj : Option BSONObj) : Prop where
  len : msgLen m = sizeofMsg fields.length + bodySize obj
  code : msgOpCode m = wrapInt opCode
  field : ∀ i v, fields[i]? = some v →
    m.int (sizeofMsgHeader + 4 * i) = wrapInt v
  body : ∀ o, obj = some o →
    Memory.Same o.mem o.objdata m (sizeofMsg fields.length)
      o.length

theorem ValidSize.isValid
    {o : BSONObj}
    (hValid : ValidSize o) :
    o.isValid = true := by
  rw [BSONObj.isValid, decide_eq_true_eq]
  exact ⟨lt_of_lt_of_le (by decide) hValid.1, hValid.2⟩

theorem wrapInt_of_isInt
    {v : Int}
    (hInt : IsInt v) :
    wrapInt v = v :=
  wrapInt_of_range hInt.1 hInt.2

/- Where words and object are whole, the message is. -/
theorem HoldsBytes.holds
    (hBytes : HoldsBytes m opCode fields obj)
    (hSize : ∀ o, obj = some o → ValidSize o)
    (hFields : ∀ v ∈ fields, IsInt v)
    (hCode : IsInt opCode) :
    HoldsMessage m opCode fields obj := by
  refine ⟨hBytes.len, ?_, ?_, ?_⟩
  · rw [hBytes.code, wrapInt_of_isInt hCode]
  · intro i v hField
    have hInt := hFields v (List.mem_of_getElem? hField)
    rw [hBytes.field i v hField, wrapInt_of_isInt hInt]
  · intro o hObj
    have hBody := hBytes.body o hObj
    have hLow := (hSize o hObj).1
    refine ⟨?_, hBody⟩
    simp only [BSONObj.objsize, Memory.int]
    rw [hBody.word]
    simp only [BSONObj.length]
    omega

theorem int_setWord
    (m : Memory)
    (a : Nat)
    (v : Int) :
    (m.setWord a (ofSigned v)).int a = wrapInt v := by
  rw [Memory.int, Memory.word_setWord,
    Nat.mod_eq_of_lt (ofSigned_lt v)]
  rfl

/- The words before and after a list of words. -/
theorem int_writeFields_of_disjoint
    {a c : Nat}
    (hDisjoint : c + 4 ≤ a ∨ a + 4 * fields.length ≤ c) :
    (writeFields m a fields).int c = m.int c := by
  induction fields generalizing m a with
  | nil => rfl
  | cons v vs ih =>
      rw [List.length_cons] at hDisjoint
      rw [writeFields, ih (by omega), Memory.int,
        Memory.word_setWord_of_disjoint _ _ (by omega)]
      rfl

theorem int_writeFields
    {a i : Nat}
    {v : Int}
    (hField : fields[i]? = some v) :
    (writeFields m a fields).int (a + 4 * i) = wrapInt v := by
  induction fields generalizing m a i with
  | nil => simp at hField
  | cons w ws ih =>
      rw [writeFields]
      cases i with
      | zero =>
          rw [List.getElem?_cons_zero, Option.some.injEq]
            at hField
          subst hField
          rw [int_writeFields_of_disjoint (by omega)]
          exact int_setWord m a w
      | succ i =>
          rw [List.getElem?_cons_succ] at hField
          have hRest := ih (m := m.setWord a (ofSigned w))
            (a := a + 4) hField
          rw [show a + 4 * (i + 1) = a + 4 + 4 * i by omega]
          exact hRest

/- The message size is computed without overflow. -/
theorem messageSize_eq
    (hSize : ∀ o, obj = some o → o.isValid = true)
    (hFew : fields.length ≤ 2) :
    messageSize fields obj =
        sizeofMsg fields.length + bodySize obj ∧
      0 ≤ messageSize fields obj ∧
      IsInt (messageSize fields obj) := by
  unfold IsInt
  cases obj with
  | none =>
      simp only [messageSize, bodySize, sizeofMsg,
        sizeofMsgHeader]
      omega
  | some o =>
      have hValid := hSize o rfl
      simp only [BSONObj.isValid, decide_eq_true_eq,
        bsonObjMaxInternalSize] at hValid
      simp only [messageSize, bodySize, sizeofMsg,
        sizeofMsgHeader]
      rw [wrapInt_of_range (by omega) (by omega)]
      omega

/- The written message can be read. -/
theorem writeMessage_holds
    (hSize : ∀ o, obj = some o → o.isValid = true)
    (hFew : fields.length ≤ 2) :
    HoldsBytes (writeMessage m opCode fields obj) opCode fields
      obj := by
  rcases messageSize_eq hSize hFew with
    ⟨hMessage, _, hInt⟩
  -- the words in front of the object
  have hHead : ∀ a, a + 4 ≤ sizeofMsg fields.length →
      (writeMessage m opCode fields obj).int a =
        (writeFields ((m.setWord 0 (ofSigned
          (messageSize fields obj))).setWord 4
            (ofSigned opCode)) sizeofMsgHeader fields).int
              a := by
    intro a ha
    cases obj with
    | none => rfl
    | some o =>
        simp only [writeMessage, Memory.int]
        rw [Memory.word_copy_of_disjoint _ _ _ (by omega)]
  have hHeader : sizeofMsgHeader ≤ sizeofMsg fields.length := by
    simp only [sizeofMsg]
    omega
  simp only [sizeofMsgHeader] at hHeader hHead
  refine ⟨?_, ?_, ?_, ?_⟩
  · rw [msgLen, hHead 0 (by omega),
      int_writeFields_of_disjoint (by omega), Memory.int,
      Memory.word_setWord_of_disjoint _ _ (by omega),
      ← hMessage]
    exact (int_setWord m 0 _).trans (wrapInt_of_isInt hInt)
  · rw [msgOpCode, hHead 4 (by omega),
      int_writeFields_of_disjoint (by omega)]
    exact int_setWord _ 4 opCode
  · intro i v hField
    have hIndex := (List.getElem?_eq_some_iff.mp hField).1
    rw [hHead _ (by
      simp only [sizeofMsg, sizeofMsgHeader]
      omega)]
    exact int_writeFields hField
  · rintro o rfl i hi
    simp only [writeMessage]
    rw [Memory.copy_inside _ _ _ _ _ hi]

------------------------------------------------------------
-- Building
------------------------------------------------------------

/-
  A builder succeeds, or the buffer was too small and could
  not be made larger, and is as before.
-/
theorem msgBuild_cases
    (hSize : ∀ o, obj = some o → o.isValid = true)
    (hFew : fields.length ≤ 2) :
    (msgBuild opCode fields obj realloc b).1 = edbOk ∨
      b.size < messageSize fields obj ∧ realloc = none ∧
        msgBuild opCode fields obj realloc b =
          (edbOom, b) := by
  have hLow := (messageSize_eq hSize hFew).2.1
  unfold msgBuild msgCheckBuffer
  by_cases hSmall : b.size < messageSize fields obj
  · rw [if_pos hSmall, if_neg (by omega)]
    cases realloc with
    | none => exact Or.inr ⟨hSmall, rfl, rfl⟩
    | some fresh => exact Or.inl rfl
  · rw [if_neg hSmall]
    exact Or.inl rfl

/- A builder succeeds if the buffer is or can be made large. -/
theorem msgBuild_ok_iff
    (hSize : ∀ o, obj = some o → o.isValid = true)
    (hFew : fields.length ≤ 2) :
    (msgBuild opCode fields obj realloc b).1 = edbOk ↔
      (b.size < messageSize fields obj → realloc.isSome) := by
  have hLow := (messageSize_eq hSize hFew).2.1
  unfold msgBuild msgCheckBuffer
  by_cases hSmall : b.size < messageSize fields obj
  · rw [if_pos hSmall, if_neg (by omega)]
    cases realloc with
    | none => simp [hSmall]
    | some fresh => simp
  · rw [if_neg hSmall]
    simp [hSmall]

/- A check that succeeds has made room. -/
theorem msgCheckBuffer_room
    {n rc : Int}
    (hCheck : msgCheckBuffer b n realloc = (rc, b'))
    (hOk : rc = edbOk) :
    n ≤ b'.size := by
  subst hOk
  unfold msgCheckBuffer at hCheck
  split at hCheck
  · split at hCheck
    · simp at hCheck
    · cases realloc with
      | none => simp at hCheck
      | some fresh =>
          simp only [Prod.mk.injEq, true_and] at hCheck
          rw [← hCheck]
  · rename_i hLarge
    rw [Prod.mk.injEq] at hCheck
    rw [← hCheck.2]
    exact not_lt.mp hLarge

/- A builder that succeeds leaves what it writes. -/
theorem msgBuild_bytes
    (hSize : ∀ o, obj = some o → o.isValid = true)
    (hFew : fields.length ≤ 2)
    (hCall : msgBuild opCode fields obj realloc b =
      (edbOk, b')) :
    HoldsBytes b'.mem opCode fields obj ∧
      msgLen b'.mem ≤ b'.size := by
  have hMessage := messageSize_eq hSize hFew
  unfold msgBuild at hCall
  cases hCheck : msgCheckBuffer b (messageSize fields obj)
      realloc with
  | mk rc c =>
  simp only [hCheck] at hCall
  split at hCall
  · rename_i hFail
    rw [Prod.mk.injEq] at hCall
    exact absurd hCall.1 hFail
  rename_i hOk
  rw [Prod.mk.injEq] at hCall
  have hFits := msgCheckBuffer_room hCheck (not_not.mp hOk)
  have hHolds : HoldsBytes (writeMessage c.mem opCode fields obj)
      opCode fields obj :=
    writeMessage_holds hSize hFew
  rw [← hCall.2]
  refine ⟨hHolds, ?_⟩
  rw [hHolds.len, ← hMessage.1]
  exact hFits

/- A builder that succeeds leaves its message. -/
theorem msgBuild_holds
    (hSize : ∀ o, obj = some o → ValidSize o)
    (hFew : fields.length ≤ 2)
    (hFields : ∀ v ∈ fields, IsInt v)
    (hCode : IsInt opCode)
    (hCall : msgBuild opCode fields obj realloc b =
      (edbOk, b')) :
    HoldsMessage b'.mem opCode fields obj ∧
      msgLen b'.mem ≤ b'.size := by
  rcases msgBuild_bytes (fun o ho => (hSize o ho).isValid) hFew
    hCall with ⟨hBytes, hFits⟩
  exact ⟨hBytes.holds hSize hFields hCode, hFits⟩

------------------------------------------------------------
-- Extracting
------------------------------------------------------------

/- The kinds of messages that a client sends. -/
inductive Request
| insert
| delete
| query
deriving DecidableEq

def Request.code : Request → Int
| .insert => opInsert
| .delete => opDelete
| .query => opQuery

/- The result code of the extractor of a request. -/
def extractCode
    (m : Memory) :
    Request → Except Fault Int
| .insert => .ok (msgExtractInsert m).1
| .delete => (msgExtractDelete m).map Prod.fst
| .query => (msgExtractQuery m).map Prod.fst

theorem msgCheckHeader_of_ne
    {size : Nat}
    {c : Int}
    (hCode : msgOpCode m ≠ c) :
    msgCheckHeader m size (some c) = edbInvalidArg := by
  unfold msgCheckHeader
  split
  · rfl
  · simp only [if_pos hCode]

theorem msgExtractKey_of_ne
    {size : Nat}
    {c : Int}
    (hCode : msgOpCode m ≠ c) :
    msgExtractKey c size m = .ok (edbInvalidArg, none) := by
  simp only [msgExtractKey, msgCheckHeader_of_ne hCode]
  rw [if_pos (by decide)]

/- An extractor refuses a message of another kind. -/
theorem extractCode_of_ne
    {q : Request}
    (hCode : msgOpCode m ≠ q.code) :
    extractCode m q = .ok edbInvalidArg := by
  cases q with
  | insert =>
      have hRefused : msgCheckHeader m sizeofMsgInsert
          (some opInsert) = edbInvalidArg :=
        msgCheckHeader_of_ne hCode
      simp only [extractCode, msgExtractInsert, hRefused]
      rfl
  | delete =>
      have hRefused : msgExtractDelete m =
          .ok (edbInvalidArg, none) :=
        msgExtractKey_of_ne hCode
      rw [extractCode, hRefused]
      rfl
  | query =>
      have hRefused : msgExtractQuery m =
          .ok (edbInvalidArg, none) :=
        msgExtractKey_of_ne hCode
      rw [extractCode, hRefused]
      rfl

namespace HoldsMessage

/- The header of a message passes the checks for its kind. -/
theorem msgCheckHeader_eq
    (hHolds : HoldsMessage m opCode fields obj)
    (hSize : ∀ o, obj = some o → ValidSize o)
    {c : Option Int}
    (hKind : c = none ∨ c = some opCode) :
    msgCheckHeader m (sizeofMsg fields.length) c = edbOk := by
  have hBody : 0 ≤ bodySize obj := by
    cases obj with
    | none => exact le_refl _
    | some o =>
        have hLow := (hSize o rfl).1
        simp only [bodySize]
        omega
  unfold msgCheckHeader
  rw [hHolds.len, if_neg (by omega)]
  rcases hKind with hNone | hSame
  · rw [hNone]
  · rw [hSame]
    exact if_neg (not_not_intro hHolds.code)

/- The key of a message without words is its object. -/
theorem msgExtractKey_eq
    {o : BSONObj}
    (hHolds : HoldsMessage m opCode [] (some o))
    (hSize : ValidSize o) :
    msgExtractKey opCode (sizeofMsg 0) m =
      .ok (edbOk, some ⟨m, sizeofMsg 0⟩) := by
  have hCheck := hHolds.msgCheckHeader_eq
    (c := some opCode) (fun o' ho => by
      rw [Option.some.injEq] at ho
      exact ho ▸ hSize) (Or.inr rfl)
  have hObject := (hHolds.body o rfl).objsize
  simp only [List.length_nil] at hCheck hObject
  have hValid : BSONObj.ofData m (sizeofMsg 0) =
      .ok ⟨m, sizeofMsg 0⟩ := by
    unfold BSONObj.ofData BSONObj.isValid
    simp only [hObject, decide_eq_true_eq]
    rw [if_pos]
    exact ⟨by have hLow := hSize.1; omega, hSize.2⟩
  simp only [msgExtractKey, hCheck, hValid, bind, Except.bind,
    pure, Except.pure]
  rfl

/- The words of a message are read back. -/
theorem msgExtractInsert_eq
    {o : BSONObj}
    (hHolds : HoldsMessage m opInsert [1] (some o))
    (hSize : ValidSize o) :
    msgExtractInsert m =
      (edbOk, some (1, some sizeofMsgInsert)) := by
  have hCheck := hHolds.msgCheckHeader_eq
    (c := some opInsert) (fun o' ho => by
      rw [Option.some.injEq] at ho
      exact ho ▸ hSize) (Or.inr rfl)
  have hCount : m.int 8 = 1 := hHolds.field 0 1 rfl
  simp only [msgExtractInsert, sizeofMsgInsert,
    show sizeofMsg 1 = sizeofMsg [(1 : Int)].length from rfl,
    hCheck, hCount]
  rfl

theorem msgExtractReply_eq
    {returnCode numReturn : Int}
    (hHolds : HoldsMessage m opReply [returnCode, numReturn] obj)
    (hSize : ∀ o, obj = some o → ValidSize o) :
    msgExtractReply m =
      (edbOk, some (returnCode, numReturn,
        objStart numReturn sizeofMsgReply)) := by
  have hCheck := hHolds.msgCheckHeader_eq
    (c := none) hSize (Or.inl rfl)
  have hReturn : m.int 8 = returnCode :=
    hHolds.field 0 returnCode rfl
  have hCount : m.int 12 = numReturn :=
    hHolds.field 1 numReturn rfl
  simp only [msgExtractReply, sizeofMsgReply,
    show sizeofMsg 2 =
      sizeofMsg [returnCode, numReturn].length from rfl,
    hCheck, hReturn, hCount]
  rfl

end HoldsMessage

------------------------------------------------------------
-- Round Trip
------------------------------------------------------------

/-
  The buffer has room for the whole message, whose length
  is that of the header, the words and the object.
-/
def Complete
    (b : MsgBuffer)
    (n : Nat)
    (obj : Option BSONObj) : Prop :=
  msgLen b.mem = sizeofMsg n + bodySize obj ∧
    msgLen b.mem ≤ b.size

/- The extractors of all other requests refuse a message. -/
def OnlyFor (m : Memory) (q : Option Request) : Prop :=
  ∀ q', q ≠ some q' → extractCode m q' = .ok edbInvalidArg

theorem HoldsMessage.onlyFor
    (hHolds : HoldsMessage m opCode fields obj)
    {q : Option Request}
    (hKind : ∀ q', q ≠ some q' → opCode ≠ q'.code) :
    OnlyFor m q := by
  intro q' hNe
  apply extractCode_of_ne
  rw [hHolds.code]
  exact hKind q' hNe

/-
  For every object of valid size, every return code, every
  buffer and every outcome of `realloc`: what a builder that
  succeeds leaves in the buffer is complete, its extractor
  returns the same object and words, and the extractors of
  the other requests refuse it.
-/
theorem msg_roundTrip
    (o : BSONObj)
    (hSize : ValidSize o)
    (returnCode : Int)
    (hReturn : IsInt returnCode)
    (b : MsgBuffer)
    (realloc : Option Memory) :
    (∀ b', msgBuildInsert realloc b o = (edbOk, b') →
      Complete b' 1 (some o) ∧
      msgExtractInsert b'.mem =
        (edbOk, some (1, some sizeofMsgInsert)) ∧
      SameObject o ⟨b'.mem, sizeofMsgInsert⟩ ∧
      OnlyFor b'.mem (some .insert)) ∧
    (∀ b', msgBuildQuery realloc b o = (edbOk, b') →
      Complete b' 0 (some o) ∧
      msgExtractQuery b'.mem =
        .ok (edbOk, some ⟨b'.mem, sizeofMsgQuery⟩) ∧
      SameObject o ⟨b'.mem, sizeofMsgQuery⟩ ∧
      OnlyFor b'.mem (some .query)) ∧
    (∀ b', msgBuildDelete realloc b o = (edbOk, b') →
      Complete b' 0 (some o) ∧
      msgExtractDelete b'.mem =
        .ok (edbOk, some ⟨b'.mem, sizeofMsgDelete⟩) ∧
      SameObject o ⟨b'.mem, sizeofMsgDelete⟩ ∧
      OnlyFor b'.mem (some .delete)) ∧
    (∀ b', msgBuildReply realloc b returnCode (some o) =
        (edbOk, b') →
      Complete b' 2 (some o) ∧
      msgExtractReply b'.mem =
        (edbOk, some (returnCode, 1, some sizeofMsgReply)) ∧
      SameObject o ⟨b'.mem, sizeofMsgReply⟩ ∧
      OnlyFor b'.mem none) ∧
    (∀ b', msgBuildReply realloc b returnCode none =
        (edbOk, b') →
      Complete b' 2 none ∧
      msgExtractReply b'.mem =
        (edbOk, some (returnCode, 0, none)) ∧
      OnlyFor b'.mem none) := by
  have hSome : ∀ o', some o = some o' → ValidSize o' := by
    intro o' ho
    rw [Option.some.injEq] at ho
    exact ho ▸ hSize
  have hNone : ∀ o', (none : Option BSONObj) = some o' →
      ValidSize o' := by
    intro o' ho
    cases ho
  have hWords : ∀ b : Bool,
      ∀ v ∈ [returnCode, if b = true then 1 else 0],
        IsInt v := by
    intro b v hv
    rcases List.mem_cons.mp hv with hFirst | hSecond
    · rw [hFirst]
      exact hReturn
    · rw [List.mem_singleton.mp hSecond]
      cases b <;> decide
  refine ⟨?_, ?_, ?_, ?_, ?_⟩
  · intro b' hCall
    rcases msgBuild_holds hSome (by decide) (by simp [IsInt])
        (by decide) hCall with ⟨hHolds, hRoom⟩
    refine ⟨⟨hHolds.len, hRoom⟩,
      hHolds.msgExtractInsert_eq hSize, hHolds.body o rfl,
      hHolds.onlyFor ?_⟩
    rintro (_ | _ | _) hNe
    · exact absurd rfl hNe
    · decide
    · decide
  · intro b' hCall
    rcases msgBuild_holds hSome (by decide) (by simp)
        (by decide) hCall with ⟨hHolds, hRoom⟩
    refine ⟨⟨hHolds.len, hRoom⟩,
      hHolds.msgExtractKey_eq hSize, hHolds.body o rfl,
      hHolds.onlyFor ?_⟩
    rintro (_ | _ | _) hNe
    · decide
    · decide
    · exact absurd rfl hNe
  · intro b' hCall
    rcases msgBuild_holds hSome (by decide) (by simp)
        (by decide) hCall with ⟨hHolds, hRoom⟩
    refine ⟨⟨hHolds.len, hRoom⟩,
      hHolds.msgExtractKey_eq hSize, hHolds.body o rfl,
      hHolds.onlyFor ?_⟩
    rintro (_ | _ | _) hNe
    · decide
    · exact absurd rfl hNe
    · decide
  · intro b' hCall
    rcases msgBuild_holds hSome (le_refl 2) (hWords _)
        (by decide) hCall with ⟨hHolds, hRoom⟩
    refine ⟨⟨hHolds.len, hRoom⟩,
      hHolds.msgExtractReply_eq hSome, hHolds.body o rfl,
      hHolds.onlyFor ?_⟩
    rintro (_ | _ | _) _ <;> decide
  · intro b' hCall
    rcases msgBuild_holds hNone (le_refl 2) (hWords _)
        (by decide) hCall with ⟨hHolds, hRoom⟩
    refine ⟨⟨hHolds.len, hRoom⟩,
      hHolds.msgExtractReply_eq hNone, hHolds.onlyFor ?_⟩
    rintro (_ | _ | _) _ <;> decide

/- A document through a stale buffer of three bytes. -/
theorem msg_roundTrip_document :
    ∃ b', msgBuildReply (some (fun _ => 1))
        ⟨fun _ => 255, 3⟩ edbInvalidArg
        (some (textDocument 1 22)) = (edbOk, b') ∧
      Complete b' 2 (some (textDocument 1 22)) ∧
      msgExtractReply b'.mem =
        (edbOk, some (edbInvalidArg, 1,
          some sizeofMsgReply)) ∧
      SameObject (textDocument 1 22)
        ⟨b'.mem, sizeofMsgReply⟩ ∧
      OnlyFor b'.mem none := by
  have hForm : (textDocument 1 22).WellFormed :=
    textDocument_wellFormed (by decide) (by decide)
      (by decide)
  have hSize : ValidSize (textDocument 1 22) := by
    have hFive := hForm.five_le
    exact ⟨by omega, hForm.bounded⟩
  have hTrip := msg_roundTrip (textDocument 1 22) hSize
    edbInvalidArg (by decide) ⟨fun _ => 255, 3⟩
    (some (fun _ => 1))
  cases hCall : msgBuildReply (some (fun _ => 1))
      ⟨fun _ => 255, 3⟩ edbInvalidArg
      (some (textDocument 1 22)) with
  | mk rc b' =>
  have hOk : rc = edbOk := by
    rcases @msgBuild_cases ⟨fun _ => 255, 3⟩ opReply
        [edbInvalidArg, 1] (some (textDocument 1 22))
        (some (fun _ => 1)) (fun o ho => by
          rw [Option.some.injEq] at ho
          exact ho ▸ hSize.isValid) (by decide) with
      hOk | ⟨_, hNone, _⟩
    · exact (congrArg Prod.fst hCall).symm.trans hOk
    · cases hNone
  subst hOk
  exact ⟨b', rfl, hTrip.2.2.2.1 b' hCall⟩

end EmeraldDb
