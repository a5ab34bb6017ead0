import EmeraldDb.Ixm.Index

/-
  Documents with an integer `_id` and a text that fills the
  rest, for every id and size.

  Key definitions include:
    * `textDocument`
    * `intKey`

  Key results include:
    * `textDocument_wellFormed`
    * `textDocument_hasId`
-/

namespace EmeraldDb

/-
  The document of `size` bytes with an integer `_id` and a
  string field `s`.  The words hold the length, the type and
  name of `_id`, its value, the type and name of `s` and the
  length of the string.
-/
def textDocument (id size : Nat) : BSONObj where
  mem :=
    let m : Memory := fun i => if i + 2 < size then 97 else 0
    let m := m.setWord 0 size
    let m := m.setWord 4 1684627216
    let m := m.setWord 8 (id * 256)
    let m := m.setWord 12 (7537152 + id / 16777216)
    m.setWord 16 (size - 21)
  objdata := 0

/- The key of an integer `_id`. -/
def intKey (id : Nat) : BSONElement.Key :=
  (16, [UInt8.ofNat id, UInt8.ofNat (id / 256),
    UInt8.ofNat (id / 65536), UInt8.ofNat (id / 16777216)])

variable {id size : Nat}

------------------------------------------------------------
-- Bytes
------------------------------------------------------------

/- The bytes up to the text. -/
theorem textDocument_bytes
    (hId : id < 4294967296) :
    (textDocument id size).mem 4 = 16 ∧
      (textDocument id size).mem 5 = 95 ∧
      (textDocument id size).mem 6 = 105 ∧
      (textDocument id size).mem 7 = 100 ∧
      (textDocument id size).mem 8 = 0 ∧
      (textDocument id size).mem 9 = UInt8.ofNat id ∧
      (textDocument id size).mem 10 =
        UInt8.ofNat (id / 256) ∧
      (textDocument id size).mem 11 =
        UInt8.ofNat (id / 65536) ∧
      (textDocument id size).mem 12 =
        UInt8.ofNat (id / 16777216) ∧
      (textDocument id size).mem 13 = 2 ∧
      (textDocument id size).mem 14 = 115 ∧
      (textDocument id size).mem 15 = 0 := by
  simp only [textDocument, Memory.setWord]
  simp only [← UInt8.toNat_inj]
  simp
  omega

/- The two length words. -/
theorem textDocument_words
    (hSize : size < 2147483648) :
    (textDocument id size).mem.int 0 = size ∧
      (textDocument id size).mem.int 16 =
        (size - 21 : Nat) := by
  unfold Memory.int
  have hLength : (textDocument id size).mem.word 0 = size := by
    simp only [textDocument]
    rw [Memory.word_setWord_of_disjoint _ _ (by omega),
      Memory.word_setWord_of_disjoint _ _ (by omega),
      Memory.word_setWord_of_disjoint _ _ (by omega),
      Memory.word_setWord_of_disjoint _ _ (by omega),
      Memory.word_setWord_of_lt _ _ (by omega)]
  have hText : (textDocument id size).mem.word 16 =
      size - 21 :=
    Memory.word_setWord_of_lt _ _ (by omega)
  rw [hLength, hText]
  exact ⟨toSigned_of_lt hSize, toSigned_of_lt (by omega)⟩

/- The last byte is zero. -/
theorem textDocument_last
    (hText : 22 ≤ size) :
    (textDocument id size).mem (size - 1) = 0 := by
  simp only [textDocument]
  rw [Memory.setWord_of_disjoint _ _ _ (by omega),
    Memory.setWord_of_disjoint _ _ _ (by omega),
    Memory.setWord_of_disjoint _ _ _ (by omega),
    Memory.setWord_of_disjoint _ _ _ (by omega),
    Memory.setWord_of_disjoint _ _ _ (by omega),
    if_neg (by omega)]

------------------------------------------------------------
-- Elements
------------------------------------------------------------

/- The name `_id` at address 5. -/
theorem textDocument_idName
    (hId : id < 4294967296) :
    (textDocument id size).mem.strnlen 5
      bsonObjMaxInternalSize = some 3 := by
  rcases @textDocument_bytes id size hId with
    ⟨_, h5, h6, h7, h8, _⟩
  apply Memory.strnlen_of_bytes (by decide)
  · intro i hi
    match i, hi with
    | 0, _ => rw [h5]; decide
    | 1, _ => rw [h6]; decide
    | 2, _ => rw [h7]; decide
  · exact h8

theorem textDocument_id
    (hId : id < 4294967296) :
    BSONElement.IsElement ⟨(textDocument id size).mem, 4⟩
      9 4 4 := by
  have hType := (@textDocument_bytes id size hId).1
  refine ⟨?_, ?_, ?_, ?_, rfl, by decide⟩
  · simp [BSONElement.type, hType]
  · simp [BSONElement.fieldNameSize, BSONElement.eoo,
      BSONElement.type, hType, textDocument_idName hId]
  · simp [BSONElement.type, hType, BSONType.ofByte,
      BSONElement.valueLength]
  · intro t ht
    simp [BSONElement.type, hType, BSONType.ofByte] at ht
    subst ht
    decide

theorem textDocument_text
    (hId : id < 4294967296)
    (hText : 22 ≤ size)
    (hMax : size ≤ bsonObjMaxInternalSize) :
    BSONElement.IsElement ⟨(textDocument id size).mem, 13⟩
      (size - 14) 2 (size - 17) := by
  rcases @textDocument_bytes id size hId with
    ⟨_, _, _, _, _, _, _, _, _, hType, hChar, hEnd⟩
  simp only [bsonObjMaxInternalSize] at hMax
  have hWord := (@textDocument_words id size (by omega)).2
  have hName : (textDocument id size).mem.strnlen 14
      bsonObjMaxInternalSize = some 1 := by
    apply Memory.strnlen_of_bytes (by decide)
    · intro i hi
      match i, hi with
      | 0, _ => rw [hChar]; decide
    · exact hEnd
  refine ⟨?_, ?_, ?_, ?_, by omega, ?_⟩
  · simp [BSONElement.type, hType]
  · simp [BSONElement.fieldNameSize, BSONElement.eoo,
      BSONElement.type, hType, hName]
  · have hString : BSONType.ofByte
        (BSONElement.type ⟨(textDocument id size).mem, 13⟩) =
          some .string := by
      simp only [BSONElement.type, hType]
      rfl
    rw [hString, BSONElement.valueLength]
    rw [show (textDocument id size).mem.int (13 + 1 + 2) =
      (size - 21 : Nat) from hWord]
    congr 1
    omega
  · intro t ht
    simp [BSONElement.type, hType, BSONType.ofByte] at ht
    subst ht
    simp only [BSONType.lead]
    omega
  · simp only [bsonObjMaxInternalSize]
    omega

------------------------------------------------------------
-- Documents
------------------------------------------------------------

theorem textDocument_length
    (hMax : size ≤ bsonObjMaxInternalSize) :
    (textDocument id size).length = size := by
  simp only [bsonObjMaxInternalSize] at hMax
  have hWord := (@textDocument_words id size (by omega)).1
  unfold BSONObj.length BSONObj.objsize
  rw [show (textDocument id size).objdata = 0 from rfl, hWord]
  exact Int.toNat_natCast size

theorem textDocument_wellFormed
    (hId : id < 4294967296)
    (hText : 22 ≤ size)
    (hMax : size ≤ bsonObjMaxInternalSize) :
    (textDocument id size).WellFormed := by
  have hLength := @textDocument_length id size hMax
  have hBound := hMax
  simp only [bsonObjMaxInternalSize] at hBound
  have hWord := (@textDocument_words id size (by omega)).1
  have hSize : (textDocument id size).objsize = size := hWord
  refine ⟨by omega, by omega, ?_⟩
  rw [hLength]
  have hEnd : BSONObj.Elements (textDocument id size).mem 0
      (size - 1) (size - 1) := by
    apply BSONObj.Elements.done
    rw [Nat.zero_add]
    exact textDocument_last hText
  apply BSONObj.Elements.element (textDocument_id hId)
  apply BSONObj.Elements.element
    (textDocument_text hId hText hMax)
  rw [show 4 + 9 + (size - 14) = size - 1 by omega]
  exact hEnd

/- The `_id` is the first element. -/
theorem textDocument_hasId
    (hId : id < 4294967296)
    (hText : 22 ≤ size)
    (hMax : size ≤ bsonObjMaxInternalSize) :
    HasId (textDocument id size) 4 (intKey id) := by
  have hElem := @textDocument_id id size hId
  have hLength := @textDocument_length id size hMax
  rcases @textDocument_bytes id size hId with
    ⟨hType, h5, h6, h7, h8, h9, h10, h11, h12, _⟩
  have hName : BSONElement.hasName
      ⟨(textDocument id size).mem, 4⟩ ixmKeyFieldName =
        true := by
    simp [BSONElement.hasName, BSONElement.eoo,
      BSONElement.type, hType, Memory.strEq, h5, h6, h7, h8]
  refine ⟨?_, ?_, ⟨9, 4, 4, hElem, by omega⟩, ?_⟩
  · unfold BSONObj.fieldOffset
    rw [BSONObj.fieldOffsetFrom, if_pos (by omega)]
    simp only [show (textDocument id size).objdata = 0
      from rfl, Nat.zero_add]
    simp only [hElem.size_eq, bind, Except.bind, hName,
      if_true, pure, Except.pure]
  · exact Or.inl (by
      rw [show (textDocument id size).objdata + 4 = 4
        from rfl, hType]
      rfl)
  · rw [show (textDocument id size).objdata + 4 = 4 from rfl,
      hElem.key_eq]
    simp [BSONElement.type, BSONElement.value, Memory.bytes,
      List.range_succ, hType, h9, h10, h11, h12, intKey]

end EmeraldDb
