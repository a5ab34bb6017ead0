import EmeraldDb.Core
import EmeraldDb.Lib.Memory

/-
  BSON elements as the vendored library reads them.

  An element is a pointer to its type byte.  The type byte is
  followed by the zero-terminated field name and the value,
  whose length depends on the type.

  Key definitions include:
    * `BSONType`
    * `BSONElement`
    * `BSONElement.fieldNameSize`
    * `BSONElement.valueLength`
    * `BSONElement.size`
    * `BSONElement.valuesize`
    * `BSONElement.key`
    * `BSONElement.IsElement`

  Key results include:
    * `BSONElement.IsElement.congr`
    * `BSONElement.IsElement.key_congr`
    * `BSONElement.IsElement.sameKey_eq`
-/

namespace EmeraldDb

------------------------------------------------------------
-- Element Types
------------------------------------------------------------

inductive BSONType
| minKey
| eoo
| numberDouble
| string
| object
| array
| binData
| undefined
| jstOID
| bool
| date
| jstNULL
| regEx
| dbRef
| code
| symbol
| codeWScope
| numberInt
| timestamp
| numberLong
| maxKey
deriving DecidableEq, Repr

namespace BSONType

/- The type a type byte stands for, if any. -/
def ofByte (b : UInt8) : Option BSONType :=
  match b.toNat with
  | 0 => some eoo
  | 1 => some numberDouble
  | 2 => some string
  | 3 => some object
  | 4 => some array
  | 5 => some binData
  | 6 => some undefined
  | 7 => some jstOID
  | 8 => some bool
  | 9 => some date
  | 10 => some jstNULL
  | 11 => some regEx
  | 12 => some dbRef
  | 13 => some code
  | 14 => some symbol
  | 15 => some codeWScope
  | 16 => some numberInt
  | 17 => some timestamp
  | 18 => some numberLong
  | 127 => some maxKey
  | 255 => some minKey
  | _ => none

/- Bytes of the length prefix a value of this type has. -/
def lead : BSONType → Nat
| string | symbol | code | dbRef | codeWScope => 4
| object | array | binData => 4
| _ => 0

end BSONType

/- Largest object the library accepts. -/
abbrev bsonObjMaxInternalSize : Nat := 16793600

/- The 32-bit value of an arithmetic result. -/
def wrapInt (v : Int) : Int :=
  toSigned (ofSigned v)

theorem wrapInt_of_range
    {v : Int}
    (hLow : -2147483648 ≤ v)
    (hHigh : v < 2147483648) :
    wrapInt v = v :=
  toSigned_ofSigned hLow hHigh

------------------------------------------------------------
-- Elements
------------------------------------------------------------

/- An element is the address of its type byte. -/
structure BSONElement where
  mem : Memory
  data : Nat

namespace BSONElement

/- The type byte. -/
def type (e : BSONElement) : UInt8 :=
  e.mem e.data

/- Is this the end-of-object element? -/
def eoo (e : BSONElement) : Bool :=
  e.type == 0

/-
  Bytes of the field name with its terminator.  A name that
  is not terminated within the size of the largest object
  has run off every object.
-/
def fieldNameSize (e : BSONElement) : Except Fault Nat :=
  if e.eoo then .ok 0
  else
    match e.mem.strnlen (e.data + 1)
        bsonObjMaxInternalSize with
    | some n => .ok (n + 1)
    | none => .error .stray

/- A name whose size is known is terminated. -/
theorem strnlen_of_fieldNameSize
    {e : BSONElement}
    {n : Nat}
    (hNotEoo : e.type ≠ 0)
    (hName : e.fieldNameSize = .ok n) :
    1 ≤ n ∧
      e.mem.strnlen (e.data + 1) bsonObjMaxInternalSize =
        some (n - 1) := by
  have hEoo : e.eoo = false := by
    simpa [eoo] using hNotEoo
  rw [fieldNameSize, hEoo] at hName
  simp only [Bool.false_eq_true, if_false] at hName
  split at hName
  · rename_i k hLen
    simp only [Except.ok.injEq] at hName
    subst hName
    exact ⟨by omega, by simpa using hLen⟩
  · simp at hName

/- A terminated name has its size. -/
theorem fieldNameSize_of_strnlen
    {e : BSONElement}
    {n : Nat}
    (hNotEoo : e.type ≠ 0)
    (hPositive : 1 ≤ n)
    (hLen : e.mem.strnlen (e.data + 1)
      bsonObjMaxInternalSize = some (n - 1)) :
    e.fieldNameSize = .ok n := by
  have hEoo : e.eoo = false := by
    simpa [eoo] using hNotEoo
  simp only [fieldNameSize, hEoo, Bool.false_eq_true,
    if_false, hLen, Except.ok.injEq]
  omega

/- Value length of a type, for a value at address `v`. -/
def valueLength
    (m : Memory)
    (v : Nat) :
    Option BSONType → Except Fault Int
| none => .error .assertion
| some t =>
    match t with
    | .eoo | .undefined | .jstNULL => .ok 0
    | .maxKey | .minKey => .ok 0
    | .bool => .ok 1
    | .numberInt => .ok 4
    | .timestamp | .date => .ok 8
    | .numberDouble | .numberLong => .ok 8
    | .jstOID => .ok 12
    | .symbol | .code | .string => .ok (m.int v + 4)
    | .dbRef => .ok (m.int v + 4 + 12)
    | .codeWScope | .object | .array => .ok (m.int v)
    | .binData => .ok (m.int v + 4 + 1)
    | .regEx =>
        match m.strnlen v bsonObjMaxInternalSize with
        | none => .error .stray
        | some l₁ =>
            match m.strnlen (v + l₁ + 1)
                bsonObjMaxInternalSize with
            | none => .error .stray
            | some l₂ => .ok (l₁ + 1 + l₂ + 1)

/- Size of the whole element, in 32-bit arithmetic. -/
def size (e : BSONElement) : Except Fault Int :=
  if e.eoo then .ok 1
  else do
    let n ← e.fieldNameSize
    let x ← valueLength e.mem (e.data + 1 + n)
      (BSONType.ofByte e.type)
    return wrapInt (x + n + 1)

/- Address of the value, given the field name size. -/
def value
    (e : BSONElement)
    (n : Nat) : Nat :=
  e.data + n + 1

/- Size of the value. -/
def valuesize (e : BSONElement) : Except Fault Int := do
  let s ← e.size
  let n ← e.fieldNameSize
  return wrapInt (s - n - 1)

/- Is the field name equal to `name`? -/
def hasName
    (e : BSONElement)
    (name : List UInt8) : Bool :=
  if e.eoo then name.isEmpty
  else e.mem.strEq (e.data + 1) name

/-
  Two elements have equal type, value size and value bytes:
  the comparison of the index.
-/
def sameKey
    (src dest : BSONElement) : Except Fault Bool :=
  if src.type = dest.type then do
    let ssize ← src.valuesize
    let dsize ← dest.valuesize
    if ssize = dsize then do
      let sn ← src.fieldNameSize
      let dn ← dest.fieldNameSize
      return decide (Memory.Same src.mem (src.value sn)
        dest.mem (dest.value dn) dsize.toNat)
    else return false
  else return false

/- Type and value bytes of an element. -/
abbrev Key :=
  UInt8 × List UInt8

/- The key an element carries. -/
def key (e : BSONElement) : Except Fault Key := do
  let s ← e.valuesize
  let n ← e.fieldNameSize
  return (e.type, e.mem.bytes (e.value n) s.toNat)

/-
  The value length is read from the length prefix, or from
  the two strings of a regular expression.
-/
theorem valueLength_same
    {m m' : Memory}
    {v v' l : Nat}
    {t : BSONType}
    (hSame : Memory.Same m v m' v' l)
    (hLead : t.lead ≤ l)
    (hRegEx : t = .regEx → ∃ x : Nat,
      valueLength m v (some t) = .ok (x : Int) ∧ x ≤ l) :
    valueLength m' v' (some t) = valueLength m v (some t) := by
  have hInt : 4 ≤ t.lead → m'.int v' = m.int v := by
    intro hFour
    unfold Memory.int
    rw [hSame.word (by omega)]
  cases t with
  | regEx =>
      rcases hRegEx rfl with ⟨x, hValue, hFits⟩
      rw [hValue]
      simp only [valueLength] at hValue ⊢
      split at hValue
      · simp at hValue
      · rename_i l₁ hFirst
        split at hValue
        · simp at hValue
        · rename_i l₂ hSecond
          simp only [Except.ok.injEq] at hValue
          rw [Memory.strnlen_congr hFirst
            (hSame.mono (by omega))]
          have hTail : Memory.Same m (v + (l₁ + 1)) m'
              (v' + (l₁ + 1)) (l₂ + 1) :=
            hSame.slice (by omega)
          simp only [Nat.add_assoc] at hTail hSecond ⊢
          rw [Memory.strnlen_congr hSecond hTail]
          simpa using hValue
  | string | symbol | code | dbRef | codeWScope
  | object | array | binData =>
      simp only [valueLength, hInt (by simp [BSONType.lead])]
  | _ => rfl

------------------------------------------------------------
-- Well-Formed Elements
------------------------------------------------------------

/-
  A complete element of `s` bytes: a known type other than
  the end marker, a terminated name of `n` bytes and a value
  of `x` bytes that is at least as long as its own length
  prefix.
-/
structure IsElement
    (e : BSONElement)
    (s n x : Nat) : Prop where
  notEoo : e.type ≠ 0
  name : e.fieldNameSize = .ok n
  value : valueLength e.mem (e.data + 1 + n)
    (BSONType.ofByte e.type) = .ok (x : Int)
  lead : ∀ t, BSONType.ofByte e.type = some t → t.lead ≤ x
  total : s = n + 1 + x
  bounded : s < bsonObjMaxInternalSize

namespace IsElement

variable {e e' : BSONElement}
variable {s n x s' n' x' : Nat}

theorem eoo_eq_false
    (hElem : IsElement e s n x) :
    e.eoo = false := by
  simpa [eoo] using hElem.notEoo

/- The name of an element is terminated. -/
theorem strnlen_eq
    (hElem : IsElement e s n x) :
    1 ≤ n ∧
      e.mem.strnlen (e.data + 1) bsonObjMaxInternalSize =
        some (n - 1) :=
  strnlen_of_fieldNameSize hElem.notEoo hElem.name

theorem size_eq
    (hElem : IsElement e s n x) :
    e.size = .ok (s : Int) := by
  have hBound := hElem.bounded
  have hTotal := hElem.total
  simp only [size, hElem.eoo_eq_false, Bool.false_eq_true,
    if_false, hElem.name, hElem.value, bind, Except.bind,
    pure, Except.pure, Except.ok.injEq]
  rw [wrapInt_of_range (by omega) (by
    simp only [bsonObjMaxInternalSize] at hBound
    omega)]
  omega

theorem valuesize_eq
    (hElem : IsElement e s n x) :
    e.valuesize = .ok (x : Int) := by
  have hBound := hElem.bounded
  have hTotal := hElem.total
  simp only [valuesize, hElem.size_eq, hElem.name, bind,
    Except.bind, pure, Except.pure, Except.ok.injEq]
  rw [wrapInt_of_range (by omega) (by
    simp only [bsonObjMaxInternalSize] at hBound
    omega)]
  omega

theorem key_eq
    (hElem : IsElement e s n x) :
    e.key = .ok
      (e.type, e.mem.bytes (e.value n) x) := by
  simp [key, hElem.valuesize_eq, hElem.name, bind,
    Except.bind, pure, Except.pure]

theorem two_le
    (hElem : IsElement e s n x) :
    2 ≤ s := by
  have hName := hElem.strnlen_eq.1
  have hTotal := hElem.total
  omega

/-
  The value length of an element only depends on bytes that
  belong to the element.
-/
theorem valueLength_congr
    (hElem : IsElement e s n x)
    {m' : Memory}
    {v' : Nat}
    (hSame : Memory.Same e.mem (e.data + 1 + n) m' v' x) :
    valueLength m' v' (BSONType.ofByte e.type) =
      .ok (x : Int) := by
  have hValue := hElem.value
  cases hType : BSONType.ofByte e.type with
  | none => simp [hType, valueLength] at hValue
  | some t =>
      rw [hType] at hValue
      rw [← hValue]
      exact valueLength_same hSame (hElem.lead t hType)
        (fun _ => ⟨x, hValue, le_refl x⟩)

/- An element copied byte by byte is the same element. -/
theorem congr
    (hElem : IsElement e s n x)
    (e' : BSONElement)
    (hSame : Memory.Same e.mem e.data e'.mem e'.data s) :
    IsElement e' s n x := by
  have hTotal := hElem.total
  have hName := hElem.strnlen_eq
  have hType : e'.type = e.type := by
    have hFirst := hSame 0 (by omega)
    simpa [type] using hFirst.symm
  have hNotEoo : e'.type ≠ 0 := hType ▸ hElem.notEoo
  refine ⟨hNotEoo, ?_, ?_, ?_, hTotal, hElem.bounded⟩
  · apply fieldNameSize_of_strnlen hNotEoo hName.1
    exact Memory.strnlen_congr hName.2
      (hSame.slice (by omega))
  · rw [hType]
    apply hElem.valueLength_congr
    have hValue := hSame.slice (k := 1 + n) (l := x) (by omega)
    simpa only [Nat.add_assoc] using hValue
  · rw [hType]
    exact hElem.lead

theorem key_congr
    (hElem : IsElement e s n x)
    (e' : BSONElement)
    (hSame : Memory.Same e.mem e.data e'.mem e'.data s) :
    e'.key = e.key := by
  have hTotal := hElem.total
  rw [hElem.key_eq, (hElem.congr e' hSame).key_eq]
  have hType : e'.type = e.type := by
    have hFirst := hSame 0 (by omega)
    simpa [type] using hFirst.symm
  have hValue : Memory.Same e.mem (e.value n) e'.mem
      (e'.value n) x := by
    have hSlice := hSame.slice (k := n + 1) (l := x)
      (by omega)
    simpa only [BSONElement.value, Nat.add_assoc] using
      hSlice
  rw [hType, hValue.bytes]

/- A copied element has the same name. -/
theorem hasName_congr
    (hElem : IsElement e s n x)
    (e' : BSONElement)
    (hSame : Memory.Same e.mem e.data e'.mem e'.data s)
    {name : List UInt8}
    (hNonzero : ∀ c ∈ name, c ≠ 0) :
    e'.hasName name = e.hasName name := by
  have hTotal := hElem.total
  have hName := hElem.strnlen_eq
  have hEoo' := (hElem.congr e' hSame).eoo_eq_false
  simp only [hasName, hElem.eoo_eq_false, hEoo',
    Bool.false_eq_true, if_false]
  exact (Memory.strEq_congr hNonzero hName.2
    (hSame.slice (by omega))).symm

/- The index comparison of two elements compares keys. -/
theorem sameKey_eq
    (hSrc : IsElement e s n x)
    (hDest : IsElement e' s' n' x') :
    e.sameKey e' = .ok
      (decide ((e.type, e.mem.bytes (e.value n) x) =
        (e'.type, e'.mem.bytes (e'.value n') x'))) := by
  unfold sameKey
  by_cases hType : e.type = e'.type
  · rw [if_pos hType]
    simp only [hSrc.valuesize_eq, hDest.valuesize_eq,
      hSrc.name, hDest.name, bind, Except.bind, pure,
      Except.pure, hType, Prod.mk.injEq, true_and]
    by_cases hSize : (x : Int) = (x' : Int)
    · have hNat : x = x' := by exact_mod_cast hSize
      subst hNat
      rw [if_pos rfl]
      congr 1
      apply decide_eq_decide.mpr
      constructor
      · intro hSame
        exact Memory.Same.bytes (by simpa using hSame)
      · intro hBytes
        simpa using Memory.same_of_bytes_eq hBytes
    · rw [if_neg hSize]
      congr 1
      symm
      apply decide_eq_false
      intro hBytes
      apply hSize
      have hLength := congrArg List.length hBytes
      simp only [Memory.length_bytes] at hLength
      exact_mod_cast hLength
  · rw [if_neg hType]
    simp [hType, pure, Except.pure]

end IsElement

end BSONElement

end EmeraldDb
