import EmeraldDb.Bson.Element

/-
  BSON objects and the search for a field.

  An object is a pointer to its length word.  The elements
  follow the length word and end with an end marker in the
  object's last byte.

  Key definitions include:
    * `BSONObj`
    * `BSONObj.empty`
    * `BSONObj.ofData`
    * `BSONObj.getField`
    * `BSONObj.WellFormed`

  Key results include:
    * `BSONObj.WellFormed.fieldOffset_eq`
    * `BSONObj.WellFormed.congr`
    * `BSONObj.WellFormed.fieldOffset_congr`
-/

namespace EmeraldDb

------------------------------------------------------------
-- Objects
------------------------------------------------------------

/- An object is the address of its length word. -/
structure BSONObj where
  mem : Memory
  objdata : Nat

namespace BSONObj

/- The length word, which counts itself. -/
def objsize (o : BSONObj) : Int :=
  o.mem.int o.objdata

/- Number of bytes of an accepted object. -/
def length (o : BSONObj) : Nat :=
  o.objsize.toNat

/- The bytes of the object. -/
def document (o : BSONObj) : List UInt8 :=
  o.mem.bytes o.objdata o.length

/- The cursory check of the length word. -/
def isValid (o : BSONObj) : Bool :=
  decide (0 < o.objsize ∧
    o.objsize ≤ (bsonObjMaxInternalSize : Int))

/- The object without elements, which is not in a buffer. -/
def empty : BSONObj :=
  ⟨Memory.setWord (fun _ => 0) 0 5, 0⟩

/- Construct an object from data: throws when not valid. -/
def ofData
    (m : Memory)
    (a : Nat) : Except Fault BSONObj :=
  let o : BSONObj := ⟨m, a⟩
  if o.isValid then .ok o else .error .assertion

/-
  The iterator's walk over the elements, by displacement
  from the object.  An element that does not advance the
  walk would take it out of the object.
-/
def fieldOffsetFrom
    (m : Memory)
    (base : Nat)
    (name : List UInt8)
    (theend : Nat) :
    Nat → Nat → Except Fault (Option Nat)
| 0, _ => .error .stray
| fuel + 1, pos =>
    if pos < theend then do
      let e : BSONElement := ⟨m, base + pos⟩
      let s ← e.size
      if e.hasName name then return some pos
      else if 0 < s then
        fieldOffsetFrom m base name theend fuel
          (pos + s.toNat)
      else .error .stray
    else .ok none

/- Displacement of the first field with a given name. -/
def fieldOffset
    (o : BSONObj)
    (name : List UInt8) : Except Fault (Option Nat) :=
  fieldOffsetFrom o.mem o.objdata name (o.length - 1)
    (o.length + 1) 4

/- The first field with a given name. -/
def getField
    (o : BSONObj)
    (name : List UInt8) :
    Except Fault (Option BSONElement) := do
  let pos ← o.fieldOffset name
  return pos.map (fun k => ⟨o.mem, o.objdata + k⟩)

------------------------------------------------------------
-- Well-Formed Objects
------------------------------------------------------------

/-
  The elements of `m` from displacement `pos` on follow each
  other up to an end marker at displacement `theend`.
-/
inductive Elements
    (m : Memory)
    (base theend : Nat) :
    Nat → Prop
| done
    (hEoo : m (base + theend) = 0) :
    Elements m base theend theend
| element
    {pos s n x : Nat}
    (hElem : BSONElement.IsElement ⟨m, base + pos⟩ s n x)
    (hRest : Elements m base theend (pos + s)) :
    Elements m base theend pos

/- The object's elements fill it exactly. -/
structure WellFormed (o : BSONObj) : Prop where
  five_le : 5 ≤ o.objsize
  bounded : o.objsize ≤ (bsonObjMaxInternalSize : Int)
  elements : Elements o.mem o.objdata (o.length - 1) 4

theorem Elements.le
    {m : Memory}
    {base theend pos : Nat}
    (hElements : Elements m base theend pos) :
    pos ≤ theend := by
  induction hElements with
  | done _ => exact le_refl _
  | element hElem _ ih =>
      have hTwo := hElem.two_le
      omega

/- The elements of an equal block are the same. -/
theorem Elements.congr
    {m m' : Memory}
    {base base' theend pos : Nat}
    (hElements : Elements m base theend pos)
    (hSame : Memory.Same m base m' base' (theend + 1)) :
    Elements m' base' theend pos := by
  induction hElements with
  | done hEoo =>
      apply Elements.done
      rw [← hSame theend (by omega)]
      exact hEoo
  | element hElem hRest ih =>
      rename_i pos s n x
      have hLe := hRest.le
      apply Elements.element (hElem.congr _ ?_) ih
      exact hSame.slice (by omega)

/-
  The walk over well-formed elements ends, and what it finds
  is an element of the object with the requested name.
-/
theorem Elements.fieldOffsetFrom_eq
    {m : Memory}
    {base theend pos : Nat}
    (hElements : Elements m base theend pos)
    (name : List UInt8)
    (fuel : Nat)
    (hFuel : theend < pos + fuel) :
    ∃ found,
      fieldOffsetFrom m base name theend fuel pos =
        .ok found ∧
      ∀ k, found = some k → ∃ s n x,
        BSONElement.IsElement ⟨m, base + k⟩ s n x ∧
          k + s ≤ theend ∧ pos ≤ k := by
  induction hElements generalizing fuel with
  | done _ =>
      cases fuel with
      | zero => omega
      | succ fuel =>
          refine ⟨none, ?_, by simp⟩
          simp [fieldOffsetFrom]
  | element hElem hRest ih =>
      rename_i pos s n x
      have hTwo := hElem.two_le
      have hLe := hRest.le
      cases fuel with
      | zero => omega
      | succ fuel =>
          rw [fieldOffsetFrom, if_pos (by omega)]
          simp only [hElem.size_eq, bind, Except.bind]
          by_cases hName :
              BSONElement.hasName ⟨m, base + pos⟩ name = true
          · rw [if_pos hName]
            refine ⟨some pos, rfl, ?_⟩
            intro k hk
            simp only [Option.some.injEq] at hk
            subst hk
            exact ⟨s, n, x, hElem, hLe, le_refl _⟩
          · rw [if_neg hName, if_pos (by omega)]
            rcases ih fuel (by omega) with
              ⟨found, hFound, hSpec⟩
            refine ⟨found, by simpa using hFound, ?_⟩
            intro k hk
            rcases hSpec k hk with
              ⟨s', n', x', hElem', hFits, hAfter⟩
            exact ⟨s', n', x', hElem', hFits, by omega⟩

/- The walk over an equal block finds the same field. -/
theorem Elements.fieldOffsetFrom_congr
    {m m' : Memory}
    {base base' theend pos : Nat}
    (hElements : Elements m base theend pos)
    (hSame : Memory.Same m base m' base' (theend + 1))
    {name : List UInt8}
    (hNonzero : ∀ c ∈ name, c ≠ 0)
    (fuel : Nat) :
    fieldOffsetFrom m' base' name theend fuel pos =
      fieldOffsetFrom m base name theend fuel pos := by
  induction hElements generalizing fuel with
  | done _ =>
      cases fuel with
      | zero => rfl
      | succ fuel => simp [fieldOffsetFrom]
  | element hElem hRest ih =>
      rename_i pos s n x
      have hTwo := hElem.two_le
      have hLe := hRest.le
      cases fuel with
      | zero => rfl
      | succ fuel =>
          have hBlock : Memory.Same m (base + pos) m'
              (base' + pos) s :=
            hSame.slice (by omega)
          have hElem' := hElem.congr
            ⟨m', base' + pos⟩ hBlock
          have hName := hElem.hasName_congr
            ⟨m', base' + pos⟩ hBlock hNonzero
          rw [fieldOffsetFrom, fieldOffsetFrom,
            if_pos (by omega), if_pos (by omega)]
          simp only [hElem.size_eq, hElem'.size_eq, hName,
            bind, Except.bind]
          split
          · rfl
          · rw [if_pos (by omega), if_pos (by omega)]
            simpa using ih fuel

/- An object with its length word copied has the same size. -/
theorem objsize_of_same
    {o o' : BSONObj}
    (hFour : 4 ≤ o.length)
    (hSame : Memory.Same o.mem o.objdata o'.mem o'.objdata
      o.length) :
    o'.objsize = o.objsize := by
  unfold objsize Memory.int
  rw [hSame.word hFour]

/- A copied object has the same bytes. -/
theorem document_of_same
    {o o' : BSONObj}
    (hFour : 4 ≤ o.length)
    (hSame : Memory.Same o.mem o.objdata o'.mem o'.objdata
      o.length) :
    o'.document = o.document := by
  have hSize := objsize_of_same hFour hSame
  unfold document length
  rw [hSize]
  exact hSame.bytes.symm

theorem ofData_of_isValid
    {o : BSONObj}
    (hValid : o.isValid = true) :
    ofData o.mem o.objdata = .ok o := by
  simp [ofData, hValid]

/- A copy of a valid object is one. -/
theorem ofData_of_same
    {o : BSONObj}
    {m : Memory}
    {a : Nat}
    (hFour : 4 ≤ o.length)
    (hValid : o.isValid = true)
    (hSame : Memory.Same o.mem o.objdata m a o.length) :
    ofData m a = .ok ⟨m, a⟩ := by
  have hSize := @objsize_of_same o ⟨m, a⟩ hFour hSame
  have hCopied : (⟨m, a⟩ : BSONObj).isValid = true := by
    simp only [isValid, decide_eq_true_eq] at hValid ⊢
    omega
  exact @ofData_of_isValid ⟨m, a⟩ hCopied

namespace WellFormed

variable {o : BSONObj}

theorem length_eq
    (hForm : o.WellFormed) :
    (o.length : Int) = o.objsize ∧ 5 ≤ o.length ∧
      o.length ≤ bsonObjMaxInternalSize := by
  have hFive := hForm.five_le
  have hBound := hForm.bounded
  unfold length
  omega

/- An object copied byte by byte has the same length. -/
theorem objsize_congr
    (hForm : o.WellFormed)
    (o' : BSONObj)
    (hSame : Memory.Same o.mem o.objdata o'.mem o'.objdata
      o.length) :
    o'.objsize = o.objsize := by
  have hLength := hForm.length_eq
  exact objsize_of_same (by omega) hSame

theorem length_congr
    (hForm : o.WellFormed)
    (o' : BSONObj)
    (hSame : Memory.Same o.mem o.objdata o'.mem o'.objdata
      o.length) :
    o'.length = o.length := by
  unfold length
  rw [hForm.objsize_congr o' hSame]

/- An object copied byte by byte is well formed. -/
theorem congr
    (hForm : o.WellFormed)
    (o' : BSONObj)
    (hSame : Memory.Same o.mem o.objdata o'.mem o'.objdata
      o.length) :
    o'.WellFormed := by
  have hLength := hForm.length_eq
  have hSize := hForm.objsize_congr o' hSame
  refine ⟨hSize ▸ hForm.five_le, hSize ▸ hForm.bounded, ?_⟩
  rw [hForm.length_congr o' hSame]
  apply hForm.elements.congr
  rw [Nat.sub_add_cancel (by omega)]
  exact hSame

/- The search for a field ends within the object. -/
theorem fieldOffset_eq
    (hForm : o.WellFormed)
    (name : List UInt8) :
    ∃ found, o.fieldOffset name = .ok found ∧
      ∀ k, found = some k → ∃ s n x,
        BSONElement.IsElement ⟨o.mem, o.objdata + k⟩ s n x ∧
          k + s + 1 ≤ o.length := by
  have hLength := hForm.length_eq
  rcases hForm.elements.fieldOffsetFrom_eq name
      (o.length + 1) (by omega) with
    ⟨found, hFound, hSpec⟩
  refine ⟨found, hFound, ?_⟩
  intro k hk
  rcases hSpec k hk with ⟨s, n, x, hElem, hFits, _⟩
  exact ⟨s, n, x, hElem, by omega⟩

/- A field is at the same place in a copied object. -/
theorem fieldOffset_congr
    (hForm : o.WellFormed)
    (o' : BSONObj)
    (hSame : Memory.Same o.mem o.objdata o'.mem o'.objdata
      o.length)
    {name : List UInt8}
    (hNonzero : ∀ c ∈ name, c ≠ 0) :
    o'.fieldOffset name = o.fieldOffset name := by
  have hLength := hForm.length_eq
  unfold fieldOffset
  rw [hForm.length_congr o' hSame]
  apply hForm.elements.fieldOffsetFrom_congr _ hNonzero
  rw [Nat.sub_add_cancel (by omega)]
  exact hSame

theorem isValid_eq_true
    (hForm : o.WellFormed) :
    o.isValid = true := by
  have hFive := hForm.five_le
  simp only [isValid, decide_eq_true_eq]
  exact ⟨by omega, hForm.bounded⟩

theorem ofData_eq
    (hForm : o.WellFormed) :
    ofData o.mem o.objdata = .ok o :=
  ofData_of_isValid hForm.isValid_eq_true

end WellFormed

end BSONObj

end EmeraldDb
