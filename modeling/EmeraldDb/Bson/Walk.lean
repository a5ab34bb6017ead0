import EmeraldDb.Bson.Object

/-
  Objects that are walked without leaving them.

  An object that the library has printed need not be well
  formed: a value may be shorter than its own length prefix.
  But every element was sized from bytes of the object and
  ends in it, and so the search for a field reads only these
  bytes, as does the comparison with the field that it finds.

  Key definitions include:
    * `BSONElement.Within`
    * `BSONObj.Walk`
    * `BSONObj.Walkable`

  Key results include:
    * `BSONElement.Within.sameKey_congr`
    * `BSONObj.Walkable.fieldOffset_cases`
    * `BSONObj.WellFormed.walkable`
-/

namespace EmeraldDb

------------------------------------------------------------
-- Elements
------------------------------------------------------------

namespace BSONElement

/-
  An element of `s` bytes with a name of `n` bytes that is
  sized from the first `l` bytes and is no longer than that.
-/
structure Within
    (e : BSONElement)
    (s n l : Nat) : Prop where
  notEoo : e.type ≠ 0
  name : e.fieldNameSize = .ok n
  prefixed : ∃ t, BSONType.ofByte e.type = some t ∧
    1 + n + t.lead ≤ l ∧
    (t = .regEx → ∃ x : Nat,
      valueLength e.mem (e.data + 1 + n) (some t) =
        .ok (x : Int) ∧ 1 + n + x ≤ l)
  size : e.size = .ok (s : Int)
  positive : 0 < s
  fits : s ≤ l

namespace Within

variable {e : BSONElement} {s n l : Nat}

theorem type_congr
    (hWithin : Within e s n l)
    (e' : BSONElement)
    (hSame : Memory.Same e.mem e.data e'.mem e'.data l) :
    e'.type = e.type := by
  have hFirst := hSame 0
    (lt_of_lt_of_le hWithin.positive hWithin.fits)
  simpa [type] using hFirst.symm

/- The size of a copied element is computed alike. -/
theorem congr
    (hWithin : Within e s n l)
    (e' : BSONElement)
    (hSame : Memory.Same e.mem e.data e'.mem e'.data l) :
    Within e' s n l := by
  have hType := hWithin.type_congr e' hSame
  have hName := strnlen_of_fieldNameSize hWithin.notEoo
    hWithin.name
  rcases hWithin.prefixed with ⟨t, hByte, hLead, hRegEx⟩
  have hNotEoo : e'.type ≠ 0 := hType ▸ hWithin.notEoo
  have hName' : e'.fieldNameSize = .ok n := by
    apply fieldNameSize_of_strnlen hNotEoo hName.1
    exact Memory.strnlen_congr hName.2
      (hSame.slice (by omega))
  have hBlock : Memory.Same e.mem (e.data + 1 + n) e'.mem
      (e'.data + 1 + n) (l - (1 + n)) := by
    have hSlice := hSame.slice (k := 1 + n)
      (l := l - (1 + n)) (by omega)
    simpa only [Nat.add_assoc] using hSlice
  have hValue : valueLength e'.mem (e'.data + 1 + n)
      (some t) = valueLength e.mem (e.data + 1 + n)
        (some t) := by
    apply valueLength_same hBlock (by omega)
    intro hIs
    rcases hRegEx hIs with ⟨x, hLength, hFits⟩
    exact ⟨x, hLength, by omega⟩
  refine ⟨hNotEoo, hName', ⟨t, hType ▸ hByte, hLead, ?_⟩, ?_,
    hWithin.positive, hWithin.fits⟩
  · intro hIs
    rw [hValue]
    exact hRegEx hIs
  · have hEoo : e.eoo = false := by
      simpa [eoo] using hWithin.notEoo
    have hEoo' : e'.eoo = false := by
      simpa [eoo] using hNotEoo
    have hSize := hWithin.size
    unfold BSONElement.size at hSize ⊢
    rw [hWithin.name, hByte, hEoo] at hSize
    rw [hName', hType, hByte, hEoo']
    simp only [Bool.false_eq_true, if_false, bind,
      Except.bind] at hSize ⊢
    rw [hValue]
    exact hSize

/- The value of an element ends where the element does. -/
theorem valuesize_eq
    (hWithin : Within e s n l) :
    e.valuesize = .ok ((s : Int) - n - 1) := by
  have hName := strnlen_of_fieldNameSize hWithin.notEoo
    hWithin.name
  have hShort := Memory.strnlen_lt hName.2
  simp only [bsonObjMaxInternalSize] at hShort
  -- The size is the value of a signed word.
  have hSize : (s : Int) < 2147483648 := by
    rcases hWithin.prefixed with ⟨t, hByte, _, _⟩
    have hOk := hWithin.size
    have hEoo : e.eoo = false := by
      simpa [eoo] using hWithin.notEoo
    unfold BSONElement.size at hOk
    rw [hWithin.name, hByte, hEoo] at hOk
    simp only [Bool.false_eq_true, if_false, bind,
      Except.bind, pure, Except.pure] at hOk
    split at hOk
    · cases hOk
    · rw [← Except.ok.inj hOk]
      unfold wrapInt toSigned ofSigned
      split <;> omega
  simp only [valuesize, hWithin.size, hWithin.name, bind,
    Except.bind, pure, Except.pure, Except.ok.injEq]
  exact wrapInt_of_range (by omega) (by omega)

/- The bytes of the value belong to the element. -/
theorem value_congr
    (hWithin : Within e s n l)
    (e' : BSONElement)
    (hSame : Memory.Same e.mem e.data e'.mem e'.data l) :
    Memory.Same e.mem (e.value n) e'.mem (e'.value n)
      ((s : Int) - n - 1).toNat := by
  have hFits := hWithin.fits
  by_cases hValue : n + 1 ≤ s
  · have hSlice := hSame.slice (k := n + 1)
      (l := ((s : Int) - n - 1).toNat) (by omega)
    simpa only [value, Nat.add_assoc] using hSlice
  · intro i hi
    omega

theorem key_congr
    (hWithin : Within e s n l)
    (e' : BSONElement)
    (hSame : Memory.Same e.mem e.data e'.mem e'.data l) :
    e'.key = e.key := by
  have hWithin' := hWithin.congr e' hSame
  simp only [key, hWithin.valuesize_eq, hWithin'.valuesize_eq,
    hWithin.name, hWithin'.name, hWithin.type_congr e' hSame,
    (hWithin.value_congr e' hSame).bytes, bind, Except.bind]

/- The comparison with any element is that of the copy. -/
theorem sameKey_congr
    (hWithin : Within e s n l)
    (e' : BSONElement)
    (hSame : Memory.Same e.mem e.data e'.mem e'.data l)
    (dest : BSONElement) :
    e'.sameKey dest = e.sameKey dest := by
  have hWithin' := hWithin.congr e' hSame
  have hValue := hWithin.value_congr e' hSame
  simp only [sameKey, hWithin.valuesize_eq,
    hWithin'.valuesize_eq, hWithin.name, hWithin'.name,
    hWithin.type_congr e' hSame, bind, Except.bind]
  by_cases hType : e.type = dest.type
  · rw [if_pos hType, if_pos hType]
    cases hSize : dest.valuesize with
    | error fault => rfl
    | ok dsize =>
        simp only
        by_cases hEq : (s : Int) - n - 1 = dsize
        · rw [if_pos hEq, if_pos hEq]
          cases dest.fieldNameSize with
          | error fault => rfl
          | ok dn =>
              simp only [pure, Except.pure, Except.ok.injEq]
              apply decide_eq_decide.mpr
              rw [hEq] at hValue
              exact ⟨hValue.trans, hValue.symm.trans⟩
        · rw [if_neg hEq, if_neg hEq]
  · rw [if_neg hType, if_neg hType]

theorem hasName_congr
    (hWithin : Within e s n l)
    (e' : BSONElement)
    (hSame : Memory.Same e.mem e.data e'.mem e'.data l)
    {name : List UInt8}
    (hNonzero : ∀ c ∈ name, c ≠ 0) :
    e'.hasName name = e.hasName name := by
  have hName := strnlen_of_fieldNameSize hWithin.notEoo
    hWithin.name
  rcases hWithin.prefixed with ⟨t, _, hLead, _⟩
  have hEoo : e.eoo = false := by
    simpa [eoo] using hWithin.notEoo
  have hEoo' : e'.eoo = false := by
    simpa [eoo] using (hWithin.congr e' hSame).notEoo
  simp only [hasName, hEoo, hEoo', Bool.false_eq_true,
    if_false]
  exact (Memory.strEq_congr hNonzero hName.2
    (hSame.slice (by omega))).symm

end Within

/- A complete element is within its own bytes. -/
theorem IsElement.within
    {e : BSONElement}
    {s n x l : Nat}
    (hElem : IsElement e s n x)
    (hFits : s ≤ l) :
    Within e s n l := by
  have hTotal := hElem.total
  have hTwo := hElem.two_le
  refine ⟨hElem.notEoo, hElem.name, ?_, hElem.size_eq,
    by omega, hFits⟩
  have hValue := hElem.value
  cases hByte : BSONType.ofByte e.type with
  | none => simp [hByte, valueLength] at hValue
  | some t =>
      have hLead := hElem.lead t hByte
      rw [hByte] at hValue
      exact ⟨t, rfl, by omega, fun _ => ⟨x, hValue, by omega⟩⟩

/-
  The name of an element is compared up to the next zero,
  whether or not that zero is part of an object.
-/
theorem hasName_of_zero
    {e : BSONElement}
    (e' : BSONElement)
    {k : Nat}
    (hZero : e.mem (e.data + 1 + k) = 0)
    (hSame : Memory.Same e.mem e.data e'.mem e'.data (k + 2))
    {name : List UInt8}
    (hNonzero : ∀ c ∈ name, c ≠ 0) :
    e'.hasName name = e.hasName name := by
  have hType : e'.type = e.type := by
    simpa [type] using (hSame 0 (by omega)).symm
  have hRest : Memory.Same e.mem (e.data + 1) e'.mem
      (e'.data + 1) (k + 1) :=
    hSame.slice (by omega)
  simp only [hasName, eoo, hType]
  rw [Memory.strEq_of_zero hNonzero hZero hRest]
  rfl

end BSONElement

------------------------------------------------------------
-- Objects
------------------------------------------------------------

namespace BSONObj

/-
  From displacement `pos` on, elements that are within the
  object follow each other, up to `theend` or beyond it.
-/
inductive Walk
    (m : Memory)
    (base theend : Nat) :
    Nat → Prop
| done
    {pos : Nat}
    (hEnd : theend ≤ pos) :
    Walk m base theend pos
| element
    {pos s n : Nat}
    (hElem : BSONElement.Within ⟨m, base + pos⟩ s n
      (theend + 1 - pos))
    (hRest : Walk m base theend (pos + s)) :
    Walk m base theend pos

/- The walk over the object's elements stays in the object. -/
def Walkable (o : BSONObj) : Prop :=
  Walk o.mem o.objdata (o.length - 1) 4

/-
  In two equal blocks the walks for a field do the same: they
  find none, or the same element, which is in the block.
-/
theorem Walk.fieldOffsetFrom_cases
    {m m' : Memory}
    {base base' theend pos : Nat}
    (hWalk : Walk m base theend pos)
    (hSame : Memory.Same m base m' base' (theend + 1))
    {name : List UInt8}
    (hNonzero : ∀ c ∈ name, c ≠ 0)
    (fuel : Nat)
    (hPositive : 0 < fuel)
    (hFuel : theend < pos + fuel) :
    ∃ found,
      fieldOffsetFrom m base name theend fuel pos =
        .ok found ∧
      fieldOffsetFrom m' base' name theend fuel pos =
        .ok found ∧
      ∀ k, found = some k → k ≤ theend ∧ ∃ s n,
        BSONElement.Within ⟨m, base + k⟩ s n
          (theend + 1 - k) := by
  induction hWalk generalizing fuel with
  | done hEnd =>
      rename_i pos
      cases fuel with
      | zero => omega
      | succ fuel =>
          refine ⟨none, ?_, ?_, by simp⟩
          · rw [fieldOffsetFrom, if_neg (by omega)]
          · rw [fieldOffsetFrom, if_neg (by omega)]
  | element hElem hRest ih =>
      rename_i pos s n
      have hLonger := hElem.positive
      have hFits := hElem.fits
      have hBlock : Memory.Same m (base + pos) m' (base' + pos)
          (theend + 1 - pos) :=
        hSame.slice (by omega)
      have hElem' := hElem.congr
        ⟨m', base' + pos⟩ hBlock
      have hName := hElem.hasName_congr
        ⟨m', base' + pos⟩ hBlock hNonzero
      cases fuel with
      | zero => omega
      | succ fuel =>
          rw [fieldOffsetFrom, fieldOffsetFrom]
          by_cases hBefore : pos < theend
          · rw [if_pos hBefore, if_pos hBefore]
            simp only [hElem.size, hElem'.size, hName, bind,
              Except.bind]
            by_cases hFound : BSONElement.hasName
                ⟨m, base + pos⟩ name = true
            · rw [if_pos hFound, if_pos hFound]
              refine ⟨some pos, rfl, rfl, ?_⟩
              rintro k ⟨⟩
              exact ⟨by omega, s, n, hElem⟩
            · rw [if_neg hFound, if_neg hFound,
                if_pos (by omega), if_pos (by omega)]
              exact ih fuel (by omega) (by omega)
          · rw [if_neg hBefore, if_neg hBefore]
            exact ⟨none, rfl, rfl, by simp⟩

/- Complete elements are walked without leaving the object. -/
theorem Elements.walk
    {m : Memory}
    {base theend pos : Nat}
    (hElements : Elements m base theend pos) :
    Walk m base theend pos := by
  induction hElements with
  | done _ => exact .done (le_refl _)
  | element hElem hRest ih =>
      have hLe := hRest.le
      exact .element (hElem.within (by omega)) ih

theorem WellFormed.walkable
    {o : BSONObj}
    (hForm : o.WellFormed) :
    o.Walkable :=
  hForm.elements.walk

/- The search for a field in an object and in its copy. -/
theorem Walkable.fieldOffset_cases
    {o : BSONObj}
    (hWalk : o.Walkable)
    (o' : BSONObj)
    (hPositive : 0 < o.length)
    (hLength : o'.length = o.length)
    (hSame : Memory.Same o.mem o.objdata o'.mem o'.objdata
      o.length)
    {name : List UInt8}
    (hNonzero : ∀ c ∈ name, c ≠ 0) :
    ∃ found, o.fieldOffset name = .ok found ∧
      o'.fieldOffset name = .ok found ∧
      ∀ k, found = some k → k < o.length ∧ ∃ s n,
        BSONElement.Within ⟨o.mem, o.objdata + k⟩ s n
          (o.length - k) := by
  have hLast : o.length - 1 + 1 = o.length :=
    Nat.sub_add_cancel hPositive
  have hBlock : Memory.Same o.mem o.objdata o'.mem o'.objdata
      (o.length - 1 + 1) := by
    rw [hLast]
    exact hSame
  rcases Walk.fieldOffsetFrom_cases hWalk hBlock hNonzero
      (o.length + 1) (by omega) (by omega) with
    ⟨found, hFound, hFound', hSpec⟩
  refine ⟨found, hFound, ?_, ?_⟩
  · unfold fieldOffset
    rw [hLength]
    exact hFound'
  · intro k hk
    rcases hSpec k hk with ⟨hLe, s, n, hElem⟩
    rw [hLast] at hElem
    exact ⟨by omega, s, n, hElem⟩

end BSONObj

end EmeraldDb
