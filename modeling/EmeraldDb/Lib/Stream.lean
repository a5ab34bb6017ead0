import EmeraldDb.Lib.Memory
import Mathlib.Data.List.GetD

/-
  Byte lists and memory.

  A stream is read into memory piece by piece and written out
  of memory piece by piece.  The lemmas put the pieces
  together: storing two lists one behind the other stores
  their concatenation, and a block is the concatenation of
  its parts.

  Key definitions include:
    * `Memory.store`

  Key results include:
    * `Memory.store_append`
    * `Memory.bytes_add`
    * `Memory.same_store`
-/

namespace Memory

/- Store a list of bytes from address `a` on. -/
def store
    (m : Memory)
    (a : Nat)
    (bytes : List UInt8) : Memory :=
  fun x =>
    if a ≤ x ∧ x < a + bytes.length then
      bytes.getD (x - a) 0
    else m x

@[simp] theorem store_nil
    (m : Memory)
    (a : Nat) :
    m.store a [] = m := by
  funext x
  unfold store
  rw [List.length_nil, if_neg (by omega)]

theorem store_of_disjoint
    (m : Memory)
    {a : Nat}
    (bytes : List UInt8)
    {x : Nat}
    (hDisjoint : x < a ∨ a + bytes.length ≤ x) :
    m.store a bytes x = m x := by
  unfold store
  rw [if_neg (by omega)]

theorem store_inside
    (m : Memory)
    (a : Nat)
    (bytes : List UInt8)
    {i : Nat}
    (hInside : i < bytes.length) :
    m.store a bytes (a + i) = bytes.getD i 0 := by
  unfold store
  rw [if_pos (by omega)]
  congr 1
  omega

/- Two lists stored one behind the other are one list. -/
theorem store_append
    (m : Memory)
    (a : Nat)
    (front back : List UInt8) :
    (m.store a front).store (a + front.length) back =
      m.store a (front ++ back) := by
  funext x
  simp only [store, List.length_append]
  by_cases hBack : a + front.length ≤ x ∧
      x < a + front.length + back.length
  · rw [if_pos hBack, if_pos (by omega),
      List.getD_append_right _ _ _ _ (by omega)]
    congr 1
    omega
  · rw [if_neg hBack]
    by_cases hFront : a ≤ x ∧ x < a + front.length
    · rw [if_pos hFront, if_pos (by omega),
        List.getD_append _ _ _ _ (by omega)]
    · rw [if_neg hFront, if_neg (by omega)]

/- Where stored lists agree, the memories agree. -/
theorem same_store
    (m m' : Memory)
    (a : Nat)
    {bytes bytes' : List UInt8}
    {n : Nat}
    (hLong : n ≤ bytes.length)
    (hTake : bytes.take n = bytes'.take n) :
    Same (m.store a bytes) a (m'.store a bytes') a n := by
  have hLong' : n ≤ bytes'.length := by
    have hLength := congrArg List.length hTake
    simp only [List.length_take] at hLength
    omega
  intro i hi
  rw [store_inside m a bytes (by omega),
    store_inside m' a bytes' (by omega)]
  have hGet := congrArg (fun l => l.getD i 0) hTake
  simpa [List.getD_eq_getElem?_getD, List.getElem?_take, hi]
    using hGet

/- A list that was stored is read back. -/
theorem bytes_store
    (m : Memory)
    (a : Nat)
    (bytes : List UInt8) :
    (m.store a bytes).bytes a bytes.length = bytes := by
  apply List.ext_getElem
  · simp
  · intro i hi hi'
    simp only [Memory.bytes, List.getElem_map,
      List.getElem_range]
    rw [store_inside m a bytes hi', List.getD_eq_getElem _ _ hi']

/- The bytes of a block are those of its two parts. -/
theorem bytes_add
    (m : Memory)
    (a k n : Nat) :
    m.bytes a (k + n) = m.bytes a k ++ m.bytes (a + k) n := by
  unfold bytes
  rw [List.range_add, List.map_append, List.map_map]
  congr 1
  apply List.map_congr_left
  intro i _
  simp [Nat.add_assoc]

theorem bytes_prefix
    (m : Memory)
    (a : Nat)
    {k n : Nat}
    (hLe : k ≤ n) :
    m.bytes a k <+: m.bytes a n := by
  obtain ⟨d, rfl⟩ := Nat.exists_eq_add_of_le hLe
  rw [bytes_add]
  exact List.prefix_append _ _

end Memory
