import EmeraldDb.Core
import EmeraldDb.Lib.Memory

/-
  Mapping a range of the data file.

  Every mapping is shared and of one file, so the pointer a
  mapping returns is modelled as the file offset it stands
  for: a byte read or written through the pointer is the byte
  of the file.

  Key definitions include:
    * `Errno`
    * `ossMmapFileMap`
-/

namespace EmeraldDb

/- The error number of a failed system call. -/
abbrev Errno :=
  { n : Nat // 0 < n }

/- Result code of a failed mapping. -/
def mmapError (errno : Errno) : Int :=
  if errno.1 = 12 then edbOom
  else if errno.1 = 13 then edbPerm
  else edbSys

/-
  Map `length` bytes at `offset`, where `failure` is the
  error of the system call, if it fails.  The sum of offset
  and length is taken in 64-bit arithmetic.
-/
def ossMmapFileMap
    (fileSize offset length : Nat)
    (failure : Option Errno) : Int × Option Nat :=
  if length = 0 then (edbOk, none)
  else if
      (length + offset) % 18446744073709551616 > fileSize then
    (edbInvalidArg, none)
  else
    match failure with
    | some errno => (mmapError errno, none)
    | none => (edbOk, some offset)

theorem mmapError_ne_ok (errno : Errno) :
    mmapError errno ≠ edbOk := by
  unfold mmapError
  split
  · decide
  · split <;> decide

/- A range inside the file is mapped at its own offset. -/
theorem ossMmapFileMap_inside
    {fileSize offset length : Nat}
    {failure : Option Errno}
    (hPositive : 0 < length)
    (hInside : offset + length ≤ fileSize) :
    ossMmapFileMap fileSize offset length failure =
      match failure with
      | some errno => (mmapError errno, none)
      | none => (edbOk, some offset) := by
  have hSum := Nat.mod_le (length + offset)
    18446744073709551616
  unfold ossMmapFileMap
  rw [if_neg (by omega), if_neg (by omega)]

theorem ossMmapFileMap_fails
    {fileSize offset length : Nat}
    (errno : Errno)
    (hPositive : 0 < length)
    (hInside : offset + length ≤ fileSize) :
    ossMmapFileMap fileSize offset length (some errno) =
      (mmapError errno, none) :=
  ossMmapFileMap_inside hPositive hInside

theorem ossMmapFileMap_maps
    {fileSize offset length : Nat}
    (hPositive : 0 < length)
    (hInside : offset + length ≤ fileSize) :
    ossMmapFileMap fileSize offset length none =
      (edbOk, some offset) :=
  ossMmapFileMap_inside hPositive hInside

/- A mapping fails with an error or is at its own offset. -/
theorem ossMmapFileMap_cases
    (fileSize offset : Nat)
    {length : Nat}
    (hPositive : 0 < length)
    (failure : Option Errno) :
    (∃ rc, rc ≠ edbOk ∧
      ossMmapFileMap fileSize offset length failure =
        (rc, none)) ∨
      ossMmapFileMap fileSize offset length failure =
        (edbOk, some offset) := by
  unfold ossMmapFileMap
  rw [if_neg (by omega)]
  split
  · exact Or.inl ⟨_, by decide, rfl⟩
  · cases failure with
    | none => exact Or.inr rfl
    | some errno => exact Or.inl ⟨_, mmapError_ne_ok errno, rfl⟩

/- A mapping without a pointer reports an error. -/
theorem ossMmapFileMap_none
    {fileSize offset length : Nat}
    {failure : Option Errno}
    {rc : Int}
    (hPositive : 0 < length)
    (hMap : ossMmapFileMap fileSize offset length failure =
      (rc, none)) :
    rc ≠ edbOk := by
  rcases ossMmapFileMap_cases fileSize offset hPositive
      failure with ⟨rc', hCode, hNone⟩ | hSome
  · rw [hNone, Prod.mk.injEq] at hMap
    exact hMap.1 ▸ hCode
  · rw [hSome, Prod.mk.injEq] at hMap
    exact absurd hMap.2 (by simp)

end EmeraldDb
