import EmeraldDb.Dms.FileInvariant
import EmeraldDb.Oss.FileOp

/-
  Extending the data file by writes.

  The file grows block by block: each round seeks the end of
  the file and writes one block of zeros.  An extension is
  therefore as long as it reports if every write is; where
  it is, it is one of those that `DmsFile.extendFile` lists.

  Key definitions include:
    * `OssFileOp.extendFile`
    * `OssFileOp.ExtendsWhole`

  Key results include:
    * `OssFileOp.extendFile_extended`
    * `OssFileOp.write_allOrError`
    * `OssFileOp.extendFile_refines`
-/

namespace EmeraldDb

namespace OssFileOp

/- The array of zeros that is written. -/
def temp : Memory :=
  fun _ => 0

/- Write `n` blocks. -/
def extendLoop :
    Nat → OssFileOp → Option Int × OssFileOp
| 0, f => (some edbOk, f)
| n + 1, f =>
    match f.seekToEnd.write temp 0 dmsExtendSize with
    | (none, f) => (none, f)
    | (some rc, f) =>
        if rc ≠ edbOk then (some rc, f) else extendLoop n f

def extendFile
    (f : OssFileOp)
    (size : Nat) : Option Int × OssFileOp :=
  if size % dmsExtendSize ≠ 0 then (some edbSys, f)
  else extendLoop (size / dmsExtendSize) f

------------------------------------------------------------
-- Blocks
------------------------------------------------------------

theorem bytes_temp
    (a n : Nat) :
    temp.bytes a n = List.replicate n 0 := by
  unfold Memory.bytes temp
  rw [List.map_const', List.length_range]

/- The state behind one block. -/
def afterWrite
    (f : OssFileOp)
    (r : Written) : OssFileOp :=
  { f with
    errno := r.errno
    output := r.output
    writes := r.writes }

/- One block of a valid handle. -/
theorem write_block
    {f : OssFileOp}
    (hValid : f.isValid = true) :
    ∃ r, WriteCases temp 0 dmsExtendSize f.errno f.output
        f.writes r ∧
      f.seekToEnd.write temp 0 dmsExtendSize =
        (r.rc, f.afterWrite r) := by
  have hLeft : wrapInt (dmsExtendSize : Nat) =
      (dmsExtendSize : Nat) := by decide
  refine ⟨_, writeLoop_cases temp f.writes 0 (by decide)
    f.errno f.output, ?_⟩
  unfold seekToEnd write
  rw [if_pos hValid, if_pos hValid, hLeft]
  rfl

/-
  An answer of 0 is never taken for success: there was an
  error before, or there is no such answer.
-/
def Steady (f : OssFileOp) : Prop :=
  f.errno ≠ 0 ∨ .wrote 0 ∉ f.writes

theorem Steady.afterWrite
    {f : OssFileOp}
    {r : Written}
    (hSteady : f.Steady)
    (hErrno : r.errno = 0 → f.errno = 0)
    (hRest : r.writes <:+ f.writes) :
    (f.afterWrite r).Steady := by
  rcases hSteady with hSet | hNone
  · exact Or.inl (fun hZero => hSet (hErrno hZero))
  · exact Or.inr (fun hIn => hNone (hRest.subset hIn))

theorem Steady.not_ok
    {f : OssFileOp}
    {left : Nat}
    (hSteady : f.Steady) :
    ¬ (f.errno = 0 ∧ stalls f.writes left = true) := by
  rintro ⟨hZero, hStalls⟩
  rcases hSteady with hSet | hNone
  · exact hSet hZero
  · exact hNone (wrote_zero_of_stalls hStalls)

/-
  The file has grown by `k` zeros, by `n` if the call has
  returned 0; another code is an error number.
-/
structure Extended
    (f : OssFileOp)
    (n : Nat)
    (r : Option Int × OssFileOp) : Prop where
  grown : ∃ k ≤ n, r.2.output = f.output ++
    List.replicate k 0 ∧ (r.1 = some edbOk → k = n)
  errno : r.1 = none ∨ ∃ e : Nat, r.1 = some (e : Int)

theorem extendLoop_extended
    (n : Nat)
    {f : OssFileOp}
    (hValid : f.isValid = true)
    (hSteady : f.Steady) :
    f.Extended (n * dmsExtendSize) (extendLoop n f) := by
  induction n generalizing f with
  | zero =>
      exact ⟨⟨0, by omega, by simp [extendLoop], by omega⟩,
        Or.inr ⟨0, rfl⟩⟩
  | succ n ih =>
      rcases write_block hValid with ⟨r, hCases, hWrite⟩
      have hBlocks : (n + 1) * dmsExtendSize =
          dmsExtendSize + n * dmsExtendSize := by
        rw [Nat.succ_mul, Nat.add_comm]
      unfold extendLoop
      rw [hWrite]
      cases hCases with
      | whole hCode hOutput _ hErrno hRest =>
          -- The remaining blocks go behind this one.
          rw [bytes_temp] at hOutput
          rcases ih (f := f.afterWrite r) hValid
              (hSteady.afterWrite hErrno hRest) with
            ⟨⟨k, hLe, hGrown, hAll⟩, hNumber⟩
          simp only [hCode, ne_eq, not_true_eq_false, if_false]
          refine ⟨⟨dmsExtendSize + k, by omega, ?_, ?_⟩,
            hNumber⟩
          · rw [hGrown, List.replicate_add,
              ← List.append_assoc, ← hOutput]
            rfl
          · intro hOk
            have hEnd := hAll hOk
            omega
      | short k hLess hOutput hErrno hCode =>
          rw [bytes_temp] at hOutput
          have hFail : r.rc ≠ some edbOk :=
            fun hOk => hSteady.not_ok (hCode.mp hOk)
          rcases hErrno with hNone | hSome
          · rw [hNone]
            exact ⟨⟨k, by omega, hOutput, by simp⟩,
              Or.inl rfl⟩
          · rw [hSome] at hFail ⊢
            have hNe : (r.errno : Int) ≠ edbOk :=
              fun hZero => hFail (congrArg some hZero)
            simp only [ne_eq, hNe, not_false_eq_true, if_true]
            exact ⟨⟨k, by omega, hOutput,
              fun hOk => absurd hOk hFail⟩, Or.inr ⟨_, rfl⟩⟩

theorem ebadf_ne_ok : ((ebadf : Nat) : Int) ≠ edbOk := by
  decide

/- A handle that is not valid refuses the first block. -/
theorem extendLoop_invalid
    (n : Nat)
    {f : OssFileOp}
    (hInvalid : f.isValid = false) :
    extendLoop (n + 1) f =
      (some (ebadf : Int), { f with errno := ebadf }) := by
  have hNe := ebadf_ne_ok
  simp only [extendLoop, seekToEnd, write, hInvalid,
    Bool.false_eq_true, if_false, ne_eq, hNe,
    not_false_eq_true, if_true]

------------------------------------------------------------
-- Extensions
------------------------------------------------------------

/- A successful extension is as long as requested. -/
def ExtendsWhole
    (f : OssFileOp)
    (size : Nat) : Prop :=
  (f.extendFile size).1 = some edbOk →
    (f.extendFile size).2.output =
      f.output ++ List.replicate size 0

theorem extendFile_extended
    (f : OssFileOp)
    {size : Nat}
    (hBlocks : size % dmsExtendSize = 0)
    (hSteady : f.isValid = true → f.Steady) :
    f.Extended size (f.extendFile size) := by
  have hSize : size / dmsExtendSize * dmsExtendSize = size :=
    Nat.div_mul_cancel (Nat.dvd_of_mod_eq_zero hBlocks)
  unfold extendFile
  rw [if_neg (not_not.mpr hBlocks)]
  cases hValid : f.isValid with
  | true =>
      have hLoop := extendLoop_extended (size / dmsExtendSize)
        hValid (hSteady hValid)
      rw [hSize] at hLoop
      exact hLoop
  | false =>
      cases hCount : size / dmsExtendSize with
      | zero =>
          rw [hCount, Nat.zero_mul] at hSize
          rw [← hSize]
          exact ⟨⟨0, by omega, by simp [extendLoop], by omega⟩,
            Or.inr ⟨0, rfl⟩⟩
      | succ n =>
          rw [extendLoop_invalid n hValid]
          refine ⟨⟨0, by omega, by simp, ?_⟩,
            Or.inr ⟨ebadf, rfl⟩⟩
          intro hOk
          exact absurd (Option.some.inj hOk) ebadf_ne_ok

theorem extendFile_whole
    (f : OssFileOp)
    (size : Nat)
    (hSteady : f.isValid = true → f.Steady) :
    f.ExtendsWhole size := by
  intro hOk
  by_cases hBlocks : size % dmsExtendSize = 0
  · rcases (extendFile_extended f hBlocks hSteady).grown with
      ⟨k, _, hGrown, hAll⟩
    rw [hGrown, hAll hOk]
  · simp [extendFile, hBlocks] at hOk

/- Every block is answered with 0, and none is written. -/
theorem extendLoop_stalled
    (n : Nat)
    {f : OssFileOp}
    (hValid : f.isValid = true)
    (hErrno : f.errno = 0)
    (hWrites : f.writes = List.replicate n (.wrote 0)) :
    (extendLoop n f).1 = some edbOk ∧
      (extendLoop n f).2.output = f.output := by
  induction n generalizing f with
  | zero => exact ⟨rfl, rfl⟩
  | succ n ih =>
      have hWrite : f.seekToEnd.write temp 0 dmsExtendSize =
          (some edbOk, { f with
            writes := List.replicate n (.wrote 0) }) := by
        unfold seekToEnd write
        rw [if_pos hValid, if_pos hValid, hWrites,
          List.replicate_succ]
        simp [writeLoop, wrapInt, toSigned, ofSigned, hErrno]
      unfold extendLoop
      rw [hWrite]
      exact ih (f := { f with
        writes := List.replicate n (.wrote 0) }) hValid hErrno
          rfl

/-
  A write returns 0 if and only if it has written the buffer,
  once and in order, to a valid handle, unless there was no
  error before and the handle is not valid or `write` answers
  0 too early.  An extension that succeeds is as long as
  requested unless `write` answers 0 with no error before;
  with no error before there are such answers for every size
  that is not refused.
-/
theorem write_allOrError
    (f : OssFileOp)
    (m : Memory)
    (a size : Nat)
    (hSize : size < 2147483648) :
    (((f.write m a size).1 = some edbOk ↔
        f.isValid = true ∧ (f.write m a size).2.output =
          f.output ++ m.bytes a size) ↔
      ¬ (f.errno = 0 ∧ (f.isValid = false ∨
        (0 < size ∧ stalls f.writes size = true)))) ∧
    (f.errno ≠ 0 ∨ .wrote 0 ∉ f.writes →
      f.ExtendsWhole size) ∧
    ((∀ writes, { f with writes := writes }.ExtendsWhole
        size) ↔
      ¬ (f.errno = 0 ∧ f.isValid = true ∧ 0 < size ∧
        size % dmsExtendSize = 0)) := by
  refine ⟨write_iff f m a hSize, ?_, ⟨?_, ?_⟩⟩
  · intro hSteady
    exact extendFile_whole f size (fun _ => hSteady)
  · rintro hAll ⟨hErrno, hValid, hPositive, hBlocks⟩
    let g : OssFileOp := { f with
      writes := List.replicate (size / dmsExtendSize)
        (.wrote 0) }
    have hLoop := extendLoop_stalled (size / dmsExtendSize)
      (f := g) hValid hErrno rfl
    have hExtend : g.extendFile size =
        extendLoop (size / dmsExtendSize) g :=
      if_neg (not_not.mpr hBlocks)
    rw [← hExtend] at hLoop
    have hWhole : (g.extendFile size).2.output =
        g.output ++ List.replicate size 0 :=
      hAll g.writes hLoop.1
    rw [hLoop.2] at hWhole
    have hLength := congrArg List.length hWhole
    rw [List.length_append, List.length_replicate] at hLength
    omega
  · intro hNot writes
    by_cases hBlocks : size % dmsExtendSize = 0
    · by_cases hPositive : 0 < size
      · apply extendFile_whole
        intro hValid
        left
        intro hErrno
        exact hNot ⟨hErrno, hValid, hPositive, hBlocks⟩
      · obtain rfl : size = 0 := by omega
        intro _
        simp [extendFile, extendLoop]
    · intro hOk
      simp [extendFile, hBlocks] at hOk

/- A handle without errors so far and these answers. -/
def openFile (writes : List WriteResult) : OssFileOp where
  isValid := true
  errno := 0
  writes := writes
  reads := []
  input := []
  output := []

/- Two pieces and an interrupt in between. -/
theorem write_allOrError_pieces :
    ((openFile [.wrote 1, .error ⟨4, by decide⟩,
        .wrote 2]).write (fun _ => 7) 0 3).1 = some edbOk ∧
      ((openFile [.wrote 1, .error ⟨4, by decide⟩,
        .wrote 2]).write (fun _ => 7) 0 3).2.output =
          [7, 7, 7] := by
  have hWrite := ((write_allOrError (openFile [.wrote 1,
    .error ⟨4, by decide⟩, .wrote 2]) (fun _ => 7) 0 3
      (by decide)).1.mpr (by decide)).mp (by decide)
  exact ⟨by decide, hWrite.2⟩

/-
  An answer of 0 to the first call is returned as success, by
  a write and by an extension.
-/
theorem write_not_allOrError :
    ¬ (∀ (f : OssFileOp) (m : Memory) (a size : Nat),
      size < 2147483648 →
        (((f.write m a size).1 = some edbOk ↔
          f.isValid = true ∧ (f.write m a size).2.output =
            f.output ++ m.bytes a size) ∧
          f.ExtendsWhole size)) := by
  intro hAll
  have hWrite := (hAll (openFile [.wrote 0]) (fun _ => 7) 0 1
    (by decide)).1.mp (by decide)
  exact absurd hWrite.2 (by decide)

------------------------------------------------------------
-- The Abstract Extension
------------------------------------------------------------

/-
  An extension that no answer of 0 misleads is one of those
  that the data file can make.
-/
theorem extendFile_refines
    (s : DmsFile)
    (f : OssFileOp)
    (size : Nat)
    (hSteady : f.isValid = true → f.Steady)
    {rc : Int}
    (hCode : (f.extendFile size).1 = some rc) :
    ∃ k failure,
      (f.extendFile size).2.output =
        f.output ++ List.replicate k 0 ∧
      s.extendFile size failure = (rc, s.grow k) := by
  by_cases hBlocks : size % dmsExtendSize = 0
  · rcases extendFile_extended f hBlocks hSteady with
      ⟨⟨k, hLe, hGrown, hAll⟩, hErrno⟩
    by_cases hOk : rc = edbOk
    · subst hOk
      have hAbstract : s.extendFile size none =
          (edbOk, s.grow size) :=
        if_neg (not_not.mpr hBlocks)
      refine ⟨k, none, hGrown, ?_⟩
      rw [hAbstract, hAll hCode]
    · rcases hErrno with hNone | ⟨e, hSome⟩
      · rw [hNone] at hCode
        exact absurd hCode (by simp)
      · rw [hSome, Option.some.injEq] at hCode
        have hPositive : 0 < e := by
          rcases Nat.eq_zero_or_pos e with rfl | hPositive
          · exact absurd hCode.symm hOk
          · exact hPositive
        have hAbstract :
            s.extendFile size (some (k, ⟨e, hPositive⟩)) =
              ((e : Int), s.grow (min k size)) :=
          if_neg (not_not.mpr hBlocks)
        refine ⟨k, some (k, ⟨e, hPositive⟩), hGrown, ?_⟩
        rw [hAbstract, hCode, Nat.min_eq_left hLe]
  · have hRefused : f.extendFile size = (some edbSys, f) :=
      if_pos hBlocks
    rw [hRefused, Option.some.injEq] at hCode
    refine ⟨0, none, by simp [hRefused], ?_⟩
    rw [s.grow_zero, ← hCode]
    exact if_pos hBlocks

end OssFileOp

end EmeraldDb
