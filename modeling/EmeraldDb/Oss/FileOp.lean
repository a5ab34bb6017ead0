import EmeraldDb.Bson.Element
import EmeraldDb.Oss.Socket

/-
  Reading and writing a file through its handle.

  The answers of `read` and `write` are lists that are used
  up in order.  The input is what the file has from its
  offset on, the output what was written so far.  `errno`
  keeps the error of the last call that failed; a call that
  succeeds leaves it alone.

  A buffer is an address of the process's memory.  `Read`
  and `Write` keep the bytes left in a signed integer.

  Key definitions include:
    * `OssFileOp`
    * `OssFileOp.write`
    * `OssFileOp.read`
    * `stalls`

  Key results include:
    * `OssFileOp.writeLoop_cases`
    * `OssFileOp.write_iff`
-/

namespace EmeraldDb

abbrev ebadf : Nat := 9

/- How many bytes one call would write, or its error. -/
inductive WriteResult
| error (errno : Errno)
| wrote (n : Nat)
deriving DecidableEq

/-
  How many bytes one call would read, or its error.  A call
  reads none at the end of the file only.
-/
inductive ReadResult
| error (errno : Errno)
| read (n : { n : Nat // 0 < n })
deriving DecidableEq

structure OssFileOp where
  isValid : Bool
  errno : Nat
  writes : List WriteResult
  reads : List ReadResult
  input : List UInt8
  output : List UInt8

namespace OssFileOp

------------------------------------------------------------
-- Writing
------------------------------------------------------------

/- How the loop of a write ended. -/
structure Written where
  rc : Option Int
  errno : Nat
  output : List UInt8
  writes : List WriteResult

/- Write `nLeft` bytes from `a` on. -/
def writeLoop
    (m : Memory) :
    List WriteResult → Nat → Int → Nat → List UInt8 → Written
| [], _, nLeft, errno, output =>
    if 0 < nLeft then ⟨none, errno, output, []⟩
    else ⟨some edbOk, errno, output, []⟩
| result :: rest, a, nLeft, errno, output =>
    if 0 < nLeft then
      match result with
      | .error e =>
          if e.1 = eintr then
            writeLoop m rest a nLeft e.1 output
          else ⟨some (e.1 : Int), e.1, output, rest⟩
      | .wrote n =>
          let nWrite := min n nLeft.toNat
          if nWrite = 0 then
            -- the code is of an earlier failure, if any
            ⟨some (errno : Int), errno, output, rest⟩
          else
            writeLoop m rest (a + nWrite) (nLeft - nWrite)
              errno (output ++ m.bytes a nWrite)
    else ⟨some edbOk, errno, output, result :: rest⟩

def write
    (f : OssFileOp)
    (m : Memory)
    (a size : Nat) : Option Int × OssFileOp :=
  if f.isValid then
    let r := writeLoop m f.writes a (wrapInt size) f.errno
      f.output
    (r.rc, { f with
      errno := r.errno
      output := r.output
      writes := r.writes })
  else (some (f.errno : Int), f)

/-
  Writes go to the end of the file.  A file that is mapped is
  regular, so that it has an end to seek if its handle is
  valid; the result is ignored.
-/
def seekToEnd (f : OssFileOp) : OssFileOp :=
  if f.isValid then f else { f with errno := ebadf }

------------------------------------------------------------
-- Reading
------------------------------------------------------------

/- How the loop of a read ended. -/
structure ReadEnd where
  rc : Option Int
  errno : Nat
  mem : Memory
  nLeft : Int
  input : List UInt8
  reads : List ReadResult

/-
  Read `nLeft` bytes to `pBuffer`.  The next address comes
  from the number of bytes read and not from the address.
-/
def readLoop :
    List ReadResult → Nat → Int → Nat → Memory → List UInt8 →
      ReadEnd
| [], _, nLeft, errno, m, input =>
    if 0 < nLeft then ⟨none, errno, m, nLeft, input, []⟩
    else ⟨some edbOk, errno, m, nLeft, input, []⟩
| result :: rest, pBuffer, nLeft, errno, m, input =>
    if 0 < nLeft then
      match result with
      | .error e =>
          if e.1 = eintr then
            readLoop rest pBuffer nLeft e.1 m input
          else
            ⟨some (e.1 : Int), e.1, m, nLeft, input, rest⟩
      | .read n =>
          let chunk := input.take (min n.1 nLeft.toNat)
          let nRead := chunk.length
          if nRead = 0 then
            ⟨some edbOk, errno, m, nLeft, input, rest⟩
          else
            readLoop rest (nRead + nRead) (nLeft - nRead)
              errno (m.store pBuffer chunk)
              (input.drop nRead)
    else
      ⟨some edbOk, errno, m, nLeft, input, result :: rest⟩

/- The code, what `pBytesRead` points to, and the rest. -/
structure ReadReturn where
  rc : Option Int
  bytesRead : Option Int
  mem : Memory
  file : OssFileOp

/- `pBytesRead` is `none` for a null pointer. -/
def read
    (f : OssFileOp)
    (m : Memory)
    (pBuffer size : Nat)
    (pBytesRead : Option Int) : ReadReturn :=
  let nLeft := wrapInt size
  let r : ReadEnd :=
    if f.isValid then
      readLoop f.reads pBuffer nLeft f.errno m f.input
    else
      ⟨some (f.errno : Int), f.errno, m, nLeft, f.input,
        f.reads⟩
  ⟨r.rc, pBytesRead.map (fun _ => wrapInt (size - r.nLeft)),
    r.mem,
    { f with
      errno := r.errno
      input := r.input
      reads := r.reads }⟩

------------------------------------------------------------
-- What a Write Does
------------------------------------------------------------

/-
  Does `write` answer 0 to a loop that has `left` bytes to
  write, with no error before?
-/
def stalls : List WriteResult → Nat → Bool
| [], _ => false
| .error _ :: _, _ => false
| .wrote n :: rest, left =>
    if n = 0 then true
    else if n < left then stalls rest (left - n)
    else false

theorem wrote_zero_of_stalls
    {writes : List WriteResult}
    {left : Nat}
    (hStalls : stalls writes left = true) :
    .wrote 0 ∈ writes := by
  induction writes generalizing left with
  | nil => simp [stalls] at hStalls
  | cons result rest ih =>
      cases result with
      | error e => simp [stalls] at hStalls
      | wrote n =>
          unfold stalls at hStalls
          by_cases hZero : n = 0
          · rw [hZero]
            exact List.mem_cons_self
          · rw [if_neg hZero] at hStalls
            by_cases hPart : n < left
            · rw [if_pos hPart] at hStalls
              exact List.mem_cons_of_mem _ (ih hStalls)
            · simp [hPart] at hStalls

/- How a loop with `left` bytes to write can end. -/
inductive WriteCases
    (m : Memory)
    (a left errno : Nat)
    (output : List UInt8)
    (writes : List WriteResult)
    (r : Written) : Prop
| whole
    (hCode : r.rc = some edbOk)
    (hOutput : r.output = output ++ m.bytes a left)
    (hNot : stalls writes left = false)
    (hErrno : r.errno = 0 → errno = 0)
    (hRest : r.writes <:+ writes)
| short
    (k : Nat)
    (hLess : k < left)
    (hOutput : r.output = output ++ m.bytes a k)
    (hErrno : r.rc = none ∨ r.rc = some (r.errno : Int))
    (hCode : r.rc = some edbOk ↔
      (errno = 0 ∧ stalls writes left = true))

/- A loop without anything left to write is done. -/
theorem writeLoop_done
    (m : Memory)
    (writes : List WriteResult)
    (a errno : Nat)
    (output : List UInt8) :
    writeLoop m writes a 0 errno output =
      ⟨some edbOk, errno, output, writes⟩ := by
  cases writes <;> rfl

theorem errno_ne_ok (e : Errno) :
    some (e.1 : Int) ≠ some edbOk := by
  have hPositive := e.2
  intro hOk
  have hCode : (e.1 : Int) = 0 := Option.some.inj hOk
  omega

/-
  A loop writes all bytes and returns 0, or it writes fewer
  and returns 0 only at an answer of 0 without an error
  before.
-/
theorem writeLoop_cases
    (m : Memory)
    (writes : List WriteResult)
    (a : Nat)
    {left : Nat}
    (hLeft : 0 < left)
    (errno : Nat)
    (output : List UInt8) :
    WriteCases m a left errno output writes
      (writeLoop m writes a left errno output) := by
  have hMore : (0 : Int) < left := by omega
  induction writes generalizing a left errno output with
  | nil =>
      apply WriteCases.short 0 hLeft
      · simp [writeLoop, hLeft, Memory.bytes]
      · simp [writeLoop, hLeft]
      · simp [writeLoop, hLeft, stalls]
  | cons result rest ih =>
      simp only [writeLoop, if_pos hMore]
      cases result with
      | error e =>
          by_cases hInterrupt : e.1 = eintr
          · -- The loop goes on with another error number.
            simp only [if_pos hInterrupt]
            have hSet : e.1 ≠ 0 := Nat.ne_of_gt e.2
            cases ih a hLeft e.1 output hMore with
            | whole hCode hOutput _ hErrno hRest =>
                exact WriteCases.whole hCode hOutput rfl
                  (fun hZero => absurd (hErrno hZero) hSet)
                  (hRest.trans (List.suffix_cons _ _))
            | short k hLess hOutput hErrno hCode =>
                refine WriteCases.short k hLess hOutput hErrno
                  ?_
                rw [hCode]
                simp [stalls, hSet]
          · simp only [if_neg hInterrupt]
            refine WriteCases.short 0 hLeft
              (by simp [Memory.bytes]) (Or.inr rfl) ?_
            exact iff_of_false (errno_ne_ok e)
              (by simp [stalls])
      | wrote n =>
          simp only [Int.toNat_natCast]
          by_cases hZero : n = 0
          · rw [hZero, Nat.zero_min, if_pos rfl]
            refine WriteCases.short 0 hLeft
              (by simp [Memory.bytes]) (Or.inr rfl) ?_
            simp [stalls]
          · rw [if_neg (by omega)]
            by_cases hPart : n < left
            · have hRest : ((left : Int) - (min n left : Nat)) =
                  ((left - n : Nat) : Int) := by omega
              rw [hRest, Nat.min_eq_left (Nat.le_of_lt hPart)]
              have hStalls : stalls (.wrote n :: rest) left =
                  stalls rest (left - n) := by
                simp only [stalls, if_neg hZero, if_pos hPart]
              have hWhole : left = n + (left - n) := by omega
              have hBehind : 0 < left - n := by omega
              cases ih (a + n) hBehind
                  errno (output ++ m.bytes a n) (by omega) with
              | whole hCode hOutput hNot hErrno hRest =>
                  refine WriteCases.whole hCode ?_
                    (hStalls.trans hNot) hErrno
                    (hRest.trans (List.suffix_cons _ _))
                  rw [hOutput, List.append_assoc,
                    ← Memory.bytes_add, ← hWhole]
              | short k hLess hOutput hErrno hCode =>
                  refine WriteCases.short (n + k) (by omega)
                    ?_ hErrno (by rw [hStalls]; exact hCode)
                  rw [hOutput, List.append_assoc,
                    ← Memory.bytes_add]
            · have hRest : ((left : Int) - (min n left : Nat)) =
                  0 := by omega
              rw [hRest, writeLoop_done,
                Nat.min_eq_right (Nat.le_of_not_lt hPart)]
              refine WriteCases.whole rfl rfl ?_ id
                (List.suffix_cons _ _)
              simp only [stalls, if_neg hZero, if_neg hPart]

/- A buffer of a different length is a different buffer. -/
theorem append_bytes_ne
    (output : List UInt8)
    (m : Memory)
    (a : Nat)
    {k size : Nat}
    (hLess : k < size) :
    output ++ m.bytes a k ≠ output ++ m.bytes a size := by
  intro hSame
  have hLength := congrArg List.length hSame
  simp only [List.length_append, Memory.length_bytes]
    at hLength
  omega

/-
  A write returns 0 exactly when it has written the buffer to
  a valid handle, unless there was no error before and the
  handle is not valid or `write` answers 0 too early.
-/
theorem write_iff
    (f : OssFileOp)
    (m : Memory)
    (a : Nat)
    {size : Nat}
    (hSize : size < 2147483648) :
    ((f.write m a size).1 = some edbOk ↔
        f.isValid = true ∧ (f.write m a size).2.output =
          f.output ++ m.bytes a size) ↔
      ¬ (f.errno = 0 ∧ (f.isValid = false ∨
        (0 < size ∧ stalls f.writes size = true))) := by
  have hLeft : wrapInt size = size :=
    wrapInt_of_range (by omega) (by omega)
  unfold write
  cases hValid : f.isValid with
  | false =>
      have hCode : some (f.errno : Int) = some edbOk ↔
          f.errno = 0 := by
        rw [Option.some.injEq]
        exact Int.natCast_eq_zero
      simp only [Bool.false_eq_true, if_false, hCode]
      tauto
  | true =>
      simp only [if_true, hLeft, Bool.true_eq_false,
        false_or, true_and]
      rcases Nat.eq_zero_or_pos size with rfl | hPositive
      · rw [Int.natCast_zero, writeLoop_done]
        simp [Memory.bytes]
      · cases writeLoop_cases m f.writes a hPositive f.errno
            f.output with
        | whole hCode hOutput hNot _ _ =>
            refine iff_of_true
              (iff_of_true hCode hOutput) ?_
            simp [hNot]
        | short k hLess hOutput _ hCode =>
            have hNot := append_bytes_ne f.output m a hLess
            rw [← hOutput] at hNot
            simp only [hNot, iff_false, hCode, hPositive,
              true_and]

end OssFileOp

end EmeraldDb
