import EmeraldDb.Bson.Element
import EmeraldDb.Core
import EmeraldDb.Lib.LatchTrace
import EmeraldDb.Oss.MmapFile

/-
  The latch of the log.

  A line of the log is written under a latch.  If the file of
  the log is not open, it is opened first and its end is
  sought.  When there is no end to seek, as in a pipe, this
  is reported to the log itself: the thread then gets the
  latch that it holds, and waits for itself.

  Key definitions include:
    * `LogLine`
    * `LogLine.latched`
    * `LogLine.Relocks`

  Key results include:
    * `LogLine.latched_balanced_iff`
-/

namespace EmeraldDb

open Traced

inductive PdLevel
| critical
| error
| event
| warning
| info
| trace
deriving DecidableEq

def PdLevel.toNat : PdLevel → Nat
| .critical => 0
| .error => 1
| .event => 2
| .warning => 3
| .info => 4
| .trace => 5

abbrev curPDLevel : PdLevel := .trace
abbrev curPDFileLevel : PdLevel := .trace

inductive LogLatch
| mutex
deriving DecidableEq

abbrev LogCall
    (α : Type) : Type :=
  Traced LogLatch Fault α

abbrev getLogMutex : LogCall Unit :=
  Traced.get .mutex .exclusive

abbrev releaseLogMutex : LogCall Unit :=
  Traced.release .mutex .exclusive

/-
  How the calls that a line makes on its file end: `sought` is
  what `lseek` returns, the end of the file or -1.
-/
structure LogAnswers where
  opened : Option Errno
  sought : Int
  written : Option Errno

/- The code of a call of the file. -/
def fileCode : Option Errno → Int
| none => edbOk
| some e => e.1

------------------------------------------------------------
-- A Line of the Log
------------------------------------------------------------

/- The offset is taken for an `int`, and -1 is reported. -/
def seekToEndLatched
    (sought : Int)
    (report : LogCall Unit) : LogCall Unit :=
  if wrapInt sought = -1 then report else return ()

def pdLogFileReopenLatched
    (answers : LogAnswers)
    (report : LogCall Unit) : LogCall Int :=
  if fileCode answers.opened ≠ edbOk then
    return fileCode answers.opened
  else do
    seekToEndLatched answers.sought report
    return edbOk

/- Open the file unless its handle is valid. -/
def pdLogFileValidLatched
    (isValid : Bool)
    (answers : LogAnswers)
    (report : LogCall Unit) : LogCall Int :=
  if isValid then return edbOk
  else pdLogFileReopenLatched answers report

def pdLogFileWriteLatched
    (isValid : Bool)
    (answers : LogAnswers)
    (report : LogCall Unit) : LogCall Int := do
  getLogMutex
  let rc ← pdLogFileValidLatched isValid answers report
  if rc ≠ edbOk then
    releaseLogMutex
    return rc
  else
    releaseLogMutex
    return fileCode answers.written

/- A line that cannot be written ends the process. -/
def pdLogLatched
    (path : List UInt8)
    (level : PdLevel)
    (write : LogCall Int) : LogCall Unit :=
  if curPDLevel.toNat ≤ level.toNat then return ()
  else if path ≠ [] ∧
      level.toNat ≤ curPDFileLevel.toNat then do
    let rc ← write
    if rc ≠ edbOk then lift (.error .aborted)
    else return ()
  else return ()

/-
  A statement of the log, what it finds and how its calls
  end.  `reported` is for the report of a seek.
-/
structure LogLine where
  path : List UInt8
  level : PdLevel
  isValid : Bool
  answers : LogAnswers
  reported : LogAnswers

namespace LogLine

/- The report finds the file open, so it seeks nothing. -/
def reportLatched (l : LogLine) : LogCall Unit :=
  pdLogLatched l.path .error
    (pdLogFileWriteLatched true l.reported (return ()))

def latched (l : LogLine) : LogCall Unit :=
  pdLogLatched l.path l.level
    (pdLogFileWriteLatched l.isValid l.answers
      l.reportLatched)

------------------------------------------------------------
-- Its Latch
------------------------------------------------------------

/- The line goes to the file. -/
def Writes (l : LogLine) : Prop :=
  l.level ≠ .trace ∧ l.path ≠ []

/- The file is opened, and its end is reported as an error. -/
def Relocks (l : LogLine) : Prop :=
  l.Writes ∧ l.isValid = false ∧ l.answers.opened = none ∧
    wrapInt l.answers.sought = -1

theorem fileCode_eq_ok
    {failure : Option Errno} :
    fileCode failure = edbOk ↔ failure = none := by
  cases failure with
  | none => simp [fileCode]
  | some e =>
      have hPositive := e.2
      simp [fileCode]
      omega

theorem pdLogLatched_skips
    {path : List UInt8}
    {level : PdLevel}
    (hSkips : ¬ (level ≠ .trace ∧ path ≠ []))
    (write : LogCall Int) :
    pdLogLatched path level write = return () := by
  unfold pdLogLatched
  by_cases hTrace : level = .trace
  · rw [hTrace, if_pos (le_refl _)]
  · have hNone : ¬ (path ≠ [] ∧
        level.toNat ≤ curPDFileLevel.toNat) :=
      fun h => hSkips ⟨hTrace, h.1⟩
    rw [if_neg hNone, ite_self]

/- The operations of a line that goes to the file. -/
theorem pdLogLatched_ops
    {path : List UInt8}
    {level : PdLevel}
    (hLevel : level ≠ .trace)
    (hPath : path ≠ [])
    (write : LogCall Int) :
    (pdLogLatched path level write).ops = write.ops := by
  have hShown : ¬ curPDLevel.toNat ≤ level.toNat := by
    cases level <;> simp [PdLevel.toNat] at hLevel ⊢
  have hFile : path ≠ [] ∧
      level.toNat ≤ curPDFileLevel.toNat :=
    ⟨hPath, Nat.le_of_not_le hShown⟩
  unfold pdLogLatched
  rw [if_neg hShown, if_pos hFile]
  cases hResult : write.result with
  | error e => rw [bind_error hResult]
  | ok rc =>
      rw [bind_eq hResult]
      by_cases hCode : rc ≠ edbOk
      · rw [if_pos hCode]
        exact List.append_nil _
      · rw [if_neg hCode]
        exact List.append_nil _

/- The opening keeps what is held. -/
theorem pdLogFileValidLatched_leaves
    {isValid : Bool}
    {answers : LogAnswers}
    (hCalm : isValid = true ∨ answers.opened ≠ none ∨
      wrapInt answers.sought ≠ -1)
    (report : LogCall Unit)
    (held : Held LogLatch) :
    Leaves held held
      (pdLogFileValidLatched isValid answers report) := by
  unfold pdLogFileValidLatched pdLogFileReopenLatched
  cases isValid with
  | true => exact leaves_pure held _
  | false =>
      rw [if_neg Bool.false_ne_true]
      have hAnswers := hCalm.resolve_left Bool.false_ne_true
      by_cases hOpened : fileCode answers.opened ≠ edbOk
      · rw [if_pos hOpened]
        exact leaves_pure held _
      · rw [if_neg hOpened]
        rw [ne_eq, fileCode_eq_ok, not_not] at hOpened
        unfold seekToEndLatched
        rw [if_neg (hAnswers.resolve_left
          (not_not.mpr hOpened))]
        exact (leaves_pure held _).bind
          (fun _ _ => leaves_pure held _)

theorem pdLogFileWriteLatched_leaves
    {isValid : Bool}
    {answers : LogAnswers}
    (hCalm : isValid = true ∨ answers.opened ≠ none ∨
      wrapInt answers.sought ≠ -1)
    (report : LogCall Unit) :
    Leaves [] [] (pdLogFileWriteLatched isValid answers
      report) := by
  unfold pdLogFileWriteLatched
  apply Leaves.get (by simp)
  apply (pdLogFileValidLatched_leaves hCalm report _).bind
  intro rc _
  by_cases hCode : rc ≠ edbOk
  · rw [if_pos hCode]
    exact leaves_release_pure _ _ [] _
  · rw [if_neg hCode]
    exact leaves_release_pure _ _ [] _

/- The report gets the latch that the thread has. -/
theorem reportLatched_waits
    {l : LogLine}
    (hPath : l.path ≠ []) :
    owns [(LogLatch.mutex, LatchMode.exclusive)]
      l.reportLatched.ops = none := by
  unfold reportLatched
  rw [pdLogLatched_ops (by decide) hPath]
  rfl

/-
  A line leaves the latch as it was unless it opens the file
  and finds no end to seek; it then waits for itself.
-/
theorem latched_balanced_iff
    (l : LogLine) :
    l.latched.Balanced ↔ ¬ l.Relocks := by
  rw [balanced_iff]
  unfold latched
  by_cases hWrites : l.Writes
  · rw [pdLogLatched_ops hWrites.1 hWrites.2]
    constructor
    · rintro hOwns ⟨_, hValid, hOpened, hSought⟩
      have hOpen : owns [(LogLatch.mutex,
          LatchMode.exclusive)]
          (pdLogFileValidLatched l.isValid l.answers
            l.reportLatched).ops = none := by
        unfold pdLogFileValidLatched pdLogFileReopenLatched
          seekToEndLatched
        rw [hValid, if_neg Bool.false_ne_true,
          if_neg (not_not.mpr (fileCode_eq_ok.mpr hOpened)),
          if_pos hSought]
        exact owns_bind_none (reportLatched_waits hWrites.2) _
      unfold pdLogFileWriteLatched at hOwns
      rw [owns_get_bind (by simp), owns_bind_none hOpen]
        at hOwns
      cases hOwns
    · intro hNot
      apply (pdLogFileWriteLatched_leaves ?_ _).holds
      by_contra hStuck
      simp only [not_or, Bool.not_eq_true, ne_eq,
        not_not] at hStuck
      exact hNot ⟨hWrites, hStuck.1, hStuck.2.1, hStuck.2.2⟩
  · rw [pdLogLatched_skips hWrites]
    exact iff_of_true rfl (fun h => hWrites h.1)

/-
  In a pipe the first line waits for itself.
-/
example :
    owns [] (latched ⟨[47], .error, false,
      ⟨none, -1, none⟩, ⟨none, 0, none⟩⟩).ops = none := by
  decide

end LogLine

end EmeraldDb
