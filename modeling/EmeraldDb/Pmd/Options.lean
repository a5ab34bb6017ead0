import EmeraldDb.Core
import EmeraldDb.Lib.Stream
import Mathlib.Data.List.TakeWhile

/-
  The options of the server.

  Options come from the command line and from the file that
  the command line names.  Both are imported one after the
  other, and each import sets what it does not find to the
  default.  What the option library has read is given as the
  options present in each of the two sources.

  Key definitions include:
    * `VariablesMap`
    * `PmdOptions`
    * `PmdOptions.importVM`
    * `PmdOptions.init`

  Key results include:
    * `PmdOptions.text_importString`
    * `PmdOptions.init_precedence`
-/

namespace EmeraldDb

abbrev edbPmdHelpOnly : Int := -6
abbrev ossMaxPathSize : Nat := 4096
abbrev niMaxServ : Nat := 32
abbrev numPool : Nat := 20

------------------------------------------------------------
-- Character Arrays
------------------------------------------------------------

/- The characters of a string literal. -/
def literal (s : List Char) : List UInt8 :=
  s.map (fun c => UInt8.ofNat c.toNat)

/- A string as C sees it: up to the first zero. -/
def cString (v : List UInt8) : List UInt8 :=
  v.takeWhile (fun c => c != 0)

/- Copy at most `n` characters and fill up with zeros. -/
def strncpy
    (m : Memory)
    (v : List UInt8)
    (n : Nat) : Memory :=
  m.store 0 ((cString v).take n ++
    List.replicate (n - (cString v).length) 0)

def strcpy
    (m : Memory)
    (v : List UInt8) : Memory :=
  m.store 0 (cString v ++ [0])

/- The string in an array of `size + 1` characters. -/
def text
    (m : Memory)
    (size : Nat) : List UInt8 :=
  m.bytes 0 ((m.strnlen 0 (size + 1)).getD (size + 1))

/- A string value, cut at the size of its field. -/
def cut
    (size : Nat)
    (v : List UInt8) : List UInt8 :=
  (cString v).take size

------------------------------------------------------------
-- State
------------------------------------------------------------

/- The options that are present in one source. -/
structure VariablesMap where
  help : Bool
  dbpath : Option (List UInt8)
  svcname : Option (List UInt8)
  maxpool : Option UInt32
  logpath : Option (List UInt8)
  confpath : Option (List UInt8)

def VariablesMap.empty : VariablesMap :=
  ⟨false, none, none, none, none, none⟩

/- Why a source could not be read. -/
inductive ReadError
| io
| invalidArg

def ReadError.code : ReadError → Int
| .io => edbIo
| .invalidArg => edbInvalidArg

structure PmdOptions where
  dbPath : Memory
  logPath : Memory
  confPath : Memory
  svcName : Memory
  maxPool : Int

def confFileName : List UInt8 :=
  literal ['.', '/', 'e', 'd', 'b', '.', 'c', 'o', 'n', 'f']

def logFileName : List UInt8 :=
  literal ['.', '/', 'd', 'i', 'a', 'l', 'o', 'g', '.', 'l',
    'o', 'g']

def dbFileName : List UInt8 :=
  literal ['.', '/', 'e', 'd', 'b', '.', 'd', 'a', 't', 'a']

def svcNameDefault : List UInt8 :=
  literal ['4', '8', '1', '2', '7']

namespace PmdOptions

/- The options before anything is read. -/
def new : PmdOptions where
  dbPath := fun _ => 0
  logPath := fun _ => 0
  confPath := fun _ => 0
  svcName := fun _ => 0
  maxPool := numPool

def getDBPath (options : PmdOptions) : List UInt8 :=
  text options.dbPath ossMaxPathSize

def getLogPath (options : PmdOptions) : List UInt8 :=
  text options.logPath ossMaxPathSize

def getServiceName (options : PmdOptions) : List UInt8 :=
  text options.svcName niMaxServ

def getMaxPool (options : PmdOptions) : Int :=
  options.maxPool

------------------------------------------------------------
-- Import
------------------------------------------------------------

/- Import one string option into its field. -/
def importString
    (m : Memory)
    (found : Option (List UInt8))
    (isDefault : Bool)
    (dflt : List UInt8)
    (size : Nat) : Memory :=
  match found with
  | some p => strncpy m p size
  | none => if isDefault then strcpy m dflt else m

def importVM
    (options : PmdOptions)
    (vm : VariablesMap)
    (isDefault : Bool) : PmdOptions where
  confPath := importString options.confPath vm.confpath
    isDefault confFileName ossMaxPathSize
  logPath := importString options.logPath vm.logpath
    isDefault logFileName ossMaxPathSize
  dbPath := importString options.dbPath vm.dbpath
    isDefault dbFileName ossMaxPathSize
  svcName := importString options.svcName vm.svcname
    isDefault svcNameDefault niMaxServ
  maxPool :=
    match vm.maxpool with
    | some n => toSigned n.toNat
    | none => if isDefault then numPool else options.maxPool

/- The options of the file, if the command line names one. -/
def readConf
    (readConfigureFile :
      List UInt8 → Except ReadError VariablesMap)
    (vm : VariablesMap) : Except ReadError VariablesMap :=
  match vm.confpath with
  | some path =>
      readConfigureFile (cut ossMaxPathSize path)
  | none => .ok VariablesMap.empty

/-
  Read both sources and import the file's options, then
  those of the command line.
-/
def init
    (options : PmdOptions)
    (readCmd : Except ReadError VariablesMap)
    (readConfigureFile :
      List UInt8 → Except ReadError VariablesMap) :
    Int × PmdOptions :=
  match readCmd with
  | .error e => (e.code, options)
  | .ok vm =>
      if vm.help then (edbPmdHelpOnly, options)
      else
        match readConf readConfigureFile vm with
        | .error e => (e.code, options)
        | .ok vm2 =>
            (edbOk,
              (options.importVM vm2 true).importVM vm true)

------------------------------------------------------------
-- Strings in Fields
------------------------------------------------------------

section Fields

variable {m : Memory} {size : Nat}

theorem cString_ne_zero
    (v : List UInt8) :
    ∀ c ∈ cString v, c ≠ 0 := by
  intro c hc
  have hTake := List.mem_takeWhile_imp hc
  simpa using hTake

/-
  A field that starts with the characters of `s` and a zero
  behind them contains `s`.
-/
theorem text_eq
    {s : List UInt8}
    (hChars : ∀ c ∈ s, c ≠ 0)
    (hFits : s.length ≤ size)
    (hStart : ∀ i < s.length, m i = s.getD i 0)
    (hEnd : m s.length = 0) :
    text m size = s := by
  have hLen : m.strnlen 0 (size + 1) = some s.length := by
    apply Memory.strnlen_of_bytes (by omega)
    · intro i hi
      rw [Nat.zero_add, hStart i hi,
        List.getD_eq_getElem _ _ hi]
      exact hChars _ (List.getElem_mem hi)
    · rw [Nat.zero_add]
      exact hEnd
  rw [text, hLen, Option.getD_some]
  apply List.ext_getElem
  · simp
  · intro i hi hi'
    simp only [Memory.bytes, List.getElem_map,
      List.getElem_range, Nat.zero_add]
    rw [hStart i hi', List.getD_eq_getElem _ _ hi']

theorem text_strncpy
    (hLast : m size = 0)
    (v : List UInt8) :
    text (strncpy m v size) size = cut size v := by
  have hLength : (cut size v).length =
      min size (cString v).length := List.length_take
  apply text_eq
  · intro c hc
    exact cString_ne_zero v c (List.mem_of_mem_take hc)
  · omega
  · intro i hi
    have hStore := Memory.store_inside m 0
      (cut size v ++
        List.replicate (size - (cString v).length) 0)
      (i := i) (by rw [List.length_append]; omega)
    rw [Nat.zero_add, List.getD_append _ _ _ _ hi] at hStore
    exact hStore
  · -- The next character is padding, or the field's last one.
    by_cases hPad : (cString v).length < size
    · have hStore := Memory.store_inside m 0
        (cut size v ++
          List.replicate (size - (cString v).length) 0)
        (i := (cut size v).length) (by
          rw [List.length_append, List.length_replicate]
          omega)
      rw [Nat.zero_add, List.getD_append_right _ _ _ _
        (le_refl _), Nat.sub_self,
        List.getD_replicate _ (by omega)] at hStore
      exact hStore
    · have hFull : (cut size v).length = size := by omega
      rw [hFull, ← hLast]
      apply Memory.store_of_disjoint
      right
      rw [List.length_append, List.length_replicate]
      change 0 + ((cut size v).length + _) ≤ size
      omega

theorem text_strcpy
    (m : Memory)
    {v : List UInt8}
    (hFits : (cString v).length ≤ size) :
    text (strcpy m v) size = cString v := by
  apply text_eq (cString_ne_zero v) hFits
  · intro i hi
    have hStore := Memory.store_inside m 0
      (cString v ++ [0]) (i := i)
      (by rw [List.length_append]; omega)
    rw [Nat.zero_add, List.getD_append _ _ _ _ hi] at hStore
    exact hStore
  · have hStore := Memory.store_inside m 0
      (cString v ++ [0]) (i := (cString v).length)
      (by rw [List.length_append, List.length_singleton]
          omega)
    rw [Nat.zero_add, List.getD_append_right _ _ _ _
      (le_refl _), Nat.sub_self] at hStore
    exact hStore

/- An import leaves the zero at the end of the field. -/
theorem importString_last
    (hLast : m size = 0)
    (found : Option (List UInt8))
    {dflt : List UInt8}
    (hFits : (cString dflt).length ≤ size) :
    importString m found true dflt size size = 0 := by
  cases found with
  | some p =>
      rw [← hLast]
      apply Memory.store_of_disjoint
      right
      rw [List.length_append, List.length_replicate,
        List.length_take]
      omega
  | none =>
      simp only [importString, if_true, strcpy]
      by_cases hEnd : (cString dflt).length = size
      · have hStore := Memory.store_inside m 0
          (cString dflt ++ [0]) (i := size) (by
            rw [List.length_append, List.length_singleton]
            omega)
        rw [Nat.zero_add, List.getD_append_right _ _ _ _
          (by omega), hEnd, Nat.sub_self] at hStore
        exact hStore
      · rw [← hLast]
        apply Memory.store_of_disjoint
        right
        rw [List.length_append, List.length_singleton]
        omega

/- An import with defaults forgets what the field had. -/
theorem text_importString
    (hLast : m size = 0)
    (found : Option (List UInt8))
    {dflt : List UInt8}
    (hDefault : cString dflt = dflt)
    (hFits : dflt.length ≤ size) :
    text (importString m found true dflt size) size =
      (found.map (cut size)).getD dflt := by
  cases found with
  | some p => exact text_strncpy hLast p
  | none =>
      have hText := @text_strcpy size m dflt
        (hDefault.symm ▸ hFits)
      rw [hDefault] at hText
      exact hText

end Fields

------------------------------------------------------------
-- Precedence
------------------------------------------------------------

/- The command line goes before the file. -/
def chosen
    {α : Type}
    (cmd file : Option α)
    (dflt : α) : α :=
  cmd.getD (file.getD dflt)

/-
  The option is on the command line, not in the file, or in
  the file with its default.
-/
def Unharmed
    {α : Type}
    (cmd file : Option α)
    (dflt : α) : Prop :=
  ∀ v, cmd = none → file = some v → v = dflt

theorem getD_eq_chosen_iff
    {α : Type}
    (cmd file : Option α)
    (dflt : α) :
    cmd.getD dflt = chosen cmd file dflt ↔
      Unharmed cmd file dflt := by
  cases cmd with
  | some v => simp [chosen, Unharmed]
  | none =>
      cases file with
      | none => simp [chosen, Unharmed]
      | some v => simp [chosen, Unharmed, eq_comm]

/- The value of a string option, cut at its field's size. -/
def chosenString
    (size : Nat)
    (cmd file : Option (List UInt8))
    (dflt : List UInt8) : List UInt8 :=
  chosen (cmd.map (cut size)) (file.map (cut size)) dflt

def UnharmedString
    (size : Nat)
    (cmd file : Option (List UInt8))
    (dflt : List UInt8) : Prop :=
  Unharmed (cmd.map (cut size)) (file.map (cut size)) dflt

/- An unsigned number as its field of type `int` has it. -/
def poolSize (n : UInt32) : Int :=
  toSigned n.toNat

/-
  Each option has the value it should have exactly when the
  file's value is not harmed.
-/
structure Precedence
    (vm vm2 : VariablesMap)
    (options : PmdOptions) : Prop where
  dbpath : options.getDBPath =
      chosenString ossMaxPathSize vm.dbpath vm2.dbpath
        dbFileName ↔
    UnharmedString ossMaxPathSize vm.dbpath vm2.dbpath
      dbFileName
  logpath : options.getLogPath =
      chosenString ossMaxPathSize vm.logpath vm2.logpath
        logFileName ↔
    UnharmedString ossMaxPathSize vm.logpath vm2.logpath
      logFileName
  svcname : options.getServiceName =
      chosenString niMaxServ vm.svcname vm2.svcname
        svcNameDefault ↔
    UnharmedString niMaxServ vm.svcname vm2.svcname
      svcNameDefault
  maxpool : options.getMaxPool =
      chosen (vm.maxpool.map poolSize)
        (vm2.maxpool.map poolSize) numPool ↔
    Unharmed (vm.maxpool.map poolSize)
      (vm2.maxpool.map poolSize) numPool

/- Two imports in a row leave what the second one found. -/
theorem text_importString_twice
    {m : Memory}
    {size : Nat}
    (hLast : m size = 0)
    (cmd file : Option (List UInt8))
    {dflt : List UInt8}
    (hDefault : cString dflt = dflt)
    (hFits : dflt.length ≤ size) :
    text (importString
        (importString m file true dflt size) cmd true dflt
        size) size = chosenString size cmd file dflt ↔
      UnharmedString size cmd file dflt := by
  have hFirst := @importString_last m size hLast file dflt
    (hDefault.symm ▸ hFits)
  rw [text_importString hFirst cmd hDefault hFits]
  exact getD_eq_chosen_iff _ _ _

/- The file's database path is not read any more. -/
theorem getDBPath_imported
    (vm vm2 : VariablesMap) :
    ((new.importVM vm2 true).importVM vm true).getDBPath =
      (vm.dbpath.map (cut ossMaxPathSize)).getD
        dbFileName := by
  have hFirst := @importString_last new.dbPath
    ossMaxPathSize rfl vm2.dbpath dbFileName (by decide)
  exact text_importString hFirst vm.dbpath (by decide)
    (by decide)

section Precedence

variable {readCmd : Except ReadError VariablesMap}
variable {readConfigureFile :
  List UInt8 → Except ReadError VariablesMap}
variable {options : PmdOptions}

theorem ReadError_code_ne_ok (e : ReadError) :
    e.code ≠ edbOk := by
  cases e <;> decide

/- After a success both sources have been imported. -/
theorem init_eq
    (hInit : new.init readCmd readConfigureFile =
      (edbOk, options)) :
    ∃ vm vm2, readCmd = .ok vm ∧
      readConf readConfigureFile vm = .ok vm2 ∧
      options = (new.importVM vm2 true).importVM vm true := by
  unfold init at hInit
  rcases readCmd with e | vm
  · exact absurd (Prod.mk.inj hInit).1
      (ReadError_code_ne_ok e)
  · simp only at hInit
    split at hInit
    · exact absurd (Prod.mk.inj hInit).1 (by decide)
    · rcases hConf : readConf readConfigureFile vm with
        e | vm2
      · rw [hConf] at hInit
        exact absurd (Prod.mk.inj hInit).1
          (ReadError_code_ne_ok e)
      · rw [hConf] at hInit
        exact ⟨vm, vm2, rfl, hConf, (Prod.mk.inj hInit).2.symm⟩

/-
  After a successful start an option has the value of the
  command line, else of the file, else its default, exactly
  when the option is on the command line, not in the file, or
  in the file with its default.
-/
theorem init_precedence
    (hInit : new.init readCmd readConfigureFile =
      (edbOk, options)) :
    ∃ vm vm2, readCmd = .ok vm ∧
      readConf readConfigureFile vm = .ok vm2 ∧
      Precedence vm vm2 options := by
  rcases init_eq hInit with ⟨vm, vm2, hCmd, hConf, hOptions⟩
  refine ⟨vm, vm2, hCmd, hConf, ?_, ?_, ?_, ?_⟩
  · rw [hOptions]
    exact text_importString_twice rfl vm.dbpath vm2.dbpath
      (by decide) (by decide)
  · rw [hOptions]
    exact text_importString_twice rfl vm.logpath vm2.logpath
      (by decide) (by decide)
  · rw [hOptions]
    exact text_importString_twice rfl vm.svcname vm2.svcname
      (by decide) (by decide)
  · rw [← getD_eq_chosen_iff, hOptions]
    have hPool : ((new.importVM vm2 true).importVM vm
        true).getMaxPool =
        (vm.maxpool.map poolSize).getD numPool := by
      unfold getMaxPool importVM
      cases vm.maxpool <;> rfl
    rw [hPool]

end Precedence

/- The command line names a file and nothing else. -/
def confOnly : VariablesMap :=
  { VariablesMap.empty with
    confpath := some (literal ['c']) }

/- The file has a database path and nothing else. -/
def dbPathOnly : VariablesMap :=
  { VariablesMap.empty with
    dbpath := some (literal ['/', 'd']) }

/- The command line has a database path too. -/
def confAndPath : VariablesMap :=
  { confOnly with dbpath := some (literal ['/', 'c']) }

/- The file has two paths and a number. -/
def pathsAndPool : VariablesMap :=
  { dbPathOnly with
    logpath := some (literal ['/', 'l'])
    maxpool := some 20 }

/-
  Both sources have a database path, and that of the command
  line stays.  The path of the log is in the file only, and it
  is lost; the number in the file is the default.
-/
theorem init_precedence_both :
    (new.init (.ok confAndPath)
      (fun _ => .ok pathsAndPool)).2.getDBPath =
        literal ['/', 'c'] ∧
      (new.init (.ok confAndPath)
        (fun _ => .ok pathsAndPool)).2.getLogPath ≠
          literal ['/', 'l'] ∧
      (new.init (.ok confAndPath)
        (fun _ => .ok pathsAndPool)).2.getMaxPool = 20 := by
  have hInit : ∃ options,
      new.init (.ok confAndPath) (fun _ => .ok pathsAndPool) =
        (edbOk, options) := ⟨_, rfl⟩
  rcases hInit with ⟨options, hInit⟩
  rw [hInit]
  rcases init_precedence hInit with
    ⟨vm, vm2, hCmd, hConf, hAll⟩
  obtain rfl : confAndPath = vm := Except.ok.inj hCmd
  obtain rfl : pathsAndPool = vm2 := Except.ok.inj hConf
  refine ⟨hAll.dbpath.mpr ?_, ?_, hAll.maxpool.mpr ?_⟩
  · intro v hNone _
    cases hNone
  · intro hKept
    have hDefault : cut ossMaxPathSize (literal ['/', 'l']) =
        logFileName :=
      hAll.logpath.mp hKept _ rfl rfl
    exact absurd hDefault (by decide)
  · intro v _ hFile
    exact (Option.some.inj hFile).symm

/- The database path of the file is lost. -/
theorem init_forgets_file :
    confOnly.dbpath = none ∧
      dbPathOnly.dbpath = some (literal ['/', 'd']) ∧
      (new.init (.ok confOnly)
        (fun _ => .ok dbPathOnly)).1 = edbOk ∧
      (new.init (.ok confOnly)
        (fun _ => .ok dbPathOnly)).2.getDBPath =
          dbFileName ∧
      dbFileName ≠
        chosenString ossMaxPathSize confOnly.dbpath
          dbPathOnly.dbpath dbFileName := by
  have hImports : (new.init (.ok confOnly)
      (fun _ => .ok dbPathOnly)).2 =
        (new.importVM dbPathOnly true).importVM confOnly
          true := rfl
  refine ⟨rfl, rfl, rfl, ?_, by decide⟩
  rw [hImports, getDBPath_imported]
  rfl

end PmdOptions

end EmeraldDb
