import EmeraldDb.Client.Split
import EmeraldDb.Lib.Transition
import EmeraldDb.Pmd.Options

/-
  The prompt of the client's shell.

  The shell reads characters up to the end of a line, where a
  backslash joins the next line to it, splits what it has
  read and executes the command of that name.  What is read
  is given as the characters of the input; past their end
  `getchar` gives EOF, which as a `char` is 255.

  A logical line is what a reader of the input takes for one:
  it ends at the first newline behind no backslash.

  Key definitions include:
    * `Edb.readInput`
    * `Edb.prompt`
    * `Edb.logicalLine`
    * `Edb.lineText`

  Key results include:
    * `Edb.readInput_ok_iff`
    * `Edb.prompt_lineByLine`
-/

namespace EmeraldDb

abbrev edbArgumentTooLong : Int := -102
abbrev edbInvalidCommand : Int := -103

namespace Edb

abbrev space : UInt8 := 32
abbrev tab : UInt8 := 9
abbrev backSlant : UInt8 := 92
abbrev newLine : UInt8 := 10
abbrev eofChar : UInt8 := 255
abbrev cmdBufferSize : Nat := 512

------------------------------------------------------------
-- Reading
------------------------------------------------------------

/- The code, the characters stored and the input left. -/
structure Line where
  rc : Int
  chars : List UInt8
  rest : List UInt8
deriving DecidableEq, Repr

/- The character that is stored for one of the input. -/
def stored (c : UInt8) : UInt8 :=
  if c = tab then space else c

/- The loop of `_readInput`, with what it has stored. -/
def readChars :
    List UInt8 → List UInt8 → Line
| [], chars =>
    -- every further character is EOF, until there is no room
    ⟨edbArgumentTooLong, chars ++
      List.replicate (cmdBufferSize - chars.length) eofChar,
      []⟩
| c :: rest, chars =>
    if c = newLine then
      if cmdBufferSize ≤ chars.length then
        ⟨edbArgumentTooLong, chars, rest⟩
      else ⟨edbOk, chars, rest⟩
    else if cmdBufferSize ≤ chars.length then
      ⟨edbArgumentTooLong, chars, rest⟩
    else if c = backSlant then
      match rest with
      | [] => ⟨edbInvalidCommand, chars, []⟩
      | d :: rest =>
          if d ≠ newLine then
            ⟨edbInvalidCommand, chars, rest⟩
          else readChars rest chars
    else readChars rest (chars ++ [stored c])

def readInput (stdin : List UInt8) : Line :=
  readChars stdin []

/- The buffer, which was filled with zeros before. -/
def Line.cmdBuffer (line : Line) : List UInt8 :=
  line.chars ++
    List.replicate (cmdBufferSize - line.chars.length) 0

------------------------------------------------------------
-- Commands
------------------------------------------------------------

/- The commands that are registered. -/
inductive CommandName
| insert
| connect
| delete
| query
deriving DecidableEq, Repr

def cmdMap : List (List UInt8 × CommandName) :=
  [(literal ['i', 'n', 's', 'e', 'r', 't'], .insert),
    (literal ['c', 'o', 'n', 'n', 'e', 'c', 't'], .connect),
    (literal ['d', 'e', 'l', 'e', 't', 'e'], .delete),
    (literal ['q', 'u', 'e', 'r', 'y'], .query)]

def lowercase (str : List UInt8) : List UInt8 :=
  str.map (fun c => if 65 ≤ c ∧ c ≤ 90 then c + 32 else c)

def getCommandProcessor
    (cmd : List UInt8) : Option CommandName :=
  cmdMap.lookup (lowercase cmd)

/- A command that was executed, with its options. -/
abbrev Executed :=
  CommandName × List (List UInt8)

/- What a text that is split at blanks executes. -/
def commandOf (input : List UInt8) : Option Executed :=
  let (command, optionVec) := split input space [] []
  (getCommandProcessor command).map (fun c => (c, optionVec))

/-
  One prompt: the code of `_readInput`, the command that is
  executed and the input that is left.
-/
structure Prompted where
  rc : Int
  executed : Option Executed
  rest : List UInt8
deriving DecidableEq, Repr

/-
  The buffer is read as a C string; one without a zero goes
  on with the bytes behind it.
-/
def prompt
    (behind : List UInt8)
    (stdin : List UInt8) : Prompted :=
  let line := readInput stdin
  let input := cString (line.cmdBuffer ++ behind)
  ⟨line.rc, commandOf input, line.rest⟩

/-
  The loop of `start`: no registered command sets the flag
  that ends it.
-/
def shellStep
    (stdin : List UInt8)
    (p : Prompted)
    (stdin' : List UInt8) : Prop :=
  (∃ behind, p = prompt behind stdin) ∧ stdin' = p.rest

------------------------------------------------------------
-- Logical Lines
------------------------------------------------------------

/-
  The first logical line, with its newline, and the input
  behind it.  A backslash takes the next character along.
-/
def logicalLine :
    List UInt8 → List UInt8 × List UInt8
| [] => ([], [])
| c :: rest =>
    if c = newLine then ([c], rest)
    else if c = backSlant then
      match rest with
      | [] => ([c], [])
      | d :: rest =>
          (c :: d :: (logicalLine rest).1,
            (logicalLine rest).2)
    else (c :: (logicalLine rest).1, (logicalLine rest).2)

/-
  The text of a logical line: nothing if the line does not
  end or has a backslash in front of another character.
-/
def lineText :
    List UInt8 → Option (List UInt8)
| [] => none
| c :: rest =>
    if c = newLine then some []
    else if c = backSlant then
      match rest with
      | [] => none
      | d :: rest => if d = newLine then lineText rest else none
    else (lineText rest).map (fun text => stored c :: text)

/- A complete line that fits the buffer with its zero. -/
def ValidLine (line : List UInt8) : Prop :=
  ∃ text, lineText line = some text ∧
    text.length < cmdBufferSize

/- The command of a valid line. -/
def lineCommand (line : List UInt8) : Option Executed :=
  match lineText line with
  | none => none
  | some text =>
      if text.length < cmdBufferSize then
        commandOf (cString text)
      else none

/- The first `n` logical lines and the input behind them. -/
def logicalLines :
    Nat → List UInt8 → List (List UInt8) × List UInt8
| 0, stdin => ([], stdin)
| n + 1, stdin =>
    let (line, rest) := logicalLine stdin
    let (lines, rest) := logicalLines n rest
    (line :: lines, rest)

------------------------------------------------------------
-- One Character
------------------------------------------------------------

section OneCharacter

variable {c d : UInt8} {rest chars : List UInt8}

theorem backSlant_ne_newLine : backSlant ≠ newLine := by
  decide

theorem logicalLine_newLine :
    logicalLine (newLine :: rest) = ([newLine], rest) := by
  rw [logicalLine.eq_def]
  simp

theorem logicalLine_pair :
    logicalLine (backSlant :: d :: rest) =
      (backSlant :: d :: (logicalLine rest).1,
        (logicalLine rest).2) := by
  rw [logicalLine.eq_def]
  simp [backSlant_ne_newLine]

theorem logicalLine_char
    (hLine : c ≠ newLine)
    (hSlant : c ≠ backSlant) :
    logicalLine (c :: rest) =
      (c :: (logicalLine rest).1, (logicalLine rest).2) := by
  rw [logicalLine.eq_def]
  simp [hLine, hSlant]

theorem lineText_newLine :
    lineText (newLine :: rest) = some [] := by
  rw [lineText.eq_def]
  simp

theorem lineText_pair :
    lineText (backSlant :: d :: rest) =
      if d = newLine then lineText rest else none := by
  rw [lineText.eq_def]
  simp [backSlant_ne_newLine]

theorem lineText_char
    (hLine : c ≠ newLine)
    (hSlant : c ≠ backSlant) :
    lineText (c :: rest) =
      (lineText rest).map (fun text => stored c :: text) := by
  rw [lineText.eq_def]
  simp [hLine, hSlant]

/- A full buffer ends the loop at any character. -/
theorem readChars_full
    (hFull : cmdBufferSize ≤ chars.length) :
    readChars (c :: rest) chars =
      ⟨edbArgumentTooLong, chars, rest⟩ := by
  rw [readChars.eq_def]
  simp only [if_pos hFull, ite_self]

theorem readChars_newLine
    (hRoom : chars.length < cmdBufferSize) :
    readChars (newLine :: rest) chars =
      ⟨edbOk, chars, rest⟩ := by
  rw [readChars.eq_def]
  simp only [if_pos, if_neg (Nat.not_le.mpr hRoom)]

theorem readChars_pair
    (hRoom : chars.length < cmdBufferSize) :
    readChars (backSlant :: d :: rest) chars =
      if d ≠ newLine then ⟨edbInvalidCommand, chars, rest⟩
      else readChars rest chars := by
  rw [readChars.eq_def]
  simp [backSlant_ne_newLine, Nat.not_le.mpr hRoom]

theorem readChars_char
    (hRoom : chars.length < cmdBufferSize)
    (hLine : c ≠ newLine)
    (hSlant : c ≠ backSlant) :
    readChars (c :: rest) chars =
      readChars rest (chars ++ [stored c]) := by
  rw [readChars.eq_def]
  simp only [if_neg hLine, if_neg hSlant,
    if_neg (Nat.not_le.mpr hRoom)]

end OneCharacter

------------------------------------------------------------
-- What Is Read
------------------------------------------------------------

/- What the loop makes of a logical line. -/
inductive ReadsLine
    (stdin chars : List UInt8)
    (line : Line) : Prop
| ok
    (text : List UInt8)
    (hText : lineText (logicalLine stdin).1 = some text)
    (hFits : chars.length + text.length < cmdBufferSize)
    (hLine : line =
      ⟨edbOk, chars ++ text, (logicalLine stdin).2⟩)
| failed
    (hNot : ∀ text,
      lineText (logicalLine stdin).1 = some text →
        cmdBufferSize ≤ chars.length + text.length)
    (hCode : line.rc ≠ edbOk)

/-
  The loop succeeds on a logical line that is complete, has
  no other backslash and still fits, and on no other line.
-/
theorem readChars_readsLine
    (stdin chars : List UInt8) :
    ReadsLine stdin chars (readChars stdin chars) := by
  induction stdin using logicalLine.induct
    generalizing chars with
  | case1 =>
      apply ReadsLine.failed
      · simp [logicalLine, lineText]
      · simp [readChars]
  | case2 rest =>
      by_cases hRoom : chars.length < cmdBufferSize
      · apply ReadsLine.ok []
        · rw [logicalLine_newLine, lineText_newLine]
        · simpa using hRoom
        · rw [readChars_newLine hRoom, logicalLine_newLine,
            List.append_nil]
      · rw [readChars_full (Nat.not_lt.mp hRoom)]
        apply ReadsLine.failed
        · intro text _
          omega
        · simp
  | case3 hNot =>
      apply ReadsLine.failed
      · simp [logicalLine, lineText, hNot]
      · rw [readChars.eq_def]
        simp only [if_neg hNot]
        split <;> simp
  | case4 d rest hNot ih =>
      by_cases hRoom : chars.length < cmdBufferSize
      · rw [readChars_pair hRoom]
        by_cases hJoin : d = newLine
        · rw [if_neg (not_not.mpr hJoin)]
          have hLine : lineText (logicalLine
              (backSlant :: d :: rest)).1 =
                lineText (logicalLine rest).1 := by
            rw [logicalLine_pair, lineText_pair, if_pos hJoin]
          cases ih chars with
          | ok text hText hFits hLeft =>
              apply ReadsLine.ok text (hLine.trans hText) hFits
              rw [hLeft, logicalLine_pair]
          | failed hLong hCode =>
              exact ReadsLine.failed
                (fun text hText =>
                  hLong text (hLine.symm.trans hText)) hCode
        · rw [if_pos hJoin]
          apply ReadsLine.failed
          · intro text hText
            rw [logicalLine_pair, lineText_pair, if_neg hJoin]
              at hText
            exact absurd hText (by simp)
          · simp
      · rw [readChars_full (Nat.not_lt.mp hRoom)]
        apply ReadsLine.failed
        · intro text _
          omega
        · simp
  | case5 c rest hLine hSlant ih =>
      by_cases hRoom : chars.length < cmdBufferSize
      · rw [readChars_char hRoom hLine hSlant]
        have hStored : lineText (logicalLine (c :: rest)).1 =
            (lineText (logicalLine rest).1).map
              (fun text => stored c :: text) := by
          rw [logicalLine_char hLine hSlant,
            lineText_char hLine hSlant]
        have hLength : (chars ++ [stored c]).length =
            chars.length + 1 := by simp
        cases ih (chars ++ [stored c]) with
        | ok text hText hFits hLeft =>
            apply ReadsLine.ok (stored c :: text)
            · rw [hStored, hText, Option.map_some]
            · rw [List.length_cons]
              omega
            · rw [hLeft, logicalLine_char hLine hSlant]
              simp
        | failed hLong hCode =>
            refine ReadsLine.failed ?_ hCode
            intro text hText
            rw [hStored] at hText
            rcases Option.map_eq_some_iff.mp hText with
              ⟨text', hText', rfl⟩
            have hLonger := hLong text' hText'
            rw [List.length_cons]
            omega
      · rw [readChars_full (Nat.not_lt.mp hRoom)]
        apply ReadsLine.failed
        · intro text _
          omega
        · simp

/- `_readInput` succeeds on the valid lines. -/
theorem readInput_ok_iff (stdin : List UInt8) :
    (readInput stdin).rc = edbOk ↔
      ValidLine (logicalLine stdin).1 := by
  cases readChars_readsLine stdin [] with
  | ok text hText hFits hLeft =>
      have hSmall : text.length < cmdBufferSize := by
        simpa using hFits
      exact iff_of_true (congrArg Line.rc hLeft)
        ⟨text, hText, hSmall⟩
  | failed hLong hCode =>
      refine iff_of_false hCode ?_
      rintro ⟨text, hText, hSmall⟩
      have hLonger := hLong text hText
      rw [List.length_nil] at hLonger
      omega

/- What it has read of a valid line. -/
theorem readInput_valid
    {stdin text : List UInt8}
    (hText : lineText (logicalLine stdin).1 = some text)
    (hSmall : text.length < cmdBufferSize) :
    readInput stdin =
      ⟨edbOk, text, (logicalLine stdin).2⟩ := by
  cases readChars_readsLine stdin [] with
  | ok text' hText' _ hLeft =>
      rw [hText, Option.some.injEq] at hText'
      rw [hText']
      exact hLeft
  | failed hLong _ =>
      have hLonger := hLong text hText
      rw [List.length_nil] at hLonger
      omega

------------------------------------------------------------
-- What Is Executed
------------------------------------------------------------

/- A C string ends at a zero behind it. -/
theorem cString_append_zero
    (text rest : List UInt8) :
    cString (text ++ 0 :: rest) = cString text := by
  unfold cString
  induction text with
  | nil => simp
  | cons c text ih =>
      simp only [List.cons_append, List.takeWhile_cons, ih]

/- A prompt on a valid line executes what the line says. -/
theorem prompt_valid
    {stdin text : List UInt8}
    (behind : List UInt8)
    (hText : lineText (logicalLine stdin).1 = some text)
    (hSmall : text.length < cmdBufferSize) :
    prompt behind stdin =
      ⟨edbOk, commandOf (cString text),
        (logicalLine stdin).2⟩ := by
  obtain ⟨k, hZeros⟩ :
      ∃ k, cmdBufferSize - text.length = k + 1 :=
    Nat.exists_eq_add_of_lt (Nat.sub_pos_of_lt hSmall) |>.imp
      (fun k hk => by omega)
  unfold prompt Line.cmdBuffer
  rw [readInput_valid hText hSmall]
  simp only [hZeros, List.replicate_succ, List.append_assoc,
    List.cons_append, cString_append_zero]

/- No command has a name that starts with EOF. -/
theorem commandOf_eof (rest : List UInt8) :
    commandOf (eofChar :: rest) = none := by
  have hNone : ∀ command : List UInt8,
      command = [] ∨ command.head? = some eofChar →
        getCommandProcessor command = none := by
    rintro (_ | ⟨c, command⟩) hHead
    · decide
    · obtain rfl : c = eofChar := by simpa using hHead
      rfl
  unfold commandOf
  simp only [Option.map_eq_none_iff]
  apply hNone
  rcases split_cases (eofChar :: rest) space with
    ⟨_, hSplit⟩ | ⟨hIn, hPieces⟩
  · exact Or.inl (congrArg Prod.fst hSplit)
  · right
    revert hIn hPieces
    cases (wrapInt (eofChar :: rest).length).toNat with
    | zero => simp
    | succ n =>
        intro _ hPieces
        rw [List.take_succ_cons,
          List.splitOn_cons_eq_if_modifyHead,
          if_neg (by decide)] at hPieces
        cases hRest : (rest.take n).splitOn space with
        | nil => exact absurd hRest (List.splitOn_ne_nil _ _)
        | cons piece pieces =>
            rw [hRest, List.modifyHead_cons,
              List.cons.injEq] at hPieces
            rw [hPieces.1]
            rfl

/- At the end of the input a prompt executes nothing. -/
theorem prompt_atEnd (behind : List UInt8) :
    (prompt behind []).executed = none ∧
      (prompt behind []).rest = [] := by
  refine ⟨?_, rfl⟩
  obtain ⟨more, hBuffer⟩ : ∃ more,
      (readInput []).cmdBuffer ++ behind = eofChar :: more :=
    ⟨_, rfl⟩
  have hString : cString (eofChar :: more) =
      eofChar :: cString more := rfl
  unfold prompt
  simp only [hBuffer, hString]
  exact commandOf_eof _

------------------------------------------------------------
-- Line by Line
------------------------------------------------------------

/-
  A prompt goes with a logical line: it executes a command
  only if `_readInput` succeeded, and what it executes is the
  command of the line, which is none unless the line is valid.
-/
structure Obeys
    (line : List UInt8)
    (p : Prompted) : Prop where
  onlyOk : p.executed ≠ none → p.rc = edbOk
  own : p.executed = lineCommand line

/-
  The prompts of a run go with the logical lines of the input,
  one each and in order, and leave the input behind them.
-/
def LineByLine
    (stdin : List UInt8)
    (ps : List Prompted)
    (stdin' : List UInt8) : Prop :=
  List.Forall₂ Obeys (logicalLines ps.length stdin).1 ps ∧
    (logicalLines ps.length stdin).2 = stdin'

/- The input is at its end or goes on with a valid line. -/
def Promptable (stdin : List UInt8) : Prop :=
  stdin = [] ∨ ValidLine (logicalLine stdin).1

theorem prompt_obeys
    {stdin : List UInt8}
    (behind : List UInt8)
    (hInput : Promptable stdin) :
    Obeys (logicalLine stdin).1 (prompt behind stdin) ∧
      (prompt behind stdin).rest = (logicalLine stdin).2 := by
  rcases hInput with rfl | ⟨text, hText, hSmall⟩
  · have hEnd := prompt_atEnd behind
    exact ⟨⟨fun hSome => absurd hEnd.1 hSome, hEnd.1⟩, hEnd.2⟩
  · rw [prompt_valid behind hText hSmall]
    refine ⟨⟨fun _ => rfl, ?_⟩, rfl⟩
    unfold lineCommand
    simp only [hText, if_pos hSmall]

/-
  A run that meets valid lines only goes line by line, up to
  the end of the input and past it.
-/
theorem prompt_lineByLine
    {stdin stdin' : List UInt8}
    {ps : List Prompted}
    (hRun : Steps
      (Guarded (fun stdin _ => Promptable stdin) shellStep)
      stdin ps stdin') :
    LineByLine stdin ps stdin' := by
  induction hRun with
  | nil stdin => exact ⟨List.Forall₂.nil, rfl⟩
  | cons hStep _ ih =>
      rcases hStep with ⟨hInput, ⟨behind, rfl⟩, rfl⟩
      rcases prompt_obeys behind hInput with ⟨hObeys, hRest⟩
      rw [hRest] at ih
      exact ⟨List.Forall₂.cons hObeys ih.1, ih.2⟩

/- `insert a` over two lines, then `query b`. -/
def twoCommandLines : List UInt8 :=
  literal ['i', 'n', 's', 'e', 'r', 't', ' ', '\\', '\n',
    'a', '\n', 'q', 'u', 'e', 'r', 'y', '\t', 'b', '\n']

theorem prompt_lineByLine_twoCommands :
    LineByLine twoCommandLines
      [⟨edbOk, some (.insert, [[97]]),
          twoCommandLines.drop 11⟩,
        ⟨edbOk, some (.query, [[98]]), []⟩] [] := by
  apply prompt_lineByLine
  refine Steps.cons (t := twoCommandLines.drop 11)
    ⟨Or.inr ?_, ⟨[], by decide +kernel⟩, rfl⟩
    (Steps.cons ⟨Or.inr ?_, ⟨[], by decide +kernel⟩, rfl⟩
      (Steps.nil _))
  · exact ⟨literal ['i', 'n', 's', 'e', 'r', 't', ' ', 'a'],
      by decide, by decide⟩
  · exact ⟨literal ['q', 'u', 'e', 'r', 'y', ' ', 'b'],
      by decide, by decide⟩

/- One line with a backslash in front of another character. -/
def escapedLine : List UInt8 :=
  literal ['i', 'n', 's', 'e', 'r', 't', ' ', 'a', '\\', 'z',
    'q', 'u', 'e', 'r', 'y', ' ', 'b', '\n']

/-
  The beginning of this line is executed although it was
  refused, and its remainder as a second command.
-/
theorem prompt_not_lineByLine :
    ¬ ∀ stdin ps stdin', Steps shellStep stdin ps stdin' →
      LineByLine stdin ps stdin' := by
  intro hAll
  have hFirst : shellStep escapedLine
      ⟨edbInvalidCommand, some (.insert, [[97]]),
        escapedLine.drop 10⟩ (escapedLine.drop 10) :=
    ⟨⟨[], by decide +kernel⟩, rfl⟩
  have hSecond : shellStep (escapedLine.drop 10)
      ⟨edbOk, some (.query, [[98]]), []⟩ [] :=
    ⟨⟨[], by decide +kernel⟩, rfl⟩
  have hRun := hAll _ _ _
    (Steps.cons hFirst (Steps.cons hSecond (Steps.nil _)))
  cases hRun.1 with
  | cons hObeys _ =>
      exact absurd (hObeys.onlyOk (by simp)) (by decide)

end Edb

end EmeraldDb
