import EmeraldDb.Bson.Element

/-
  Splitting the text of a command line.

  The loop cuts the text at each delimiter: the first piece
  is the command and the others are its options.  The last
  piece is cut behind the loop.  The length of the text is
  kept in a 32-bit signed integer.

  Key definitions include:
    * `Edb.substr`
    * `Edb.splitStep`
    * `Edb.split`

  Key results include:
    * `Edb.splitLoop_spec`
    * `Edb.split_lossless`
-/

namespace EmeraldDb

namespace Edb

------------------------------------------------------------
-- Splitting
------------------------------------------------------------

/- At most `n` characters of a string, from `pos` on. -/
def substr
    (text : List UInt8)
    (pos n : Nat) : List UInt8 :=
  (text.drop pos).take n

/- What the loop has cut off and where it is. -/
structure Split where
  command : List UInt8
  optionVec : List (List UInt8)
  first : Bool
  start : Nat
deriving DecidableEq, Repr

/- One character of the loop. -/
def splitStep
    (text : List UInt8)
    (delim : UInt8)
    (st : Split)
    (i : Nat) : Split :=
  if text.getD i 0 = delim then
    if st.first then
      { st with
        command := substr text 0 i
        first := false
        start := i + 1 }
    else
      { st with
        optionVec := st.optionVec ++
          [substr text st.start (i - st.start)]
        start := i + 1 }
  else st

def splitLoop
    (text : List UInt8)
    (delim : UInt8)
    (st : Split)
    (n : Nat) : Split :=
  (List.range n).foldl (splitStep text delim) st

/- A signed integer that is passed as a size. -/
def asSize (v : Int) : Nat :=
  (v % 18446744073709551616).toNat

/- The command and the options after the call. -/
def split
    (text : List UInt8)
    (delim : UInt8)
    (command : List UInt8)
    (optionVec : List (List UInt8)) :
    List UInt8 × List (List UInt8) :=
  let len := wrapInt text.length
  let st := splitLoop text delim
    ⟨command, optionVec, true, 0⟩ len.toNat
  (st.command, st.optionVec ++
    [substr text st.start (asSize (len - st.start))])

------------------------------------------------------------
-- The Loop
------------------------------------------------------------

variable {text : List UInt8} {delim : UInt8}

/-
  The loop after `n` characters.  Either it has met no
  delimiter, or it has cut the text in front of the last
  delimiter, behind which the current piece starts.
-/
structure Splitting
    (text : List UInt8)
    (delim : UInt8)
    (n : Nat)
    (st : Split) : Prop where
  start_le : st.start ≤ n
  piece : delim ∉ substr text st.start (n - st.start)
  cut : (st = ⟨[], [], true, 0⟩) ∨
    (st.first = false ∧ ∃ front,
      text.take st.start = front ++ [delim] ∧
        st.command :: st.optionVec = front.splitOn delim)

theorem substr_zero
    (text : List UInt8)
    (n : Nat) :
    substr text 0 n = text.take n := rfl

/- The text in front of a piece and the piece. -/
theorem take_append_substr
    (text : List UInt8)
    {start n : Nat}
    (hLe : start ≤ n) :
    text.take start ++ substr text start (n - start) =
      text.take n := by
  unfold substr
  rw [← List.take_add]
  congr 1
  omega

/- A piece grows by the character behind it. -/
theorem substr_succ
    {start n : Nat}
    (hLe : start ≤ n)
    (hInside : n < text.length) :
    substr text start (n + 1 - start) =
      substr text start (n - start) ++ [text.getD n 0] := by
  have hSucc : n + 1 - start = (n - start) + 1 := by omega
  have hGet : (text.drop start)[n - start]? =
      some (text.getD n 0) := by
    rw [List.getElem?_drop, Nat.add_sub_cancel' hLe,
      List.getD_eq_getElem?_getD,
      List.getElem?_eq_getElem hInside]
    rfl
  unfold substr
  rw [hSucc, List.take_add_one, hGet]
  rfl

theorem Splitting.step
    {n : Nat}
    {st : Split}
    (hSplit : Splitting text delim n st)
    (hInside : n < text.length) :
    Splitting text delim (n + 1)
      (splitStep text delim st n) := by
  have hGrow := substr_succ hSplit.start_le hInside
  have hFront := take_append_substr text hSplit.start_le
  have hTake : text.take (n + 1) =
      text.take n ++ [text.getD n 0] := by
    have hZero : 0 ≤ n := Nat.zero_le n
    exact substr_succ hZero hInside
  have hEmpty : delim ∉
      substr text (n + 1) (n + 1 - (n + 1)) := by
    simp [substr]
  unfold splitStep
  by_cases hDelim : text.getD n 0 = delim
  · rw [if_pos hDelim]
    rw [hDelim] at hTake
    rcases hSplit.cut with rfl | ⟨hFirst, front, hCut, hPieces⟩
    · rw [if_pos rfl]
      refine ⟨le_refl _, hEmpty, Or.inr ⟨rfl, text.take n,
        hTake, ?_⟩⟩
      exact (List.splitOn_eq_singleton hSplit.piece).symm
    · rw [if_neg (by simp [hFirst])]
      refine ⟨le_refl _, hEmpty, Or.inr ⟨hFirst, text.take n,
        hTake, ?_⟩⟩
      rw [← hFront, hCut, List.append_assoc,
        List.singleton_append, List.splitOn_append_cons_self,
        List.splitOn_eq_singleton hSplit.piece, ← hPieces]
      rfl
  · rw [if_neg hDelim]
    refine ⟨Nat.le_succ_of_le hSplit.start_le, ?_,
      hSplit.cut⟩
    rw [hGrow]
    simp only [List.mem_append, List.mem_singleton, not_or]
    exact ⟨hSplit.piece, Ne.symm hDelim⟩

theorem splitLoop_splitting
    (text : List UInt8)
    (delim : UInt8)
    {n : Nat}
    (hInside : n ≤ text.length) :
    Splitting text delim n
      (splitLoop text delim ⟨[], [], true, 0⟩ n) := by
  induction n with
  | zero =>
      exact ⟨le_refl _, by simp [substr, splitLoop],
        Or.inl rfl⟩
  | succ n ih =>
      unfold splitLoop at ih ⊢
      rw [List.range_succ, List.foldl_append]
      exact (ih (by omega)).step (by omega)

/-
  The loop finds no delimiter, or together with the piece
  behind the last one it has the pieces of what it has read.
-/
theorem splitLoop_spec
    (text : List UInt8)
    (delim : UInt8)
    {n : Nat}
    (hInside : n ≤ text.length) :
    let st := splitLoop text delim ⟨[], [], true, 0⟩ n
    st.start ≤ n ∧
      ((delim ∉ text.take n ∧ st = ⟨[], [], true, 0⟩) ∨
      (delim ∈ text.take n ∧
        st.command :: (st.optionVec ++
          [substr text st.start (n - st.start)]) =
            (text.take n).splitOn delim)) := by
  intro st
  have hSplit := splitLoop_splitting text delim hInside
  have hFront := take_append_substr text hSplit.start_le
  refine ⟨hSplit.start_le, ?_⟩
  rcases hSplit.cut with hNone | ⟨_, front, hCut, hPieces⟩
  · refine Or.inl ⟨?_, hNone⟩
    have hPiece := hSplit.piece
    rw [hNone] at hPiece
    exact hPiece
  · rw [hCut] at hFront
    refine Or.inr ⟨?_, ?_⟩
    · rw [← hFront]
      simp
    · rw [← hFront, List.append_assoc, List.singleton_append,
        List.splitOn_append_cons_self, ← hPieces,
        List.splitOn_eq_singleton hSplit.piece]
      rfl

------------------------------------------------------------
-- The Whole Text
------------------------------------------------------------

/- A difference that is not negative is its own size. -/
theorem asSize_sub
    {len : Int}
    {start : Nat}
    (hLe : (start : Int) ≤ len)
    (hSmall : len < 2147483648) :
    asSize (len - start) = len.toNat - start := by
  unfold asSize
  omega

/- The length as a size differs from it by whole words. -/
theorem asSize_wrapInt (n : Nat) :
    asSize (wrapInt n) % 4294967296 = n % 4294967296 := by
  unfold asSize wrapInt toSigned ofSigned
  split <;> omega

theorem wrapInt_toNat_le (n : Nat) :
    (wrapInt n).toNat ≤ n ∧
      (wrapInt n).toNat < 2147483648 := by
  unfold wrapInt toSigned ofSigned
  split <;> omega

/-
  A call without a command or options cuts nothing off, or
  yields the pieces of the characters that the loop has read.
-/
theorem split_cases
    (text : List UInt8)
    (delim : UInt8) :
    let n := (wrapInt text.length).toNat
    (delim ∉ text.take n ∧ split text delim [] [] =
        ([], [text.take (asSize (wrapInt text.length))])) ∨
      (delim ∈ text.take n ∧
        (split text delim [] []).1 ::
            (split text delim [] []).2 =
          (text.take n).splitOn delim) := by
  intro n
  have hInside := wrapInt_toNat_le text.length
  rcases splitLoop_spec text delim hInside.1 with
    ⟨hStart, ⟨hOut, hLoop⟩ | ⟨hIn, hPieces⟩⟩
  · refine Or.inl ⟨hOut, ?_⟩
    unfold split
    simp only [hLoop, Int.natCast_zero, Int.sub_zero,
      substr_zero, List.nil_append]
  · refine Or.inr ⟨hIn, ?_⟩
    have hPositive : 0 < (wrapInt text.length).toNat := by
      rcases Nat.eq_zero_or_pos (wrapInt text.length).toNat
        with hZero | hPositive
      · simp [hZero] at hIn
      · exact hPositive
    rw [← asSize_sub (by omega) (by omega)] at hPieces
    exact hPieces

/- What was cut off joins to the whole text at most then. -/
theorem of_joined
    (hJoined : [delim].intercalate
      ((split text delim [] []).1 ::
        (split text delim [] []).2) = text) :
    delim ∈ text ∧ text.length < 2147483648 := by
  have hWrap := wrapInt_toNat_le text.length
  rcases split_cases text delim with
    ⟨_, hSplit⟩ | ⟨hIn, hPieces⟩
  · -- one delimiter more than the text has
    rw [hSplit, List.intercalate_cons_cons,
      List.intercalate_singleton] at hJoined
    have hLength := congrArg List.length hJoined
    have hSize := asSize_wrapInt text.length
    simp only [List.nil_append, List.singleton_append,
      List.length_cons, List.length_take] at hLength
    omega
  · rw [hPieces, List.intercalate_splitOn] at hJoined
    have hLength := congrArg List.length hJoined
    rw [List.length_take] at hLength
    exact ⟨List.mem_of_mem_take hIn, by omega⟩

/- A text with a delimiter is split into its pieces. -/
theorem split_pieces
    (hIn : delim ∈ text)
    (hSmall : text.length < 2147483648) :
    (split text delim [] []).1 ::
        (split text delim [] []).2 =
      text.splitOn delim := by
  have hWrap : (wrapInt text.length).toNat = text.length := by
    rw [wrapInt_of_range (by omega) (by omega)]
    omega
  have hCases := split_cases text delim
  simp only [hWrap, List.take_length] at hCases
  rcases hCases with ⟨hOut, _⟩ | ⟨_, hPieces⟩
  · exact absurd hIn hOut
  · exact hPieces

/-
  The command and the options are the pieces of the text, and
  join to the text again, if and only if the text has the
  delimiter and its length is a signed integer.
-/
theorem split_lossless
    (text : List UInt8)
    (delim : UInt8) :
    ((split text delim [] []).1 ::
          (split text delim [] []).2 = text.splitOn delim ↔
        delim ∈ text ∧ text.length < 2147483648) ∧
      ([delim].intercalate ((split text delim [] []).1 ::
          (split text delim [] []).2) = text ↔
        delim ∈ text ∧ text.length < 2147483648) := by
  have hJoin : (split text delim [] []).1 ::
        (split text delim [] []).2 = text.splitOn delim →
      [delim].intercalate ((split text delim [] []).1 ::
        (split text delim [] []).2) = text := by
    intro hPieces
    rw [hPieces, List.intercalate_splitOn]
  refine ⟨⟨?_, ?_⟩, ⟨of_joined, ?_⟩⟩
  · intro hPieces
    exact of_joined (hJoin hPieces)
  · rintro ⟨hIn, hSmall⟩
    exact split_pieces hIn hSmall
  · rintro ⟨hIn, hSmall⟩
    exact hJoin (split_pieces hIn hSmall)

/- The only piece of `help` ends up among the options. -/
theorem split_not_lossless :
    ¬ ∀ (text : List UInt8) (delim : UInt8),
      (split text delim [] []).1 ::
          (split text delim [] []).2 = text.splitOn delim ∧
        [delim].intercalate ((split text delim [] []).1 ::
          (split text delim [] []).2) = text := by
  intro hAll
  have hHelp := (hAll [104, 101, 108, 112] 32).1
  revert hHelp
  decide

end Edb

end EmeraldDb
