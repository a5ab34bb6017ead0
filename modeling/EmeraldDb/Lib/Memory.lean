import Mathlib.Data.Nat.Basic
import Mathlib.Tactic.Common

/-
  Byte-addressed memory with little-endian 32-bit words.

  A memory gives every address a byte.  Stores and block
  copies are functions on memories, so a region that is not
  written is read back through the update unchanged; the
  lemmas below say when a word or a block is disjoint from
  an update, and when it lies inside one.

  Key definitions include:
    * `Memory`
    * `Memory.word`
    * `Memory.setWord`
    * `Memory.copy`
    * `Memory.fill`
    * `Memory.Same`
    * `Memory.strnlen`
    * `Memory.strEq`
    * `toSigned`
-/

------------------------------------------------------------
-- Machine Words
------------------------------------------------------------

/- The signed reading of a 32-bit word. -/
def toSigned (v : Nat) : Int :=
  if v < 2147483648 then v else (v : Int) - 4294967296

/- The 32-bit word a signed value is stored as. -/
def ofSigned (v : Int) : Nat :=
  (v % 4294967296).toNat

/- Difference of two 32-bit unsigned words. -/
def subWord (a b : Nat) : Nat :=
  (4294967296 + a - b) % 4294967296

theorem toSigned_of_lt
    {v : Nat}
    (hSmall : v < 2147483648) :
    toSigned v = v := by
  simp [toSigned, hSmall]

theorem toSigned_ofSigned
    {v : Int}
    (hLow : -2147483648 ≤ v)
    (hHigh : v < 2147483648) :
    toSigned (ofSigned v) = v := by
  unfold toSigned ofSigned
  split <;> omega

theorem ofSigned_lt (v : Int) :
    ofSigned v < 4294967296 := by
  unfold ofSigned
  omega

theorem subWord_of_le
    {a b : Nat}
    (hLe : b ≤ a)
    (hWord : a < 4294967296) :
    subWord a b = a - b := by
  unfold subWord
  omega

------------------------------------------------------------
-- Memories
------------------------------------------------------------

/- A memory holds one byte at every address. -/
abbrev Memory :=
  Nat → UInt8

namespace Memory

/- The little-endian 32-bit word at an address. -/
def word
    (m : Memory)
    (a : Nat) : Nat :=
  (m a).toNat + 256 * (m (a + 1)).toNat +
    65536 * (m (a + 2)).toNat +
    16777216 * (m (a + 3)).toNat

/- Store a 32-bit word, low byte first. -/
def setWord
    (m : Memory)
    (a v : Nat) : Memory :=
  fun x =>
    if x = a then UInt8.ofNat v
    else if x = a + 1 then UInt8.ofNat (v / 256)
    else if x = a + 2 then UInt8.ofNat (v / 65536)
    else if x = a + 3 then UInt8.ofNat (v / 16777216)
    else m x

/-
  Copy `n` bytes of `src` starting at `start` to address
  `dst`.  With `src` the memory itself this is an overlapping
  move: all source bytes are read before any is written.
-/
def copy
    (m : Memory)
    (dst : Nat)
    (src : Memory)
    (start n : Nat) : Memory :=
  fun x =>
    if dst ≤ x ∧ x < dst + n then src (start + (x - dst))
    else m x

/- Fill `n` bytes from address `a` with one value. -/
def fill
    (m : Memory)
    (a n : Nat)
    (v : UInt8) : Memory :=
  fun x => if a ≤ x ∧ x < a + n then v else m x

/- The signed 32-bit word at an address. -/
def int
    (m : Memory)
    (a : Nat) : Int :=
  toSigned (m.word a)

/- The `n` bytes from address `a` on. -/
def bytes
    (m : Memory)
    (a n : Nat) : List UInt8 :=
  (List.range n).map (fun i => m (a + i))

/-
  `n` bytes of one memory from `a` on equal `n` bytes of
  another from `b` on.
-/
def Same
    (m : Memory)
    (a : Nat)
    (m' : Memory)
    (b n : Nat) : Prop :=
  ∀ i < n, m (a + i) = m' (b + i)

instance
    (m : Memory)
    (a : Nat)
    (m' : Memory)
    (b n : Nat) :
    Decidable (Same m a m' b n) :=
  inferInstanceAs (Decidable (∀ i < n, _))

------------------------------------------------------------
-- Zero-Terminated Strings
------------------------------------------------------------

/-
  Length of the zero-terminated string at `a`, if the
  terminator is among the first `n` bytes.
-/
def strnlen
    (m : Memory)
    (a : Nat) :
    Nat → Option Nat
| 0 => none
| n + 1 =>
    if m a = 0 then some 0
    else (strnlen m (a + 1) n).map (· + 1)

/- Is the zero-terminated string at `a` equal to `s`? -/
def strEq
    (m : Memory)
    (a : Nat) :
    List UInt8 → Bool
| [] => m a == 0
| c :: s => m a == c && strEq m (a + 1) s

------------------------------------------------------------
-- Reading Through Updates
------------------------------------------------------------

theorem setWord_of_disjoint
    (m : Memory)
    (a v : Nat)
    {x : Nat}
    (hDisjoint : x < a ∨ a + 4 ≤ x) :
    m.setWord a v x = m x := by
  unfold setWord
  rw [if_neg (by omega), if_neg (by omega),
    if_neg (by omega), if_neg (by omega)]

theorem copy_of_disjoint
    (m : Memory)
    (dst : Nat)
    (src : Memory)
    (start n : Nat)
    {x : Nat}
    (hDisjoint : x < dst ∨ dst + n ≤ x) :
    m.copy dst src start n x = m x := by
  unfold copy
  rw [if_neg (by omega)]

theorem copy_inside
    (m : Memory)
    (dst : Nat)
    (src : Memory)
    (start n : Nat)
    {i : Nat}
    (hInside : i < n) :
    m.copy dst src start n (dst + i) = src (start + i) := by
  unfold copy
  rw [if_pos (by omega), Nat.add_sub_cancel_left]

theorem fill_of_disjoint
    (m : Memory)
    (a n : Nat)
    (v : UInt8)
    {x : Nat}
    (hDisjoint : x < a ∨ a + n ≤ x) :
    m.fill a n v x = m x := by
  unfold fill
  rw [if_neg (by omega)]

theorem word_lt
    (m : Memory)
    (a : Nat) :
    m.word a < 4294967296 := by
  unfold word
  have h0 := (m a).toNat_lt
  have h1 := (m (a + 1)).toNat_lt
  have h2 := (m (a + 2)).toNat_lt
  have h3 := (m (a + 3)).toNat_lt
  omega

theorem int_range
    (m : Memory)
    (a : Nat) :
    -2147483648 ≤ m.int a ∧ m.int a < 2147483648 := by
  have hWord := m.word_lt a
  unfold int toSigned
  split <;> omega

/- A word is determined by its four bytes. -/
theorem word_congr
    {m m' : Memory}
    {a b : Nat}
    (hSame : Same m a m' b 4) :
    m.word a = m'.word b := by
  unfold word
  have h0 := hSame 0 (by omega)
  have h1 := hSame 1 (by omega)
  have h2 := hSame 2 (by omega)
  have h3 := hSame 3 (by omega)
  simp only [Nat.add_zero] at h0
  rw [h0, h1, h2, h3]

/- A stored word is read back modulo `2 ^ 32`. -/
theorem word_setWord
    (m : Memory)
    (a v : Nat) :
    (m.setWord a v).word a = v % 4294967296 := by
  have h0 : m.setWord a v a = UInt8.ofNat v := by
    simp [setWord]
  have h1 : m.setWord a v (a + 1) =
      UInt8.ofNat (v / 256) := by
    simp [setWord]
  have h2 : m.setWord a v (a + 2) =
      UInt8.ofNat (v / 65536) := by
    simp [setWord]
  have h3 : m.setWord a v (a + 3) =
      UInt8.ofNat (v / 16777216) := by
    simp [setWord]
  unfold word
  rw [h0, h1, h2, h3]
  simp only [UInt8.toNat_ofNat']
  omega

theorem word_setWord_of_lt
    (m : Memory)
    (a : Nat)
    {v : Nat}
    (hWord : v < 4294967296) :
    (m.setWord a v).word a = v := by
  rw [word_setWord, Nat.mod_eq_of_lt hWord]

theorem word_setWord_of_disjoint
    (m : Memory)
    {a : Nat}
    {b : Nat}
    (v : Nat)
    (hDisjoint : a + 4 ≤ b ∨ b + 4 ≤ a) :
    (m.setWord b v).word a = m.word a := by
  apply word_congr
  intro i hi
  exact setWord_of_disjoint m b v (by omega)

theorem word_copy_of_disjoint
    (m : Memory)
    {a dst : Nat}
    (src : Memory)
    (start : Nat)
    {n : Nat}
    (hDisjoint : a + 4 ≤ dst ∨ dst + n ≤ a) :
    (m.copy dst src start n).word a = m.word a := by
  apply word_congr
  intro i hi
  exact copy_of_disjoint m dst src start n (by omega)

------------------------------------------------------------
-- Equal Blocks
------------------------------------------------------------

namespace Same

theorem refl
    (m : Memory)
    (a n : Nat) :
    Same m a m a n := by
  intro i _
  rfl

theorem symm
    {m m' : Memory}
    {a b n : Nat}
    (hSame : Same m a m' b n) :
    Same m' b m a n := by
  intro i hi
  exact (hSame i hi).symm

theorem trans
    {m m' m'' : Memory}
    {a b c n : Nat}
    (hLeft : Same m a m' b n)
    (hRight : Same m' b m'' c n) :
    Same m a m'' c n := by
  intro i hi
  exact (hLeft i hi).trans (hRight i hi)

/- A block of an equal block, at a common displacement. -/
theorem slice
    {m m' : Memory}
    {a b n : Nat}
    (hSame : Same m a m' b n)
    {k l : Nat}
    (hFits : k + l ≤ n) :
    Same m (a + k) m' (b + k) l := by
  intro i hi
  have hByte := hSame (k + i) (by omega)
  simpa only [Nat.add_assoc] using hByte

theorem mono
    {m m' : Memory}
    {a b n l : Nat}
    (hSame : Same m a m' b n)
    (hFits : l ≤ n) :
    Same m a m' b l := by
  intro i hi
  exact hSame i (by omega)

theorem word
    {m m' : Memory}
    {a b n : Nat}
    (hSame : Same m a m' b n)
    (hFits : 4 ≤ n) :
    m.word a = m'.word b :=
  word_congr (hSame.mono hFits)

theorem bytes
    {m m' : Memory}
    {a b n : Nat}
    (hSame : Same m a m' b n) :
    m.bytes a n = m'.bytes b n := by
  unfold Memory.bytes
  apply List.map_congr_left
  intro i hi
  exact hSame i (List.mem_range.mp hi)

end Same

theorem same_setWord_of_disjoint
    (m : Memory)
    {a b n : Nat}
    (v : Nat)
    (hDisjoint : a + n ≤ b ∨ b + 4 ≤ a) :
    Same (m.setWord b v) a m a n := by
  intro i hi
  exact setWord_of_disjoint m b v (by omega)

theorem same_copy_of_disjoint
    (m : Memory)
    {a dst : Nat}
    (src : Memory)
    (start : Nat)
    {n l : Nat}
    (hDisjoint : a + l ≤ dst ∨ dst + n ≤ a) :
    Same (m.copy dst src start n) a m a l := by
  intro i hi
  exact copy_of_disjoint m dst src start n (by omega)

/- A copied block equals its source. -/
theorem same_copy
    (m : Memory)
    (dst : Nat)
    (src : Memory)
    (start n : Nat) :
    Same (m.copy dst src start n) dst src start n := by
  intro i hi
  exact copy_inside m dst src start n hi

theorem same_fill_of_disjoint
    (m : Memory)
    {a b n l : Nat}
    (v : UInt8)
    (hDisjoint : a + l ≤ b ∨ b + n ≤ a) :
    Same (m.fill b n v) a m a l := by
  intro i hi
  exact fill_of_disjoint m b n v (by omega)

@[simp] theorem length_bytes
    (m : Memory)
    (a n : Nat) :
    (m.bytes a n).length = n := by
  simp [bytes]

/- Equal byte lists are equal blocks. -/
theorem same_of_bytes_eq
    {m m' : Memory}
    {a b n : Nat}
    (hBytes : m.bytes a n = m'.bytes b n) :
    Same m a m' b n := by
  intro i hi
  have hGet := congrArg (fun l => l[i]?) hBytes
  simpa [bytes, List.getElem?_range hi] using hGet

------------------------------------------------------------
-- Strings in Equal Blocks
------------------------------------------------------------

/- The terminator found lies within the bound. -/
theorem strnlen_lt
    {m : Memory}
    {a n k : Nat}
    (hLen : m.strnlen a n = some k) :
    k < n := by
  induction n generalizing a k with
  | zero => simp [strnlen] at hLen
  | succ n ih =>
      unfold strnlen at hLen
      split at hLen
      · simp only [Option.some.injEq] at hLen
        omega
      · rcases Option.map_eq_some_iff.mp hLen with
          ⟨l, hTail, hSucc⟩
        have hTailLt := ih hTail
        omega

/- The first zero byte ends a string. -/
theorem strnlen_of_bytes
    {m : Memory}
    {a n k : Nat}
    (hBound : k < n)
    (hChars : ∀ i < k, m (a + i) ≠ 0)
    (hEnd : m (a + k) = 0) :
    m.strnlen a n = some k := by
  induction k generalizing a n with
  | zero =>
      cases n with
      | zero => omega
      | succ n => simpa [strnlen] using hEnd
  | succ k ih =>
      cases n with
      | zero => omega
      | succ n =>
          have hFirst : m a ≠ 0 := by
            simpa using hChars 0 (by omega)
          have hTail : m.strnlen (a + 1) n = some k := by
            apply ih (by omega)
            · intro i hi
              have hNext := hChars (i + 1) (by omega)
              rwa [Nat.add_assoc, Nat.add_comm 1 i]
            · rwa [Nat.add_assoc, Nat.add_comm 1 k]
          rw [strnlen, if_neg hFirst, hTail]
          rfl

/-
  A string whose terminator lies in an equal block has the
  same length in both memories.
-/
theorem strnlen_congr
    {m m' : Memory}
    {a b n k : Nat}
    (hLen : m.strnlen a n = some k)
    (hSame : Same m a m' b (k + 1)) :
    m'.strnlen b n = some k := by
  induction n generalizing a b k with
  | zero => simp [strnlen] at hLen
  | succ n ih =>
      have hFirst : m a = m' b := by
        simpa using hSame 0 (by omega)
      unfold strnlen at hLen ⊢
      by_cases hZero : m a = 0
      · rw [if_pos hZero] at hLen
        rw [if_pos (hFirst ▸ hZero)]
        exact hLen
      · rw [if_neg hZero] at hLen
        rw [if_neg (hFirst ▸ hZero)]
        rcases Option.map_eq_some_iff.mp hLen with
          ⟨l, hTail, hSucc⟩
        have hTailSame : Same m (a + 1) m' (b + 1) (l + 1) :=
          hSame.slice (by omega)
        rw [ih hTail hTailSame]
        simpa using hSucc

/-
  Comparing a terminated string with `s` reads no byte after
  its terminator.
-/
theorem strEq_congr
    {m m' : Memory}
    {a b n k : Nat}
    {s : List UInt8}
    (hNonzero : ∀ c ∈ s, c ≠ 0)
    (hLen : m.strnlen a n = some k)
    (hSame : Same m a m' b (k + 1)) :
    m.strEq a s = m'.strEq b s := by
  induction s generalizing a b n k with
  | nil =>
      have hFirst : m a = m' b := by
        simpa using hSame 0 (by omega)
      simp [strEq, hFirst]
  | cons c s ih =>
      have hFirst : m a = m' b := by
        simpa using hSame 0 (by omega)
      simp only [strEq, ← hFirst]
      cases n with
      | zero => simp [strnlen] at hLen
      | succ n =>
          by_cases hZero : m a = 0
          · -- the terminator differs from every character
            have hNe : (m a == c) = false := by
              rw [hZero]
              simpa using (hNonzero c (by simp)).symm
            simp [hNe]
          · rw [strnlen, if_neg hZero] at hLen
            rcases Option.map_eq_some_iff.mp hLen with
              ⟨l, hTail, hSucc⟩
            rw [ih (fun d hd => hNonzero d (by simp [hd]))
              hTail (hSame.slice (by omega))]

/- A string ends at the first zero or before. -/
theorem strnlen_of_zero
    {m : Memory}
    {a k : Nat}
    (hZero : m (a + k) = 0) :
    ∃ j ≤ k, m.strnlen a (k + 1) = some j := by
  induction k generalizing a with
  | zero =>
      refine ⟨0, le_refl _, ?_⟩
      rw [strnlen, if_pos (by simpa using hZero)]
  | succ k ih =>
      by_cases hFirst : m a = 0
      · refine ⟨0, Nat.zero_le _, ?_⟩
        rw [strnlen, if_pos hFirst]
      · have hTail : m (a + 1 + k) = 0 := by
          rw [← hZero]
          congr 1
          omega
        rcases ih hTail with ⟨j, hLe, hLen⟩
        refine ⟨j + 1, by omega, ?_⟩
        rw [strnlen, if_neg hFirst, hLen]
        rfl

/- A comparison ends at a zero, whatever is behind it. -/
theorem strEq_of_zero
    {m m' : Memory}
    {a b k : Nat}
    {s : List UInt8}
    (hNonzero : ∀ c ∈ s, c ≠ 0)
    (hZero : m (a + k) = 0)
    (hSame : Same m a m' b (k + 1)) :
    m.strEq a s = m'.strEq b s := by
  rcases strnlen_of_zero hZero with ⟨j, hLe, hLen⟩
  exact strEq_congr hNonzero hLen (hSame.mono (by omega))

end Memory
