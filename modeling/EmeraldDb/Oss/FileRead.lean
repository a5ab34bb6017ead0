import EmeraldDb.Oss.FileOp
import Mathlib.Algebra.GroupWithZero.Nat

/-
  Where a read of a file stores its bytes.

  The calls of `read` that deliver bytes cut what is read
  into pieces.  The first piece goes to the buffer, every
  other one to an address that is computed from the length
  of the piece before.

  Key definitions include:
    * `OssFileOp.deliveries`
    * `OssFileOp.storePieces`
    * `OssFileOp.Inside`
    * `OssFileOp.Aligned`
    * `OssFileOp.ReadsInPlace`

  Key results include:
    * `OssFileOp.readLoop_delivered`
    * `OssFileOp.aligned_of_located`
    * `OssFileOp.read_inPlace`
    * `OssFileOp.readsInPlace_iff`
-/

namespace EmeraldDb

namespace OssFileOp

------------------------------------------------------------
-- Pieces
------------------------------------------------------------

/-
  The lengths of the pieces that the calls deliver to a read
  of `left` bytes, with `len` bytes in the file, and whether
  the read gets to its end or to the end of the file.
-/
def deliveries :
    List ReadResult → Nat → Nat → List Nat × Bool
| [], left, _ => ([], decide (left = 0))
| result :: rest, left, len =>
    if left = 0 then ([], true)
    else
      match result with
      | .error e =>
          if e.1 = eintr then deliveries rest left len
          else ([], false)
      | .read n =>
          if len = 0 then ([], true)
          else
            let k := min n.1 (min left len)
            let (ks, ends) :=
              deliveries rest (left - k) (len - k)
            (k :: ks, ends)

/- Store pieces of the input, the first one at `p`. -/
def storePieces :
    Nat → List Nat → List UInt8 → Memory → Memory
| _, [], _, m => m
| p, k :: ks, input, m =>
    storePieces (k + k) ks (input.drop k)
      (m.store p (input.take k))

/- All pieces go to the `size` bytes from `a` on. -/
def Inside
    (a size : Nat) :
    Nat → List Nat → Prop
| _, [] => True
| p, k :: ks =>
    a ≤ p ∧ p + k ≤ a + size ∧ Inside a size (k + k) ks

/- Every piece goes behind the one before, from `q` on. -/
def Aligned :
    Nat → Nat → List Nat → Prop
| _, _, [] => True
| p, q, k :: ks => p = q ∧ Aligned (k + k) (q + k) ks

/- Where byte `t` of the input is stored. -/
def locate :
    Nat → List Nat → Nat → Option Nat
| _, [], _ => none
| p, k :: ks, t =>
    if t < k then some (p + t)
    else locate (k + k) ks (t - k)

------------------------------------------------------------
-- The Loop
------------------------------------------------------------

/- A loop without anything left to read is done. -/
theorem readLoop_done
    (reads : List ReadResult)
    (p errno : Nat)
    (m : Memory)
    (input : List UInt8) :
    readLoop reads p 0 errno m input =
      ⟨some edbOk, errno, m, 0, input, reads⟩ := by
  cases reads <;> rfl

/- What a loop has stored and how it has ended. -/
structure Delivered
    (reads : List ReadResult)
    (p left : Nat)
    (m : Memory)
    (input : List UInt8)
    (r : ReadEnd) : Prop where
  mem : r.mem = storePieces p
    (deliveries reads left input.length).1 input m
  nLeft : r.nLeft = left -
    (deliveries reads left input.length).1.sum
  code : r.rc = some edbOk ↔
    (deliveries reads left input.length).2 = true

theorem deliveries_zero
    (reads : List ReadResult)
    (len : Nat) :
    deliveries reads 0 len = ([], true) := by
  cases reads <;> simp [deliveries]

theorem deliveries_interrupt
    (rest : List ReadResult)
    {e : Errno}
    (hInterrupt : e.1 = eintr)
    (left len : Nat) :
    deliveries (.error e :: rest) left len =
      deliveries rest left len := by
  rcases Nat.eq_zero_or_pos left with rfl | hPositive
  · rw [deliveries_zero, deliveries_zero]
  · simp [deliveries, hInterrupt, Nat.ne_of_gt hPositive]

theorem deliveries_error
    (rest : List ReadResult)
    {e : Errno}
    (hOther : e.1 ≠ eintr)
    {left : Nat}
    (hLeft : left ≠ 0)
    (len : Nat) :
    deliveries (.error e :: rest) left len = ([], false) := by
  simp [deliveries, hLeft, hOther]

theorem deliveries_end
    (rest : List ReadResult)
    (n : { n : Nat // 0 < n })
    (left : Nat) :
    deliveries (.read n :: rest) left 0 = ([], true) := by
  simp [deliveries]

theorem deliveries_read
    (rest : List ReadResult)
    (n : { n : Nat // 0 < n })
    {left len k : Nat}
    (hLeft : left ≠ 0)
    (hLen : len ≠ 0)
    (hPiece : k = min n.1 (min left len)) :
    deliveries (.read n :: rest) left len =
      (k :: (deliveries rest (left - k) (len - k)).1,
        (deliveries rest (left - k) (len - k)).2) := by
  simp [deliveries, hLeft, hLen, hPiece]

theorem readLoop_delivered
    (reads : List ReadResult)
    (p left errno : Nat)
    (m : Memory)
    (input : List UInt8) :
    Delivered reads p left m input
      (readLoop reads p left errno m input) := by
  induction reads generalizing p left errno m input with
  | nil =>
      by_cases hZero : left = 0
      · subst hZero
        rw [Int.natCast_zero, readLoop_done]
        exact ⟨by simp [deliveries, storePieces],
          by simp [deliveries], by simp [deliveries]⟩
      · have hMore : (0 : Int) < left := by omega
        unfold readLoop
        rw [if_pos hMore]
        exact ⟨by simp [deliveries, storePieces],
          by simp [deliveries], by simp [deliveries, hZero]⟩
  | cons result rest ih =>
      by_cases hZero : left = 0
      · subst hZero
        rw [Int.natCast_zero, readLoop_done]
        exact ⟨by simp [deliveries, storePieces],
          by simp [deliveries], by simp [deliveries]⟩
      · have hMore : (0 : Int) < left := by omega
        unfold readLoop
        rw [if_pos hMore]
        cases result with
        | error e =>
            by_cases hInterrupt : e.1 = eintr
            · simp only [if_pos hInterrupt]
              rcases ih p left e.1 m input with
                ⟨hMem, hRest, hCode⟩
              rw [← deliveries_interrupt rest hInterrupt]
                at hMem hRest hCode
              exact ⟨hMem, hRest, hCode⟩
            · simp only [if_neg hInterrupt]
              have hStop := deliveries_error rest hInterrupt
                hZero input.length
              refine ⟨by simp [hStop, storePieces],
                by simp [hStop], ?_⟩
              exact iff_of_false (errno_ne_ok e)
                (by simp [hStop])
        | read n =>
            simp only [Int.toNat_natCast]
            rcases Nat.eq_zero_or_pos input.length with
              hEmpty | hInput
            · -- The end of the file.
              have hNone : (input.take (min n.1 left)).length =
                  0 := by
                rw [List.length_take, hEmpty, Nat.min_zero]
              rw [if_pos hNone]
              have hStop : deliveries (.read n :: rest) left
                  input.length = ([], true) := by
                rw [hEmpty, deliveries_end]
              exact ⟨by simp [hStop, storePieces],
                by simp [hStop], by simp [hStop]⟩
            · have hRead := n.2
              obtain ⟨k, hPiece⟩ :
                  ∃ k, k = min n.1 (min left input.length) :=
                ⟨_, rfl⟩
              have hLength :
                  (input.take (min n.1 left)).length = k := by
                rw [List.length_take]
                omega
              have hChunk : input.take (min n.1 left) =
                  input.take k := by
                rw [List.take_eq_take_min, ← List.length_take,
                  hLength]
              have hLeft : ((left : Int) - (k : Nat)) =
                  ((left - k : Nat) : Int) := by omega
              rw [hLength, if_neg (by omega), hLeft, hChunk]
              have hStep := deliveries_read rest n hZero
                (Nat.ne_of_gt hInput) hPiece
              rcases ih (k + k) (left - k) errno
                  (m.store p (input.take k)) (input.drop k) with
                ⟨hMem, hRest, hCode⟩
              rw [List.length_drop] at hMem hRest hCode
              refine ⟨?_, ?_, ?_⟩
              · rw [hMem, hStep, storePieces]
              · rw [hRest, hStep, List.sum_cons]
                omega
              · rw [hCode, hStep]

------------------------------------------------------------
-- The Pieces of a Read
------------------------------------------------------------

/- The pieces make up what the read has to deliver. -/
structure Pieces
    (left len : Nat)
    (d : List Nat × Bool) : Prop where
  positive : ∀ k ∈ d.1, 0 < k
  fits : d.1.sum ≤ left
  input : d.1.sum ≤ len
  whole : d.2 = true → d.1.sum = left ∨ d.1.sum = len

theorem deliveries_pieces
    (reads : List ReadResult)
    (left len : Nat) :
    Pieces left len (deliveries reads left len) := by
  induction reads generalizing left len with
  | nil =>
      refine ⟨by simp [deliveries], by simp [deliveries],
        by simp [deliveries], ?_⟩
      intro hEnds
      have hZero : left = 0 := by
        simpa [deliveries] using hEnds
      exact Or.inl (by simp [deliveries, hZero])
  | cons result rest ih =>
      by_cases hZero : left = 0
      · subst hZero
        rw [deliveries_zero]
        exact ⟨by simp, by simp, by simp, fun _ => by simp⟩
      · cases result with
        | error e =>
            by_cases hInterrupt : e.1 = eintr
            · rw [deliveries_interrupt rest hInterrupt]
              exact ih left len
            · rw [deliveries_error rest hInterrupt hZero]
              exact ⟨by simp, by simp, by simp, by simp⟩
        | read n =>
            by_cases hEmpty : len = 0
            · rw [hEmpty, deliveries_end]
              exact ⟨by simp, by simp, by simp,
                fun _ => by simp⟩
            · have hRead := n.2
              obtain ⟨k, hPiece⟩ :
                  ∃ k, k = min n.1 (min left len) := ⟨_, rfl⟩
              rw [deliveries_read rest n hZero hEmpty hPiece]
              rcases ih (left - k) (len - k) with
                ⟨hPositive, hFits, hInput, hWhole⟩
              refine ⟨?_, ?_, ?_, ?_⟩
              · intro j hMember
                rcases List.mem_cons.mp hMember with rfl | hRest
                · omega
                · exact hPositive j hRest
              · rw [List.sum_cons]
                omega
              · rw [List.sum_cons]
                omega
              · intro hEnds
                have hSum := hWhole hEnds
                rw [List.sum_cons]
                omega

/- Pieces one behind the other are one block. -/
theorem storePieces_of_aligned
    {ks : List Nat}
    {p q : Nat}
    (hAligned : Aligned p q ks)
    {input : List UInt8}
    (hInput : ks.sum ≤ input.length)
    (m : Memory) :
    storePieces p ks input m =
      m.store q (input.take ks.sum) := by
  induction ks generalizing p q input m with
  | nil => simp [storePieces]
  | cons k ks ih =>
      rcases hAligned with ⟨rfl, hRest⟩
      rw [List.sum_cons] at hInput ⊢
      have hDrop : ks.sum ≤ (input.drop k).length := by
        rw [List.length_drop]
        omega
      have hBehind := ih hRest hDrop
        (m.store p (input.take k))
      have hAppend := m.store_append p (input.take k)
        ((input.drop k).take ks.sum)
      rw [List.length_take, Nat.min_eq_left (by omega),
        ← List.take_add] at hAppend
      rw [storePieces, hBehind, hAppend]

/- Pieces inside a block leave everything else alone. -/
theorem storePieces_outside
    {a size : Nat}
    {ks : List Nat}
    {p : Nat}
    (hInside : Inside a size p ks)
    (input : List UInt8)
    (m : Memory)
    {x : Nat}
    (hOutside : x < a ∨ a + size ≤ x) :
    storePieces p ks input m x = m x := by
  induction ks generalizing p input m with
  | nil => rfl
  | cons k ks ih =>
      rcases hInside with ⟨hLow, hHigh, hRest⟩
      rw [storePieces, ih hRest]
      apply Memory.store_of_disjoint
      have hLength := List.length_take_le k input
      omega

theorem getD_take_of_lt
    (input : List UInt8)
    {t k : Nat}
    (hLess : t < k) :
    (input.take k).getD t 0 = input.getD t 0 := by
  rw [List.getD_eq_getElem?_getD,
    List.getElem?_take_of_lt hLess,
    ← List.getD_eq_getElem?_getD]

/-
  A byte is the one before, or one of the input that is
  stored there.
-/
theorem storePieces_cases
    (ks : List Nat)
    (p : Nat)
    (input : List UInt8)
    (m : Memory)
    (x : Nat) :
    storePieces p ks input m x = m x ∨
      ∃ t, locate p ks t = some x ∧
        storePieces p ks input m x = input.getD t 0 := by
  induction ks generalizing p input m with
  | nil => exact Or.inl rfl
  | cons k ks ih =>
      rw [storePieces]
      rcases ih (k + k) (input.drop k)
          (m.store p (input.take k)) with hSame | hLater
      · by_cases hHere : p ≤ x ∧
            x < p + (input.take k).length
        · have hLength := List.length_take_le k input
          refine Or.inr ⟨x - p, ?_, ?_⟩
          · rw [locate, if_pos (by omega)]
            congr 1
            omega
          · rw [hSame, Memory.store, if_pos hHere,
              getD_take_of_lt input (by omega)]
        · refine Or.inl (hSame.trans ?_)
          rw [Memory.store, if_neg hHere]
      · rcases hLater with ⟨t, hLocate, hByte⟩
        refine Or.inr ⟨k + t, ?_, ?_⟩
        · rw [locate, if_neg (by omega),
            Nat.add_sub_cancel_left]
          exact hLocate
        · rw [hByte, List.getD_eq_getElem?_getD,
            List.getElem?_drop, ← List.getD_eq_getElem?_getD]

/- Byte for byte in place is piece for piece in place. -/
theorem aligned_of_located
    {ks : List Nat}
    (hPositive : ∀ k ∈ ks, 0 < k)
    {p q : Nat}
    (hLocated : ∀ t < ks.sum, locate p ks t = some (q + t)) :
    Aligned p q ks := by
  induction ks generalizing p q with
  | nil => exact True.intro
  | cons k ks ih =>
      have hPiece := hPositive k List.mem_cons_self
      refine ⟨?_, ?_⟩
      · have hFirst := hLocated 0
          (by rw [List.sum_cons]; omega)
        rw [locate, if_pos hPiece] at hFirst
        exact Option.some.inj hFirst
      · apply ih
          (fun j hMember => hPositive j
            (List.mem_cons_of_mem _ hMember))
        intro t hLess
        have hLater := hLocated (k + t)
          (by rw [List.sum_cons]; omega)
        rw [locate, if_neg (by omega),
          Nat.add_sub_cancel_left] at hLater
        rw [hLater]
        congr 1
        omega

------------------------------------------------------------
-- Files of Ones
------------------------------------------------------------

theorem take_ones
    {k n : Nat}
    (hLe : k ≤ n) :
    (List.replicate n (1 : UInt8)).take k =
      List.replicate k 1 := by
  rw [List.take_replicate, Nat.min_eq_left hLe]

theorem store_ones
    (m : Memory)
    (p k : Nat)
    {x : Nat}
    (hOne : m x = 1 ∨ (p ≤ x ∧ x < p + k)) :
    m.store p (List.replicate k 1) x = 1 := by
  by_cases hHere : p ≤ x ∧ x < p + k
  · rw [Memory.store, if_pos (by simpa using hHere)]
    have hIndex : x - p < k := by omega
    simp [List.getD_eq_getElem?_getD, hIndex]
  · rw [Memory.store, if_neg (by simpa using hHere)]
    exact hOne.resolve_right hHere

/- A one stays, with nothing but ones to be stored. -/
theorem storePieces_ones
    {ks : List Nat}
    {n : Nat}
    (hInput : ks.sum ≤ n)
    (p : Nat)
    {m : Memory}
    {x : Nat}
    (hOne : m x = 1) :
    storePieces p ks (List.replicate n 1) m x = 1 := by
  induction ks generalizing p n m with
  | nil => exact hOne
  | cons k ks ih =>
      rw [List.sum_cons] at hInput
      rw [storePieces, List.drop_replicate,
        take_ones (by omega)]
      exact ih (by omega) (k + k)
        (store_ones m p k (Or.inl hOne))

/- Ones inside a block come from pieces inside the block. -/
theorem inside_of_ones
    {a size : Nat}
    {ks : List Nat}
    (hPositive : ∀ k ∈ ks, 0 < k)
    {n : Nat}
    (hInput : ks.sum ≤ n)
    {p : Nat}
    {m : Memory}
    (hOutside : ∀ x, x < a ∨ a + size ≤ x →
      storePieces p ks (List.replicate n 1) m x ≠ 1) :
    Inside a size p ks := by
  induction ks generalizing p n m with
  | nil => exact True.intro
  | cons k ks ih =>
      have hPiece := hPositive k List.mem_cons_self
      rw [List.sum_cons] at hInput
      rw [storePieces, List.drop_replicate,
        take_ones (by omega)] at hOutside
      have hStored : ∀ x, p ≤ x → x < p + k →
          a ≤ x ∧ x < a + size := by
        intro x hLow hHigh
        by_contra hNot
        exact hOutside x (by omega)
          (storePieces_ones (by omega) (k + k)
            (store_ones m p k (Or.inr ⟨hLow, hHigh⟩)))
      have hFirst := hStored p (Nat.le_refl p) (by omega)
      have hLast := hStored (p + k - 1) (by omega) (by omega)
      refine ⟨hFirst.1, by omega, ?_⟩
      exact ih
        (fun j hMember => hPositive j
          (List.mem_cons_of_mem _ hMember))
        (by omega) hOutside

/- A file with a single one, at offset `t`. -/
def lone
    (len t : Nat) : List UInt8 :=
  (List.replicate len 0).set t 1

theorem length_lone
    (len t : Nat) :
    (lone len t).length = len := by
  simp [lone]

theorem getD_lone
    {len t : Nat}
    (hLess : t < len)
    (s : Nat) :
    (lone len t).getD s 0 = if s = t then 1 else 0 := by
  by_cases hSame : s = t
  · simp [lone, hSame, hLess]
  · have hOther : t ≠ s := fun hEq => hSame hEq.symm
    simp only [lone, List.getD_eq_getElem?_getD,
      List.getElem?_set_ne hOther, if_neg hSame]
    by_cases hRange : s < len
    · simp [hRange]
    · simp [hRange]

/-
  A read that is right for each file with a single one has
  every byte in its place.
-/
theorem located_of_bytes
    {ks : List Nat}
    {p q len : Nat}
    (hInput : ks.sum ≤ len)
    (hBytes : ∀ input : List UInt8, input.length = len →
      (storePieces p ks input (fun _ => 0)).bytes q ks.sum =
        input.take ks.sum)
    {t : Nat}
    (hLess : t < ks.sum) :
    locate p ks t = some (q + t) := by
  have hRange : t < len := Nat.lt_of_lt_of_le hLess hInput
  have hByte : storePieces p ks (lone len t) (fun _ => 0)
      (q + t) = 1 := by
    have hAll := hBytes (lone len t) (length_lone len t)
    have hAt := congrArg (fun bytes => bytes.getD t 0) hAll
    rw [getD_take_of_lt _ hLess, getD_lone hRange,
      if_pos rfl] at hAt
    simpa [Memory.bytes, hLess] using hAt
  rcases storePieces_cases ks p (lone len t) (fun _ => 0)
      (q + t) with hSame | hStored
  · rw [hByte] at hSame
    exact absurd hSame (by decide)
  · rcases hStored with ⟨s, hLocate, hFrom⟩
    rw [hByte, getD_lone hRange] at hFrom
    by_cases hSame : s = t
    · rw [← hSame] at hLocate ⊢
      exact hLocate
    · rw [if_neg hSame] at hFrom
      exact absurd hFrom (by decide)

------------------------------------------------------------
-- Reads in Place
------------------------------------------------------------

/- What a read of a valid handle leaves. -/
theorem read_spec
    {f : OssFileOp}
    (hValid : f.isValid = true)
    (m : Memory)
    (a : Nat)
    {size : Nat}
    (hSize : size < 2147483648)
    (old : Int)
    {ks : List Nat}
    {ends : Bool}
    (hPieces : deliveries f.reads size f.input.length =
      (ks, ends)) :
    let r := f.read m a size (some old)
    (r.rc = some edbOk ↔ ends = true) ∧
      r.bytesRead = some (ks.sum : Int) ∧
      r.mem = storePieces a ks f.input m := by
  have hLeft : wrapInt size = size :=
    wrapInt_of_range (by omega) (by omega)
  have hFits :=
    (deliveries_pieces f.reads size f.input.length).fits
  rcases readLoop_delivered f.reads a size f.errno m f.input
    with ⟨hMem, hRest, hCode⟩
  rw [hPieces] at hMem hRest hCode hFits
  simp only at hMem hRest hCode hFits
  simp only [read, hValid, if_true, hLeft, Option.map_some]
  refine ⟨hCode, ?_, hMem⟩
  have hRead : (size : Int) - (readLoop f.reads a size
      f.errno m f.input).nLeft = (ks.sum : Nat) := by
    rw [hRest]
    omega
  rw [hRead, wrapInt_of_range (by omega) (by omega)]

/- The handle with another file behind it. -/
def withInput
    (f : OssFileOp)
    (input : List UInt8) : OssFileOp :=
  { f with input := input }

@[simp] theorem withInput_isValid
    (f : OssFileOp)
    (input : List UInt8) :
    (f.withInput input).isValid = f.isValid := by
  rfl

@[simp] theorem withInput_errno
    (f : OssFileOp)
    (input : List UInt8) :
    (f.withInput input).errno = f.errno := by
  rfl

/- What a read is for. -/
structure InPlace
    (f : OssFileOp)
    (m : Memory)
    (a size : Nat)
    (r : ReadReturn) : Prop where
  bytes : r.rc = some edbOk →
    ∃ k ≤ size, r.bytesRead = some (k : Int) ∧
      r.mem.bytes a k = f.input.take k ∧
      (k = size ∨ (f.isValid = true ∧ k = f.input.length))
  outside : ∀ x, x < a ∨ a + size ≤ x → r.mem x = m x

/-
  The pieces of the read are stored inside the buffer, and
  one behind the other if the read succeeds.
-/
def ReadsInPlace
    (f : OssFileOp)
    (a size len : Nat) : Prop :=
  if f.isValid then
    let (ks, ends) := deliveries f.reads size len
    Inside a size a ks ∧ (ends = true → Aligned a a ks)
  else f.errno ≠ 0 ∨ size = 0

/- A read through no handle reads nothing. -/
theorem inPlace_invalid
    {f : OssFileOp}
    (hInvalid : f.isValid = false)
    (m : Memory)
    (a : Nat)
    {size : Nat}
    (hSize : size < 2147483648)
    (old : Int) :
    InPlace f m a size (f.read m a size (some old)) ↔
      f.errno ≠ 0 ∨ size = 0 := by
  have hLeft : wrapInt size = size :=
    wrapInt_of_range (by omega) (by omega)
  have hNone : wrapInt ((size : Int) - size) = 0 := by
    rw [Int.sub_self]
    rfl
  obtain ⟨r, hRead⟩ :
      ∃ r, f.read m a size (some old) = r := ⟨_, rfl⟩
  have hCode : r.rc = some (f.errno : Int) := by
    rw [← hRead, read, hInvalid]
    rfl
  have hBytes : r.bytesRead = some 0 := by
    rw [← hRead, read, hInvalid, ← hNone, hLeft]
    rfl
  have hMem : r.mem = m := by
    rw [← hRead, read, hInvalid]
    rfl
  rw [hRead]
  constructor
  · intro hPlace
    by_contra hNot
    have hOk : r.rc = some edbOk := by
      have hZero : f.errno = 0 := by omega
      rw [hCode, hZero]
      rfl
    rcases hPlace.bytes hOk with ⟨k, _, hCount, _, hWhole⟩
    rw [hBytes] at hCount
    have hZero : (0 : Int) = k := Option.some.inj hCount
    rcases hWhole with hAll | ⟨hValid, _⟩
    · omega
    · rw [hInvalid] at hValid
      exact absurd hValid (by decide)
  · intro hCase
    refine ⟨?_, fun x _ => by rw [hMem]⟩
    intro hOk
    rw [hCode] at hOk
    have hZero : f.errno = 0 :=
      Int.natCast_eq_zero.mp (Option.some.inj hOk)
    have hEmpty : size = 0 := by omega
    exact ⟨0, by omega, hBytes, by simp [Memory.bytes],
      Or.inl hEmpty.symm⟩

/- Pieces in their places are the next bytes of the file. -/
theorem inPlace_of_pieces
    {f : OssFileOp}
    (hValid : f.isValid = true)
    (m : Memory)
    (a : Nat)
    {size : Nat}
    (hSize : size < 2147483648)
    (old : Int)
    {ks : List Nat}
    {ends : Bool}
    (hPieces : deliveries f.reads size f.input.length =
      (ks, ends))
    (hInside : Inside a size a ks)
    (hAligned : ends = true → Aligned a a ks) :
    InPlace f m a size (f.read m a size (some old)) := by
  rcases read_spec hValid m a hSize old hPieces with
    ⟨hCode, hCount, hMem⟩
  have hSum := deliveries_pieces f.reads size f.input.length
  rw [hPieces] at hSum
  rcases hSum with ⟨_, hFits, hInput, hWhole⟩
  simp only at hFits hInput hWhole
  refine ⟨?_, ?_⟩
  · intro hOk
    have hEnds := hCode.mp hOk
    refine ⟨ks.sum, hFits, hCount, ?_, ?_⟩
    · have hBlock : (f.input.take ks.sum).length = ks.sum := by
        rw [List.length_take, Nat.min_eq_left hInput]
      have hBytes := m.bytes_store a (f.input.take ks.sum)
      rw [hBlock] at hBytes
      rw [hMem, storePieces_of_aligned (hAligned hEnds) hInput,
        hBytes]
    · rcases hWhole hEnds with hSize | hEnd
      · exact Or.inl hSize
      · exact Or.inr ⟨hValid, hEnd⟩
  · intro x hOutside
    rw [hMem]
    exact storePieces_outside hInside f.input m hOutside

/-
  A read assembles every file of a length in place exactly
  when its pieces happen to be where they belong: the one
  after a piece of `k` bytes is stored at address `2 * k`.
-/
theorem read_inPlace
    (f : OssFileOp)
    (a len : Nat)
    {size : Nat}
    (hSize : size < 2147483648) :
    (∀ (input : List UInt8) (m : Memory) (old : Int),
        input.length = len →
          InPlace (f.withInput input) m a size
            ((f.withInput input).read m a size (some old))) ↔
      ReadsInPlace f a size len := by
  unfold ReadsInPlace
  by_cases hValid : f.isValid = true
  · obtain ⟨ks, ends, hPieces⟩ : ∃ ks ends,
        deliveries f.reads size len = (ks, ends) :=
      ⟨_, _, rfl⟩
    have hSum := deliveries_pieces f.reads size len
    rw [hPieces] at hSum
    rcases hSum with ⟨hPositive, _, hInput, _⟩
    simp only at hPositive hInput
    simp only [hValid, if_true, hPieces]
    have hHere : ∀ input : List UInt8, input.length = len →
        deliveries (f.withInput input).reads size
          (f.withInput input).input.length = (ks, ends) := by
      intro input hLength
      show deliveries f.reads size input.length = (ks, ends)
      rw [hLength, hPieces]
    have hSpec := fun input (hLength : input.length = len) =>
      read_spec (f := f.withInput input) hValid (fun _ => 0) a
        hSize 0 (hHere input hLength)
    constructor
    · intro hAll
      constructor
      · -- A file of ones shows where the pieces went.
        have hLength : (List.replicate len
            (1 : UInt8)).length = len :=
          List.length_replicate
        have hOnes := hAll _ (fun _ => 0) 0 hLength
        rcases hSpec _ hLength with ⟨_, _, hMem⟩
        apply inside_of_ones hPositive hInput
          (m := fun _ => 0)
        intro x hOutside
        have hSame := hOnes.outside x hOutside
        rw [hMem] at hSame
        have hZero : storePieces a ks (List.replicate len 1)
            (fun _ => 0) x = 0 := hSame
        rw [hZero]
        decide
      · intro hEnds
        apply aligned_of_located hPositive
        intro t hLess
        apply located_of_bytes hInput _ hLess
        intro input hLength
        rcases hSpec input hLength with ⟨hCode, hCount, hMem⟩
        rcases (hAll input (fun _ => 0) 0 hLength).bytes
            (hCode.mpr hEnds) with ⟨k, _, hRead, hBytes, _⟩
        rw [hCount] at hRead
        have hSame : ks.sum = k :=
          Int.ofNat.inj (Option.some.inj hRead)
        rw [hMem, ← hSame] at hBytes
        exact hBytes
    · rintro ⟨hInside, hAligned⟩ input m old hLength
      exact inPlace_of_pieces (f := f.withInput input) hValid m
        a hSize old (hHere input hLength) hInside hAligned
  · have hInvalid : f.isValid = false := by
      simpa using hValid
    rw [if_neg hValid]
    constructor
    · intro hAll
      have hZeros := hAll (List.replicate len 0) (fun _ => 0) 0
        List.length_replicate
      exact (inPlace_invalid
        (f := f.withInput (List.replicate len 0)) hInvalid
        (fun _ => 0) a hSize 0).mp hZeros
    · intro hCase input m old _
      exact (inPlace_invalid (f := f.withInput input) hInvalid
        m a hSize old).mpr hCase

/- A read that is interrupted and then delivers everything. -/
theorem read_inPlace_onePiece :
    let f : OssFileOp := ⟨true, 0, [],
      [.error ⟨eintr, by decide⟩, .read ⟨3, by decide⟩],
      [7, 8, 9], []⟩
    InPlace f (fun _ => 0) 1000 3
      (f.read (fun _ => 0) 1000 3 (some 0)) := by
  intro f
  have hSize : 3 < 2147483648 := by decide
  have hPlace : ReadsInPlace f 1000 3 3 := by
    have hPieces : deliveries f.reads 3 3 = ([3], true) := by
      rfl
    unfold ReadsInPlace
    rw [if_pos rfl, hPieces]
    exact ⟨⟨by decide, by decide, trivial⟩,
      fun _ => ⟨rfl, trivial⟩⟩
  exact (read_inPlace f 1000 3 hSize).mpr hPlace [7, 8, 9]
    (fun _ => 0) 0 rfl

/-
  A file of 8 MB that is read in two halves: the second half
  goes to address `0x800000`.
-/
theorem read_not_inPlace :
    let f : OssFileOp := ⟨true, 0, [],
      [.read ⟨4194304, by decide⟩, .read ⟨4194304, by decide⟩],
      List.replicate 8388608 1, []⟩
    let r := f.read (fun _ => 0) 1099511627776 8388608 (some 0)
    r.rc = some edbOk ∧
      ¬ InPlace f (fun _ => 0) 1099511627776 8388608 r := by
  intro f r
  have hPieces : deliveries f.reads 8388608 f.input.length =
      ([4194304, 4194304], true) := by
    show deliveries [.read ⟨4194304, by decide⟩,
      .read ⟨4194304, by decide⟩] 8388608
      (List.replicate 8388608 (1 : UInt8)).length = _
    rw [List.length_replicate]
    simp [deliveries]
  have hSize : 8388608 < 2147483648 := by decide
  rcases read_spec (f := f) rfl (fun _ => 0) 1099511627776
      hSize 0 hPieces with ⟨hCode, _, hMem⟩
  refine ⟨hCode.mpr rfl, ?_⟩
  intro hPlace
  have hInside : Inside 1099511627776 8388608 1099511627776
      [4194304, 4194304] := by
    apply inside_of_ones (n := 8388608) (m := fun _ => 0)
      (by decide) (by decide)
    intro x hOutside
    have hZero := hPlace.outside x hOutside
    have hSame : r.mem x = storePieces 1099511627776
        [4194304, 4194304] (List.replicate 8388608 1)
        (fun _ => 0) x :=
      congrFun hMem x
    rw [← hSame, hZero]
    decide
  have hSecond : 1099511627776 ≤ 4194304 + 4194304 :=
    hInside.2.2.1
  omega

/-
  In a buffer that lies above twice its size, nothing but a
  read in one piece is in place.
-/
theorem readsInPlace_iff
    {f : OssFileOp}
    (hValid : f.isValid = true)
    {a size : Nat}
    (hAbove : 2 * size ≤ a)
    (len : Nat) :
    ReadsInPlace f a size len ↔
      (deliveries f.reads size len).1.length ≤ 1 := by
  obtain ⟨ks, ends, hPieces⟩ : ∃ ks ends,
      deliveries f.reads size len = (ks, ends) := ⟨_, _, rfl⟩
  have hSum := deliveries_pieces f.reads size len
  rw [hPieces] at hSum
  rcases hSum with ⟨hPositive, hFits, _, _⟩
  simp only at hPositive hFits
  simp only [ReadsInPlace, hValid, if_true, hPieces]
  cases ks with
  | nil => simp [Inside, Aligned]
  | cons k ks =>
      rw [List.sum_cons] at hFits
      cases ks with
      | nil =>
          rw [List.sum_nil, Nat.add_zero] at hFits
          simp [Inside, Aligned, hFits]
      | cons j ks =>
          -- The second piece goes below the buffer.
          rw [List.sum_cons] at hFits
          have hLater := hPositive j (by simp)
          refine iff_of_false ?_ (by simp)
          rintro ⟨⟨_, _, hLow, _⟩, _⟩
          omega

end OssFileOp

end EmeraldDb
