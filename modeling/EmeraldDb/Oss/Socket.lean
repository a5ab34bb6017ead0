import EmeraldDb.Core
import EmeraldDb.Lib.Stream
import EmeraldDb.Oss.MmapFile

/-
  Sending and receiving on a socket.

  What the system calls of a socket answer is part of its
  state: a list for each kind of call, used up in order.  The
  input is what the peer sends in the whole connection, the
  output what the kernel has taken so far.  A call that finds
  its list empty still waits; it has no result code.

  Every caller leaves the time limit of `select` at its
  default, which is finite, and passes no flags.

  Key definitions include:
    * `OssSocket`
    * `OssSocket.send`
    * `OssSocket.recv`

  Key results include:
    * `OssSocket.send_spec`
    * `OssSocket.recv_spec`
-/

namespace EmeraldDb

abbrev eintr : Nat := 4
abbrev eagain : Nat := 11
abbrev maxRecvRetries : Nat := 5

inductive SelectResult
| timeout
| error (errno : Errno)
| ready (isSet : Bool)

/- How many bytes one call would take, or its error. -/
inductive SendResult
| error (errno : Errno)
| sent (n : Nat)

/- How many bytes one call would return, or its error. -/
inductive RecvResult
| error (errno : Errno)
| received (n : Nat)

structure OssSocket where
  timeout : Int
  selects : List SelectResult
  sends : List SendResult
  recvs : List RecvResult
  input : List UInt8
  output : List UInt8

namespace OssSocket

------------------------------------------------------------
-- Waiting
------------------------------------------------------------

/- Wait until the socket is ready. -/
def waitReady :
    List SelectResult → Option Int × List SelectResult
| [] => (none, [])
| .timeout :: rest => (some edbTimeout, rest)
| .error errno :: rest =>
    if errno.1 = eintr then waitReady rest
    else (some edbNetwork, rest)
| .ready isSet :: rest =>
    if isSet then (some edbOk, rest) else waitReady rest

------------------------------------------------------------
-- Sending
------------------------------------------------------------

/- How a send loop ended and the bytes that were taken. -/
structure Sent where
  rc : Option Int
  output : List UInt8
  sends : List SendResult

/- Hand `len` bytes from `a` on to the kernel. -/
def sendLoop
    (m : Memory) :
    List SendResult → Nat → Int → List UInt8 → Sent
| [], _, len, output =>
    if 0 < len then ⟨none, output, []⟩
    else ⟨some edbOk, output, []⟩
| result :: rest, a, len, output =>
    if 0 < len then
      match result with
      | .error _ => ⟨some edbNetwork, output, rest⟩
      | .sent n =>
          let rc := min n len.toNat
          sendLoop m rest (a + rc) (len - rc)
            (output ++ m.bytes a rc)
    else ⟨some edbOk, output, result :: rest⟩

def send
    (s : OssSocket)
    (m : Memory)
    (a : Nat)
    (len : Int) : Option Int × OssSocket :=
  if len = 0 then (some edbOk, s)
  else
    let (rc, selects) := waitReady s.selects
    let t := { s with selects := selects }
    if rc ≠ some edbOk then (rc, t)
    else
      let r := sendLoop m t.sends a len t.output
      (r.rc, { t with sends := r.sends, output := r.output })

/- Does a send of no bytes succeed? -/
def isConnected (s : OssSocket) : Option Bool × OssSocket :=
  match s.sends with
  | [] => (none, s)
  | .error _ :: rest => (some false, { s with sends := rest })
  | .sent _ :: rest => (some true, { s with sends := rest })

------------------------------------------------------------
-- Receiving
------------------------------------------------------------

/- How a receive loop ended and what it has stored. -/
structure Received where
  rc : Option Int
  mem : Memory
  input : List UInt8
  recvs : List RecvResult

/-
  Receive `len` bytes to `a`.  No byte means that the peer
  has shut the connection down.
-/
def recvLoop
    (timeout : Int) :
    List RecvResult → Nat → Memory → Nat → Int →
      List UInt8 → Received
| [], _, m, _, len, input =>
    if 0 < len then ⟨none, m, input, []⟩
    else ⟨some edbOk, m, input, []⟩
| result :: rest, retries, m, a, len, input =>
    if 0 < len then
      match result with
      | .received n =>
          let chunk := input.take (min n len.toNat)
          if 0 < chunk.length then
            recvLoop timeout rest retries (m.store a chunk)
              (a + chunk.length) (len - chunk.length)
              (input.drop chunk.length)
          else ⟨some edbNetwork, m, input, rest⟩
      | .error errno =>
          if errno.1 = eagain ∧ 0 < timeout then
            ⟨some edbNetwork, m, input, rest⟩
          else if errno.1 = eintr ∧
              retries < maxRecvRetries then
            recvLoop timeout rest (retries + 1) m a len input
          else ⟨some edbNetwork, m, input, rest⟩
    else ⟨some edbOk, m, input, result :: rest⟩

def recv
    (s : OssSocket)
    (m : Memory)
    (a : Nat)
    (len : Int) : Option Int × Memory × OssSocket :=
  if len = 0 then (some edbOk, m, s)
  else
    let (rc, selects) := waitReady s.selects
    let t := { s with selects := selects }
    if rc ≠ some edbOk then (rc, m, t)
    else
      let r := recvLoop t.timeout t.recvs 0 m a len t.input
      (r.rc, r.mem, { t with recvs := r.recvs, input := r.input })

------------------------------------------------------------
-- What a Send Does
------------------------------------------------------------

/-
  The loop has handed over a block that starts at `a`, all of
  it if the loop succeeded, and it reports no timeout.
-/
structure Sent.FromBlock
    (r : Sent)
    (m : Memory)
    (a : Nat)
    (len : Int)
    (output : List UInt8) : Prop where
  code : r.rc ≠ some edbTimeout
  block : ∃ k ≤ len.toNat,
    r.output = output ++ m.bytes a k ∧
      (r.rc = some edbOk → k = len.toNat)

/- A loop that ends at once has handed over nothing. -/
theorem Sent.FromBlock.stop
    (m : Memory)
    (a : Nat)
    {len : Int}
    (output : List UInt8)
    {rc : Option Int}
    (rest : List SendResult)
    (hCode : rc ≠ some edbTimeout)
    (hDone : rc = some edbOk → len ≤ 0) :
    Sent.FromBlock ⟨rc, output, rest⟩ m a len output := by
  refine ⟨hCode, 0, by omega, by simp [Memory.bytes], ?_⟩
  intro hOk
  have hLen := hDone hOk
  omega

theorem sendLoop_spec
    (m : Memory)
    (sends : List SendResult)
    (a : Nat)
    (len : Int)
    (output : List UInt8) :
    (sendLoop m sends a len output).FromBlock m a len
      output := by
  induction sends generalizing a len output with
  | nil =>
      unfold sendLoop
      by_cases hMore : 0 < len
      · rw [if_pos hMore]
        exact .stop m a output _ (by simp) (by simp)
      · rw [if_neg hMore]
        exact .stop m a output _ (by decide) (by omega)
  | cons result rest ih =>
      unfold sendLoop
      by_cases hMore : 0 < len
      · rw [if_pos hMore]
        cases result with
        | error errno =>
            exact .stop m a output _ (by decide)
              (fun hOk => absurd hOk (by decide))
        | sent n =>
            -- The rest of the loop continues the block.
            have hRest := ih (a + min n len.toNat)
              (len - (min n len.toNat : Nat))
              (output ++ m.bytes a (min n len.toNat))
            rcases hRest.block with ⟨k, hLe, hOutput, hAll⟩
            refine ⟨hRest.code, min n len.toNat + k,
              by omega, ?_, ?_⟩
            · rw [hOutput, List.append_assoc,
                ← Memory.bytes_add]
            · intro hOk
              have hEnd := hAll hOk
              omega
      · rw [if_neg hMore]
        exact .stop m a output _ (by decide) (by omega)

/-
  A send hands over a block from the start of the message,
  all of it if the send succeeds and nothing if it reports a
  timeout.
-/
theorem send_spec
    (s : OssSocket)
    (m : Memory)
    (a : Nat)
    (len : Int) :
    ∃ k ≤ len.toNat,
      (s.send m a len).2.output = s.output ++ m.bytes a k ∧
        ((s.send m a len).1 = some edbOk →
          k = len.toNat) ∧
        ((s.send m a len).1 = some edbTimeout → k = 0) := by
  have hNone : s.output = s.output ++ m.bytes a 0 := by
    simp [Memory.bytes]
  unfold send
  by_cases hZero : len = 0
  · rw [if_pos hZero]
    exact ⟨0, by omega, hNone, by omega, fun _ => rfl⟩
  · rw [if_neg hZero]
    rcases hWait : waitReady s.selects with ⟨rc, selects⟩
    by_cases hReady : rc = some edbOk
    · subst hReady
      have hLoop := sendLoop_spec m s.sends a len s.output
      rcases hLoop.block with ⟨k, hLe, hOutput, hAll⟩
      refine ⟨k, hLe, hOutput, hAll, ?_⟩
      intro hTimeout
      exact absurd hTimeout hLoop.code
    · simp only [if_pos hReady]
      refine ⟨0, by omega, hNone, ?_, fun _ => rfl⟩
      intro hOk
      exact absurd hOk hReady

------------------------------------------------------------
-- What a Receive Does
------------------------------------------------------------

/-
  The loop has stored the first bytes of the input, `len` of
  them if it succeeded, and it reports no timeout.
-/
structure Received.FromInput
    (r : Received)
    (m : Memory)
    (a : Nat)
    (len : Int)
    (input : List UInt8) : Prop where
  code : r.rc ≠ some edbTimeout
  stored : ∃ k ≤ len.toNat, k ≤ input.length ∧
    r.mem = m.store a (input.take k) ∧
      r.input = input.drop k ∧
      (r.rc = some edbOk → k = len.toNat)

/- A loop that ends at once has stored nothing. -/
theorem Received.FromInput.stop
    (m : Memory)
    (a : Nat)
    {len : Int}
    (input : List UInt8)
    {rc : Option Int}
    (rest : List RecvResult)
    (hCode : rc ≠ some edbTimeout)
    (hDone : rc = some edbOk → len ≤ 0) :
    Received.FromInput ⟨rc, m, input, rest⟩ m a len
      input := by
  refine ⟨hCode, 0, by omega, by omega, by simp, rfl, ?_⟩
  intro hOk
  have hLen := hDone hOk
  omega

/- A loop that goes on behind a chunk stores one block. -/
theorem Received.FromInput.behind
    {r : Received}
    {m : Memory}
    {a : Nat}
    {len : Int}
    {input : List UInt8}
    {j : Nat}
    (hFits : j ≤ len.toNat)
    (hInput : j ≤ input.length)
    (hRest : r.FromInput (m.store a (input.take j)) (a + j)
      (len - j) (input.drop j)) :
    r.FromInput m a len input := by
  rcases hRest.stored with
    ⟨k, hLe, hLong, hMem, hLeft, hAll⟩
  rw [List.length_drop] at hLong
  refine ⟨hRest.code, j + k, by omega, by omega, ?_, ?_, ?_⟩
  · have hAppend := Memory.store_append m a (input.take j)
      ((input.drop j).take k)
    rw [List.length_take, Nat.min_eq_left hInput,
      ← List.take_add] at hAppend
    rw [hMem, hAppend]
  · rw [hLeft, List.drop_drop]
  · intro hOk
    have hEnd := hAll hOk
    omega

/- What one call returns is a chunk of the input. -/
theorem chunk_eq
    (n : Nat)
    (len : Int)
    (input : List UInt8) :
    ∃ j ≤ len.toNat, j ≤ input.length ∧
      (input.take (min n len.toNat)).length = j ∧
        input.take (min n len.toNat) = input.take j := by
  refine ⟨min (min n len.toNat) input.length, by omega,
    by omega, List.length_take, List.take_eq_take_min⟩

theorem recvLoop_spec
    (timeout : Int)
    (recvs : List RecvResult)
    (retries : Nat)
    (m : Memory)
    (a : Nat)
    (len : Int)
    (input : List UInt8) :
    (recvLoop timeout recvs retries m a len input).FromInput
      m a len input := by
  induction recvs generalizing retries m a len input with
  | nil =>
      unfold recvLoop
      by_cases hMore : 0 < len
      · rw [if_pos hMore]
        exact .stop m a input _ (by simp) (by simp)
      · rw [if_neg hMore]
        exact .stop m a input _ (by decide) (by omega)
  | cons result rest ih =>
      unfold recvLoop
      by_cases hMore : 0 < len
      · rw [if_pos hMore]
        cases result with
        | received n =>
            by_cases hSome :
                0 < (input.take (min n len.toNat)).length
            · simp only [if_pos hSome]
              rcases chunk_eq n len input with
                ⟨j, hFits, hInput, hLength, hTake⟩
              rw [hLength, hTake]
              exact .behind hFits hInput (ih _ _ _ _ _)
            · simp only [if_neg hSome]
              exact .stop m a input _ (by decide)
                (fun hOk => absurd hOk (by decide))
        | error errno =>
            by_cases hAgain :
                errno.1 = eagain ∧ 0 < timeout
            · simp only [if_pos hAgain]
              exact .stop m a input _ (by decide)
                (fun hOk => absurd hOk (by decide))
            · simp only [if_neg hAgain]
              by_cases hRetry : errno.1 = eintr ∧
                  retries < maxRecvRetries
              · rw [if_pos hRetry]
                exact ih (retries + 1) m a len input
              · rw [if_neg hRetry]
                exact .stop m a input _ (by decide)
                  (fun hOk => absurd hOk (by decide))
      · rw [if_neg hMore]
        exact .stop m a input _ (by decide) (by omega)

/-
  A receive stores the first bytes of the input, all that
  were asked for if it succeeds and none if it reports a
  timeout.
-/
theorem recv_spec
    (s : OssSocket)
    (m : Memory)
    (a : Nat)
    (len : Int) :
    ∃ k ≤ len.toNat, k ≤ s.input.length ∧
      (s.recv m a len).2.1 = m.store a (s.input.take k) ∧
        (s.recv m a len).2.2.input = s.input.drop k ∧
        ((s.recv m a len).1 = some edbOk →
          k = len.toNat) ∧
        ((s.recv m a len).1 = some edbTimeout → k = 0) := by
  have hNone : m = m.store a (s.input.take 0) := by simp
  unfold recv
  by_cases hZero : len = 0
  · rw [if_pos hZero]
    exact ⟨0, by omega, by omega, hNone, rfl, by omega,
      fun _ => rfl⟩
  · rw [if_neg hZero]
    rcases hWait : waitReady s.selects with ⟨rc, selects⟩
    by_cases hReady : rc = some edbOk
    · subst hReady
      have hLoop := recvLoop_spec s.timeout s.recvs 0 m a len
        s.input
      rcases hLoop.stored with
        ⟨k, hLe, hLong, hMem, hLeft, hAll⟩
      refine ⟨k, hLe, hLong, hMem, hLeft, hAll, ?_⟩
      intro hTimeout
      exact absurd hTimeout hLoop.code
    · simp only [if_pos hReady]
      refine ⟨0, by omega, by omega, hNone, rfl, ?_,
        fun _ => rfl⟩
      intro hOk
      exact absurd hOk hReady

end OssSocket

/- A send leaves what is still to be received. -/
theorem send_input
    (s : OssSocket)
    (m : Memory)
    (a : Nat)
    (len : Int) :
    (s.send m a len).2.input = s.input := by
  unfold OssSocket.send
  split
  · rfl
  · simp only
    split <;> rfl

------------------------------------------------------------
-- Words of a Stream
------------------------------------------------------------

/- A signed word of a stream of bytes. -/
def streamInt
    (input : List UInt8)
    (i : Nat) : Int :=
  Memory.int (Memory.store (fun _ => 0) 0 input) i

/- A word that was received is a word of the stream. -/
theorem int_store_take
    (m : Memory)
    {input : List UInt8}
    {k i : Nat}
    (hLong : k ≤ input.length)
    (hInside : i + 4 ≤ k) :
    (m.store 0 (input.take k)).int i = streamInt input i := by
  have hLength : (input.take k).length = k := by
    rw [List.length_take, Nat.min_eq_left hLong]
  have hSame : Memory.Same (m.store 0 (input.take k)) 0
      (Memory.store (fun _ => 0) 0 input) 0 k := by
    apply Memory.same_store
    · rw [hLength]
    · rw [List.take_take, Nat.min_self]
  have hWord := Memory.word_congr
    (hSame.slice (k := i) (l := 4) hInside)
  rw [Nat.zero_add] at hWord
  unfold streamInt Memory.int
  rw [hWord]

/- The length and the bytes behind it are one block. -/
theorem store_behind_length
    (m : Memory)
    {input : List UInt8}
    (hLength : 4 ≤ input.length)
    (k : Nat) :
    (m.store 0 (input.take 4)).store 4
        ((input.drop 4).take k) =
      m.store 0 (input.take (4 + k)) := by
  have hAppend := Memory.store_append m 0 (input.take 4)
    ((input.drop 4).take k)
  rw [List.length_take, Nat.min_eq_left hLength,
    ← List.take_add] at hAppend
  exact hAppend

end EmeraldDb
