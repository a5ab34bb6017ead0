import EmeraldDb.Oss.Socket

/-
  Sending and receiving in an engine dispatch unit.

  A timeout of the socket is tried again until the unit is
  forced.  The list of booleans has the answers of `isForced`
  in order, one for each try.

  Key definitions include:
    * `pmdRecv`
    * `pmdSend`

  Key results include:
    * `pmdRecv_spec`
    * `pmdSend_exactlyOnce`
-/

namespace EmeraldDb

def pmdRecv
    (a : Nat)
    (recvSize : Int) :
    List Bool → Memory → OssSocket →
      Option Int × Memory × OssSocket
| [], m, sock => (none, m, sock)
| isForced :: rest, m, sock =>
    if isForced then (some edbAppForced, m, sock)
    else
      let r := sock.recv m a recvSize
      if r.1 = some edbTimeout then
        pmdRecv a recvSize rest r.2.1 r.2.2
      else r

def pmdSend
    (m : Memory)
    (a : Nat)
    (sendSize : Int) :
    List Bool → OssSocket → Option Int × OssSocket
| [], sock => (none, sock)
| isForced :: rest, sock =>
    if isForced then (some edbAppForced, sock)
    else
      let r := sock.send m a sendSize
      if r.1 = some edbTimeout then
        pmdSend m a sendSize rest r.2
      else r

theorem forced_ne_ok :
    some edbAppForced ≠ some edbOk := by
  decide

/- All tries together store what one receive stores. -/
theorem pmdRecv_spec
    (a : Nat)
    (recvSize : Int)
    (forced : List Bool)
    (m : Memory)
    (sock : OssSocket) :
    ∃ k ≤ recvSize.toNat, k ≤ sock.input.length ∧
      (pmdRecv a recvSize forced m sock).2.1 =
          m.store a (sock.input.take k) ∧
        (pmdRecv a recvSize forced m sock).2.2.input =
          sock.input.drop k ∧
        ((pmdRecv a recvSize forced m sock).1 = some edbOk →
          k = recvSize.toNat) := by
  have hNone : m = m.store a (sock.input.take 0) := by simp
  induction forced generalizing m sock with
  | nil =>
      exact ⟨0, by omega, by omega, hNone, rfl,
        by simp [pmdRecv]⟩
  | cons isForced rest ih =>
      unfold pmdRecv
      cases isForced with
      | true =>
          exact ⟨0, by omega, by omega, hNone, rfl,
            fun hOk => absurd hOk forced_ne_ok⟩
      | false =>
          rcases sock.recv_spec m a recvSize with
            ⟨k, hLe, hLong, hMem, hLeft, hAll, hLate⟩
          by_cases hTimeout :
              (sock.recv m a recvSize).1 = some edbTimeout
          · -- A try that timed out has changed nothing.
            rw [hLate hTimeout] at hMem hLeft
            rw [List.take_zero, Memory.store_nil] at hMem
            rw [List.drop_zero] at hLeft
            have hRest := ih m (sock.recv m a recvSize).2.2
              (by simp)
            rw [hLeft] at hRest
            simp only [Bool.false_eq_true, if_false,
              if_pos hTimeout, hMem]
            exact hRest
          · simp only [Bool.false_eq_true, if_false,
              if_neg hTimeout]
            exact ⟨k, hLe, hLong, hMem, hLeft, hAll⟩

/-
  A try that times out hands over nothing.  Over all tries a
  prefix of the message is handed over, and all of it once if
  the send succeeds.
-/
theorem pmdSend_exactlyOnce
    (m : Memory)
    (a : Nat)
    (sendSize : Int)
    (forced : List Bool)
    (sock : OssSocket) :
    (∀ t : OssSocket,
      (t.send m a sendSize).1 = some edbTimeout →
        (t.send m a sendSize).2.output = t.output) ∧
    ∃ sent,
      (pmdSend m a sendSize forced sock).2.output =
          sock.output ++ sent ∧
        sent <+: m.bytes a sendSize.toNat ∧
        ((pmdSend m a sendSize forced sock).1 = some edbOk →
          sent = m.bytes a sendSize.toNat) := by
  have hLate : ∀ t : OssSocket,
      (t.send m a sendSize).1 = some edbTimeout →
        (t.send m a sendSize).2.output = t.output := by
    intro t hTimeout
    rcases t.send_spec m a sendSize with
      ⟨k, _, hOutput, _, hNone⟩
    rw [hOutput, hNone hTimeout]
    simp [Memory.bytes]
  refine ⟨hLate, ?_⟩
  induction forced generalizing sock with
  | nil =>
      exact ⟨[], by simp [pmdSend], List.nil_prefix,
        by simp [pmdSend]⟩
  | cons isForced rest ih =>
      unfold pmdSend
      cases isForced with
      | true =>
          exact ⟨[], by simp, List.nil_prefix,
            fun hOk => absurd hOk forced_ne_ok⟩
      | false =>
          by_cases hTimeout :
              (sock.send m a sendSize).1 = some edbTimeout
          · have hRest := ih (sock.send m a sendSize).2
            rw [hLate sock hTimeout] at hRest
            simp only [Bool.false_eq_true, if_false,
              if_pos hTimeout]
            exact hRest
          · rcases sock.send_spec m a sendSize with
              ⟨k, hLe, hOutput, hAll, _⟩
            simp only [Bool.false_eq_true, if_false,
              if_neg hTimeout]
            refine ⟨m.bytes a k, hOutput,
              m.bytes_prefix a hLe, ?_⟩
            intro hOk
            rw [hAll hOk]

end EmeraldDb
