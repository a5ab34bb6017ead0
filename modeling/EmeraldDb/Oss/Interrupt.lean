import EmeraldDb.Oss.Socket

/-
  Interrupted waits of a socket.

  Every call of a socket first waits with `select`.  The waits
  of `send`, `recv` and `recvNF` go on after an interrupt, so
  they end as if it had not been there.  The wait of `accept`
  compares the wrong value with `EINTR`: an interrupt ends it
  and closes the socket.

  Key definitions include:
    * `OssEndpoint`
    * `OssEndpoint.accept`
    * `OssEndpoint.call`
    * `OssEndpoint.undisturbed`
    * `interrupted`

  Key results include:
    * `OssSocket.waitReady_undisturbed`
    * `OssEndpoint.accept_interrupted`
    * `OssEndpoint.transparent_iff`
-/

namespace EmeraldDb

/- The descriptor of a new connection, or an error. -/
inductive AcceptResult
| error (errno : Errno)
| accepted (fd : Nat)

/- A socket, whether it is open, and who connects to it. -/
structure OssEndpoint extends OssSocket where
  init : Bool
  accepts : List AcceptResult

namespace OssSocket

------------------------------------------------------------
-- Other Ways to Receive
------------------------------------------------------------

/- A call that waits, and what it does behind its wait. -/
def afterWait
    {ρ : Type}
    (s : OssSocket)
    (stop : Option Int → OssSocket → ρ)
    (go : OssSocket → ρ) : ρ :=
  let (rc, selects) := waitReady s.selects
  let t := { s with selects := selects }
  if rc ≠ some edbOk then stop rc t else go t

/-
  Look at `len` bytes of the input without taking them.  The
  code of a success is the number of bytes that were seen.
-/
def peekLoop
    (timeout : Int)
    (m : Memory)
    (a : Nat)
    (len : Int)
    (input : List UInt8) :
    List RecvResult → Nat → Received
| [], _ => ⟨none, m, input, []⟩
| result :: rest, retries =>
    match result with
    | .received n =>
        let chunk := input.take (min n len.toNat)
        if 0 < chunk.length then
          ⟨some (chunk.length : Int), m.store a chunk, input,
            rest⟩
        else ⟨some edbNetwork, m, input, rest⟩
    | .error errno =>
        if errno.1 = eagain ∧ 0 < timeout then
          ⟨some edbNetwork, m, input, rest⟩
        else if errno.1 = eintr ∧
            retries < maxRecvRetries then
          peekLoop timeout m a len input rest (retries + 1)
        else ⟨some edbNetwork, m, input, rest⟩

/- `recv` with the flag `MSG_PEEK`. -/
def recvPeek
    (s : OssSocket)
    (m : Memory)
    (a : Nat)
    (len : Int) : Option Int × Memory × OssSocket :=
  if len = 0 then (some edbOk, m, s)
  else
    s.afterWait (fun rc t => (rc, m, t)) (fun t =>
      if len < 0 then (some edbOk, m, t)
      else
        let r := peekLoop t.timeout m a len t.input t.recvs 0
        (r.rc, r.mem, { t with recvs := r.recvs }))

/-
  One call of `recv`.  An interrupted call is a success that
  stores nothing.
-/
def recvOnce
    (s : OssSocket)
    (m : Memory)
    (a : Nat)
    (len : Int) : Option Int × Memory × OssSocket :=
  match s.recvs with
  | [] => (none, m, s)
  | result :: rest =>
      let t := { s with recvs := rest }
      match result with
      | .received n =>
          -- the length is converted to an unsigned word
          let size := (len % 18446744073709551616).toNat
          let chunk := s.input.take (min n size)
          if 0 < chunk.length then
            (some edbOk, m.store a chunk,
              { t with input := s.input.drop chunk.length })
          else (some edbNetwork, m, t)
      | .error errno =>
          if errno.1 = eagain ∧ 0 < s.timeout then
            (some edbNetwork, m, t)
          else if errno.1 = eintr then (some edbOk, m, t)
          else (some edbNetwork, m, t)

def recvNF
    (s : OssSocket)
    (m : Memory)
    (a : Nat)
    (len : Int) : Option Int × Memory × OssSocket :=
  if len = 0 then (some edbOk, m, s)
  else
    s.afterWait (fun rc t => (rc, m, t))
      (fun t => t.recvOnce m a len)

end OssSocket

------------------------------------------------------------
-- Accepting
------------------------------------------------------------

/-
  Wait for a connection.  What is compared with `EINTR` is
  the value that a failed `select` returns.
-/
def waitAccept :
    List SelectResult → Option Int × List SelectResult
| [] => (none, [])
| .timeout :: rest => (some edbTimeout, rest)
| .error _ :: rest =>
    let rc : Int := -1
    if rc = eintr then waitAccept rest
    else (some edbNetwork, rest)
| .ready isSet :: rest =>
    if isSet then (some edbOk, rest) else waitAccept rest

namespace OssEndpoint

def close (e : OssEndpoint) : OssEndpoint :=
  { e with init := false }

/- The part of `accept` behind the wait. -/
def finishAccept
    (e : OssEndpoint)
    (sock : Int)
    (rc : Option Int) : Option Int × Int × OssEndpoint :=
  if rc = none then (none, sock, e)
  else if rc = some edbTimeout then (rc, 0, e)
  else if rc ≠ some edbOk then (rc, sock, e.close)
  else
    match e.accepts with
    | [] => (none, sock, e)
    | .error _ :: rest =>
        (some edbNetwork, -1,
          { e with accepts := rest }.close)
    | .accepted fd :: rest =>
        (some edbOk, fd, { e with accepts := rest })

/- `sock` is what the pointer has before the call. -/
def accept
    (e : OssEndpoint)
    (sock : Int) : Option Int × Int × OssEndpoint :=
  let (rc, selects) := waitAccept e.selects
  finishAccept { e with selects := selects } sock rc

end OssEndpoint

------------------------------------------------------------
-- Calls
------------------------------------------------------------

inductive SocketCall
| send (a : Nat) (len : Int)
| recv (peek : Bool) (a : Nat) (len : Int)
| recvNF (a : Nat) (len : Int)
| accept (sock : Int)

/- `sock` is `none` for a call without such a pointer. -/
structure CallEnd where
  rc : Option Int
  sock : Option Int
  mem : Memory
  endpoint : OssEndpoint

def sendCall
    (e : OssEndpoint)
    (m : Memory)
    (r : Option Int × OssSocket) : CallEnd :=
  ⟨r.1, none, m, { e with toOssSocket := r.2 }⟩

def recvCall
    (e : OssEndpoint)
    (r : Option Int × Memory × OssSocket) : CallEnd :=
  ⟨r.1, none, r.2.1, { e with toOssSocket := r.2.2 }⟩

def acceptCall
    (m : Memory)
    (r : Option Int × Int × OssEndpoint) : CallEnd :=
  ⟨r.1, some r.2.1, m, r.2.2⟩

namespace OssEndpoint

def call
    (e : OssEndpoint)
    (m : Memory) : SocketCall → CallEnd
| .send a len => sendCall e m (e.toOssSocket.send m a len)
| .recv peek a len =>
    if peek then
      recvCall e (e.toOssSocket.recvPeek m a len)
    else recvCall e (e.toOssSocket.recv m a len)
| .recvNF a len =>
    recvCall e (e.toOssSocket.recvNF m a len)
| .accept sock => acceptCall m (e.accept sock)

end OssEndpoint

/-
  What the caller and the calls behind can see.  How many
  outcomes of `select` are left is not a part of it.
-/
def CallEnd.seen (r : CallEnd) : CallEnd :=
  { r with endpoint := { r.endpoint with selects := [] } }

------------------------------------------------------------
-- Waits without Interrupts
------------------------------------------------------------

def SelectResult.interrupts : SelectResult → Bool
| .timeout => false
| .error errno => errno.1 = eintr
| .ready _ => false

/- The outcomes that are not interrupts. -/
def undisturbed (selects : List SelectResult) :
    List SelectResult :=
  selects.filter (fun result => !result.interrupts)

def OssSocket.undisturbed (s : OssSocket) : OssSocket :=
  { s with selects := EmeraldDb.undisturbed s.selects }

def OssEndpoint.undisturbed (e : OssEndpoint) : OssEndpoint :=
  { e with selects := EmeraldDb.undisturbed e.selects }

/- Is a wait interrupted before the outcome that ends it? -/
def interrupted : List SelectResult → Bool
| [] => false
| .timeout :: _ => false
| .error errno :: _ => errno.1 = eintr
| .ready isSet :: rest => !isSet && interrupted rest

theorem undisturbed_interrupt
    (rest : List SelectResult)
    {errno : Errno}
    (hInterrupt : errno.1 = eintr) :
    undisturbed (.error errno :: rest) =
      undisturbed rest := by
  simp [undisturbed, SelectResult.interrupts, hInterrupt]

theorem undisturbed_error
    (rest : List SelectResult)
    {errno : Errno}
    (hOther : errno.1 ≠ eintr) :
    undisturbed (.error errno :: rest) =
      .error errno :: undisturbed rest := by
  simp [undisturbed, SelectResult.interrupts, hOther]

theorem undisturbed_ready
    (rest : List SelectResult)
    (isSet : Bool) :
    undisturbed (.ready isSet :: rest) =
      .ready isSet :: undisturbed rest := by
  simp [undisturbed, SelectResult.interrupts]

namespace OssSocket

/- A wait goes on after an interrupt. -/
theorem waitReady_undisturbed
    (selects : List SelectResult) :
    waitReady (EmeraldDb.undisturbed selects) =
      ((waitReady selects).1,
        EmeraldDb.undisturbed (waitReady selects).2) := by
  induction selects with
  | nil => rfl
  | cons result rest ih =>
      cases result with
      | timeout => rfl
      | error errno =>
          by_cases hInterrupt : errno.1 = eintr
          · rw [undisturbed_interrupt rest hInterrupt,
              waitReady, if_pos hInterrupt]
            exact ih
          · rw [undisturbed_error rest hInterrupt, waitReady,
              if_neg hInterrupt, waitReady,
              if_neg hInterrupt]
      | ready isSet =>
          rw [undisturbed_ready, waitReady, waitReady]
          cases isSet with
          | true => rfl
          | false => exact ih

/-
  A call that never looks at the outcomes of `select` behind
  its wait does not notice the interrupts.
-/
theorem afterWait_undisturbed
    {ρ : Type}
    (s : OssSocket)
    {stop : Option Int → OssSocket → ρ}
    {go : OssSocket → ρ}
    (rest : ρ → ρ)
    (hStop : ∀ rc (t : OssSocket),
      stop rc t.undisturbed = rest (stop rc t))
    (hGo : ∀ t : OssSocket,
      go t.undisturbed = rest (go t)) :
    s.undisturbed.afterWait stop go =
      rest (s.afterWait stop go) := by
  have hWait : waitReady s.undisturbed.selects =
      ((waitReady s.selects).1,
        EmeraldDb.undisturbed (waitReady s.selects).2) :=
    waitReady_undisturbed s.selects
  unfold afterWait
  rw [hWait]
  by_cases hReady : (waitReady s.selects).1 = some edbOk
  · simp only [hReady, ne_eq, not_true_eq_false, if_false]
    exact hGo { s with selects := (waitReady s.selects).2 }
  · simp only [ne_eq, hReady, not_false_eq_true, if_true]
    exact hStop _ { s with selects := (waitReady s.selects).2 }

/- The end of a call, with the interrupts behind it deleted. -/
def sendEnd
    (r : Option Int × OssSocket) : Option Int × OssSocket :=
  (r.1, r.2.undisturbed)

theorem send_undisturbed
    (s : OssSocket)
    (m : Memory)
    (a : Nat)
    (len : Int) :
    s.undisturbed.send m a len =
      sendEnd (s.send m a len) := by
  by_cases hZero : len = 0
  · unfold send
    rw [if_pos hZero, if_pos hZero]
    rfl
  · have hSend : ∀ t : OssSocket, t.send m a len =
        t.afterWait (fun rc u => (rc, u)) (fun u =>
          let r := sendLoop m u.sends a len u.output
          (r.rc, { u with
            sends := r.sends
            output := r.output })) :=
      fun t => if_neg hZero
    rw [hSend, hSend]
    exact s.afterWait_undisturbed sendEnd
      (fun _ _ => rfl) (fun _ => rfl)

def recvEnd
    (r : Option Int × Memory × OssSocket) :
    Option Int × Memory × OssSocket :=
  (r.1, r.2.1, r.2.2.undisturbed)

theorem recv_undisturbed
    (s : OssSocket)
    (m : Memory)
    (a : Nat)
    (len : Int) :
    s.undisturbed.recv m a len =
      recvEnd (s.recv m a len) := by
  by_cases hZero : len = 0
  · unfold recv
    rw [if_pos hZero, if_pos hZero]
    rfl
  · have hRecv : ∀ t : OssSocket, t.recv m a len =
        t.afterWait (fun rc u => (rc, m, u)) (fun u =>
          let r := recvLoop u.timeout u.recvs 0 m a len u.input
          (r.rc, r.mem,
            { u with recvs := r.recvs, input := r.input })) :=
      fun t => if_neg hZero
    rw [hRecv, hRecv]
    exact s.afterWait_undisturbed recvEnd
      (fun _ _ => rfl) (fun _ => rfl)

theorem recvPeek_undisturbed
    (s : OssSocket)
    (m : Memory)
    (a : Nat)
    (len : Int) :
    s.undisturbed.recvPeek m a len =
      recvEnd (s.recvPeek m a len) := by
  unfold recvPeek
  by_cases hZero : len = 0
  · rw [if_pos hZero, if_pos hZero]
    rfl
  · rw [if_neg hZero, if_neg hZero]
    apply s.afterWait_undisturbed recvEnd
    · exact fun _ _ => rfl
    · intro t
      by_cases hNegative : len < 0
      · rw [if_pos hNegative, if_pos hNegative]
        rfl
      · rw [if_neg hNegative, if_neg hNegative]
        rfl

theorem recvOnce_undisturbed
    (s : OssSocket)
    (m : Memory)
    (a : Nat)
    (len : Int) :
    s.undisturbed.recvOnce m a len =
      recvEnd (s.recvOnce m a len) := by
  unfold recvOnce
  have hSame : s.undisturbed.recvs = s.recvs := by rfl
  rw [hSame]
  cases s.recvs with
  | nil => rfl
  | cons result rest =>
      cases result with
      | received n =>
          simp only [apply_ite recvEnd]
          rfl
      | error errno =>
          simp only [apply_ite recvEnd]
          rfl

theorem recvNF_undisturbed
    (s : OssSocket)
    (m : Memory)
    (a : Nat)
    (len : Int) :
    s.undisturbed.recvNF m a len =
      recvEnd (s.recvNF m a len) := by
  unfold recvNF
  by_cases hZero : len = 0
  · rw [if_pos hZero, if_pos hZero]
    rfl
  · rw [if_neg hZero, if_neg hZero]
    exact s.afterWait_undisturbed recvEnd
      (fun _ _ => rfl)
      (fun t => t.recvOnce_undisturbed m a len)

end OssSocket

------------------------------------------------------------
-- Accepting and Interrupts
------------------------------------------------------------

theorem interrupted_undisturbed
    (selects : List SelectResult) :
    interrupted (undisturbed selects) = false := by
  induction selects with
  | nil => rfl
  | cons result rest ih =>
      cases result with
      | timeout => rfl
      | error errno =>
          by_cases hInterrupt : errno.1 = eintr
          · rw [undisturbed_interrupt rest hInterrupt]
            exact ih
          · rw [undisturbed_error rest hInterrupt]
            simp [interrupted, hInterrupt]
      | ready isSet =>
          rw [undisturbed_ready]
          simp [interrupted, ih]

/- Without an interrupt all waits end alike. -/
theorem waitAccept_undisturbed
    {selects : List SelectResult}
    (hNone : interrupted selects = false) :
    (waitAccept selects).1 =
      (OssSocket.waitReady selects).1 := by
  induction selects with
  | nil => rfl
  | cons result rest ih =>
      cases result with
      | timeout => rfl
      | error errno =>
          have hOther : errno.1 ≠ eintr := by
            simpa [interrupted] using hNone
          rw [OssSocket.waitReady, if_neg hOther]
          rfl
      | ready isSet =>
          cases isSet with
          | true => rfl
          | false => exact ih hNone

/- An interrupt ends the wait of `accept` as a failure. -/
theorem waitAccept_interrupted
    {selects : List SelectResult}
    (hInterrupted : interrupted selects = true) :
    (waitAccept selects).1 = some edbNetwork := by
  induction selects with
  | nil => exact absurd hInterrupted (by decide)
  | cons result rest ih =>
      cases result with
      | timeout =>
          exact absurd hInterrupted Bool.false_ne_true
      | error errno => rfl
      | ready isSet =>
          cases isSet with
          | true =>
              exact absurd hInterrupted Bool.false_ne_true
          | false => exact ih hInterrupted

theorem waitReady_cases
    (selects : List SelectResult) :
    (OssSocket.waitReady selects).1 = none ∨
      (OssSocket.waitReady selects).1 = some edbTimeout ∨
      (OssSocket.waitReady selects).1 = some edbOk ∨
      (OssSocket.waitReady selects).1 = some edbNetwork := by
  induction selects with
  | nil => exact Or.inl rfl
  | cons result rest ih =>
      cases result with
      | timeout => exact Or.inr (Or.inl rfl)
      | error errno =>
          rw [OssSocket.waitReady]
          by_cases hInterrupt : errno.1 = eintr
          · rw [if_pos hInterrupt]
            exact ih
          · rw [if_neg hInterrupt]
            exact Or.inr (Or.inr (Or.inr rfl))
      | ready isSet =>
          cases isSet with
          | true => exact Or.inr (Or.inr (Or.inl rfl))
          | false => exact ih

namespace OssEndpoint

/-
  An `accept` whose wait is interrupted closes the socket
  and takes no connection.
-/
theorem accept_interrupted
    {e : OssEndpoint}
    (hInterrupted : interrupted e.selects = true)
    (sock : Int) :
    (e.accept sock).1 = some edbNetwork ∧
      (e.accept sock).2.1 = sock ∧
      (e.accept sock).2.2.init = false ∧
      (e.accept sock).2.2.accepts = e.accepts := by
  have hWait := waitAccept_interrupted hInterrupted
  rcases hEnd : waitAccept e.selects with ⟨rc, rest⟩
  rw [hEnd] at hWait
  have hCode : rc = some edbNetwork := hWait
  have hAccept : e.accept sock =
      finishAccept { e with selects := rest } sock
        (some edbNetwork) := by
    unfold accept
    rw [hEnd, hCode]
  rw [hAccept]
  exact ⟨rfl, rfl, rfl, rfl⟩

/- What is seen of the end of an `accept`. -/
def acceptSeen
    (e : OssEndpoint)
    (m : Memory)
    (sock : Int)
    (rc : Option Int) : CallEnd :=
  acceptCall m (finishAccept { e with selects := [] } sock rc)

/- The outcomes that are left do not matter to what is seen. -/
theorem finishAccept_seen
    (e : OssEndpoint)
    (m : Memory)
    (sock : Int)
    (rc : Option Int) :
    (acceptCall m (e.finishAccept sock rc)).seen =
      e.acceptSeen m sock rc := by
  unfold acceptSeen finishAccept
  by_cases hNone : rc = none
  · rw [if_pos hNone, if_pos hNone]
    rfl
  · rw [if_neg hNone, if_neg hNone]
    by_cases hTimeout : rc = some edbTimeout
    · rw [if_pos hTimeout, if_pos hTimeout]
      rfl
    · rw [if_neg hTimeout, if_neg hTimeout]
      by_cases hReady : rc = some edbOk
      · rw [if_neg (not_not.mpr hReady),
          if_neg (not_not.mpr hReady)]
        rcases e with ⟨s, init, accepts⟩
        cases accepts with
        | nil => rfl
        | cons result rest =>
            cases result with
            | error errno => rfl
            | accepted fd => rfl
      · rw [if_pos hReady, if_pos hReady]
        rfl

theorem accept_seen
    (e : OssEndpoint)
    (m : Memory)
    (sock : Int) :
    (e.call m (.accept sock)).seen =
      e.acceptSeen m sock (waitAccept e.selects).1 :=
  finishAccept_seen
    { e with selects := (waitAccept e.selects).2 } m sock
    (waitAccept e.selects).1

theorem accept_seen_undisturbed
    (e : OssEndpoint)
    (m : Memory)
    (sock : Int) :
    (e.undisturbed.call m (.accept sock)).seen =
      e.acceptSeen m sock
        (OssSocket.waitReady e.selects).1 := by
  have hNone := interrupted_undisturbed e.selects
  have hWait := waitAccept_undisturbed hNone
  rw [OssSocket.waitReady_undisturbed] at hWait
  rw [accept_seen]
  have hSame : (waitAccept e.undisturbed.selects).1 =
      (OssSocket.waitReady e.selects).1 := hWait
  rw [hSame]
  rfl

/- An end that is not a failed wait is seen to differ. -/
theorem acceptSeen_ne
    (e : OssEndpoint)
    (m : Memory)
    (sock : Int)
    {selects : List SelectResult}
    (hOther : (OssSocket.waitReady selects).1 ≠
      some edbNetwork) :
    e.acceptSeen m sock (OssSocket.waitReady selects).1 ≠
      e.acceptSeen m sock (some edbNetwork) := by
  intro hSame
  rcases waitReady_cases selects with
    hEnd | hEnd | hEnd | hEnd
  · rw [hEnd] at hSame
    have hCode : (none : Option Int) = some edbNetwork :=
      congrArg CallEnd.rc hSame
    exact absurd hCode (by decide)
  · rw [hEnd] at hSame
    have hCode : some edbTimeout = some edbNetwork :=
      congrArg CallEnd.rc hSame
    exact absurd hCode (by decide)
  · rw [hEnd] at hSame
    rcases e with ⟨s, init, accepts⟩
    cases accepts with
    | nil =>
        have hCode : (none : Option Int) = some edbNetwork :=
          congrArg CallEnd.rc hSame
        exact absurd hCode (by decide)
    | cons result rest =>
        cases result with
        | error errno =>
            -- The codes agree, but one call more was made.
            have hLeft : rest = .error errno :: rest :=
              congrArg (fun r => r.endpoint.accepts) hSame
            exact List.ne_cons_self hLeft
        | accepted fd =>
            have hCode : some edbOk = some edbNetwork :=
              congrArg CallEnd.rc hSame
            exact absurd hCode (by decide)
  · exact hOther hEnd

------------------------------------------------------------
-- Transparency
------------------------------------------------------------

/- A call sees nothing of the interrupts. -/
def Transparent
    (e : OssEndpoint)
    (m : Memory)
    (c : SocketCall) : Prop :=
  (e.call m c).seen = (e.undisturbed.call m c).seen

/-
  No interrupt comes before the outcome that ends the wait,
  unless that outcome is a failure itself.
-/
def Uninterrupted (e : OssEndpoint) : Prop :=
  interrupted e.selects = false ∨
    (OssSocket.waitReady e.selects).1 = some edbNetwork

theorem sendCall_seen
    (e : OssEndpoint)
    (m : Memory)
    {r t : Option Int × OssSocket}
    (hEnd : t = OssSocket.sendEnd r) :
    (sendCall e.undisturbed m t).seen =
      (sendCall e m r).seen := by
  rw [hEnd]
  rfl

theorem recvCall_seen
    (e : OssEndpoint)
    {r t : Option Int × Memory × OssSocket}
    (hEnd : t = OssSocket.recvEnd r) :
    (recvCall e.undisturbed t).seen =
      (recvCall e r).seen := by
  rw [hEnd]
  rfl

theorem accept_transparent_iff
    (e : OssEndpoint)
    (m : Memory)
    (sock : Int) :
    e.Transparent m (.accept sock) ↔ e.Uninterrupted := by
  unfold Transparent Uninterrupted
  rw [accept_seen, accept_seen_undisturbed]
  cases hInterrupted : interrupted e.selects with
  | false =>
      rw [waitAccept_undisturbed hInterrupted]
      simp
  | true =>
      rw [waitAccept_interrupted hInterrupted]
      constructor
      · intro hSame
        right
        by_contra hOther
        exact e.acceptSeen_ne m sock hOther hSame.symm
      · intro hCase
        have hFails := hCase.resolve_left (by decide)
        rw [hFails]

/-
  Interrupts are seen by `accept` only, and there exactly
  when one of them ends a wait that would not have failed.
-/
theorem transparent_iff
    (e : OssEndpoint)
    (m : Memory)
    (c : SocketCall) :
    e.Transparent m c ↔
      ∀ sock, c = .accept sock → e.Uninterrupted := by
  cases c with
  | send a len =>
      refine iff_of_true ?_ (by simp)
      have hSend := e.toOssSocket.send_undisturbed m a len
      exact (e.sendCall_seen m hSend).symm
  | recv peek a len =>
      refine iff_of_true ?_ (by simp)
      cases peek with
      | false =>
          have hRecv := e.toOssSocket.recv_undisturbed m a len
          exact (e.recvCall_seen hRecv).symm
      | true =>
          have hRecv :=
            e.toOssSocket.recvPeek_undisturbed m a len
          exact (e.recvCall_seen hRecv).symm
  | recvNF a len =>
      refine iff_of_true ?_ (by simp)
      have hRecv := e.toOssSocket.recvNF_undisturbed m a len
      exact (e.recvCall_seen hRecv).symm
  | accept sock =>
      rw [e.accept_transparent_iff m sock]
      constructor
      · exact fun hQuiet _ _ => hQuiet
      · exact fun hAll => hAll sock rfl

/-
  A wait that is interrupted once and then times out: the
  socket is closed, and without the interrupt it is not.
-/
theorem accept_not_transparent :
    let s : OssSocket := ⟨0, [.error ⟨eintr, by decide⟩,
      .timeout], [], [], [], []⟩
    let e : OssEndpoint := ⟨s, true, []⟩
    (e.accept 0).2.2.init = false ∧
      (e.undisturbed.accept 0).2.2.init = true ∧
      ¬ e.Transparent (fun _ => 0) (.accept 0) := by
  intro s e
  refine ⟨rfl, rfl, ?_⟩
  intro hSame
  have hCode : some edbNetwork = some edbTimeout :=
    congrArg CallEnd.rc hSame
  exact absurd hCode (by decide)

end OssEndpoint

end EmeraldDb
