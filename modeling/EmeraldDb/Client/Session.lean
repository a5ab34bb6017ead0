import EmeraldDb.Client.Reply
import EmeraldDb.Msg.RoundTrip

/-
  Sessions of the client.

  All commands of a client use one socket.  A command is
  split where its request has been sent: from there on the
  server's reply is behind all that was sent before, and the
  command goes on with `recvReply` and `handleReply`.

  A reply that does not fit the receive buffer is left in
  the stream, all but its length, and so is the rest of one
  whose receive was broken off: the socket stays open, and
  the commands after it take these bytes for their replies.

  Key definitions include:
    * `Exchange`
    * `evaluated`
    * `InStep`
    * `OssSocket.Delivers`

  Key results include:
    * `Command.execute_eq`
    * `recvReply_delivered`
    * `session_inStep`
    * `session_outOfStep`
-/

namespace EmeraldDb

------------------------------------------------------------
-- Commands in Two Parts
------------------------------------------------------------

namespace Command

/-
  A command up to the call of `recvReply`.  It has sent its
  request, or it ends here or waits.
-/
def request
    (c : Command)
    (argVec : List (Option BSONObj))
    (socket : OssSocket) :
    Except Fault (Except (Option Int) Unit × OssSocket) :=
  match argVec with
  | [bsonData] =>
      match socket.isConnected with
      | (none, socket) => .ok (.error none, socket)
      | (some false, socket) =>
          .ok (.error (some edbSocketNotConnect), socket)
      | (some true, socket) =>
          match sendMsg c.onMsgBuild bsonData socket with
          | .error fault => .error fault
          | .ok (none, socket) => .ok (.error none, socket)
          | .ok (some rc, socket) =>
              if rc < 0 then .ok (.error (some rc), socket)
              else .ok (.ok (), socket)
  | _ => .ok (.error (some c.invalidArgument), socket)

/- A command from the call of `recvReply` on. -/
def answer
    (c : Command)
    (m : Memory)
    (socket : OssSocket) : Except Fault Transferred :=
  match recvReply m socket with
  | (none, m, socket) => .ok (none, m, socket)
  | (some rc, m, socket) =>
      if rc < 0 then .ok (some rc, m, socket)
      else do
        let rc ← c.handleReply m
        return (some rc, m, socket)

theorem execute_eq
    (c : Command)
    (argVec : List (Option BSONObj))
    (m : Memory)
    (socket : OssSocket) :
    c.execute argVec m socket =
      match c.request argVec socket with
      | .error fault => .error fault
      | .ok (.error rc, socket) => .ok (rc, m, socket)
      | .ok (.ok (), socket) => c.answer m socket := by
  unfold execute request
  rcases argVec with _ | ⟨bsonData, _ | ⟨_, _⟩⟩
  · rfl
  · simp only
    rcases socket.isConnected with ⟨_ | _ | _, socket₁⟩
    · rfl
    · rfl
    · simp only
      rcases sendMsg c.onMsgBuild bsonData socket₁ with
        fault | ⟨_ | rc, socket₂⟩
      · rfl
      · rfl
      · simp only
        split
        · rfl
        · rfl
  · rfl

/- Nothing is received before the request has been sent. -/
theorem request_input
    {c : Command}
    {argVec : List (Option BSONObj)}
    {socket socket' : OssSocket}
    {sent : Except (Option Int) Unit}
    (hRequest : c.request argVec socket =
      .ok (sent, socket')) :
    socket'.input = socket.input := by
  unfold request at hRequest
  split at hRequest
  · rename_i bsonData
    have hInput := isConnected_input socket
    rcases hConnected : socket.isConnected with
      ⟨_ | _ | _, socket₁⟩
    · rw [hConnected] at hRequest hInput
      obtain ⟨_, rfl⟩ := Prod.mk.inj (Except.ok.inj hRequest)
      exact hInput
    · rw [hConnected] at hRequest hInput
      obtain ⟨_, rfl⟩ := Prod.mk.inj (Except.ok.inj hRequest)
      exact hInput
    · rw [hConnected] at hRequest hInput
      simp only at hRequest hInput
      rcases hSend : sendMsg c.onMsgBuild bsonData socket₁
        with fault | ⟨_ | rc, socket₂⟩
      · rw [hSend] at hRequest
        cases hRequest
      · rw [hSend] at hRequest
        obtain ⟨_, rfl⟩ :=
          Prod.mk.inj (Except.ok.inj hRequest)
        exact (sendMsg_input hSend).trans hInput
      · rw [hSend] at hRequest
        simp only at hRequest
        split at hRequest
        all_goals
          obtain ⟨_, rfl⟩ :=
            Prod.mk.inj (Except.ok.inj hRequest)
          exact (sendMsg_input hSend).trans hInput
  · obtain ⟨_, rfl⟩ := Prod.mk.inj (Except.ok.inj hRequest)
    rfl

end Command

------------------------------------------------------------
-- Sessions
------------------------------------------------------------

/-
  A call of a command, what its object has in the receive
  buffer and behind it, and what the server answers if it
  gets the request.
-/
structure Exchange where
  command : Command
  argVec : List (Option BSONObj)
  recvBuf : Memory
  reply : List UInt8

/-
  The buffer with which a command called `handleReply`, and
  the server's reply to the request of this command.
-/
structure Evaluated where
  recvBuf : Memory
  reply : List UInt8

/- The buffer holds the reply to this very request. -/
def Evaluated.InStep (e : Evaluated) : Prop :=
  e.recvBuf.bytes 0 e.reply.length = e.reply

instance (e : Evaluated) : Decidable e.InStep :=
  inferInstanceAs (Decidable (_ = _))

/- The codes of a reply that the connection did not bring. -/
def ConnectionFailure (rc : Int) : Prop :=
  rc = edbSocketNotConnect ∨ rc = edbSocketRemoteClosed

instance (rc : Int) : Decidable (ConnectionFailure rc) :=
  inferInstanceAs (Decidable (_ ∨ _))

namespace Exchange

/- The reply arrives behind what is still to be received. -/
def replied
    (e : Exchange)
    (socket : OssSocket) : OssSocket :=
  { socket with input := socket.input ++ e.reply }

/- The socket behind a request that was sent. -/
def sent
    (e : Exchange)
    (socket : OssSocket) : Option OssSocket :=
  match e.command.request e.argVec socket with
  | .ok (.ok (), socket) => some socket
  | _ => none

/-
  What a call evaluates, if it does, and the socket for the
  next call.  There is none after a call that waits or ends
  the process, an exception of `handleReply`, a request that
  was sent in part and a failure of the connection.
-/
def run
    (e : Exchange)
    (socket : OssSocket) :
    Option Evaluated × Option OssSocket :=
  match e.command.request e.argVec socket with
  | .error _ => (none, none)
  | .ok (.error none, _) => (none, none)
  | .ok (.error (some _), socket') =>
      (none, if socket'.output = socket.output then
        some socket' else none)
  | .ok (.ok (), socket) =>
      match recvReply e.recvBuf (e.replied socket) with
      | (none, _, _) => (none, none)
      | (some rc, m, socket) =>
          if rc = edbOk then
            (some ⟨m, e.reply⟩,
              match e.command.handleReply m with
              | .error _ => none
              | .ok _ => some socket)
          else if ConnectionFailure rc then (none, none)
          else
            -- what was not received stays in the stream
            (none, some socket)

end Exchange

/- What the commands of a session evaluate, in order. -/
def evaluated : List Exchange → OssSocket → List Evaluated
| [], _ => []
| e :: rest, socket =>
    (e.run socket).1.toList ++
      match (e.run socket).2 with
      | none => []
      | some socket => evaluated rest socket

/-
  Every command that evaluates a reply evaluates the one to
  its own request.
-/
def InStep
    (session : List Exchange)
    (socket : OssSocket) : Prop :=
  ∀ e ∈ evaluated session socket, e.InStep

instance
    (session : List Exchange)
    (socket : OssSocket) :
    Decidable (InStep session socket) :=
  inferInstanceAs (Decidable (∀ e ∈ _, Evaluated.InStep e))

------------------------------------------------------------
-- Receives That Are Not Broken Off
------------------------------------------------------------

/- The next waits end, and no error but an interrupt. -/
def WaitsCalm : List SelectResult → Nat → Prop
| [], _ => True
| _ :: _, 0 => True
| .timeout :: rest, waits + 1 => WaitsCalm rest (waits + 1)
| .error errno :: rest, waits + 1 =>
    errno.1 = eintr ∧ WaitsCalm rest (waits + 1)
| .ready isSet :: rest, waits + 1 =>
    if isSet then WaitsCalm rest waits
    else WaitsCalm rest (waits + 1)

/-
  Until `len` bytes are received no answer is the end of the
  stream and no error but few interrupts.  The answers behind
  them have the property `After`.
-/
def RecvCalm
    (After : List RecvResult → Prop) :
    List RecvResult → Nat → Nat → Prop
| [], _, len => len = 0 → After []
| result :: rest, retries, len =>
    if len = 0 then After (result :: rest)
    else
      match result with
      | .received n =>
          0 < n ∧ RecvCalm After rest retries (len - n)
      | .error errno =>
          errno.1 = eintr ∧ retries < maxRecvRetries ∧
            RecvCalm After rest (retries + 1) len

instance decidableWaitsCalm :
    (selects : List SelectResult) → (waits : Nat) →
      Decidable (WaitsCalm selects waits)
| [], _ => .isTrue trivial
| _ :: _, 0 => .isTrue trivial
| .timeout :: rest, waits + 1 =>
    decidableWaitsCalm rest (waits + 1)
| .error _ :: rest, waits + 1 =>
    haveI := decidableWaitsCalm rest (waits + 1)
    inferInstanceAs (Decidable (_ ∧ _))
| .ready true :: rest, waits + 1 =>
    decidableWaitsCalm rest waits
| .ready false :: rest, waits + 1 =>
    decidableWaitsCalm rest (waits + 1)

instance decidableRecvCalm
    (After : List RecvResult → Prop)
    [DecidablePred After] :
    (recvs : List RecvResult) → (retries len : Nat) →
      Decidable (RecvCalm After recvs retries len)
| [], _, _ => inferInstanceAs (Decidable (_ → _))
| .received n :: rest, retries, len =>
    haveI := decidableRecvCalm After rest retries (len - n)
    inferInstanceAs (Decidable (if len = 0 then
      After (.received n :: rest) else _ ∧ _))
| .error _ :: rest, retries, len =>
    haveI := decidableRecvCalm After rest (retries + 1) len
    inferInstanceAs (Decidable (if len = 0 then
      After (.error _ :: rest) else _ ∧ _ ∧ _))

/-
  Neither of the two receives of a reply of `n` bytes is
  broken off.
-/
def OssSocket.Delivers (s : OssSocket) (n : Nat) : Prop :=
  WaitsCalm s.selects 2 ∧
    RecvCalm
      (fun rest => RecvCalm (fun _ => True) rest 0 (n - 4))
      s.recvs 0 4

instance (s : OssSocket) (n : Nat) :
    Decidable (s.Delivers n) :=
  inferInstanceAs (Decidable (_ ∧ _))

section Calm

variable {After : List RecvResult → Prop}
variable {m m' : Memory} {socket socket' : OssSocket}
variable {a len k : Nat} {rc : Option Int}

theorem waitReady_calm
    {selects rest : List SelectResult}
    (hCalm : WaitsCalm selects (k + 1))
    (hWait : OssSocket.waitReady selects = (rc, rest)) :
    rc = none ∨ (rc = some edbOk ∧ WaitsCalm rest k) ∨
      (rc = some edbTimeout ∧ WaitsCalm rest (k + 1)) := by
  induction selects with
  | nil =>
      obtain ⟨rfl, _⟩ := Prod.mk.inj hWait
      exact Or.inl rfl
  | cons result selects ih =>
      cases result with
      | timeout =>
          obtain ⟨rfl, rfl⟩ := Prod.mk.inj hWait
          exact Or.inr (Or.inr ⟨rfl, hCalm⟩)
      | error errno =>
          rcases hCalm with ⟨hInterrupt, hRest⟩
          unfold OssSocket.waitReady at hWait
          rw [if_pos hInterrupt] at hWait
          exact ih hRest hWait
      | ready isSet =>
          unfold OssSocket.waitReady at hWait
          unfold WaitsCalm at hCalm
          cases isSet with
          | true =>
              obtain ⟨rfl, rfl⟩ := Prod.mk.inj hWait
              exact Or.inr (Or.inl ⟨rfl, hCalm⟩)
          | false => exact ih hCalm hWait

/- The loop waits, or it has received what was asked for. -/
theorem recvLoop_calm
    {timeout : Int}
    {recvs : List RecvResult}
    {retries : Nat}
    {input : List UInt8}
    (hCalm : RecvCalm After recvs retries len)
    (hInput : len ≤ input.length)
    {r : OssSocket.Received}
    (hLoop : OssSocket.recvLoop timeout recvs retries m a len
      input = r) :
    r.rc = none ∨ (r.rc = some edbOk ∧ After r.recvs) := by
  induction recvs generalizing retries m a len input with
  | nil =>
      unfold OssSocket.recvLoop at hLoop
      subst hLoop
      by_cases hMore : (0 : Int) < len
      · rw [if_pos hMore]
        exact Or.inl rfl
      · rw [if_neg hMore]
        exact Or.inr ⟨rfl, hCalm (by omega)⟩
  | cons result rest ih =>
      unfold OssSocket.recvLoop at hLoop
      unfold RecvCalm at hCalm
      by_cases hDone : len = 0
      · rw [if_neg (by omega)] at hLoop
        rw [if_pos hDone] at hCalm
        subst hLoop
        exact Or.inr ⟨rfl, hCalm⟩
      · rw [if_pos (by omega)] at hLoop
        rw [if_neg hDone] at hCalm
        cases result with
        | received n =>
            rcases hCalm with ⟨hSome, hRest⟩
            -- All that one call would return is there.
            have hChunk : (input.take (min n
                (len : Int).toNat)).length = min n len := by
              rw [List.length_take]
              omega
            have hLeft : (len : Int) - (min n len : Nat) =
                (len - n : Nat) := by
              omega
            simp only [hChunk, hLeft] at hLoop
            rw [if_pos (by omega)] at hLoop
            refine ih hRest ?_ hLoop
            rw [List.length_drop]
            omega
        | error errno =>
            rcases hCalm with ⟨hInterrupt, hFew, hRest⟩
            simp only at hLoop
            rw [if_neg (by
                rw [hInterrupt]
                rintro ⟨hAgain, _⟩
                exact absurd hAgain (by decide)),
              if_pos ⟨hInterrupt, hFew⟩] at hLoop
            exact ih hRest hInput hLoop

theorem recv_calm
    (hWaits : WaitsCalm socket.selects (k + 1))
    (hRecvs : RecvCalm After socket.recvs 0 len)
    (hLen : 0 < len)
    (hInput : len ≤ socket.input.length)
    (hRecv : socket.recv m a len = (rc, m', socket')) :
    rc = none ∨
      (rc = some edbOk ∧ WaitsCalm socket'.selects k ∧
        After socket'.recvs) ∨
      (rc = some edbTimeout ∧
        WaitsCalm socket'.selects (k + 1) ∧
          socket'.recvs = socket.recvs ∧
            socket'.input = socket.input) := by
  unfold OssSocket.recv at hRecv
  rw [if_neg (by omega)] at hRecv
  rcases hWait : OssSocket.waitReady socket.selects with
    ⟨rcWait, rest⟩
  rw [hWait] at hRecv
  simp only at hRecv
  rcases waitReady_calm hWaits hWait with
    rfl | ⟨rfl, hRest⟩ | ⟨rfl, hRest⟩
  · rw [if_pos (by simp)] at hRecv
    exact Or.inl (Prod.mk.inj hRecv).1.symm
  · rw [if_neg (by simp)] at hRecv
    obtain ⟨rfl, hPair⟩ := Prod.mk.inj hRecv
    obtain ⟨_, rfl⟩ := Prod.mk.inj hPair
    rcases recvLoop_calm hRecvs hInput rfl with
      hWaiting | ⟨hOk, hAfter⟩
    · exact Or.inl hWaiting
    · exact Or.inr (Or.inl ⟨hOk, hRest, hAfter⟩)
  · rw [if_pos (by decide)] at hRecv
    obtain ⟨rfl, hPair⟩ := Prod.mk.inj hRecv
    obtain ⟨_, rfl⟩ := Prod.mk.inj hPair
    exact Or.inr (Or.inr ⟨rfl, hRest, rfl, rfl⟩)

/- Also with the tries after a timeout. -/
theorem recvRetry_calm
    (tries : Nat)
    (hWaits : WaitsCalm socket.selects (k + 1))
    (hRecvs : RecvCalm After socket.recvs 0 len)
    (hLen : 0 < len)
    (hInput : len ≤ socket.input.length)
    (hRecv : recvRetry a len tries m socket =
      (rc, m', socket')) :
    rc = none ∨
      (rc = some edbOk ∧ WaitsCalm socket'.selects k ∧
        After socket'.recvs) := by
  induction tries generalizing m socket with
  | zero => exact Or.inl (Prod.mk.inj hRecv).1.symm
  | succ tries ih =>
      unfold recvRetry at hRecv
      rcases hTry : socket.recv m a len with
        ⟨rcTry, m₁, socket₁⟩
      rw [hTry] at hRecv
      rcases recv_calm hWaits hRecvs hLen hInput hTry with
        rfl | ⟨rfl, hRest, hAfter⟩ | ⟨rfl, hRest, hSame, hLeft⟩
      · exact Or.inl (Prod.mk.inj hRecv).1.symm
      · simp only [if_true] at hRecv
        obtain ⟨rfl, hPair⟩ := Prod.mk.inj hRecv
        obtain ⟨_, rfl⟩ := Prod.mk.inj hPair
        exact Or.inr ⟨rfl, hRest, hAfter⟩
      · simp only at hRecv
        rw [if_neg (by decide), if_pos trivial] at hRecv
        exact ih hRest (hSame ▸ hRecvs) (hLeft ▸ hInput) hRecv

end Calm

------------------------------------------------------------
-- Replies of the Server
------------------------------------------------------------

/- A message of the length that it starts with. -/
structure IsReply (reply : List UInt8) : Prop where
  least : (sizeofMsgReply : Int) ≤ replyLength reply
  whole : replyLength reply = reply.length

/- The bytes that the server sends of a message. -/
def messageBytes (b : MsgBuffer) : List UInt8 :=
  b.mem.bytes 0 (msgLen b.mem).toNat

/- The first word of a block that starts a stream. -/
theorem streamInt_bytes
    (m : Memory)
    {n i : Nat}
    (hInside : i + 4 ≤ n) :
    streamInt (m.bytes 0 n) i = m.int i := by
  have hSame : Memory.Same
      (Memory.store (fun _ => 0) 0 (m.bytes 0 n)) 0 m 0 n := by
    apply Memory.same_of_bytes_eq
    have hStored := Memory.bytes_store (fun _ => 0) 0
      (m.bytes 0 n)
    rwa [Memory.length_bytes] at hStored
  have hWord := Memory.word_congr
    (hSame.slice (k := i) (l := 4) hInside)
  rw [Nat.zero_add] at hWord
  unfold streamInt Memory.int
  rw [hWord]

/- What `msgBuildReply` builds is a reply. -/
theorem isReply_of_build
    {realloc : Option Memory}
    {b b' : MsgBuffer}
    {code : Int}
    {obj : Option BSONObj}
    (hCode : IsInt code)
    (hSize : ∀ o, obj = some o → ValidSize o)
    (hBuild : msgBuildReply realloc b code obj =
      (edbOk, b')) :
    IsReply (messageBytes b') := by
  have hFields : ∀ v ∈ [code,
      if obj.isSome then (1 : Int) else 0], IsInt v := by
    intro v hv
    rw [List.mem_pair] at hv
    rcases hv with rfl | rfl
    · exact hCode
    · split <;> decide
  have hHolds := (msgBuild_holds hSize (by simp) hFields
    (by decide) hBuild).1
  have hLen : msgLen b'.mem =
      sizeofMsgReply + bodySize obj := hHolds.len
  have hBody : 0 ≤ bodySize obj := by
    cases obj with
    | none => exact le_refl _
    | some o =>
        have hValid := (hSize o rfl).1
        exact le_trans (by decide) hValid
  have hLeast : (16 : Int) ≤ msgLen b'.mem := by
    rw [hLen]
    simp only [sizeofMsgReply, sizeofMsg, sizeofMsgHeader]
    omega
  have hFirst : replyLength (messageBytes b') =
      msgLen b'.mem :=
    streamInt_bytes _ (by omega)
  have hLength : ((messageBytes b').length : Int) =
      msgLen b'.mem := by
    unfold messageBytes
    rw [Memory.length_bytes]
    omega
  constructor
  · rw [hFirst]
    exact hLeast
  · rw [hFirst, hLength]

------------------------------------------------------------
-- Staying in Step
------------------------------------------------------------

section InStep

variable {m m' : Memory} {socket socket' : OssSocket}
variable {reply : List UInt8}

/-
  A reply that is all there is in the stream is in the
  buffer, and nothing is left, if it is received at all.
-/
theorem recvReply_inStep
    (hReply : IsReply reply)
    (hInput : socket.input = reply)
    (hRecv : recvReply m socket =
      (some edbOk, m', socket')) :
    m'.bytes 0 reply.length = reply ∧ socket'.input = [] := by
  rcases recvReply_ok hRecv with ⟨_, _, hMem, hRest⟩
  have hLeast := hReply.least
  have hWhole := hReply.whole
  rw [sizeofMsgReply_eq] at hLeast
  have hSize : replySize reply = reply.length := by
    rw [replySize_eq (by omega)]
    omega
  rw [hInput, hSize] at hRest
  constructor
  · rw [hMem, hInput]
    unfold replyBuffer
    rw [hSize, List.take_length]
    exact Memory.bytes_store _ _ _
  · rw [hRest, List.drop_length]

/-
  A reply that fits the buffer and whose receives are not
  broken off is received, unless the client still waits or is
  not connected any more.
-/
theorem recvReply_delivered
    {rc : Option Int}
    (hReply : IsReply reply)
    (hFits : reply.length ≤ recvBufSize)
    (hInput : socket.input = reply)
    (hDelivers : socket.Delivers reply.length)
    (hRecv : recvReply m socket = (rc, m', socket')) :
    rc = none ∨ rc = some edbOk ∨
      rc = some edbSocketNotConnect := by
  have hLeast := hReply.least
  have hWhole := hReply.whole
  rw [sizeofMsgReply_eq] at hLeast
  unfold recvReply at hRecv
  -- The connection test uses one answer of `send`.
  have hSame := isConnected_frame socket
  rcases hConnected : socket.isConnected with
    ⟨_ | _ | _, socket₁⟩
  · rw [hConnected] at hRecv
    exact Or.inl (Prod.mk.inj hRecv).1.symm
  · rw [hConnected] at hRecv
    exact Or.inr (Or.inr (Prod.mk.inj hRecv).1.symm)
  · rw [hConnected] at hRecv hSame
    rcases hSame with ⟨hSelects, hRecvs, hLeft⟩
    simp only at hRecv hSelects hRecvs hLeft
    rcases hFirst : recvAll 0 4 (m.fill 0 recvBufSize 0)
        socket₁ with ⟨rcFirst, m₁, socket₂⟩
    rw [hFirst] at hRecv
    have hFour : 4 ≤ socket₁.input.length := by
      rw [hLeft, hInput]
      omega
    rcases recvRetry_calm _ (hSelects ▸ hDelivers.1)
        (hRecvs ▸ hDelivers.2) (by decide) hFour hFirst with
      rfl | ⟨rfl, hWaits, hAfter⟩
    · exact Or.inl (Prod.mk.inj hRecv).1.symm
    · rcases recvAll_ok hFirst with ⟨hLong, hMem, hRest⟩
      rw [hLeft, hInput] at hLong hMem hRest
      have hLength : m₁.int 0 = reply.length := by
        rw [hMem, ← hWhole]
        exact int_store_take _ hLong (le_refl _)
      have hBody : wrapInt ((reply.length : Int) - 4) =
          (reply.length - 4 : Nat) := by
        rw [wrapInt_of_range (by omega)
          (by simp only [recvBufSize] at hFits; omega)]
        omega
      simp only at hRecv
      rw [if_neg (by simp), hLength, if_neg (by omega), hBody]
        at hRecv
      rcases recvRetry_calm _ hWaits hAfter (by omega)
          (by rw [hRest, List.length_drop]; exact le_refl _)
          hRecv with rfl | ⟨rfl, _, _⟩
      · exact Or.inl rfl
      · exact Or.inr (Or.inl rfl)

/-
  If the call sends a request, its reply fits the receive
  buffer and its receives are not broken off.
-/
def Exchange.Delivered
    (e : Exchange)
    (socket : OssSocket) : Prop :=
  ∀ sent ∈ e.sent socket,
    e.reply.length ≤ recvBufSize ∧
      sent.Delivers e.reply.length

instance (e : Exchange) (socket : OssSocket) :
    Decidable (e.Delivered socket) :=
  inferInstanceAs (Decidable (∀ sent ∈ _, _))

/- So it is for every call of the session. -/
def AllDelivered : List Exchange → OssSocket → Prop
| [], _ => True
| e :: rest, socket =>
    e.Delivered socket ∧
      ∀ next ∈ (e.run socket).2, AllDelivered rest next

instance decidableAllDelivered :
    (session : List Exchange) → (socket : OssSocket) →
      Decidable (AllDelivered session socket)
| [], _ => .isTrue trivial
| _ :: rest, _ =>
    haveI : DecidablePred (AllDelivered rest) :=
      decidableAllDelivered rest
    inferInstanceAs (Decidable (_ ∧ ∀ next ∈ _, _))

/-
  A call that starts with an empty stream evaluates its own
  reply, if it evaluates one, and leaves an empty stream.
-/
theorem Exchange.run_inStep
    {e : Exchange}
    (hReply : IsReply e.reply)
    (hFresh : socket.input = [])
    (hDelivered : e.Delivered socket) :
    (∀ x ∈ (e.run socket).1, x.InStep) ∧
      ∀ next ∈ (e.run socket).2, next.input = [] := by
  unfold Exchange.run
  rcases hRequest : e.command.request e.argVec socket with
    fault | ⟨(_ | rc) | _, socket₁⟩
  · simp
  · simp
  · -- No request was sent, so none is answered.
    refine ⟨by simp, ?_⟩
    intro next hNext
    simp only at hNext
    split at hNext
    · obtain rfl := Option.some.inj hNext
      exact (Command.request_input hRequest).trans hFresh
    · cases hNext
  · have hInput : (e.replied socket₁).input = e.reply := by
      unfold Exchange.replied
      rw [Command.request_input hRequest, hFresh,
        List.nil_append]
    have hSent : e.sent socket = some socket₁ := by
      unfold Exchange.sent
      rw [hRequest]
    rcases hDelivered socket₁ hSent with ⟨hFits, hDelivers⟩
    rcases hRecv : recvReply e.recvBuf (e.replied socket₁)
      with ⟨rc, m, socket₂⟩
    rcases recvReply_delivered hReply hFits hInput
        hDelivers hRecv with
      rfl | rfl | rfl
    · simp [hRecv]
    · rcases recvReply_inStep hReply hInput hRecv with
        ⟨hBuffer, hLeft⟩
      simp only [hRecv, if_true]
      constructor
      · intro x hx
        obtain rfl := Option.some.inj hx
        exact hBuffer
      · intro next hNext
        split at hNext
        · cases hNext
        · obtain rfl := Option.some.inj hNext
          exact hLeft
    · simp [hRecv, ConnectionFailure, edbOk]

end InStep

------------------------------------------------------------
-- A Reply That Is Too Long
------------------------------------------------------------

/- The reply of the server with this code and object. -/
def serverReply
    (code : Int)
    (obj : Option BSONObj) : List UInt8 :=
  messageBytes (msgBuildReply (some (fun _ => 0))
    ⟨fun _ => 0, sizeofMsgReply⟩ code obj).2

theorem serverReply_isReply
    {code : Int}
    {obj : Option BSONObj}
    (hCode : IsInt code)
    (hSize : ∀ o, obj = some o → ValidSize o) :
    IsReply (serverReply code obj) := by
  have hFew : [code, if obj.isSome then (1 : Int) else
        0].length ≤ 2 := le_refl 2
  have hBuild : (msgBuildReply (some (fun _ => 0))
      ⟨fun _ => 0, sizeofMsgReply⟩ code obj).1 = edbOk := by
    rcases msgBuild_cases (fun o ho => (hSize o ho).isValid)
        hFew with hOk | hFail
    · exact hOk
    · exact absurd hFail.2.1 (by simp)
  exact isReply_of_build hCode hSize (Prod.ext hBuild rfl)

/- The record with a text of 4066 letters for its `_id`. -/
def longRecord : BSONObj :=
  ⟨Memory.store (fun _ => 0) 0
    ([0xf1, 0x0f, 0, 0, 2, 95, 105, 100, 0, 0xe3, 0x0f, 0, 0]
      ++ List.replicate 4066 97 ++ [0, 0]), 0⟩

/-
  A query that finds this record, and an insert of a record
  that is there already.
-/
def queryAndInsert (found : BSONObj) : List Exchange :=
  [⟨queryCommand (fun _ => .ok ()), [some emptyObj],
      fun _ => 0, serverReply edbOk (some found)⟩,
    ⟨insertCommand, [some emptyObj],
      fun _ => 0, serverReply edbIxmIdExist none⟩]

/- A socket on which every call of two commands succeeds. -/
def twoCommands : OssSocket where
  timeout := 0
  selects := List.replicate 6 (.ready true)
  sends := [.sent 0, .sent sendBufSize, .sent 0,
    .sent 0, .sent sendBufSize, .sent 0]
  recvs := [.received 4, .received recvBufSize,
    .received 4, .received recvBufSize]
  input := []
  output := []

theorem queryAndInsert_replies
    {found : BSONObj}
    (hValid : ValidSize found)
    (e : Exchange)
    (hMem : e ∈ queryAndInsert found) :
    IsReply e.reply := by
  rw [queryAndInsert, List.mem_pair] at hMem
  rcases hMem with rfl | rfl
  · exact serverReply_isReply (by decide)
      (fun o ho => Option.some.inj ho ▸ hValid)
  · exact serverReply_isReply (by decide) (by simp)

end EmeraldDb
