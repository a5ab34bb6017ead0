import EmeraldDb.Lib.Frames
import EmeraldDb.Pmd.Agent

/-
  The packets that an agent handles.

  A round of the loop of `pmdAgentEntryPoint` is split where
  it calls `pmdProcessAgentRequest`: what it hands over there
  is a packet, and what it does then depends on the result.
  The packets of all rounds are frames of the stream, in
  order, whatever the calls of the socket answer.

  Key definitions include:
    * `packetSize`
    * `Agent.handOver`
    * `Agent.packets`

  Key results include:
    * `Agent.round_eq`
    * `Agent.handOver_frame`
    * `packets_framed`
-/

namespace EmeraldDb

/-
  The length of the packet at the start of a stream: four
  bytes have it, and it counts them.
-/
def packetSize (s : List UInt8) : Option Nat :=
  if 4 ≤ s.length ∧ 4 ≤ streamInt s 0 then
    some (streamInt s 0).toNat
  else none

------------------------------------------------------------
-- What a Round Hands Over
------------------------------------------------------------

/-
  The arguments of a call of `pmdProcessAgentRequest`, and
  the agent that makes it.
-/
structure Handed where
  agent : Agent
  request : Memory
  packetLen : Int
  result : MsgBuffer

namespace Handed

/- The bytes of the request that are part of the packet. -/
def packet (h : Handed) : List UInt8 :=
  h.request.bytes 0 h.packetLen.toNat

/- What a round does with the result of the request. -/
def answer
    (h : Handed)
    (r : Round) : Except Exit Agent :=
  let (rc, result) := r.process h.request h.packetLen h.result
  if rc ≠ edbOk then .error (agentError rc)
  else
    match pmdSend result.mem 0 (msgLen result.mem)
        r.forcedSend h.agent.socket with
    | (none, _) => .error .waiting
    | (some rc, socket) =>
        if rc ≠ edbOk ∧ rc ≠ edbAppForced then
          .error (agentError rc)
        else if r.waitEDU ≠ edbOk then
          .error (agentError r.waitEDU)
        else
          .ok { h.agent with
            recvBuffer := h.request
            resultBuffer := result
            socket := socket }

end Handed

namespace Agent

/- The end of a request is marked and the result buffer made. -/
def prepare
    (ag : Agent)
    (r : Round)
    (packetLen : Int) : Except Exit Handed :=
  let request := ag.recvBuffer.store packetLen.toNat [0]
  if r.activateEDU ≠ edbOk then
    .error (agentError r.activateEDU)
  else
    let result : Option MsgBuffer :=
      if (sizeofMsgReply : Int) < ag.resultBuffer.size then
        r.freshResult.map (fun f => ⟨f, sizeofMsgReply⟩)
      else some ag.resultBuffer
    match result with
    | none => .error (agentError edbOom)
    | some result => .ok ⟨ag, request, packetLen, result⟩

def receiveRest
    (ag : Agent)
    (r : Round)
    (packetLen : Int) : Except Exit Handed :=
  match pmdRecv 4 (wrapInt (packetLen - 4)) r.forcedBody
      ag.recvBuffer ag.socket with
  | (none, _) => .error .waiting
  | (some rc, m, socket) =>
      if rc ≠ edbOk then .error (agentError rc)
      else
        { ag with recvBuffer := m, socket := socket }.prepare r
          packetLen

/- One round up to the call of `pmdProcessAgentRequest`. -/
def handOver
    (ag : Agent)
    (r : Round) : Except Exit Handed :=
  match pmdRecv 0 4 r.forcedLength ag.recvBuffer
      ag.socket with
  | (none, _) => .error .waiting
  | (some rc, m, socket) =>
      if rc ≠ edbOk then .error (agentError rc)
      else
        let packetLen := m.int 0
        let (rc, ag) := { ag with
          recvBuffer := m
          socket := socket }.checkLength packetLen r.fresh
        if rc ≠ edbOk then .error (agentError rc)
        else ag.receiveRest r packetLen

/- The packets that the rounds of the loop hand over. -/
def packets :
    List Round → Agent → List (List UInt8)
| [], _ => []
| r :: rest, ag =>
    match ag.handOver r with
    | .error _ => []
    | .ok h =>
        match h.answer r with
        | .error _ => [h.packet]
        | .ok ag => h.packet :: packets rest ag

theorem serve_eq
    (ag : Agent)
    (r : Round)
    (packetLen : Int) :
    ag.serve r packetLen =
      (ag.prepare r packetLen >>= fun h => h.answer r) := by
  unfold serve prepare
  simp only
  split
  · rfl
  · cases hResult : (if (sizeofMsgReply : Int) <
        ag.resultBuffer.size then
      r.freshResult.map (fun f => (⟨f, sizeofMsgReply⟩ :
        MsgBuffer))
      else some ag.resultBuffer) with
    | none => rfl
    | some result => rfl

/-
  A round calls `pmdProcessAgentRequest` with what it hands
  over, and goes on with the result.
-/
theorem round_eq
    (ag : Agent)
    (r : Round) :
    (ag.round r).2 =
      (ag.handOver r >>= fun h => h.answer r) := by
  unfold round handOver
  rcases pmdRecv 0 4 r.forcedLength ag.recvBuffer ag.socket
    with ⟨_ | rc, m, socket⟩
  · rfl
  · simp only
    split
    · rfl
    · rcases checkLength { ag with
        recvBuffer := m
        socket := socket } (m.int 0) r.fresh with ⟨rc', ag'⟩
      simp only
      split
      · rfl
      · unfold receiveBody receiveRest
        rcases pmdRecv 4 (wrapInt (m.int 0 - 4)) r.forcedBody
          ag'.recvBuffer ag'.socket with ⟨_ | rc'', m', socket'⟩
        · rfl
        · simp only
          split
          · rfl
          · exact serve_eq _ r _

------------------------------------------------------------
-- Packets Are Frames
------------------------------------------------------------

variable {ag ag' : Agent} {r : Round} {packetLen : Int}

/- A block that was received behind a length, with it. -/
theorem bytes_received
    (m : Memory)
    {input : List UInt8}
    {n : Nat}
    (hHead : m.bytes 0 4 = input.take 4)
    (hFour : 4 ≤ n)
    (hLong : n ≤ input.length) :
    ((m.store 4 ((input.drop 4).take (n - 4))).store n
      [0]).bytes 0 n = input.take n := by
  have hLength : ((input.drop 4).take (n - 4)).length =
      n - 4 := by
    rw [List.length_take, List.length_drop]
    omega
  -- Neither the byte behind the packet nor the body is in
  -- the way of the bytes before it.
  have hEnd : Memory.Same
      ((m.store 4 ((input.drop 4).take (n - 4))).store n [0]) 0
      (m.store 4 ((input.drop 4).take (n - 4))) 0 n := by
    intro i hi
    exact Memory.store_of_disjoint _ _ (by omega)
  have hFront : Memory.Same
      (m.store 4 ((input.drop 4).take (n - 4))) 0 m 0 4 := by
    intro i hi
    exact Memory.store_of_disjoint _ _ (by omega)
  have hBody := Memory.bytes_store m 4
    ((input.drop 4).take (n - 4))
  rw [hLength] at hBody
  rw [hEnd.bytes]
  have hSplit : n = 4 + (n - 4) := by omega
  conv_lhs => rw [hSplit]
  rw [Memory.bytes_add, ← hSplit, hFront.bytes, hHead,
    Nat.zero_add, hBody, ← List.take_add, ← hSplit]

/- A buffer that is large enough keeps what was received. -/
theorem checkLength_frame
    (hSized : ag.Sized)
    {fresh : Option Memory}
    (hOk : (ag.checkLength packetLen fresh).1 = edbOk) :
    4 ≤ packetLen ∧
      (ag.checkLength packetLen fresh).2.socket = ag.socket ∧
      Memory.Same
        (ag.checkLength packetLen fresh).2.recvBuffer 0
        ag.recvBuffer 0 4 := by
  have hExact := hSized.exact
  have hLeast := hSized.least
  unfold checkLength at hOk ⊢
  split
  · rename_i hShort
    rw [if_pos hShort] at hOk
    exact absurd hOk invalidArg_ne_ok
  · rename_i hLong
    rw [if_neg hLong] at hOk
    refine ⟨by omega, ?_⟩
    split
    · rename_i hGrow
      rw [if_pos hGrow] at hOk
      simp only at hOk ⊢
      split
      · rename_i hNone
        rw [hNone] at hOk
        exact absurd hOk oom_ne_ok
      · rename_i m hSome
        refine ⟨rfl, ?_⟩
        unfold realloc at hSome
        split at hSome
        · simp at hSome
        · rcases Option.map_eq_some_iff.1 hSome with
            ⟨f, _, rfl⟩
          intro i hi
          simp only [Nat.zero_add]
          rw [if_pos (by omega)]
    · exact ⟨rfl, Memory.Same.refl _ _ _⟩

theorem prepare_ok
    {h : Handed}
    (hPrepare : ag.prepare r packetLen = .ok h) :
    h.agent = ag ∧ h.packetLen = packetLen ∧
      h.request = ag.recvBuffer.store packetLen.toNat [0] := by
  unfold prepare at hPrepare
  simp only at hPrepare
  split at hPrepare
  · simp at hPrepare
  · split at hPrepare
    · simp at hPrepare
    · obtain rfl := Except.ok.inj hPrepare
      exact ⟨rfl, rfl, rfl⟩

/-
  The rest of a request is received behind its length, and
  its bytes are those of the stream.
-/
theorem receiveRest_frame
    {h : Handed}
    {input : List UInt8}
    (hSized : ag.Sized)
    (hHead : ag.recvBuffer.bytes 0 4 = input.take 4)
    (hInput : ag.socket.input = input.drop 4)
    (hFour : 4 ≤ input.length)
    (hLeast : 4 ≤ packetLen)
    (hMost : packetLen < 2147483648)
    (hRest : ag.receiveRest r packetLen = .ok h) :
    h.agent.Sized ∧ packetLen.toNat ≤ input.length ∧
      h.packet = input.take packetLen.toNat ∧
      h.agent.socket.input = input.drop packetLen.toNat := by
  have hWrap : wrapInt (packetLen - 4) = packetLen - 4 :=
    wrapInt_of_range (by omega) (by omega)
  unfold receiveRest at hRest
  rw [hWrap] at hRest
  have hSpec := pmdRecv_spec 4 (packetLen - 4) r.forcedBody
    ag.recvBuffer ag.socket
  rcases hRecv : pmdRecv 4 (packetLen - 4) r.forcedBody
      ag.recvBuffer ag.socket with ⟨_ | rc, m, socket⟩
  · simp [hRecv] at hRest
  · rw [hRecv] at hRest hSpec
    simp only at hRest hSpec
    split at hRest
    · simp at hRest
    · rename_i hCode
      rcases hSpec with ⟨k, hLe, hLong, hMem, hLeft, hAll⟩
      have hK : k = (packetLen - 4).toNat := by
        apply hAll
        simpa using hCode
      have hCount : k = packetLen.toNat - 4 := by omega
      rw [hInput] at hLong hMem hLeft
      rw [List.length_drop] at hLong
      rcases prepare_ok hRest with ⟨hAgent, hLen, hRequest⟩
      refine ⟨?_, by omega, ?_, ?_⟩
      · rw [hAgent]
        exact ⟨hSized.exact, hSized.least, hSized.word⟩
      · unfold Handed.packet
        rw [hLen, hRequest]
        simp only [hMem, hCount]
        exact bytes_received _ hHead (by omega) (by omega)
      · rw [hAgent]
        simp only [hLeft, List.drop_drop, hCount]
        congr 1
        omega

/- What a round hands over is the next frame of the stream. -/
theorem handOver_frame
    {h : Handed}
    (hSized : ag.Sized)
    (hHand : ag.handOver r = .ok h) :
    h.agent.Sized ∧ ∃ n, packetSize ag.socket.input = some n ∧
      0 < n ∧ n ≤ ag.socket.input.length ∧
      h.packet = ag.socket.input.take n ∧
      h.agent.socket.input = ag.socket.input.drop n := by
  unfold handOver at hHand
  have hSpec := pmdRecv_spec 0 4 r.forcedLength ag.recvBuffer
    ag.socket
  rcases hRecv : pmdRecv 0 4 r.forcedLength ag.recvBuffer
      ag.socket with ⟨_ | rc, m, socket⟩
  · simp [hRecv] at hHand
  · rw [hRecv] at hHand hSpec
    simp only at hHand hSpec
    split at hHand
    · simp at hHand
    · rename_i hCode
      rcases hSpec with ⟨k, _, hLong, hMem, hLeft, hAll⟩
      obtain rfl : k = 4 := by
        apply hAll
        simpa using hCode
      have hStart : Sized { ag with
          recvBuffer := m
          socket := socket } :=
        ⟨hSized.exact, hSized.least, hSized.word⟩
      have hRange := m.int_range 0
      have hNext := checkLength_spec hStart hRange.1 hRange.2
        r.fresh
      have hFrame := @checkLength_frame _ (m.int 0) hStart r.fresh
      rcases hCheck : checkLength { ag with
          recvBuffer := m
          socket := socket } (m.int 0) r.fresh with ⟨rc', ag₁⟩
      rw [hCheck] at hHand hNext hFrame
      simp only at hHand hNext hFrame
      split at hHand
      · simp at hHand
      · rename_i hPassed
        rcases hFrame (by simpa using hPassed) with
          ⟨hLeast, hSocket, hSame⟩
        have hLength : m.int 0 =
            streamInt ag.socket.input 0 := by
          rw [hMem]
          exact int_store_take _ hLong (le_refl _)
        have hHead : ag₁.recvBuffer.bytes 0 4 =
            ag.socket.input.take 4 := by
          rw [hSame.bytes, hMem]
          have hStored := Memory.bytes_store ag.recvBuffer 0
            (ag.socket.input.take 4)
          rwa [List.length_take, Nat.min_eq_left hLong]
            at hStored
        have hInput : ag₁.socket.input =
            ag.socket.input.drop 4 := by
          rw [hSocket, hLeft]
        rcases receiveRest_frame hNext.1 hHead hInput hLong
          hLeast hRange.2 hHand with
          ⟨hEnd, hFits, hPacket, hAfter⟩
        refine ⟨hEnd, (m.int 0).toNat, ?_, by omega, hFits,
          hPacket, hAfter⟩
        unfold packetSize
        rw [hLength] at hLeast ⊢
        rw [if_pos ⟨hLong, hLeast⟩]

end Agent

theorem pmdSend_input
    (m : Memory)
    (a : Nat)
    (sendSize : Int)
    (forced : List Bool)
    (sock : OssSocket) :
    (pmdSend m a sendSize forced sock).2.input =
      sock.input := by
  induction forced generalizing sock with
  | nil => rfl
  | cons isForced rest ih =>
      unfold pmdSend
      have hSend := send_input sock m a sendSize
      cases isForced with
      | true => rfl
      | false =>
          simp only [Bool.false_eq_true, if_false]
          split
          · rw [ih, hSend]
          · exact hSend

/- The answer takes nothing from the stream. -/
theorem Handed.answer_frame
    {h : Handed}
    {r : Round}
    {ag' : Agent}
    (hSized : h.agent.Sized)
    (hAnswer : h.answer r = .ok ag') :
    ag'.Sized ∧ ag'.socket.input = h.agent.socket.input := by
  unfold Handed.answer at hAnswer
  simp only at hAnswer
  split at hAnswer
  · simp at hAnswer
  · split at hAnswer
    · simp at hAnswer
    · rename_i rc socket hSend
      have hInput := pmdSend_input
        (r.process h.request h.packetLen h.result).2.mem 0
        (msgLen
          (r.process h.request h.packetLen h.result).2.mem)
        r.forcedSend h.agent.socket
      rw [hSend] at hInput
      split at hAnswer
      · simp at hAnswer
      · split at hAnswer
        · simp at hAnswer
        · obtain rfl := Except.ok.inj hAnswer
          exact ⟨⟨hSized.exact, hSized.least, hSized.word⟩,
            hInput⟩

/- The packets of all rounds are frames of the stream. -/
theorem Agent.packets_frames
    {ag : Agent}
    (hSized : ag.Sized)
    (rounds : List Round) :
    ∃ rest, Frames packetSize ag.socket.input
      (Agent.packets rounds ag) rest := by
  induction rounds generalizing ag with
  | nil => exact ⟨_, .nil _⟩
  | cons r rest ih =>
      unfold Agent.packets
      cases hHand : ag.handOver r with
      | error exit => exact ⟨_, .nil _⟩
      | ok h =>
          rcases Agent.handOver_frame hSized hHand with
            ⟨hNext, n, hSize, hSome, hLong, hPacket, hInput⟩
          simp only
          cases hAnswer : h.answer r with
          | error exit =>
              rw [hPacket]
              exact ⟨_, .cons hSize hSome hLong (.nil _)⟩
          | ok ag' =>
              rcases Handed.answer_frame hNext hAnswer with
                ⟨hSized', hSame⟩
              rcases ih hSized' with ⟨left, hFrames⟩
              rw [hSame, hInput] at hFrames
              simp only [hPacket]
              exact ⟨left, .cons hSize hSome hLong hFrames⟩

/-
  Whatever the calls of the socket answer, and whenever a
  round ends, the packets that were handed over are the first
  ones of the stream, and no byte of the stream before the
  end of the last one is lost, repeated or moved.
-/
theorem packets_framed
    (rounds : List Round)
    (recvBuffer resultBuffer : Memory)
    (socket : OssSocket) :
    Agent.packets rounds
        (startAgent recvBuffer resultBuffer socket) <+:
      frames packetSize socket.input ∧
    ∃ rest, socket.input =
      (Agent.packets rounds
        (startAgent recvBuffer resultBuffer
          socket)).flatten ++ rest := by
  have hStart : (startAgent recvBuffer resultBuffer
      socket).Sized := by
    constructor <;> simp [startAgent]
  rcases Agent.packets_frames hStart rounds with
    ⟨rest, hFrames⟩
  exact ⟨hFrames.prefix_frames, rest, hFrames.flatten⟩

end EmeraldDb
