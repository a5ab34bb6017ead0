import EmeraldDb.Client.Session
import EmeraldDb.Pmd.OwnBytes

/-
  Messages on their way between client and agent.

  The bytes of a message make it up wherever they are stored.
  A client that has sent a request has handed over all of its
  bytes; the next round of an idle agent takes exactly these;
  and a client that has received a reply has all of it, also
  if the agent's send was broken off.

  Key definitions include:
    * `Carries`
    * `StoreOp.command`

  Key results include:
    * `carries_messageBytes`
    * `Command.request_sends`
    * `Agent.handOver_takes`
    * `recvReply_takes`
-/

namespace EmeraldDb

------------------------------------------------------------
-- Messages as Bytes
------------------------------------------------------------

/-
  The bytes start with their number, and a memory that starts
  with them starts with the message.
-/
structure Carries
    (bytes : List UInt8)
    (opCode : Int)
    (fields : List Int)
    (obj : Option BSONObj) : Prop where
  whole : streamInt bytes 0 = bytes.length
  least : sizeofMsg fields.length ≤ bytes.length
  holds : ∀ m : Memory, m.bytes 0 bytes.length = bytes →
    HoldsMessage m opCode fields obj

section Bytes

variable {m m' : Memory} {opCode : Int} {fields : List Int}
variable {obj : Option BSONObj} {bytes : List UInt8}

theorem bodySize_nonneg
    (hSize : ∀ o, obj = some o → ValidSize o) :
    0 ≤ bodySize obj := by
  cases obj with
  | none => exact le_refl _
  | some o =>
      have hLow := (hSize o rfl).1
      simp only [bodySize]
      omega

/- A message is read from every copy of its bytes. -/
theorem HoldsMessage.congr
    (hHolds : HoldsMessage m opCode fields obj)
    (hSize : ∀ o, obj = some o → ValidSize o)
    (hSame : Memory.Same m 0 m' 0 (msgLen m).toNat) :
    HoldsMessage m' opCode fields obj := by
  have hBody := bodySize_nonneg hSize
  have hLen := hHolds.len
  simp only [sizeofMsg, sizeofMsgHeader] at hLen
  have hInt : ∀ a, a + 4 ≤ (msgLen m).toNat →
      m'.int a = m.int a := by
    intro a ha
    have hWord := hSame.slice (k := a) (l := 4) ha
    simp only [Nat.zero_add] at hWord
    unfold Memory.int
    rw [Memory.word_congr hWord]
  refine ⟨?_, ?_, ?_, ?_⟩
  · rw [← hHolds.len]
    exact hInt 0 (by omega)
  · rw [← hHolds.code]
    exact hInt 4 (by omega)
  · intro i v hField
    have hInside : i < fields.length :=
      (List.getElem?_eq_some_iff.mp hField).1
    rw [hInt _ (by simp only [sizeofMsgHeader]; omega)]
    exact hHolds.field i v hField
  · intro o hObj
    subst hObj
    have hObject := hHolds.body o rfl
    have hLow := (hSize o rfl).1
    simp only [bodySize] at hLen
    have hBytes := hSame.slice
      (k := sizeofMsg fields.length) (l := o.length)
      (by simp only [sizeofMsg, sizeofMsgHeader,
        BSONObj.length]; omega)
    simp only [Nat.zero_add] at hBytes
    refine ⟨?_, hObject.bytes.trans hBytes⟩
    rw [← hObject.objsize]
    exact hInt _ (by
      simp only [sizeofMsg, sizeofMsgHeader]
      omega)

/- The bytes of a message in a buffer carry it. -/
theorem carries_messageBytes
    {b : MsgBuffer}
    (hHolds : HoldsMessage b.mem opCode fields obj)
    (hSize : ∀ o, obj = some o → ValidSize o) :
    Carries (messageBytes b) opCode fields obj := by
  have hBody := bodySize_nonneg hSize
  have hLen := hHolds.len
  have hLength : (messageBytes b).length =
      (msgLen b.mem).toNat := by
    unfold messageBytes
    rw [Memory.length_bytes]
  simp only [sizeofMsg, sizeofMsgHeader] at hLen
  refine ⟨?_, ?_, ?_⟩
  · have hFirst : streamInt (messageBytes b) 0 =
        msgLen b.mem :=
      streamInt_bytes _ (by omega)
    rw [hFirst, hLength]
    omega
  · simp only [sizeofMsg, sizeofMsgHeader]
    omega
  · intro m hBytes
    rw [hLength] at hBytes
    exact hHolds.congr hSize
      (Memory.same_of_bytes_eq hBytes.symm)

namespace Carries

theorem packetSize_eq
    (hCarries : Carries bytes opCode fields obj) :
    packetSize bytes = some bytes.length := by
  have hWhole := hCarries.whole
  have hLeast := hCarries.least
  simp only [sizeofMsg, sizeofMsgHeader] at hLeast
  unfold packetSize
  rw [if_pos (by omega), hWhole, Int.toNat_natCast]

theorem isReply
    (hCarries : Carries bytes opCode fields obj)
    (hFields : fields.length = 2) :
    IsReply bytes := by
  have hLeast := hCarries.least
  rw [hFields] at hLeast
  refine ⟨?_, hCarries.whole⟩
  unfold replyLength
  rw [hCarries.whole]
  exact_mod_cast hLeast

end Carries

end Bytes

------------------------------------------------------------
-- Requests
------------------------------------------------------------

namespace StoreOp

/- The client's command for a call of the store. -/
def command
    (toString : BSONObj → Except Fault Unit) :
    StoreOp → Command
| insert _ => insertCommand
| find _ => queryCommand toString
| remove _ => deleteCommand

/- The agent's command for it. -/
def commandFunc : StoreOp → PmdCommandFunc
| insert _ => .pmdInsertCommand
| find _ => .pmdQueryCommand
| remove _ => .pmdDeleteCommand

def opCode : StoreOp → Int
| insert _ => opInsert
| find _ => opQuery
| remove _ => opDelete

/- The words of its request. -/
def fields : StoreOp → List Int
| insert _ => [1]
| find _ => []
| remove _ => []

theorem length_fields (op : StoreOp) :
    op.fields.length ≤ 2 := by
  cases op <;> simp [fields]

theorem isInt_fields (op : StoreOp) :
    ∀ v ∈ op.fields, IsInt v := by
  cases op <;> simp [fields, IsInt]

theorem isInt_opCode (op : StoreOp) :
    IsInt op.opCode := by
  cases op with
  | insert _ => exact (by decide : IsInt opInsert)
  | find _ => exact (by decide : IsInt opQuery)
  | remove _ => exact (by decide : IsInt opDelete)

/- All three commands build their message the same way. -/
theorem onMsgBuild_eq
    (toString : BSONObj → Except Fault Unit)
    (op : StoreOp)
    (realloc : Option Memory)
    (b : MsgBuffer)
    (obj : BSONObj) :
    (op.command toString).onMsgBuild realloc b obj =
      msgBuild op.opCode op.fields (some obj) realloc b := by
  cases op <;> rfl

end StoreOp

theorem BSONObj.WellFormed.validSize
    {o : BSONObj}
    (hForm : o.WellFormed) :
    ValidSize o := by
  have hFive := hForm.five_le
  exact ⟨by omega, hForm.bounded⟩

theorem isConnected_output
    (socket : OssSocket) :
    socket.isConnected.2.output = socket.output := by
  unfold OssSocket.isConnected
  split <;> rfl

/- What is sent with success is the message that was built. -/
theorem sendMsg_ok
    {onMsgBuild : OnMsgBuild}
    {obj : BSONObj}
    {socket socket' : OssSocket}
    {rc : Int}
    (hSend : sendMsg onMsgBuild (some obj) socket =
      .ok (some rc, socket'))
    (hCode : ¬ rc < 0) :
    ∃ b, onMsgBuild none ⟨fun _ => 0, sendBufSize⟩ obj =
        (edbOk, b) ∧
      socket'.output = socket.output ++ messageBytes b := by
  unfold sendMsg at hSend
  rcases hBuild : onMsgBuild none
      ⟨fun _ => 0, sendBufSize⟩ obj with ⟨rc₁, b⟩
  simp only [hBuild] at hSend
  split at hSend
  · cases hSend
  · split at hSend
    · obtain ⟨hRc, _⟩ := Prod.mk.inj (Except.ok.inj hSend)
      rw [← Option.some.inj hRc] at hCode
      exact absurd (by decide) hCode
    · rename_i hBuilt
      obtain rfl : rc₁ = edbOk := not_not.mp hBuilt
      rcases socket.send_spec b.mem 0 (msgLen b.mem) with
        ⟨k, _, hOutput, hAll, _⟩
      rcases hCall : socket.send b.mem 0 (msgLen b.mem) with
        ⟨_ | rc₂, socket₂⟩
      · rw [hCall] at hSend
        exact absurd (Prod.mk.inj (Except.ok.inj hSend)).1
          (by simp)
      · rw [hCall] at hSend hOutput hAll
        simp only at hSend hOutput hAll
        split at hSend
        · obtain ⟨hRc, _⟩ :=
            Prod.mk.inj (Except.ok.inj hSend)
          rw [← Option.some.inj hRc] at hCode
          exact absurd (by decide) hCode
        · rename_i hSent
          obtain rfl : rc₂ = edbOk := not_not.mp hSent
          obtain ⟨_, rfl⟩ :=
            Prod.mk.inj (Except.ok.inj hSend)
          refine ⟨b, rfl, ?_⟩
          rw [hOutput, hAll rfl]
          rfl

/- A request that was sent is all of the call's message. -/
theorem Command.request_sends
    {toString : BSONObj → Except Fault Unit}
    {op : StoreOp}
    {socket socket' : OssSocket}
    (hForm : op.argument.WellFormed)
    (hRequest : (op.command toString).request
        [some op.argument] socket =
      .ok (.ok (), socket')) :
    ∃ packet, Carries packet op.opCode op.fields
        (some op.argument) ∧
      socket'.output = socket.output ++ packet ∧
      socket'.input = socket.input := by
  have hInput := Command.request_input hRequest
  have hSize : ∀ o, some op.argument = some o →
      ValidSize o :=
    fun o ho => Option.some.inj ho ▸ hForm.validSize
  have hConnected := isConnected_output socket
  unfold Command.request at hRequest
  simp only at hRequest
  rcases hTest : socket.isConnected with
    ⟨_ | _ | _, socket₁⟩
  · rw [hTest] at hRequest
    simp at hRequest
  · rw [hTest] at hRequest
    simp at hRequest
  · rw [hTest] at hRequest hConnected
    simp only at hRequest hConnected
    rcases hSend : sendMsg (op.command toString).onMsgBuild
        (some op.argument) socket₁ with
      fault | ⟨_ | rc, socket₂⟩
    · rw [hSend] at hRequest
      cases hRequest
    · rw [hSend] at hRequest
      simp at hRequest
    · rw [hSend] at hRequest
      simp only at hRequest
      split at hRequest
      · simp at hRequest
      · rename_i hCode
        obtain ⟨_, rfl⟩ :=
          Prod.mk.inj (Except.ok.inj hRequest)
        rcases sendMsg_ok hSend hCode with
          ⟨b, hBuild, hOutput⟩
        rw [StoreOp.onMsgBuild_eq] at hBuild
        have hHolds := (msgBuild_holds hSize
          op.length_fields op.isInt_fields op.isInt_opCode
          hBuild).1
        exact ⟨messageBytes b,
          carries_messageBytes hHolds hSize,
          by rw [hOutput, hConnected], hInput⟩

------------------------------------------------------------
-- The Agent
------------------------------------------------------------

section Agent

variable {ag ag' : Agent} {r : Round} {h : Handed}

/- An agent with one request before it takes all of it. -/
theorem Agent.handOver_takes
    {packet : List UInt8}
    {opCode : Int}
    {fields : List Int}
    {obj : Option BSONObj}
    (hSized : ag.Sized)
    (hCarries : Carries packet opCode fields obj)
    (hInput : ag.socket.input = packet)
    (hHand : ag.handOver r = .ok h) :
    h.agent.Sized ∧
      HoldsMessage h.request opCode fields obj ∧
      h.agent.socket.input = [] := by
  rcases Agent.handOver_frame hSized hHand with
    ⟨hNext, n, hSize, _, _, hPacket, hLeft⟩
  rw [hInput, hCarries.packetSize_eq, Option.some.injEq]
    at hSize
  subst hSize
  rw [hInput, List.take_length] at hPacket
  rw [hInput, List.drop_length] at hLeft
  refine ⟨hNext, hCarries.holds _ ?_, hLeft⟩
  have hLength := congrArg List.length hPacket
  unfold Handed.packet at hPacket hLength
  rw [Memory.length_bytes] at hLength
  rw [← hLength]
  exact hPacket

/- Whatever becomes of a send, a prefix has been sent. -/
theorem pmdSend_prefix
    (m : Memory)
    (a : Nat)
    (sendSize : Int)
    (forced : List Bool)
    (sock : OssSocket) :
    ∃ sent, sent <+: m.bytes a sendSize.toNat ∧
      (pmdSend m a sendSize forced sock).2.output =
        sock.output ++ sent := by
  induction forced generalizing sock with
  | nil => exact ⟨[], List.nil_prefix, by simp [pmdSend]⟩
  | cons isForced rest ih =>
      unfold pmdSend
      cases isForced with
      | true => exact ⟨[], List.nil_prefix, by simp⟩
      | false =>
          rcases sock.send_spec m a sendSize with
            ⟨k, hLe, hOutput, _, hLate⟩
          simp only [Bool.false_eq_true, if_false]
          split
          · -- A try that timed out has sent nothing.
            rename_i hTimeout
            rw [hLate hTimeout] at hOutput
            rcases ih (sock.send m a sendSize).2 with
              ⟨sent, hPrefix, hRest⟩
            refine ⟨sent, hPrefix, ?_⟩
            rw [hRest, hOutput]
            simp [Memory.bytes]
          · exact ⟨_, m.bytes_prefix a hLe, hOutput⟩

/- What a round sends is a prefix of the reply it got. -/
theorem Handed.answer_sends
    (hAnswer : h.answer r = .ok ag') :
    (r.process h.request h.packetLen h.result).1 = edbOk ∧
      ∃ sent, sent <+: messageBytes
          (r.process h.request h.packetLen h.result).2 ∧
        ag'.socket.output =
          h.agent.socket.output ++ sent := by
  unfold Handed.answer at hAnswer
  simp only at hAnswer
  split at hAnswer
  · simp at hAnswer
  · rename_i hProcessed
    refine ⟨not_not.mp hProcessed, ?_⟩
    rcases pmdSend_prefix
      (r.process h.request h.packetLen h.result).2.mem 0
      (msgLen
        (r.process h.request h.packetLen h.result).2.mem)
      r.forcedSend h.agent.socket with
      ⟨sent, hPrefix, hOutput⟩
    split at hAnswer
    · simp at hAnswer
    · rename_i rc socket hSend
      rw [hSend] at hOutput
      split at hAnswer
      · simp at hAnswer
      · split at hAnswer
        · simp at hAnswer
        · obtain rfl := Except.ok.inj hAnswer
          exact ⟨sent, hPrefix, hOutput⟩

end Agent

------------------------------------------------------------
-- Replies
------------------------------------------------------------

section Replies

variable {m m' : Memory} {socket socket' : OssSocket}
variable {reply sent : List UInt8}

/-
  A prefix of a reply that arrives is the whole reply: its
  length is among the first four bytes.
-/
theorem eq_of_arrives
    (hReply : IsReply reply)
    (hSent : sent <+: reply)
    (hArrives : Arrives sent) :
    sent = reply := by
  have hLeast := hReply.least
  have hWhole := hReply.whole
  have hFour := four_le_replySize sent
  rw [sizeofMsgReply_eq] at hLeast
  unfold Arrives at hArrives
  rw [List.prefix_iff_eq_take] at hSent
  have hLong : sent.length ≤ reply.length := by
    have hLength := congrArg List.length hSent
    rw [List.length_take] at hLength
    omega
  have hFirst : replyLength sent = replyLength reply := by
    unfold replyLength streamInt
    rw [hSent]
    exact int_store_take (fun _ => 0) hLong (by omega)
  rw [replySize_eq (by omega), hFirst] at hArrives
  rw [hSent, List.take_of_length_le (by omega)]

/-
  A client that has received a reply, of which it was sent a
  prefix, has the whole reply and has left nothing.
-/
theorem recvReply_takes
    (hReply : IsReply reply)
    (hSent : sent <+: reply)
    (hInput : socket.input = sent)
    (hRecv : recvReply m socket =
      (some edbOk, m', socket')) :
    m'.bytes 0 reply.length = reply ∧ socket'.input = [] := by
  have hArrives := (recvReply_ok hRecv).1
  rw [hInput] at hArrives
  rw [eq_of_arrives hReply hSent hArrives] at hInput
  exact recvReply_inStep hReply hInput hRecv

end Replies

end EmeraldDb
