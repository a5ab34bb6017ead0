import EmeraldDb.Pmd.Framing
import EmeraldDb.Pmd.Request
import EmeraldDb.Rtn.Concurrent
import EmeraldDb.Rtn.SameRecord

/-
  The bytes that a request depends on.

  The agent puts a packet into a buffer that holds earlier
  ones, and marks its end with a zero.  A command checks that
  the packet is not shorter than its header, but not where
  its object ends.  So a request depends on its own bytes
  only if its object is in the packet, or is refused whatever
  is behind it.

  Key definitions include:
    * `Received`
    * `HandsOver`
    * `DependsOnPacket`
    * `OwnBytes`

  Key results include:
    * `Agent.handOver_received`
    * `request_ownBytes_iff`
    * `request_not_ownBytes`
-/

namespace EmeraldDb

------------------------------------------------------------
-- Packets in the Receive Buffer
------------------------------------------------------------

/- A buffer with a packet and nothing else. -/
def packetBuffer (packet : List UInt8) : Memory :=
  Memory.store (fun _ => 0) 0 packet

/- A packet is as long as its length word says. -/
def IsPacket (packet : List UInt8) : Prop :=
  packetSize packet = some packet.length

/-
  A receive buffer with a packet and a zero behind it.  What
  follows is from earlier packets and may be anything.
-/
def Received
    (packet : List UInt8)
    (pRecvBuffer : Memory) : Prop :=
  Memory.Same (packetBuffer packet) 0 pRecvBuffer 0
    (packet.length + 1)

section Packets

variable {packet : List UInt8} {m m' : Memory}

theorem IsPacket.spec
    (hPacket : IsPacket packet) :
    4 ≤ packet.length ∧
      msgLen (packetBuffer packet) = packet.length := by
  unfold IsPacket packetSize at hPacket
  split at hPacket
  · rename_i hFour
    refine ⟨hFour.1, ?_⟩
    have hLength := Option.some.inj hPacket
    change streamInt packet 0 = _
    omega
  · cases hPacket

theorem received_packetBuffer (packet : List UInt8) :
    Received packet (packetBuffer packet) :=
  Memory.Same.refl _ _ _

theorem packetBuffer_behind
    {x : Nat}
    (hBehind : packet.length ≤ x) :
    packetBuffer packet x = 0 := by
  unfold packetBuffer
  exact Memory.store_of_disjoint _ _ (by omega)

namespace Received

theorem same
    (hReceived : Received packet m)
    (hReceived' : Received packet m') :
    Memory.Same m 0 m' 0 (packet.length + 1) :=
  Memory.Same.trans (Memory.Same.symm hReceived) hReceived'

/- Two buffers with a packet agree on its blocks. -/
theorem block
    (hReceived : Received packet m)
    (hReceived' : Received packet m')
    {a n : Nat}
    (hInside : a + n ≤ packet.length + 1) :
    Memory.Same m a m' a n := by
  have hSlice := (hReceived.same hReceived').slice
    (k := a) (l := n) hInside
  rwa [Nat.zero_add] at hSlice

theorem last
    (hReceived : Received packet m) :
    m packet.length = 0 := by
  have hByte := hReceived packet.length (by omega)
  rw [Nat.zero_add] at hByte
  rw [← hByte]
  exact packetBuffer_behind (le_refl _)

theorem int_eq
    (hReceived : Received packet m)
    (hReceived' : Received packet m')
    {a : Nat}
    (hInside : a + 3 ≤ packet.length) :
    m.int a = m'.int a := by
  unfold Memory.int
  rw [Memory.word_congr
    (hReceived.block hReceived' (by omega))]

/- A byte behind the zero can be any. -/
theorem update
    (hReceived : Received packet m)
    {x : Nat}
    (hBehind : packet.length < x)
    (v : UInt8) :
    Received packet (Function.update m x v) := by
  intro i hi
  rw [hReceived i hi, Function.update_of_ne (by omega)]

theorem msgLen_eq
    (hPacket : IsPacket packet)
    (hReceived : Received packet m) :
    msgLen m = packet.length := by
  rw [← hPacket.spec.2]
  have hFour := hPacket.spec.1
  exact hReceived.int_eq (received_packetBuffer packet)
    (by omega)

end Received

end Packets

/- The agent marks the end of what it hands over. -/
theorem Agent.handOver_last
    {ag : Agent}
    {r : Round}
    {h : Handed}
    (hHand : ag.handOver r = .ok h) :
    h.request h.packetLen.toNat = 0 := by
  unfold handOver at hHand
  rcases hRecv : pmdRecv 0 4 r.forcedLength ag.recvBuffer
      ag.socket with ⟨_ | rc, m, socket⟩
  · simp [hRecv] at hHand
  · rw [hRecv] at hHand
    simp only at hHand
    split at hHand
    · simp at hHand
    · rcases hCheck : checkLength { ag with
          recvBuffer := m
          socket := socket } (m.int 0) r.fresh with ⟨rc', ag'⟩
      rw [hCheck] at hHand
      simp only at hHand
      split at hHand
      · simp at hHand
      · unfold receiveRest at hHand
        rcases hBody : pmdRecv 4 (wrapInt (m.int 0 - 4))
            r.forcedBody ag'.recvBuffer ag'.socket with
          ⟨_ | rc'', m', socket'⟩
        · simp [hBody] at hHand
        · rw [hBody] at hHand
          simp only at hHand
          split at hHand
          · simp at hHand
          · rcases prepare_ok hHand with
              ⟨_, hLen, hRequest⟩
            rw [hRequest, hLen]
            have hLast := Memory.store_inside m'
              (m.int 0).toNat [(0 : UInt8)] (i := 0) (by decide)
            simpa using hLast

/-
  What a round of the agent hands over is a packet, with its
  length, in a buffer that it was received into.
-/
theorem Agent.handOver_received
    {ag : Agent}
    {r : Round}
    {h : Handed}
    (hSized : ag.Sized)
    (hHand : ag.handOver r = .ok h) :
    IsPacket h.packet ∧ Received h.packet h.request ∧
      h.packet.length = h.packetLen.toNat := by
  have hLength : h.packet.length = h.packetLen.toNat := by
    unfold Handed.packet
    rw [Memory.length_bytes]
  have hLast := handOver_last hHand
  rcases Agent.handOver_frame hSized hHand with
    ⟨_, n, hSize, _, hLong, hPacket, _⟩
  have hN : h.packet.length = n := by
    rw [hPacket, List.length_take, Nat.min_eq_left hLong]
  refine ⟨?_, ?_, hLength⟩
  · unfold IsPacket packetSize
    unfold packetSize at hSize
    split at hSize
    · rename_i hFour
      have hSome := Option.some.inj hSize
      have hStart : streamInt h.packet 0 =
          streamInt ag.socket.input 0 := by
        rw [hPacket]
        exact int_store_take (fun _ => 0) hLong (by omega)
      rw [hStart, if_pos (by omega), hN]
      exact hSize
    · cases hSize
  · intro i hi
    simp only [Nat.zero_add]
    by_cases hInside : i < h.packet.length
    · have hByte := Memory.store_inside (fun _ => 0) 0 h.packet
        hInside
      rw [Nat.zero_add] at hByte
      unfold packetBuffer
      rw [hByte, List.getD_eq_getElem _ _ hInside]
      simp [Handed.packet, Memory.bytes]
    · rw [packetBuffer_behind (by omega)]
      have hEnd : i = h.packetLen.toNat := by omega
      rw [hEnd, hLast]

------------------------------------------------------------
-- What a Request Depends on
------------------------------------------------------------

/- The request hands this object to the store. -/
def HandsOver
    (prints : BSONObj → Bool)
    (pRecvBuffer : Memory)
    (o : BSONObj) : Prop :=
  ∃ c, ReadsPayload pRecvBuffer c ∧
    o = ⟨pRecvBuffer, c.size⟩ ∧ c.Accepts prints o

/-
  In every store, the reply and the resulting store are the
  same whatever is behind the packet in the receive buffer,
  and an object that is handed to the store is in the packet.
-/
structure DependsOnPacket
    (prints : BSONObj → Bool)
    (packet : List UInt8) : Prop where
  same : ∀ (s : EdbKrcb) (realloc : Option Memory)
    (result : MsgBuffer) (m m' : Memory), s.prints = prints →
    Received packet m → Received packet m' →
    pmdProcessAgentRequest s realloc m result false =
      pmdProcessAgentRequest s realloc m' result false
  inside : ∀ (m : Memory) (o : BSONObj), Received packet m →
    HandsOver prints m o →
    o.objdata + o.length ≤ packet.length

/-
  The object at `a` is in the packet if it is valid; whether
  it is, is known from the packet and the zero behind it.
-/
def Inside
    (packet : List UInt8)
    (a : Nat) : Prop :=
  a + 3 ≤ packet.length ∧
    (BSONObj.isValid ⟨packetBuffer packet, a⟩ = true →
      a + BSONObj.length ⟨packetBuffer packet, a⟩ ≤
        packet.length)

/-
  Whatever is behind the packet, the library refuses the
  object, or prints it and the command has no room for its
  fields, or gets to them and refuses it.
-/
def Refused
    (prints : BSONObj → Bool)
    (packet : List UInt8)
    (c : PmdCommandFunc) : Prop :=
  (∀ m, Received packet m →
    ¬ Printed prints ⟨m, c.size⟩) ∨
  (∀ m, Received packet m →
    Printed prints ⟨m, c.size⟩ ∧
      ¬ c.Shows prints ⟨m, c.size⟩) ∨
  ∀ m, Received packet m →
    c.Shows prints ⟨m, c.size⟩ ∧
      ¬ c.Accepts prints ⟨m, c.size⟩

/-
  A packet without a whole operation code is not completed to
  that of a request for an object.  The object of another one
  is in the packet, or refused whatever is behind it.
-/
def OwnBytes
    (prints : BSONObj → Bool)
    (packet : List UInt8) : Prop :=
  if packet.length < 7 then
    ¬ RepliesObject (packetBuffer packet)
  else
    ∀ c, ReadsPayload (packetBuffer packet) c →
      Inside packet c.size ∨ Refused prints packet c

------------------------------------------------------------
-- Commands on Equal Objects
------------------------------------------------------------

namespace PmdCommandFunc

variable {s : EdbKrcb} {o o' : BSONObj} {c : PmdCommandFunc}

theorem storeCall_congr
    (hSame : SameRecord o o') :
    c.storeCall s o' = c.storeCall s o := by
  cases c with
  | pmdInsertCommand =>
      simp only [storeCall, hSame.rtnInsert_congr]
  | pmdDeleteCommand =>
      simp only [storeCall, hSame.rtnRemove_congr]
  | pmdQueryCommand =>
      simp only [storeCall, hSame.rtnFind_congr]

theorem refusal_congr
    (hPrinted : Printed s.prints o' ↔ Printed s.prints o)
    (hShows : c.Shows s.prints o' ↔ c.Shows s.prints o) :
    c.refusal s o' = c.refusal s o := by
  unfold refusal
  rw [if_congr hShows rfl rfl,
    if_congr (not_congr hPrinted) rfl rfl]

/-
  What a command does with an object, it does with every one
  that looks the same to it.
-/
theorem onObject_congr
    (hPrinted : Printed s.prints o' ↔ Printed s.prints o)
    (hShows : c.Shows s.prints o' ↔ c.Shows s.prints o)
    (hAccepts :
      c.Accepts s.prints o' ↔ c.Accepts s.prints o)
    (hSame : c.Accepts s.prints o → SameRecord o o') :
    c.onObject s o' = c.onObject s o := by
  unfold onObject
  rw [if_congr hAccepts rfl (refusal_congr hPrinted hShows)]
  by_cases hTakes : c.Accepts s.prints o
  · rw [if_pos hTakes, if_pos hTakes,
      storeCall_congr (hSame hTakes)]
  · rw [if_neg hTakes, if_neg hTakes]

end PmdCommandFunc

------------------------------------------------------------
-- Objects in the Packet
------------------------------------------------------------

section Objects

variable {prints : BSONObj → Bool} {packet : List UInt8}
variable {m m' : Memory} {a : Nat}

namespace Inside

theorem objsize_eq
    (hInside : Inside packet a)
    (hReceived : Received packet m)
    (hReceived' : Received packet m') :
    BSONObj.objsize ⟨m', a⟩ = BSONObj.objsize ⟨m, a⟩ :=
  hReceived'.int_eq hReceived hInside.1

theorem isValid_eq
    (hInside : Inside packet a)
    (hReceived : Received packet m)
    (hReceived' : Received packet m') :
    BSONObj.isValid ⟨m', a⟩ = BSONObj.isValid ⟨m, a⟩ := by
  unfold BSONObj.isValid
  rw [hInside.objsize_eq hReceived hReceived']

theorem length_eq
    (hInside : Inside packet a)
    (hReceived : Received packet m)
    (hReceived' : Received packet m') :
    BSONObj.length ⟨m', a⟩ = BSONObj.length ⟨m, a⟩ := by
  unfold BSONObj.length
  rw [hInside.objsize_eq hReceived hReceived']

/- A valid object ends in the packet. -/
theorem fits
    (hInside : Inside packet a)
    (hReceived : Received packet m)
    (hValid : BSONObj.isValid ⟨m, a⟩ = true) :
    a + BSONObj.length ⟨m, a⟩ ≤ packet.length := by
  have hStart := received_packetBuffer packet
  rw [hInside.length_eq hStart hReceived]
  apply hInside.2
  rw [hInside.isValid_eq hReceived hStart, hValid]

theorem printed_iff
    (hInside : Inside packet a)
    (hPrints : ReadsObject prints)
    (hReceived : Received packet m)
    (hReceived' : Received packet m') :
    Printed prints ⟨m', a⟩ ↔ Printed prints ⟨m, a⟩ := by
  unfold Printed
  rw [hInside.isValid_eq hReceived hReceived']
  apply and_congr_right
  intro hValid
  have hFits := hInside.fits hReceived hValid
  have hFour := hInside.1
  have hBlock : Memory.Same m a m' a
      (max 4 (BSONObj.length ⟨m, a⟩)) :=
    hReceived.block hReceived' (by omega)
  rw [hPrints.congr ⟨m, a⟩ ⟨m', a⟩ hValid hBlock]

theorem sameRecord
    (hInside : Inside packet a)
    (hPrints : ReadsObject prints)
    (hReceived : Received packet m)
    (hReceived' : Received packet m')
    (hPrinted : Printed prints ⟨m, a⟩) :
    SameRecord ⟨m, a⟩ ⟨m', a⟩ := by
  rcases hPrinted with ⟨hValid, hShown⟩
  have hFits := hInside.fits hReceived hValid
  refine ⟨hPrints.walk _ hValid hShown, ?_,
    hInside.length_eq hReceived hReceived',
    hReceived.block hReceived' (by simp only; omega)⟩
  simp only [BSONObj.isValid, decide_eq_true_eq] at hValid
  unfold BSONObj.length
  omega

/-
  The name of the first field may be longer than the object,
  but it ends at the zero behind the packet.
-/
theorem hasName_eq
    (hInside : Inside packet a)
    (hReceived : Received packet m)
    (hReceived' : Received packet m')
    (hValid : BSONObj.isValid ⟨m, a⟩ = true)
    (hFive : 5 ≤ BSONObj.objsize ⟨m, a⟩) :
    BSONElement.hasName ⟨m', a + 4⟩ gKeyFieldName =
      BSONElement.hasName ⟨m, a + 4⟩ gKeyFieldName := by
  have hFits := hInside.fits hReceived hValid
  have hLong : 5 ≤ BSONObj.length ⟨m, a⟩ := by
    unfold BSONObj.length
    omega
  apply BSONElement.hasName_of_zero (e := ⟨m, a + 4⟩) ⟨m', a + 4⟩
    (k := packet.length - (a + 5)) _ _ ixmKeyFieldName_nonzero
  · have hEnd : a + 4 + 1 + (packet.length - (a + 5)) =
        packet.length := by
      omega
    simp only [hEnd]
    exact hReceived.last
  · exact hReceived.block hReceived' (by simp only; omega)

theorem shows_iff
    (hInside : Inside packet a)
    (hPrints : ReadsObject prints)
    (hReceived : Received packet m)
    (hReceived' : Received packet m')
    (c : PmdCommandFunc) :
    c.Shows prints ⟨m', a⟩ ↔ c.Shows prints ⟨m, a⟩ := by
  unfold PmdCommandFunc.Shows
  rw [hInside.printed_iff hPrints hReceived hReceived',
    hInside.objsize_eq hReceived hReceived']

theorem accepts_iff
    (hInside : Inside packet a)
    (hPrints : ReadsObject prints)
    (hReceived : Received packet m)
    (hReceived' : Received packet m')
    (c : PmdCommandFunc) :
    c.Accepts prints ⟨m', a⟩ ↔ c.Accepts prints ⟨m, a⟩ := by
  unfold PmdCommandFunc.Accepts
  rw [hInside.shows_iff hPrints hReceived hReceived']
  apply and_congr_right
  intro hShows
  apply imp_congr_right
  intro hInsert
  rw [hInside.hasName_eq hReceived hReceived' hShows.1.1
    (hShows.2 hInsert)]

end Inside

end Objects

------------------------------------------------------------
-- Requests on Their Own Bytes
------------------------------------------------------------

section Requests

variable {s : EdbKrcb} {prints : BSONObj → Bool}
variable {packet : List UInt8} {m m' : Memory}
variable {c : PmdCommandFunc}

theorem runCommand_of_reads
    (hReads : ReadsPayload m c) :
    runCommand s m = c.onObject s ⟨m, c.size⟩ := by
  rcases hReads with ⟨hCommand, hLong, hSome⟩
  rw [runCommand_some hCommand, if_neg hLong, if_neg hSome]

/- A request without an object looks at its header only. -/
theorem runCommand_of_no_payload
    (hNone : ∀ c, ¬ ReadsPayload m c)
    (hCommand : getCommand (msgOpCode m') =
      getCommand (msgOpCode m))
    (hLength : msgLen m' = msgLen m)
    (hNone' : ∀ c, ¬ ReadsPayload m' c) :
    runCommand s m' = runCommand s m := by
  cases hKnown : getCommand (msgOpCode m) with
  | none =>
      rw [runCommand_none hKnown,
        runCommand_none (hCommand.trans hKnown)]
  | some c =>
      rw [runCommand_some hKnown,
        runCommand_some (hCommand.trans hKnown), hLength]
      by_cases hShort : msgLen m < c.size
      · rw [if_pos hShort, if_pos hShort]
      · rw [if_neg hShort, if_neg hShort]
        have hNull := not_not.mp
          (fun hSome => hNone c ⟨hKnown, hShort, hSome⟩)
        have hNull' := not_not.mp
          (fun hSome => hNone' c
            ⟨hCommand.trans hKnown, hLength ▸ hShort, hSome⟩)
        rw [if_pos hNull, if_pos hNull']

theorem readsPayload_iff
    (hPacket : IsPacket packet)
    (hSeven : 7 ≤ packet.length)
    (hReceived : Received packet m)
    (hReceived' : Received packet m') :
    ReadsPayload m' c ↔ ReadsPayload m c := by
  have hCode : msgOpCode m' = msgOpCode m :=
    hReceived'.int_eq hReceived (by omega)
  unfold ReadsPayload
  rw [hCode, hReceived.msgLen_eq hPacket,
    hReceived'.msgLen_eq hPacket]
  apply and_congr_right
  intro _
  apply and_congr_right
  intro hLong
  apply not_congr
  apply and_congr_right
  intro hInsert
  rw [hInsert] at hLong
  have hTwelve : PmdCommandFunc.pmdInsertCommand.size = 12 :=
    rfl
  rw [hReceived'.int_eq hReceived (by omega)]

theorem eight_le_size (c : PmdCommandFunc) :
    8 ≤ c.size := by
  cases c <;> decide

/- A request that is too short for every command. -/
theorem runCommand_of_short
    (hPacket : IsPacket packet)
    (hShort : packet.length < 8)
    (hReceived : Received packet m) :
    runCommand s m =
      .ok ⟨edbInvalidArg, .empty, some s.rtnMgr⟩ := by
  cases hCommand : getCommand (msgOpCode m) with
  | none => exact runCommand_none hCommand
  | some c =>
      rw [runCommand_some hCommand,
        hReceived.msgLen_eq hPacket]
      have hSize := eight_le_size c
      exact if_pos (by omega)

/- The codes of requests for an object are of one byte. -/
theorem RepliesObject.zeros
    (hReplies : RepliesObject m)
    {i : Nat}
    (hLow : 5 ≤ i)
    (hHigh : i < 8) :
    m i = 0 := by
  have hWord : m.word 4 < 256 := by
    have hBound := m.word_lt 4
    change m.int 4 = 8 ∨ m.int 4 = 4 at hReplies
    unfold Memory.int toSigned at hReplies
    split at hReplies <;> omega
  unfold Memory.word at hWord
  rw [← UInt8.toNat_inj]
  simp only [Nat.reduceAdd, UInt8.toNat_zero] at hWord ⊢
  obtain rfl | rfl | rfl : i = 5 ∨ i = 6 ∨ i = 7 := by omega
  · omega
  · omega
  · omega

/-
  If an operation code that is not whole can be completed to
  that of a request for an object, the zeros do it.
-/
theorem repliesObject_of_received
    (hPacket : IsPacket packet)
    (hReceived : Received packet m)
    (hReplies : RepliesObject m) :
    RepliesObject (packetBuffer packet) := by
  have hFour := hPacket.spec.1
  have hCode : msgOpCode (packetBuffer packet) =
      msgOpCode m := by
    unfold msgOpCode Memory.int
    rw [Memory.word_congr]
    intro i hi
    by_cases hInside : 4 + i ≤ packet.length
    · have hByte := hReceived (4 + i) (by omega)
      rwa [Nat.zero_add] at hByte
    · rw [packetBuffer_behind (by omega),
        hReplies.zeros (by omega) (by omega)]
  unfold RepliesObject
  rw [hCode]
  exact hReplies

theorem request_congr
    (hRun : runCommand s m' = runCommand s m)
    (hReplies : RepliesObject m' ↔ RepliesObject m)
    (realloc : Option Memory)
    (result : MsgBuffer)
    (disconnect : Bool) :
    pmdProcessAgentRequest s realloc m' result disconnect =
      pmdProcessAgentRequest s realloc m result disconnect := by
  simp only [pmdProcessAgentRequest, hRun, Handled.objReturn,
    hReplies]

theorem repliesObject_iff
    (hSeven : 7 ≤ packet.length)
    (hReceived : Received packet m)
    (hReceived' : Received packet m') :
    RepliesObject m' ↔ RepliesObject m := by
  unfold RepliesObject msgOpCode
  rw [hReceived'.int_eq hReceived (by omega)]

namespace Refused

theorem not_accepts
    (hRefused : Refused prints packet c)
    (hReceived : Received packet m) :
    ¬ c.Accepts prints ⟨m, c.size⟩ := by
  rcases hRefused with hNever | hSmall | hAlways
  · intro hAccepts
    exact hNever m hReceived hAccepts.1.1
  · intro hAccepts
    exact (hSmall m hReceived).2 hAccepts.1
  · exact (hAlways m hReceived).2

/- An object that is refused is not told from another. -/
theorem onObject_eq
    (hRefused : Refused s.prints packet c)
    (hReceived : Received packet m)
    (hReceived' : Received packet m') :
    c.onObject s ⟨m', c.size⟩ = c.onObject s ⟨m, c.size⟩ := by
  have hNot := hRefused.not_accepts hReceived
  have hNot' := hRefused.not_accepts hReceived'
  apply PmdCommandFunc.onObject_congr
  · rcases hRefused with hNever | hSmall | hAlways
    · exact iff_of_false (hNever m' hReceived')
        (hNever m hReceived)
    · exact iff_of_true (hSmall m' hReceived').1
        (hSmall m hReceived).1
    · exact iff_of_true (hAlways m' hReceived').1.1
        (hAlways m hReceived).1.1
  · rcases hRefused with hNever | hSmall | hAlways
    · exact iff_of_false
        (fun hShows => hNever m' hReceived' hShows.1)
        (fun hShows => hNever m hReceived hShows.1)
    · exact iff_of_false (hSmall m' hReceived').2
        (hSmall m hReceived).2
    · exact iff_of_true (hAlways m' hReceived').1
        (hAlways m hReceived).1
  · exact iff_of_false hNot' hNot
  · intro hAccepts
    exact absurd hAccepts hNot

end Refused

/- An object in the packet is the same in every buffer. -/
theorem Inside.onObject_eq
    (hInside : Inside packet c.size)
    (hPrints : ReadsObject s.prints)
    (hReceived : Received packet m)
    (hReceived' : Received packet m') :
    c.onObject s ⟨m', c.size⟩ = c.onObject s ⟨m, c.size⟩ := by
  apply PmdCommandFunc.onObject_congr
  · exact hInside.printed_iff hPrints hReceived hReceived'
  · exact hInside.shows_iff hPrints hReceived hReceived' c
  · exact hInside.accepts_iff hPrints hReceived hReceived' c
  · intro hAccepts
    exact hInside.sameRecord hPrints hReceived hReceived'
      hAccepts.1.1

/- The bytes of the packet determine what the command does. -/
theorem runCommand_eq
    (hPrints : ReadsObject s.prints)
    (hPacket : IsPacket packet)
    (hSeven : 7 ≤ packet.length)
    (hOwn : ∀ c, ReadsPayload (packetBuffer packet) c →
      Inside packet c.size ∨ Refused s.prints packet c)
    (hReceived : Received packet m)
    (hReceived' : Received packet m') :
    runCommand s m' = runCommand s m := by
  have hReads : ∀ c, ReadsPayload m' c ↔ ReadsPayload m c :=
    fun c => readsPayload_iff hPacket hSeven hReceived
      hReceived'
  by_cases hSome : ∃ c, ReadsPayload m c
  · rcases hSome with ⟨c, hPayload⟩
    rw [runCommand_of_reads hPayload,
      runCommand_of_reads ((hReads c).mpr hPayload)]
    have hStart := (readsPayload_iff hPacket hSeven
      (received_packetBuffer packet) hReceived).mp hPayload
    rcases hOwn c hStart with hInside | hRefused
    · exact hInside.onObject_eq hPrints hReceived hReceived'
    · exact hRefused.onObject_eq hReceived hReceived'
  · rw [not_exists] at hSome
    have hCode : msgOpCode m' = msgOpCode m :=
      hReceived'.int_eq hReceived (by omega)
    apply runCommand_of_no_payload hSome
    · rw [hCode]
    · rw [hReceived.msgLen_eq hPacket,
        hReceived'.msgLen_eq hPacket]
    · intro c hPayload
      exact hSome c ((hReads c).mp hPayload)

theorem OwnBytes.dependsOnPacket
    (hPrints : ReadsObject prints)
    (hPacket : IsPacket packet)
    (hOwn : OwnBytes prints packet) :
    DependsOnPacket prints packet := by
  unfold OwnBytes at hOwn
  split at hOwn
  · rename_i hShort
    constructor
    · intro s realloc result m m' _ hReceived hReceived'
      apply request_congr
      · rw [runCommand_of_short hPacket (by omega) hReceived,
          runCommand_of_short hPacket (by omega) hReceived']
      · exact iff_of_false
          (fun hReplies => hOwn (repliesObject_of_received
            hPacket hReceived hReplies))
          (fun hReplies => hOwn (repliesObject_of_received
            hPacket hReceived' hReplies))
    · rintro m o hReceived ⟨c, ⟨_, hLong, _⟩, _, _⟩
      have hSize := eight_le_size c
      rw [hReceived.msgLen_eq hPacket] at hLong
      omega
  · rename_i hLong
    rw [not_lt] at hLong
    constructor
    · rintro s realloc result m m' rfl hReceived hReceived'
      apply request_congr
      · exact runCommand_eq hPrints hPacket hLong hOwn
          hReceived' hReceived
      · exact repliesObject_iff hLong hReceived' hReceived
    · rintro m o hReceived ⟨c, hReads, rfl, hAccepts⟩
      have hStart := (readsPayload_iff hPacket hLong
        (received_packetBuffer packet) hReceived).mp hReads
      rcases hOwn c hStart with hInside | hRefused
      · exact hInside.fits hReceived hAccepts.1.1.1
      · exact absurd hAccepts (hRefused.not_accepts hReceived)

------------------------------------------------------------
-- Requests on Other Bytes
------------------------------------------------------------

/- An empty store, with the printing of the library. -/
def printingKrcb (prints : BSONObj → Bool) : EdbKrcb :=
  { emptyKrcb with prints := prints }

namespace DependsOnPacket

variable {r r' : Handled}

/- An exception is seen in the result. -/
theorem returns_of_returns
    (hDepends : DependsOnPacket s.prints packet)
    (hReceived : Received packet m)
    (hReceived' : Received packet m')
    (hRun : runCommand s m = .ok r) :
    Returns (runCommand s m') := by
  have hEq := hDepends.same s none ⟨fun _ => 0, 0⟩ m m' rfl
    hReceived hReceived'
  cases hOther : runCommand s m' with
  | ok r' => exact returns_ok _
  | error fault =>
      simp [pmdProcessAgentRequest, hRun, hOther, bind,
        Except.bind, pure, Except.pure] at hEq

/- So are the code and whether there is an object. -/
theorem reply_eq
    (hDepends : DependsOnPacket s.prints packet)
    (hReceived : Received packet m)
    (hReceived' : Received packet m')
    (hRun : runCommand s m = .ok r)
    (hRun' : runCommand s m' = .ok r') :
    wrapInt r.rc = wrapInt r'.rc ∧
      (RepliesObject m ↔ RepliesObject m') := by
  have hEq := hDepends.same s (some (fun _ => 0))
    ⟨fun _ => 0, sizeofMsgReply⟩ m m' rfl hReceived hReceived'
  rcases request_of_run (some (fun _ => 0)) (fun _ => 0) hRun
    (fun _ => rfl) with
    ⟨b, hRequest, hHolds, _⟩
  rcases request_of_run (some (fun _ => 0)) (fun _ => 0) hRun'
    (fun _ => rfl) with
    ⟨b', hRequest', hHolds', _⟩
  rw [hRequest, hRequest', Except.ok.injEq, Prod.mk.injEq,
    Prod.mk.injEq] at hEq
  rcases hEq with ⟨_, rfl, _⟩
  have hCode := (hHolds.field 0 _ rfl).symm.trans
    (hHolds'.field 0 _ rfl)
  have hCount := (hHolds.field 1 _ rfl).symm.trans
    (hHolds'.field 1 _ rfl)
  refine ⟨hCode, ?_⟩
  by_cases hReplies : RepliesObject m
  · by_cases hReplies' : RepliesObject m'
    · exact iff_of_true hReplies hReplies'
    · rw [if_pos hReplies, if_neg hReplies'] at hCount
      exact absurd hCount (by decide)
  · by_cases hReplies' : RepliesObject m'
    · rw [if_neg hReplies, if_pos hReplies'] at hCount
      exact absurd hCount (by decide)
    · exact iff_of_false hReplies hReplies'

/-
  An operation code that the zeros complete to that of a
  request for an object is completed to none by other bytes.
-/
theorem not_repliesObject
    (hDepends : DependsOnPacket s.prints packet)
    (hPacket : IsPacket packet)
    (hShort : packet.length < 7) :
    ¬ RepliesObject (packetBuffer packet) := by
  intro hReplies
  have hStart := received_packetBuffer packet
  have hOther := hStart.update hShort 1
  have hSame := hDepends.reply_eq hStart hOther
    (runCommand_of_short hPacket (by omega) hStart)
    (runCommand_of_short hPacket (by omega) hOther)
  have hZero := (hSame.2.mp hReplies).zeros (i := 7) (by omega)
    (by omega)
  rw [Function.update_self] at hZero
  exact absurd hZero (by decide)

end DependsOnPacket

/- A length word whose last byte is 255 is negative. -/
theorem not_isValid_update
    (m : Memory)
    (a : Nat) :
    BSONObj.isValid ⟨Function.update m (a + 3) 255, a⟩ =
      false := by
  have hHigh : (Function.update m (a + 3) 255) (a + 3) =
      255 :=
    Function.update_self _ _ _
  have hWord : 2147483648 ≤
      Memory.word (Function.update m (a + 3) 255) a := by
    unfold Memory.word
    rw [hHigh]
    have h255 : (255 : UInt8).toNat = 255 := rfl
    omega
  have hBound := Memory.word_lt
    (Function.update m (a + 3) 255) a
  simp only [BSONObj.isValid, BSONObj.objsize, Memory.int,
    toSigned, decide_eq_false_iff_not]
  rw [if_neg (by omega)]
  omega

/- A removal or a lookup of a small object returns. -/
theorem storeCall_small
    {o : BSONObj}
    (hSmall : o.length ≤ 5)
    (hOther : c ≠ .pmdInsertCommand) :
    Returns (c.storeCall s o) := by
  have hNone := IxmBucketManager.processData_small hSmall
  have hSearches : IxmBucketManager.Searches s.h
      s.rtnMgr.dmsFile.file s.rtnMgr.ixmBucketMgr o :=
    ⟨none, hNone, by simp⟩
  cases c with
  | pmdInsertCommand => exact absurd rfl hOther
  | pmdDeleteCommand =>
      unfold PmdCommandFunc.storeCall
      rw [returns_map]
      exact Rtn.rtnRemove_returns_iff.mpr hSearches
  | pmdQueryCommand =>
      unfold PmdCommandFunc.storeCall
      rw [returns_map]
      refine Rtn.rtnFind_returns_iff.mpr ⟨hSearches, ?_⟩
      intro rc rid hFound
      simp [IxmBucketManager.findIndex, hNone, bind,
        Except.bind, pure, Except.pure] at hFound

namespace DependsOnPacket

/-
  The store is not called for an object that is not in the
  packet: it would be outside, or be so small that a last
  byte behind the packet makes it invalid.
-/
theorem not_accepts
    (hDepends : DependsOnPacket s.prints packet)
    (hOutside : ¬ Inside packet c.size)
    (hReads : ∀ m, Received packet m → ReadsPayload m c)
    (hReceived : Received packet m) :
    ¬ c.Accepts s.prints ⟨m, c.size⟩ := by
  intro hAccepts
  have hFits : c.size + BSONObj.length ⟨m, c.size⟩ ≤
      packet.length :=
    hDepends.inside m _ hReceived
      ⟨c, hReads m hReceived, rfl, hAccepts⟩
  have hShort : packet.length < c.size + 3 := by
    by_contra hLong
    rw [not_lt] at hLong
    apply hOutside
    refine ⟨hLong, fun _ => ?_⟩
    have hInt := (received_packetBuffer packet).int_eq
      hReceived hLong
    unfold BSONObj.length BSONObj.objsize at hFits ⊢
    rw [hInt]
    exact hFits
  by_cases hInsert : c = .pmdInsertCommand
  · have hFive := hAccepts.1.2 hInsert
    unfold BSONObj.length at hFits
    omega
  · have hOther := hReceived.update hShort 255
    have hRefused : ¬ c.Accepts s.prints
        ⟨Function.update m (c.size + 3) 255, c.size⟩ := by
      intro hTakes
      have hValid := hTakes.1.1.1
      rw [not_isValid_update] at hValid
      cases hValid
    have hRun : Returns (runCommand s m) := by
      rw [runCommand_of_reads (hReads m hReceived),
        PmdCommandFunc.onObject, if_pos hAccepts]
      exact storeCall_small (by omega) hInsert
    rcases hRun with ⟨r, hRun⟩
    have hReturns := hDepends.returns_of_returns hReceived
      hOther hRun
    rw [runCommand_of_reads (hReads _ hOther),
      PmdCommandFunc.onObject, if_neg hRefused,
      PmdCommandFunc.refusal, if_neg hInsert] at hReturns
    exact not_returns_error _ hReturns

/- Then the end of the request tells how far it gets. -/
theorem refused
    (hDepends : DependsOnPacket s.prints packet)
    (hOutside : ¬ Inside packet c.size)
    (hReads : ∀ m, Received packet m → ReadsPayload m c) :
    Refused s.prints packet c := by
  have hNot : ∀ m, Received packet m →
      ¬ c.Accepts s.prints ⟨m, c.size⟩ :=
    fun m hReceived =>
      hDepends.not_accepts hOutside hReads hReceived
  by_cases hSome : ∃ m, Received packet m ∧
      Printed s.prints ⟨m, c.size⟩
  · right
    rcases hSome with ⟨m₀, hReceived₀, hPrinted₀⟩
    have hInsert : c = .pmdInsertCommand := by
      by_contra hOther
      exact hNot m₀ hReceived₀
        ⟨⟨hPrinted₀, fun hInsert => absurd hInsert hOther⟩,
          fun hInsert => absurd hInsert hOther⟩
    have hRun : ∀ m, Received packet m →
        runCommand s m =
          if ¬ Printed s.prints ⟨m, c.size⟩ then
            .ok ⟨edbInvalidArg, .empty, some s.rtnMgr⟩
          else if c.Shows s.prints ⟨m, c.size⟩ then
            .ok ⟨edbNoId, .empty, some s.rtnMgr⟩
          else .error .aborted := by
      intro m hReceived
      rw [runCommand_of_reads (hReads m hReceived),
        PmdCommandFunc.onObject, if_neg (hNot m hReceived),
        PmdCommandFunc.refusal, if_pos hInsert]
    by_cases hShows₀ : c.Shows s.prints ⟨m₀, c.size⟩
    · -- The reply says that the `_id` is missing.
      right
      have hRun₀ := hRun m₀ hReceived₀
      rw [if_neg (not_not.mpr hPrinted₀), if_pos hShows₀]
        at hRun₀
      intro m hReceived
      refine ⟨?_, hNot m hReceived⟩
      have hRun' := hRun m hReceived
      by_cases hPrinted : Printed s.prints ⟨m, c.size⟩
      · by_contra hSmall
        rw [if_neg (not_not.mpr hPrinted), if_neg hSmall]
          at hRun'
        have hReturns := hDepends.returns_of_returns
          hReceived₀ hReceived hRun₀
        rw [hRun'] at hReturns
        exact not_returns_error _ hReturns
      · rw [if_pos hPrinted] at hRun'
        have hCode := (hDepends.reply_eq hReceived₀ hReceived
          hRun₀ hRun').1
        have hCodes : wrapInt edbNoId ≠
            wrapInt edbInvalidArg := by decide
        exact absurd hCode hCodes
    · -- The server is ended, and no other reply is one.
      left
      have hRun₀ := hRun m₀ hReceived₀
      rw [if_neg (not_not.mpr hPrinted₀), if_neg hShows₀]
        at hRun₀
      intro m hReceived
      have hEnds : ∀ r, runCommand s m ≠ .ok r := by
        intro r hOk
        have hReturns := hDepends.returns_of_returns
          hReceived hReceived₀ hOk
        rw [hRun₀] at hReturns
        exact not_returns_error _ hReturns
      have hRun' := hRun m hReceived
      by_cases hPrinted : Printed s.prints ⟨m, c.size⟩
      · refine ⟨hPrinted, fun hShows => ?_⟩
        rw [if_neg (not_not.mpr hPrinted), if_pos hShows]
          at hRun'
        exact hEnds _ hRun'
      · rw [if_pos hPrinted] at hRun'
        exact absurd hRun' (hEnds _)
  · left
    intro m hReceived hPrinted
    exact hSome ⟨m, hReceived, hPrinted⟩

theorem ownBytes
    (hDepends : DependsOnPacket prints packet)
    (hPacket : IsPacket packet) :
    OwnBytes prints packet := by
  have hServer : DependsOnPacket (printingKrcb prints).prints
      packet := hDepends
  unfold OwnBytes
  split
  · rename_i hShort
    exact hServer.not_repliesObject hPacket hShort
  · rename_i hLong
    intro c hReads
    by_cases hInside : Inside packet c.size
    · exact Or.inl hInside
    · right
      apply hServer.refused hInside
      intro m hReceived
      exact (readsPayload_iff hPacket (not_lt.mp hLong)
        (received_packetBuffer packet) hReceived).mpr hReads

end DependsOnPacket

end Requests

/- A delete request for the key 1. -/
def deleteOne : List UInt8 :=
  [22, 0, 0, 0, 3, 0, 0, 0,
    14, 0, 0, 0, 16, 95, 105, 100, 0, 1, 0, 0, 0, 0]

/-
  A query request that ends in the value of its key: the
  object has 14 bytes, and ten of them are in the packet.
-/
def cutQuery : List UInt8 :=
  [18, 0, 0, 0, 4, 0, 0, 0,
    14, 0, 0, 0, 16, 95, 105, 100, 0, 1]

/- The second byte behind it is from an earlier request. -/
def staleBuffer : Memory :=
  Function.update (packetBuffer cutQuery) 19 1

/- A store with one document, whose key is 1. -/
def singleKrcb : EdbKrcb where
  h := hashFunc
  prints := printsIdOnly
  exts := []
  rtnMgr := singleServer.store

theorem cutQuery_codes :
    (runCommand singleKrcb (packetBuffer cutQuery)).map
        (fun r => r.rc) = .ok edbOk ∧
      (runCommand singleKrcb staleBuffer).map
        (fun r => r.rc) = .ok edbInvalidArg := by
  constructor
  · decide +kernel
  · decide +kernel

end EmeraldDb
