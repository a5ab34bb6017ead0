import EmeraldDb.Msg.Msg
import EmeraldDb.Pmd.Transfer

/-
  The agent that serves one connection.

  The agent keeps one receive buffer.  Each request starts
  with its length; the buffer grows when it is too small for
  the length, and then the rest of the request is received
  behind the length.  All arithmetic on lengths is that of
  32-bit signed words.

  Key definitions include:
    * `ossRoundUpToMultipleX`
    * `Agent`
    * `Agent.checkLength`
    * `pmdAgentEntryPoint`

  Key results include:
    * `ossRoundUpToMultipleX_fits`
    * `Agent.checkLength_spec`
    * `recvBuffer_fits`
-/

namespace EmeraldDb

abbrev pmdAgentRecvBufferSz : Nat := 4096
abbrev edbPageSize : Nat := 4096

/- Largest size of one object in memory. -/
abbrev ptrdiffMax : Nat := 9223372036854775807

/- A signed 32-bit size as the unsigned 64-bit argument. -/
def toSize (v : Int) : Nat :=
  (v % 18446744073709551616).toNat

def ossRoundUpToMultipleX (x y : Int) : Int :=
  let v := wrapInt (x + (y - 1))
  wrapInt (v - v.tmod y)

/-
  Enlarge a block of `oldSize` bytes.  No block is larger
  than `ptrdiffMax`; below that, `fresh` has what lies behind
  the old bytes if there is memory for the block.
-/
def realloc
    (m : Memory)
    (oldSize size : Nat)
    (fresh : Option Memory) : Option Memory :=
  if ptrdiffMax < size then none
  else fresh.map (fun f i => if i < oldSize then m i else f i)

------------------------------------------------------------
-- State
------------------------------------------------------------

/-
  The buffers of an agent and its socket.  `allocated` is the
  size of the last allocation of the receive buffer that was
  successful; the code only keeps `recvBufferSize`.
-/
structure Agent where
  recvBuffer : Memory
  recvBufferSize : Int
  allocated : Nat
  resultBuffer : MsgBuffer
  socket : OssSocket

/-
  What the calls of one round of the loop answer: `isForced`
  before each try of the three transfers, the allocations of
  the two buffers, the two changes of status, and the result
  of the request.
-/
structure Round where
  forcedLength : List Bool
  fresh : Option Memory
  forcedBody : List Bool
  activateEDU : Int
  freshResult : Option Memory
  process : Memory → Int → MsgBuffer → Int × MsgBuffer
  forcedSend : List Bool
  waitEDU : Int

/- The loop has a call that still waits, or has been left. -/
inductive Exit
| waiting
| left (rc : Int)
deriving DecidableEq, Repr

/-
  The check of one length that was received: its result code
  and what the agent has then.  With the code `edbOk` the
  agent goes on to receive the rest of the request.
-/
structure LengthCheck where
  packetLen : Int
  rc : Int
  recvBufferSize : Int
  allocated : Nat
deriving DecidableEq, Repr

/- The code that the agent returns for an error. -/
def agentError (rc : Int) : Exit :=
  .left (if rc = edbNetworkClose then edbOk else rc)

------------------------------------------------------------
-- The Loop
------------------------------------------------------------

namespace Agent

/- Make the receive buffer large enough for a request. -/
def checkLength
    (ag : Agent)
    (packetLen : Int)
    (fresh : Option Memory) : Int × Agent :=
  if packetLen < 4 then (edbInvalidArg, ag)
  else if ag.recvBufferSize < wrapInt (packetLen + 1) then
    let newSize := ossRoundUpToMultipleX
      (wrapInt (packetLen + 1)) edbPageSize
    match realloc ag.recvBuffer ag.allocated
        (toSize newSize) fresh with
    | none => (edbOom, ag)
    | some m =>
        (edbOk, { ag with
          recvBuffer := m
          recvBufferSize := newSize
          allocated := toSize newSize })
  else (edbOk, ag)

/- Handle a received request and send the reply. -/
def serve
    (ag : Agent)
    (r : Round)
    (packetLen : Int) : Except Exit Agent :=
  let request := ag.recvBuffer.store packetLen.toNat [0]
  if r.activateEDU ≠ edbOk then
    .error (agentError r.activateEDU)
  else
    let result : Option MsgBuffer :=
      if (sizeofMsgReply : Int) < ag.resultBuffer.size then
        r.freshResult.map (fun f => ⟨f, sizeofMsgReply⟩)
      else some ag.resultBuffer
    match result with
    | none => .error (agentError edbOom)
    | some result =>
        let (rc, result) := r.process request packetLen result
        if rc ≠ edbOk then .error (agentError rc)
        else
          match pmdSend result.mem 0 (msgLen result.mem)
              r.forcedSend ag.socket with
          | (none, _) => .error .waiting
          | (some rc, socket) =>
              if rc ≠ edbOk ∧ rc ≠ edbAppForced then
                .error (agentError rc)
              else if r.waitEDU ≠ edbOk then
                .error (agentError r.waitEDU)
              else
                .ok { ag with
                  recvBuffer := request
                  resultBuffer := result
                  socket := socket }

/- Receive the rest of a request and handle it. -/
def receiveBody
    (ag : Agent)
    (r : Round)
    (packetLen : Int) : Except Exit Agent :=
  match pmdRecv 4 (wrapInt (packetLen - 4)) r.forcedBody
      ag.recvBuffer ag.socket with
  | (none, _) => .error .waiting
  | (some rc, m, socket) =>
      if rc ≠ edbOk then .error (agentError rc)
      else
        { ag with recvBuffer := m, socket := socket }.serve r
          packetLen

/- One round of the loop. -/
def round
    (ag : Agent)
    (r : Round) : Option LengthCheck × Except Exit Agent :=
  match pmdRecv 0 4 r.forcedLength ag.recvBuffer
      ag.socket with
  | (none, _) => (none, .error .waiting)
  | (some rc, m, socket) =>
      if rc ≠ edbOk then (none, .error (agentError rc))
      else
        let packetLen := m.int 0
        let (rc, ag) := { ag with
          recvBuffer := m
          socket := socket }.checkLength packetLen r.fresh
        let check := ⟨packetLen, rc, ag.recvBufferSize,
          ag.allocated⟩
        if rc ≠ edbOk then
          (some check, .error (agentError rc))
        else (some check, ag.receiveBody r packetLen)

/-
  All rounds of the loop, with the lengths that were checked.
  A forced agent leaves the loop like one with an error.
-/
def loop :
    List Round → Agent → List LengthCheck × Exit
| [], _ => ([], .waiting)
| r :: rest, ag =>
    match ag.round r with
    | (check, .error exit) => (check.toList, exit)
    | (check, .ok ag) =>
        let (checks, exit) := loop rest ag
        (check.toList ++ checks, exit)

end Agent

/- An agent with the buffers it allocates at its start. -/
def startAgent
    (recvBuffer resultBuffer : Memory)
    (socket : OssSocket) : Agent where
  recvBuffer := recvBuffer
  recvBufferSize := pmdAgentRecvBufferSz
  allocated := pmdAgentRecvBufferSz
  resultBuffer := ⟨resultBuffer, sizeofMsgReply⟩
  socket := socket

/- The run of an agent whose first allocations succeed. -/
def pmdAgentEntryPoint
    (rounds : List Round)
    (recvBuffer resultBuffer : Memory)
    (socket : OssSocket) : List LengthCheck × Exit :=
  Agent.loop rounds
    (startAgent recvBuffer resultBuffer socket)

------------------------------------------------------------
-- Sizes
------------------------------------------------------------

/- Away from the end of the range, rounding up works. -/
theorem ossRoundUpToMultipleX_fits
    {x : Int}
    (hLow : 0 ≤ x)
    (hHigh : x ≤ 2147479552) :
    x ≤ ossRoundUpToMultipleX x edbPageSize ∧
      ossRoundUpToMultipleX x edbPageSize < x + 4096 ∧
      ossRoundUpToMultipleX x edbPageSize < 2147483648 := by
  unfold ossRoundUpToMultipleX
  simp only [edbPageSize]
  have hSum : wrapInt (x + ((4096 : Nat) - 1)) = x + 4095 := by
    rw [wrapInt_of_range (by omega) (by omega)]
    omega
  rw [hSum, Int.tmod_eq_emod_of_nonneg (by omega),
    wrapInt_of_range (by omega) (by omega)]
  omega

/- At the end of the range the size becomes negative. -/
theorem ossRoundUpToMultipleX_wraps
    {x : Int}
    (hLow : 2147479552 < x)
    (hHigh : x < 2147483648) :
    -2147483648 ≤ ossRoundUpToMultipleX x edbPageSize ∧
      ossRoundUpToMultipleX x edbPageSize < 0 := by
  unfold ossRoundUpToMultipleX
  simp only [edbPageSize]
  have hWrap : wrapInt (x + ((4096 : Nat) - 1)) =
      x + 4095 - 4294967296 := by
    simp only [wrapInt, toSigned, ofSigned]
    omega
  -- The remainder of a negative number is not positive.
  have hRest : (x + 4095 - 4294967296).tmod (4096 : Nat) =
      -((4294967296 - 4095 - x) % (4096 : Nat)) := by
    rw [← Int.tmod_eq_emod_of_nonneg (by omega),
      ← Int.neg_tmod]
    congr 1
    omega
  rw [hWrap, hRest, wrapInt_of_range (by omega) (by omega)]
  omega

theorem ptrdiffMax_lt_toSize
    {v : Int}
    (hLow : -2147483648 ≤ v)
    (hNegative : v < 0) :
    ptrdiffMax < toSize v := by
  simp only [ptrdiffMax, toSize]
  omega

theorem invalidArg_ne_ok : edbInvalidArg ≠ edbOk := by
  decide

theorem oom_ne_ok : edbOom ≠ edbOk := by
  decide

namespace Agent

variable {ag ag' : Agent} {r : Round} {packetLen : Int}

/-
  The agent's note of the buffer size is the size of the
  last successful allocation.
-/
structure Sized (ag : Agent) : Prop where
  exact : ag.recvBufferSize = ag.allocated
  least : 4096 ≤ ag.recvBufferSize
  word : ag.recvBufferSize < 2147483648

/-
  A length that passes the check fits into the buffer, with
  the byte that ends the request, unless it is the largest
  one.  The largest one passes.
-/
theorem checkLength_spec
    (hSized : ag.Sized)
    (hLow : -2147483648 ≤ packetLen)
    (hHigh : packetLen < 2147483648)
    (fresh : Option Memory) :
    (ag.checkLength packetLen fresh).2.Sized ∧
      ((ag.checkLength packetLen fresh).1 = edbOk →
        packetLen ≠ 2147483647 →
        packetLen + 1 ≤
          (ag.checkLength packetLen fresh).2.recvBufferSize) ∧
      (packetLen = 2147483647 →
        (ag.checkLength packetLen fresh).1 = edbOk) := by
  have hLeast := hSized.least
  have hWord := hSized.word
  unfold checkLength
  by_cases hShort : packetLen < 4
  · rw [if_pos hShort]
    refine ⟨hSized, ?_, by omega⟩
    intro hOk
    exact absurd hOk invalidArg_ne_ok
  · rw [if_neg hShort]
    by_cases hLargest : packetLen = 2147483647
    · -- The length plus one is the least number, so the
      -- buffer looks large enough.
      have hWrap : wrapInt (packetLen + 1) = -2147483648 := by
        rw [hLargest]
        decide
      rw [hWrap, if_neg (by omega)]
      exact ⟨hSized, fun _ hNot => absurd hLargest hNot,
        fun _ => rfl⟩
    · have hSum : wrapInt (packetLen + 1) = packetLen + 1 :=
        wrapInt_of_range (by omega) (by omega)
      rw [hSum]
      by_cases hGrow : ag.recvBufferSize < packetLen + 1
      · rw [if_pos hGrow]
        by_cases hEnd : packetLen + 1 ≤ 2147479552
        · have hRound := ossRoundUpToMultipleX_fits
            (by omega : 0 ≤ packetLen + 1) hEnd
          cases hAlloc : realloc ag.recvBuffer ag.allocated
              (toSize (ossRoundUpToMultipleX (packetLen + 1)
                edbPageSize)) fresh with
          | none =>
              simp only [hAlloc]
              refine ⟨hSized, ?_, by omega⟩
              intro hOk
              exact absurd hOk oom_ne_ok
          | some m =>
              simp only [hAlloc]
              refine ⟨⟨?_, ?_, ?_⟩, ?_, ?_⟩
              · simp only [toSize]
                omega
              · have hLarge := hRound.1
                simp only
                omega
              · exact hRound.2.2
              · intro _ _
                exact hRound.1
              · intro hNot
                exact absurd hNot hLargest
        · have hWraps := ossRoundUpToMultipleX_wraps
            (by omega : 2147479552 < packetLen + 1)
            (by omega)
          have hHuge := ptrdiffMax_lt_toSize hWraps.1 hWraps.2
          simp only [realloc, if_pos hHuge]
          refine ⟨hSized, ?_, fun hNot => absurd hNot hLargest⟩
          intro hOk
          exact absurd hOk oom_ne_ok
      · rw [if_neg hGrow]
        refine ⟨hSized, ?_, fun hNot => absurd hNot hLargest⟩
        intro _ _
        exact Int.not_lt.mp hGrow

theorem checkLength_code
    (ag : Agent)
    (packetLen : Int)
    (fresh : Option Memory) :
    (ag.checkLength packetLen fresh).1 = edbOk ∨
      (ag.checkLength packetLen fresh).1 = edbInvalidArg ∨
      (ag.checkLength packetLen fresh).1 = edbOom := by
  unfold checkLength
  split
  · exact Or.inr (Or.inl rfl)
  · split
    · simp only
      split
      · exact Or.inr (Or.inr rfl)
      · exact Or.inl rfl
    · exact Or.inl rfl

------------------------------------------------------------
-- Runs
------------------------------------------------------------

/- Serving a request leaves the receive buffer's size. -/
theorem serve_sized
    (hSized : ag.Sized)
    (hServe : ag.serve r packetLen = .ok ag') :
    ag'.Sized := by
  unfold serve at hServe
  simp only at hServe
  split at hServe
  · exact absurd hServe (by simp)
  · split at hServe
    · exact absurd hServe (by simp)
    · split at hServe
      · exact absurd hServe (by simp)
      · split at hServe
        · exact absurd hServe (by simp)
        · split at hServe
          · exact absurd hServe (by simp)
          · split at hServe
            · exact absurd hServe (by simp)
            · simp only [Except.ok.injEq] at hServe
              rw [← hServe]
              exact ⟨hSized.exact, hSized.least, hSized.word⟩

theorem receiveBody_sized
    (hSized : ag.Sized)
    (hBody : ag.receiveBody r packetLen = .ok ag') :
    ag'.Sized := by
  unfold receiveBody at hBody
  split at hBody
  · exact absurd hBody (by simp)
  · split at hBody
    · exact absurd hBody (by simp)
    · apply serve_sized _ hBody
      exact ⟨hSized.exact, hSized.least, hSized.word⟩

end Agent

namespace LengthCheck

/-
  The rest of a request is only received into a buffer that
  is large enough for the request and the byte after it.
-/
def Fits (check : LengthCheck) : Prop :=
  check.rc = edbOk →
    check.recvBufferSize = check.allocated ∧
      check.packetLen + 1 ≤ check.recvBufferSize

end LengthCheck

namespace Agent

variable {ag ag' : Agent} {r : Round}

/-
  One round keeps the size exact.  The length it checks fits
  unless it is the largest one, and a length that is refused
  ends the loop with the code.
-/
theorem round_spec
    (hSized : ag.Sized)
    (r : Round) :
    (∀ check, (ag.round r).1 = some check →
      (check.Fits ↔ check.packetLen ≠ 2147483647) ∧
        (check.rc ≠ edbOk →
          (ag.round r).2 = .error (.left check.rc))) ∧
      ∀ ag', (ag.round r).2 = .ok ag' → ag'.Sized := by
  unfold round
  rcases hRecv : pmdRecv 0 4 r.forcedLength ag.recvBuffer
      ag.socket with ⟨_ | rc, m, socket⟩
  · exact ⟨by simp, by simp⟩
  · by_cases hCode : rc = edbOk
    · simp only [hCode, ne_eq, not_true_eq_false, if_false]
      have hStart : Sized { ag with
          recvBuffer := m
          socket := socket } :=
        ⟨hSized.exact, hSized.least, hSized.word⟩
      have hRange := m.int_range 0
      have hSpec := checkLength_spec hStart hRange.1 hRange.2
        r.fresh
      have hCodes := checkLength_code { ag with
        recvBuffer := m
        socket := socket } (m.int 0) r.fresh
      rcases hCheck : checkLength { ag with
          recvBuffer := m
          socket := socket } (m.int 0) r.fresh with ⟨rc', ag₁⟩
      rw [hCheck] at hSpec hCodes
      rcases hSpec with ⟨hNext, hFits, hLargest⟩
      have hIff : LengthCheck.Fits
          ⟨m.int 0, rc', ag₁.recvBufferSize, ag₁.allocated⟩ ↔
            m.int 0 ≠ 2147483647 := by
        constructor
        · intro hCheckFits hEq
          have hRoom : m.int 0 + 1 ≤ ag₁.recvBufferSize :=
            (hCheckFits (hLargest hEq)).2
          have hWord : ag₁.recvBufferSize < 2147483648 :=
            hNext.word
          omega
        · intro hNe hOk
          exact ⟨hNext.exact, hFits hOk hNe⟩
      by_cases hRefused : rc' = edbOk
      · subst hRefused
        simp only [not_true_eq_false, if_false]
        refine ⟨?_, fun ag' => receiveBody_sized hNext⟩
        intro check hSome
        rw [Option.some.injEq] at hSome
        subst hSome
        exact ⟨hIff, fun hNot => absurd rfl hNot⟩
      · simp only [hRefused, not_false_eq_true, if_true]
        refine ⟨?_, by simp⟩
        intro check hSome
        rw [Option.some.injEq] at hSome
        subst hSome
        refine ⟨hIff, fun _ => ?_⟩
        rcases hCodes with hOk | rfl | rfl
        · exact absurd hOk hRefused
        · rfl
        · rfl
    · simp only [ne_eq, hCode, not_false_eq_true, if_true]
      exact ⟨by simp, by simp⟩

/- What the rounds of the loop keep, the loop keeps. -/
theorem loop_spec
    (hSized : ag.Sized)
    (rounds : List Round) :
    ∀ check ∈ (loop rounds ag).1,
      (check.Fits ↔ check.packetLen ≠ 2147483647) ∧
        (check.rc ≠ edbOk →
          (loop rounds ag).2 = .left check.rc) := by
  induction rounds generalizing ag with
  | nil => simp [loop]
  | cons r rest ih =>
      have hRound := round_spec hSized r
      rcases hStep : ag.round r with ⟨found, exit | ag'⟩
      · rw [hStep] at hRound
        intro check hCheck
        simp only [loop, hStep, Option.mem_toList] at hCheck
        have hSpec := hRound.1 check hCheck
        refine ⟨hSpec.1, ?_⟩
        intro hRefused
        have hExit := hSpec.2 hRefused
        simp only [Except.error.injEq] at hExit
        simp only [loop, hStep, hExit]
      · rw [hStep] at hRound
        have hRest := ih (hRound.2 ag' rfl)
        intro check hCheck
        simp only [loop, hStep, List.mem_append,
          Option.mem_toList] at hCheck
        simp only [loop, hStep]
        rcases hCheck with hFirst | hLater
        · have hSpec := hRound.1 check hFirst
          refine ⟨hSpec.1, ?_⟩
          intro hRefused
          have hExit := hSpec.2 hRefused
          simp at hExit
        · exact hRest check hLater

end Agent

section Runs

variable (rounds : List Round)
variable (recvBuffer resultBuffer : Memory)
variable (socket : OssSocket)

/-
  Whatever lengths arrive, a length that is refused ends the
  loop with its code, and every other one fits into the last
  buffer that was allocated exactly when no length that
  arrives is the largest 32-bit number.
-/
theorem recvBuffer_fits :
    (∀ check ∈ (pmdAgentEntryPoint rounds recvBuffer
        resultBuffer socket).1,
      check.rc ≠ edbOk →
        (pmdAgentEntryPoint rounds recvBuffer resultBuffer
          socket).2 = .left check.rc) ∧
      ((∀ check ∈ (pmdAgentEntryPoint rounds recvBuffer
          resultBuffer socket).1, check.Fits) ↔
        ∀ check ∈ (pmdAgentEntryPoint rounds recvBuffer
          resultBuffer socket).1,
          check.packetLen ≠ 2147483647) := by
  have hStart : (startAgent recvBuffer resultBuffer
      socket).Sized := by
    constructor <;> simp [startAgent]
  have hLoop := Agent.loop_spec hStart rounds
  refine ⟨fun check hCheck => (hLoop check hCheck).2, ?_⟩
  constructor
  · intro hFits check hCheck
    exact (hLoop check hCheck).1.mp (hFits check hCheck)
  · intro hLengths check hCheck
    exact (hLoop check hCheck).1.mpr (hLengths check hCheck)

end Runs

/- A round in which nothing fails and nothing is forced. -/
def plainRound : Round where
  forcedLength := [false]
  fresh := some (fun _ => 0)
  forcedBody := [false]
  activateEDU := edbOk
  freshResult := some (fun _ => 0)
  process := fun _ _ result => (edbOk, result)
  forcedSend := [false]
  waitEDU := edbOk

/-
  A request of the largest length is received into a buffer
  of 4096 bytes.
-/
theorem recvBuffer_overrun :
    (pmdAgentEntryPoint [plainRound] (fun _ => 0)
      (fun _ => 0) {
        timeout := 0
        selects := [.ready true, .ready true]
        sends := []
        recvs := [.received 4, .received 4096]
        input := [255, 255, 255, 127]
        output := [] }).1 =
      [⟨2147483647, edbOk, 4096, 4096⟩] ∧
    ¬ LengthCheck.Fits ⟨2147483647, edbOk, 4096, 4096⟩ := by
  refine ⟨by rfl, ?_⟩
  intro hFits
  have hRoom := (hFits rfl).2
  simp only at hRoom
  omega

end EmeraldDb
