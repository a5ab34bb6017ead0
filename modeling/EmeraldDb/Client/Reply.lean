import EmeraldDb.Client.Command

/-
  When a command reports success.

  A command that reports success has received all bytes that
  the length at the start of the reply asks for.  That they
  are a real reply is only checked in part: a length below
  that of a reply leaves the return code, or a part of it, as
  the zero that the buffer was filled with.

  Key definitions include:
    * `Arrives`
    * `replyBuffer`
    * `RealReply`

  Key results include:
    * `recvReply_ok`
    * `exists_recvReply`
    * `execute_realReply`
-/

namespace EmeraldDb

------------------------------------------------------------
-- Replies
------------------------------------------------------------

/- The length that a reply starts with. -/
def replyLength (input : List UInt8) : Int :=
  streamInt input 0

/-
  Number of bytes that are received for a reply: four for the
  length, and what the length says after a subtraction in 32
  bits.  No byte is received for a negative number.
-/
def replySize (input : List UInt8) : Nat :=
  4 + (wrapInt (replyLength input - 4)).toNat

/- All bytes that are received for the reply are there. -/
def Arrives (input : List UInt8) : Prop :=
  replySize input ≤ input.length

/- The receive buffer behind the last byte of the reply. -/
def replyBuffer
    (m : Memory)
    (input : List UInt8) : Memory :=
  (m.fill 0 recvBufSize 0).store 0
    (input.take (replySize input))

/-
  One complete message of a valid length was taken from the
  stream, and its return code is that of a success.
-/
structure RealReply (input rest : List UInt8) : Prop where
  least : (sizeofMsgReply : Int) ≤ replyLength input
  most : replyLength input ≤ recvBufSize
  arrives : (replyLength input).toNat ≤ input.length
  taken : rest = input.drop (replyLength input).toNat
  code : streamInt input 8 = edbOk

------------------------------------------------------------
-- Words of the Buffer
------------------------------------------------------------

section Words

variable {m : Memory} {input : List UInt8}

theorem four_le_replySize (input : List UInt8) :
    4 ≤ replySize input := by
  unfold replySize
  omega

/- A length that is in range is the number of its bytes. -/
theorem replySize_eq
    (hLow : 4 ≤ replyLength input) :
    replySize input = (replyLength input).toNat := by
  have hRange := Memory.int_range
    (Memory.store (fun _ => 0) 0 input) 0
  change -2147483648 ≤ replyLength input ∧
    replyLength input < 2147483648 at hRange
  unfold replySize
  rw [wrapInt_of_range (by omega) (by omega)]
  omega

end Words

------------------------------------------------------------
-- Receiving a Reply
------------------------------------------------------------

section Receiving

variable {m m' : Memory} {socket socket' : OssSocket}

/- A success has received exactly what was asked for. -/
theorem recvRetry_ok
    {a : Nat}
    {len : Int}
    (tries : Nat)
    (hRecv : recvRetry a len tries m socket =
      (some edbOk, m', socket')) :
    len.toNat ≤ socket.input.length ∧
      m' = m.store a (socket.input.take len.toNat) ∧
      socket'.input = socket.input.drop len.toNat := by
  induction tries generalizing m socket with
  | zero => simp [recvRetry] at hRecv
  | succ tries ih =>
      unfold recvRetry at hRecv
      rcases socket.recv_spec m a len with
        ⟨k, hLe, hLong, hMem, hLeft, hAll, hLate⟩
      rcases hTry : socket.recv m a len with
        ⟨_ | rc, m₁, socket₁⟩
      · rw [hTry] at hRecv
        simp at hRecv
      · rw [hTry] at hRecv hMem hLeft hAll hLate
        simp only at hRecv hMem hLeft hAll hLate
        by_cases hOk : rc = edbOk
        · have hEnd := hAll (by rw [hOk])
          rw [if_pos hOk] at hRecv
          simp only [Prod.mk.injEq, true_and] at hRecv
          rw [← hRecv.1, ← hRecv.2, ← hEnd]
          exact ⟨hLong, hMem, hLeft⟩
        · rw [if_neg hOk] at hRecv
          by_cases hTimeout : rc = edbTimeout
          · -- Nothing was taken, so the next try starts anew.
            have hNone := hLate (by rw [hTimeout])
            rw [hNone] at hMem hLeft
            rw [List.take_zero, Memory.store_nil] at hMem
            rw [List.drop_zero] at hLeft
            rw [if_pos hTimeout, hMem] at hRecv
            rw [← hLeft]
            exact ih hRecv
          · rw [if_neg hTimeout] at hRecv
            split at hRecv
            · exact absurd (Prod.mk.inj hRecv).1 (by decide)
            · exact absurd (Prod.mk.inj hRecv).1 (by decide)

theorem recvAll_ok
    {a : Nat}
    {len : Int}
    (hRecv : recvAll a len m socket =
      (some edbOk, m', socket')) :
    len.toNat ≤ socket.input.length ∧
      m' = m.store a (socket.input.take len.toNat) ∧
      socket'.input = socket.input.drop len.toNat :=
  recvRetry_ok _ hRecv

/- A connection test receives nothing. -/
theorem isConnected_frame
    (socket : OssSocket) :
    socket.isConnected.2.selects = socket.selects ∧
      socket.isConnected.2.recvs = socket.recvs ∧
      socket.isConnected.2.input = socket.input := by
  unfold OssSocket.isConnected
  split <;> exact ⟨rfl, rfl, rfl⟩

theorem isConnected_input
    (socket : OssSocket) :
    socket.isConnected.2.input = socket.input :=
  (isConnected_frame socket).2.2

/- A reply that was received fills the buffer. -/
theorem recvReply_ok
    (hReply : recvReply m socket =
      (some edbOk, m', socket')) :
    Arrives socket.input ∧
      replyLength socket.input ≤ recvBufSize ∧
      m' = replyBuffer m socket.input ∧
      socket'.input =
        socket.input.drop (replySize socket.input) := by
  have hInput := isConnected_input socket
  unfold recvReply at hReply
  rcases hConnected : socket.isConnected with
    ⟨_ | _ | _, socket₁⟩
  · rw [hConnected] at hReply
    exact absurd (Prod.mk.inj hReply).1 (by decide)
  · rw [hConnected] at hReply
    exact absurd (Prod.mk.inj hReply).1 (by decide)
  · rw [hConnected] at hReply hInput
    simp only at hReply hInput
    rcases hFirst : recvAll 0 4 (m.fill 0 recvBufSize 0)
        socket₁ with ⟨_ | rc, m₁, socket₂⟩
    · rw [hFirst] at hReply
      exact absurd (Prod.mk.inj hReply).1 (by decide)
    · rw [hFirst] at hReply
      simp only at hReply
      by_cases hOk : rc = edbOk
      · -- The length has arrived.
        rw [if_neg (not_not.mpr hOk)] at hReply
        rw [hOk] at hFirst
        rcases recvAll_ok hFirst with ⟨hLong, hMem, hLeft⟩
        rw [hInput] at hLong hMem hLeft
        change 4 ≤ socket.input.length at hLong
        change m₁ = _ at hMem
        have hLength : m₁.int 0 = replyLength socket.input := by
          rw [hMem]
          exact int_store_take _ hLong (le_refl _)
        rw [hLength] at hReply
        split at hReply
        · exact absurd (Prod.mk.inj hReply).1 (by decide)
        · rename_i hShort
          rcases recvAll_ok hReply with
            ⟨hRest, hMem', hLeft'⟩
          rw [hLeft, List.length_drop] at hRest
          refine ⟨?_, by omega, ?_, ?_⟩
          · unfold Arrives replySize
            change _ ≤ socket.input.length - 4 at hRest
            omega
          · rw [hMem', hMem, hLeft]
            exact store_behind_length _ hLong _
          · rw [hLeft', hLeft, List.drop_drop]
            rfl
      · rw [if_pos hOk] at hReply
        exact absurd (Option.some.inj
          (Prod.mk.inj hReply).1) hOk

end Receiving

------------------------------------------------------------
-- A Socket That Is Ready
------------------------------------------------------------

section Ready

variable {m : Memory} {socket : OssSocket}
variable {selects : List SelectResult}
variable {recvs : List RecvResult}

theorem wrapInt_lt (v : Int) :
    wrapInt v < 2147483648 := by
  have hWord := ofSigned_lt v
  unfold wrapInt toSigned
  split <;> omega

theorem recvLoop_done
    (timeout : Int)
    (retries a : Nat)
    {len : Int}
    (hDone : len ≤ 0)
    (input : List UInt8) :
    OssSocket.recvLoop timeout recvs retries m a len input =
      ⟨some edbOk, m, input, recvs⟩ := by
  cases recvs with
  | nil =>
      unfold OssSocket.recvLoop
      rw [if_neg (by omega)]
  | cons result rest =>
      unfold OssSocket.recvLoop
      rw [if_neg (by omega)]

/- Bytes that are all there can be received at once. -/
theorem recv_ready
    (hSelects : socket.selects = .ready true :: selects)
    {n : Nat}
    (hRecvs : socket.recvs = .received n :: recvs)
    (a : Nat)
    {len : Int}
    (hLen : 0 < len)
    (hMost : len.toNat ≤ n)
    (hInput : len.toNat ≤ socket.input.length) :
    socket.recv m a len = (some edbOk,
      m.store a (socket.input.take len.toNat),
      { socket with
        selects := selects
        recvs := recvs
        input := socket.input.drop len.toNat }) := by
  have hChunk : (socket.input.take len.toNat).length =
      len.toNat := by
    rw [List.length_take, Nat.min_eq_left hInput]
  have hLoop : OssSocket.recvLoop socket.timeout
      (.received n :: recvs) 0 m a len socket.input =
      ⟨some edbOk,
        m.store a (socket.input.take len.toNat),
        socket.input.drop len.toNat, recvs⟩ := by
    unfold OssSocket.recvLoop
    simp only [if_pos hLen, Nat.min_eq_right hMost, hChunk]
    rw [if_pos (by omega), recvLoop_done _ _ _ (by omega)]
  unfold OssSocket.recv
  rw [if_neg (by omega), hSelects, hRecvs]
  simp only [OssSocket.waitReady, if_true, ne_eq,
    not_true_eq_false, if_false, hLoop]

/- Receiving a negative number of bytes succeeds at once. -/
theorem recv_negative
    (hSelects : socket.selects = .ready true :: selects)
    (a : Nat)
    {len : Int}
    (hLen : len < 0) :
    socket.recv m a len = (some edbOk, m,
      { socket with selects := selects }) := by
  unfold OssSocket.recv
  rw [if_neg (by omega), hSelects]
  simp only [OssSocket.waitReady, if_true, ne_eq,
    not_true_eq_false, if_false]
  rw [recvLoop_done _ _ _ (by omega)]

theorem recvAll_of_recv
    {a : Nat}
    {len : Int}
    {m' : Memory}
    {socket' : OssSocket}
    (hRecv : socket.recv m a len =
      (some edbOk, m', socket')) :
    recvAll a len m socket = (some edbOk, m', socket') := by
  unfold recvAll recvRetry
  rw [hRecv]
  simp

/- All bytes of a number that is asked for are received. -/
theorem exists_recvAll
    (hSelects : socket.selects = .ready true :: selects)
    {n : Nat}
    (hRecvs : socket.recvs = .received n :: recvs)
    (m : Memory)
    (a : Nat)
    {len : Int}
    (hMost : len.toNat ≤ n)
    (hInput : len.toNat ≤ socket.input.length) :
    ∃ socket', recvAll a len m socket = (some edbOk,
      m.store a (socket.input.take len.toNat), socket') := by
  rcases Int.lt_trichotomy len 0 with hNegative | hZero | hMore
  · have hNone : len.toNat = 0 := by omega
    rw [hNone, List.take_zero, Memory.store_nil]
    exact ⟨_, recvAll_of_recv
      (recv_negative hSelects a hNegative)⟩
  · rw [hZero]
    refine ⟨socket, recvAll_of_recv ?_⟩
    simp [OssSocket.recv]
  · exact ⟨_, recvAll_of_recv
      (recv_ready hSelects hRecvs a hMore hMost hInput)⟩

/- A reply that is all there can be received. -/
theorem exists_recvReply
    (m : Memory)
    {sends : List SendResult}
    {n n' : Nat}
    (hSends : socket.sends = .sent n' :: sends)
    (hSelects : socket.selects =
      [.ready true, .ready true])
    (hRecvs : socket.recvs =
      [.received 4, .received n])
    (hMost : 2147483648 ≤ n)
    (hArrives : Arrives socket.input)
    (hShort : replyLength socket.input ≤ recvBufSize) :
    ∃ socket', recvReply m socket =
      (some edbOk, replyBuffer m socket.input, socket') := by
  have hFour := four_le_replySize socket.input
  have hLong : 4 ≤ socket.input.length :=
    le_trans hFour hArrives
  have hWord := wrapInt_lt (replyLength socket.input - 4)
  have hBody : (wrapInt (replyLength socket.input - 4)).toNat
      ≤ socket.input.length - 4 := by
    unfold Arrives replySize at hArrives
    omega
  -- The connection test uses one answer of `send`.
  have hConnected : socket.isConnected =
      (some true, { socket with sends := sends }) := by
    unfold OssSocket.isConnected
    rw [hSends]
  have hFirst : recvAll 0 4 (m.fill 0 recvBufSize 0)
      { socket with sends := sends } = (some edbOk,
        (m.fill 0 recvBufSize 0).store 0
          (socket.input.take 4),
        { socket with
          sends := sends
          selects := [.ready true]
          recvs := [.received n]
          input := socket.input.drop 4 }) :=
    recvAll_of_recv (@recv_ready _ { socket with
      sends := sends } _ _ hSelects _ hRecvs 0 4
      (by decide) (by decide) hLong)
  have hLength : ((m.fill 0 recvBufSize 0).store 0
      (socket.input.take 4)).int 0 =
        replyLength socket.input :=
    int_store_take _ hLong (le_refl _)
  rcases @exists_recvAll { socket with
      sends := sends
      selects := [.ready true]
      recvs := [.received n]
      input := socket.input.drop 4 } [] [] rfl n rfl
      ((m.fill 0 recvBufSize 0).store 0
        (socket.input.take 4)) 4
      (wrapInt (replyLength socket.input - 4))
      (by omega) (by rw [List.length_drop]; exact hBody) with
    ⟨socket', hSecond⟩
  refine ⟨socket', ?_⟩
  unfold recvReply
  rw [hConnected]
  simp only [hFirst, hLength]
  rw [if_neg (by simp), if_neg (by omega), hSecond,
    store_behind_length _ hLong]
  rfl

end Ready

------------------------------------------------------------
-- Executing a Command
------------------------------------------------------------

section Executing

variable {m m' : Memory} {socket socket' : OssSocket}

theorem sendMsg_input
    {onMsgBuild : OnMsgBuild}
    {bsonData : Option BSONObj}
    {rc : Option Int}
    (hSend : sendMsg onMsgBuild bsonData socket =
      .ok (rc, socket')) :
    socket'.input = socket.input := by
  unfold sendMsg at hSend
  cases bsonData with
  | none =>
      obtain ⟨_, rfl⟩ := Prod.mk.inj (Except.ok.inj hSend)
      rfl
  | some obj =>
      simp only at hSend
      split at hSend
      · cases hSend
      · split at hSend
        · obtain ⟨_, rfl⟩ := Prod.mk.inj (Except.ok.inj hSend)
          rfl
        · have hCall := send_input socket
            (onMsgBuild none ⟨fun _ => 0, sendBufSize⟩
              obj).2.mem 0
            (msgLen (onMsgBuild none
              ⟨fun _ => 0, sendBufSize⟩ obj).2.mem)
          split at hSend
          · rename_i hEq
            obtain ⟨_, rfl⟩ :=
              Prod.mk.inj (Except.ok.inj hSend)
            rw [hEq] at hCall
            exact hCall
          · rename_i hEq
            rw [hEq] at hCall
            split at hSend
            all_goals
              obtain ⟨_, rfl⟩ :=
                Prod.mk.inj (Except.ok.inj hSend)
              exact hCall

/- The codes that a receive of the client ends with. -/
theorem recvRetry_code
    {a : Nat}
    {len : Int}
    {rc : Int}
    (tries : Nat)
    (hRecv : recvRetry a len tries m socket =
      (some rc, m', socket')) :
    rc = edbOk ∨ rc = edbSocketRemoteClosed ∨
      rc = edbInternalError := by
  induction tries generalizing m socket with
  | zero => simp [recvRetry] at hRecv
  | succ tries ih =>
      unfold recvRetry at hRecv
      split at hRecv
      · simp at hRecv
      · split at hRecv
        · simp only [Prod.mk.injEq, Option.some.injEq]
            at hRecv
          exact Or.inl hRecv.1.symm
        · split at hRecv
          · exact ih hRecv
          · split at hRecv
            · simp only [Prod.mk.injEq, Option.some.injEq]
                at hRecv
              exact Or.inr (Or.inl hRecv.1.symm)
            · simp only [Prod.mk.injEq, Option.some.injEq]
                at hRecv
              exact Or.inr (Or.inr hRecv.1.symm)

/- A code of a receive that is not negative is a success. -/
theorem recvReply_code
    {rc : Int}
    (hReply : recvReply m socket =
      (some rc, m', socket')) :
    rc = edbOk ∨ rc < 0 := by
  have hNegative : ∀ code : Int, code < 0 →
      some code = some rc → rc = edbOk ∨ rc < 0 := by
    intro code hCode hEq
    exact Or.inr (Option.some.inj hEq ▸ hCode)
  unfold recvReply at hReply
  rcases hConnected : socket.isConnected with
    ⟨_ | _ | _, socket₁⟩
  · rw [hConnected] at hReply
    exact absurd (Prod.mk.inj hReply).1 (by simp)
  · rw [hConnected] at hReply
    exact hNegative _ (by decide) (Prod.mk.inj hReply).1
  · rw [hConnected] at hReply
    simp only at hReply
    rcases hFirst : recvAll 0 4 (m.fill 0 recvBufSize 0)
        socket₁ with ⟨_ | rc₁, m₁, socket₂⟩
    · rw [hFirst] at hReply
      exact absurd (Prod.mk.inj hReply).1 (by simp)
    · rw [hFirst] at hReply
      simp only at hReply
      split at hReply
      · rename_i hFailed
        rcases recvRetry_code _ hFirst with
          hOk | hCode | hCode
        · exact absurd hOk hFailed
        · rw [hCode] at hReply
          exact hNegative _ (by decide) (Prod.mk.inj hReply).1
        · rw [hCode] at hReply
          exact hNegative _ (by decide) (Prod.mk.inj hReply).1
      · split at hReply
        · exact hNegative _ (by decide) (Prod.mk.inj hReply).1
        · rcases recvRetry_code _ hReply with
            hOk | hCode | hCode
          · exact Or.inl hOk
          · right
            rw [hCode]
            decide
          · right
            rw [hCode]
            decide

/- A reply is too long if its length says so. -/
theorem recvReply_tooLong
    (hReply : recvReply m socket =
      (some edbRecvDataLengthError, m', socket')) :
    (recvBufSize : Int) < replyLength socket.input := by
  have hInput := isConnected_input socket
  unfold recvReply at hReply
  rcases hConnected : socket.isConnected with
    ⟨_ | _ | _, socket₁⟩
  · rw [hConnected] at hReply
    exact absurd (Prod.mk.inj hReply).1 (by decide)
  · rw [hConnected] at hReply
    exact absurd (Prod.mk.inj hReply).1 (by decide)
  · rw [hConnected] at hReply hInput
    simp only at hReply hInput
    rcases hFirst : recvAll 0 4 (m.fill 0 recvBufSize 0)
        socket₁ with ⟨_ | rc, m₁, socket₂⟩
    · rw [hFirst] at hReply
      exact absurd (Prod.mk.inj hReply).1 (by decide)
    · rw [hFirst] at hReply
      simp only at hReply
      have hCodes := recvRetry_code _ hFirst
      by_cases hOk : rc = edbOk
      · rw [if_neg (not_not.mpr hOk)] at hReply
        rw [hOk] at hFirst
        rcases recvAll_ok hFirst with ⟨hLong, hMem, _⟩
        rw [hInput] at hLong hMem
        have hLength : m₁.int 0 = replyLength socket.input := by
          rw [hMem]
          exact int_store_take _ hLong (le_refl _)
        rw [hLength] at hReply
        split at hReply
        · assumption
        · rcases recvRetry_code _ hReply with h | h | h
          all_goals exact absurd h (by decide)
      · rw [if_pos hOk] at hReply
        have hCode := Option.some.inj (Prod.mk.inj hReply).1
        rcases hCodes with h | h | h
        all_goals
          rw [hCode] at h
          exact absurd h (by decide)

/-
  A command that reports success has received a reply and
  handled it with success.
-/
theorem execute_ok
    {c : Command}
    (hInvalid : c.invalidArgument ≠ edbOk)
    {argVec : List (Option BSONObj)}
    (hExecute : c.execute argVec m socket =
      .ok (some edbOk, m', socket')) :
    Arrives socket.input ∧
      replyLength socket.input ≤ recvBufSize ∧
      m' = replyBuffer m socket.input ∧
      socket'.input =
        socket.input.drop (replySize socket.input) ∧
      c.handleReply m' = .ok edbOk := by
  unfold Command.execute at hExecute
  split at hExecute
  · rename_i bsonData
    have hInput := isConnected_input socket
    rcases hConnected : socket.isConnected with
      ⟨_ | _ | _, socket₁⟩
    · rw [hConnected] at hExecute
      simp at hExecute
    · rw [hConnected] at hExecute
      simp [edbSocketNotConnect, edbOk] at hExecute
    · rw [hConnected] at hExecute hInput
      simp only at hExecute hInput
      rcases hSend : sendMsg c.onMsgBuild bsonData socket₁
        with fault | ⟨_ | rc, socket₂⟩
      · rw [hSend] at hExecute
        simp at hExecute
      · rw [hSend] at hExecute
        simp at hExecute
      · have hSent := sendMsg_input hSend
        rw [hSend] at hExecute
        simp only at hExecute
        split at hExecute
        · rename_i hCode
          simp only [Except.ok.injEq, Prod.mk.injEq,
            Option.some.injEq] at hExecute
          rw [hExecute.1] at hCode
          exact absurd hCode (by decide)
        · rcases hReply : recvReply m socket₂ with
            ⟨_ | rc', m₁, socket₃⟩
          · rw [hReply] at hExecute
            simp at hExecute
          · rw [hReply] at hExecute
            simp only at hExecute
            split at hExecute
            · rename_i hCode
              simp only [Except.ok.injEq, Prod.mk.injEq,
                Option.some.injEq] at hExecute
              rw [hExecute.1] at hCode
              exact absurd hCode (by decide)
            · rename_i hCode
              -- The code of the receive is that of a success.
              have hOk : rc' = edbOk := by
                rcases recvReply_code hReply with hOk | hNot
                · exact hOk
                · exact absurd hNot hCode
              rw [hOk] at hReply
              have hSpec := recvReply_ok hReply
              rw [hSent, hInput] at hSpec
              cases hHandle : c.handleReply m₁ with
              | error e =>
                  rw [hHandle] at hExecute
                  simp [bind, Except.bind] at hExecute
              | ok code =>
                  rw [hHandle] at hExecute
                  simp only [bind, Except.bind, pure,
                    Except.pure, Except.ok.injEq,
                    Prod.mk.injEq, Option.some.injEq]
                    at hExecute
                  rcases hExecute with ⟨hRc, hMem, hSocket⟩
                  subst hMem hSocket hRc
                  exact ⟨hSpec.1, hSpec.2.1, hSpec.2.2.1,
                    hSpec.2.2.2, hHandle⟩
  · simp only [Except.ok.injEq, Prod.mk.injEq,
      Option.some.injEq] at hExecute
    exact absurd hExecute.1 hInvalid

end Executing

------------------------------------------------------------
-- A Command That Succeeds
------------------------------------------------------------

/- The object with no element. -/
def emptyObj : BSONObj :=
  ⟨Memory.setWord (fun _ => 0) 0 5, 0⟩

/- A socket on which every call succeeds at once. -/
def readySocket (input : List UInt8) : OssSocket where
  timeout := 0
  selects := [.ready true, .ready true, .ready true]
  sends := [.sent 0, .sent sendBufSize, .sent 0]
  recvs := [.received 4, .received 2147483648]
  input := input
  output := []

/- The command's message with an empty object can be sent. -/
def CanSend (c : Command) : Prop :=
  ∀ input, ∃ output,
    sendMsg c.onMsgBuild (some emptyObj)
        { readySocket input with
          sends := [.sent sendBufSize, .sent 0] } =
      .ok (some edbOk,
        { readySocket input with
          selects := [.ready true, .ready true]
          sends := [.sent 0]
          output := output })

theorem canSend_insert : CanSend insertCommand :=
  fun _ => ⟨_, rfl⟩

theorem canSend_delete : CanSend deleteCommand :=
  fun _ => ⟨_, rfl⟩

theorem canSend_query
    (toString : BSONObj → Except Fault Unit) :
    CanSend (queryCommand toString) :=
  fun _ => ⟨_, rfl⟩

/-
  If the bytes of a reply are there and are handled with
  success, some call of the command reports success.
-/
theorem exists_execute
    {c : Command}
    (hSend : CanSend c)
    (m : Memory)
    {input : List UInt8}
    (hArrives : Arrives input)
    (hShort : replyLength input ≤ recvBufSize)
    (hHandle : c.handleReply (replyBuffer m input) =
      .ok edbOk) :
    ∃ socket', c.execute [some emptyObj] m
        (readySocket input) =
      .ok (some edbOk, replyBuffer m input, socket') := by
  rcases hSend input with ⟨output, hSent⟩
  rcases @exists_recvReply
      { readySocket input with
        selects := [.ready true, .ready true]
        sends := [.sent 0]
        output := output } m [] 2147483648 0 rfl rfl rfl
      (le_refl _) hArrives hShort with ⟨socket', hReply⟩
  refine ⟨socket', ?_⟩
  have hConnected : (readySocket input).isConnected =
      (some true, { readySocket input with
        sends := [.sent sendBufSize, .sent 0] }) := rfl
  have hInput : (readySocket input).input = input := rfl
  unfold Command.execute
  simp only [hConnected, hSent, hReply]
  rw [if_neg (by decide), if_neg (by decide), hInput, hHandle]
  rfl

------------------------------------------------------------
-- Real Replies
------------------------------------------------------------

/-
  Whatever a command that reports success was called with
  and however the bytes arrived, `Real` holds of the buffer
  and of the bytes that are left.
-/
def SuccessIs
    (c : Command)
    (m : Memory)
    (input : List UInt8)
    (Real : Memory → List UInt8 → Prop) : Prop :=
  ∀ argVec socket m' socket',
    socket.input = input →
      c.execute argVec m socket =
        .ok (some edbOk, m', socket') →
      Real m' socket'.input

/- The object in the buffer ends inside the reply. -/
def ObjectInside (m : Memory) (input : List UInt8) : Prop :=
  sizeofMsgReply + m.int sizeofMsgReply ≤ replyLength input

/- The buffer has an object that can be printed. -/
def Printable
    (toString : BSONObj → Except Fault Unit)
    (m : Memory) : Prop :=
  ∃ o, BSONObj.ofData m sizeofMsgReply = .ok o ∧
    toString o = .ok ()

section Real

variable {m : Memory} {input : List UInt8}

theorem sizeofMsgReply_eq : (sizeofMsgReply : Int) = 16 := rfl

theorem recvBufSize_eq : (recvBufSize : Int) = 4096 := rfl

/- A buffer of a reply of full length is a real reply. -/
theorem realReply_of_buffer
    (hArrives : Arrives input)
    (hMost : replyLength input ≤ recvBufSize)
    (hLeast : (sizeofMsgReply : Int) ≤ replyLength input)
    (hCode : returnCode (replyBuffer m input) = edbOk) :
    RealReply input (input.drop (replySize input)) := by
  rw [sizeofMsgReply_eq] at hLeast
  have hSize : replySize input =
      (replyLength input).toNat :=
    replySize_eq (by omega)
  refine ⟨hLeast, hMost, ?_, ?_, ?_⟩
  · rw [← hSize]
    exact hArrives
  · rw [hSize]
  · rw [← hCode]
    exact (int_store_take _ hArrives (by omega)).symm

/- What success of a command without an object means. -/
theorem successIs_iff
    {c : Command}
    (hInvalid : c.invalidArgument ≠ edbOk)
    (hSend : CanSend c)
    (hHandle : ∀ m, c.handleReply m = .ok (returnCode m)) :
    SuccessIs c m input (fun _ rest => RealReply input rest) ↔
      (Arrives input →
        returnCode (replyBuffer m input) = edbOk →
          (sizeofMsgReply : Int) ≤ replyLength input) := by
  constructor
  · intro hReal hArrives hCode
    by_contra hShort
    have hMost : replyLength input ≤ recvBufSize := by
      rw [sizeofMsgReply_eq] at hShort
      rw [recvBufSize_eq]
      omega
    rcases exists_execute hSend m hArrives hMost
        (by rw [hHandle, hCode]) with ⟨socket', hExecute⟩
    exact hShort (hReal _ _ _ _ rfl hExecute).least
  · intro hHolds argVec socket m' socket' hInput hExecute
    rcases execute_ok hInvalid hExecute with
      ⟨hArrives, hMost, hMem, hRest, hDone⟩
    rw [hInput] at hArrives hMost hMem hRest
    rw [hHandle, hMem, Except.ok.injEq] at hDone
    rw [hRest]
    exact realReply_of_buffer hArrives hMost
      (hHolds hArrives hDone) hDone

/- The object that a query prints is in the buffer. -/
theorem query_handleReply
    {toString : BSONObj → Except Fault Unit}
    (m : Memory) :
    (queryCommand toString).handleReply m = .ok edbOk ↔
      returnCode m = edbOk ∧ Printable toString m := by
  unfold queryCommand Printable
  simp only
  by_cases hCode : returnCode m = edbOk
  · rw [if_pos hCode]
    simp only [hCode, true_and]
    cases hObject : BSONObj.ofData m sizeofMsgReply with
    | error e => simp [bind, Except.bind]
    | ok o =>
        cases hPrint : toString o with
        | error e => simp [bind, Except.bind, hPrint]
        | ok u => simp [bind, Except.bind, hPrint, pure,
            Except.pure]
  · rw [if_neg hCode]
    simp [hCode]

/- A query that is printed has an object of some size. -/
theorem Printable.positive
    {toString : BSONObj → Except Fault Unit}
    (hPrintable : Printable toString m) :
    0 < m.int sizeofMsgReply := by
  rcases hPrintable with ⟨o, hObject, _⟩
  unfold BSONObj.ofData at hObject
  simp only at hObject
  split at hObject
  · rename_i hValid
    simp only [BSONObj.isValid, decide_eq_true_eq] at hValid
    exact hValid.1
  · simp at hObject

theorem querySuccessIs_iff
    (toString : BSONObj → Except Fault Unit) :
    SuccessIs (queryCommand toString) m input
        (fun m' rest =>
          RealReply input rest ∧ ObjectInside m' input) ↔
      (Arrives input →
        replyLength input ≤ recvBufSize →
          returnCode (replyBuffer m input) = edbOk →
            Printable toString (replyBuffer m input) →
              ObjectInside (replyBuffer m input) input) := by
  have hInvalid :
      (queryCommand toString).invalidArgument ≠ edbOk := by
    change edbDeleteInvalidArgument ≠ edbOk
    decide
  constructor
  · intro hReal hArrives hMost hCode hPrint
    rcases exists_execute (canSend_query toString) m hArrives
        hMost ((query_handleReply _).mpr ⟨hCode, hPrint⟩) with
      ⟨socket', hExecute⟩
    exact (hReal _ _ _ _ rfl hExecute).2
  · intro hHolds argVec socket m' socket' hInput hExecute
    rcases execute_ok hInvalid hExecute with
      ⟨hArrives, hMost, hMem, hRest, hDone⟩
    rw [hInput] at hArrives hMost hMem hRest
    rw [hMem] at hDone
    rcases (query_handleReply _).mp hDone with
      ⟨hCode, hPrint⟩
    have hInside := hHolds hArrives hMost hCode hPrint
    have hPositive := hPrint.positive
    have hLeast : (sizeofMsgReply : Int) ≤
        replyLength input := by
      unfold ObjectInside at hInside
      omega
    rw [hRest, hMem]
    exact ⟨realReply_of_buffer hArrives hMost hLeast hCode,
      hInside⟩

/-
  For an insert and a delete, success means a real reply
  exactly when the bytes that arrive are no short reply with
  the return code zero in the buffer; for a query, when the
  object that is printed ends inside the reply.
-/
theorem execute_realReply
    (m : Memory)
    (input : List UInt8)
    (toString : BSONObj → Except Fault Unit) :
    (SuccessIs insertCommand m input
        (fun _ rest => RealReply input rest) ↔
      (Arrives input →
        returnCode (replyBuffer m input) = edbOk →
          (sizeofMsgReply : Int) ≤ replyLength input)) ∧
    (SuccessIs deleteCommand m input
        (fun _ rest => RealReply input rest) ↔
      (Arrives input →
        returnCode (replyBuffer m input) = edbOk →
          (sizeofMsgReply : Int) ≤ replyLength input)) ∧
    (SuccessIs (queryCommand toString) m input
        (fun m' rest =>
          RealReply input rest ∧ ObjectInside m' input) ↔
      (Arrives input →
        replyLength input ≤ recvBufSize →
          returnCode (replyBuffer m input) = edbOk →
            Printable toString (replyBuffer m input) →
              ObjectInside (replyBuffer m input) input)) := by
  refine ⟨?_, ?_, querySuccessIs_iff toString⟩
  · exact successIs_iff (by decide) canSend_insert
      (fun _ => rfl)
  · exact successIs_iff (by decide) canSend_delete
      (fun _ => rfl)

end Real

/-
  After four bytes that are the number four, an insert and a
  delete report success.
-/
theorem execute_shortReply :
    replyLength [4, 0, 0, 0] = 4 ∧
      ¬ SuccessIs insertCommand (fun _ => 0) [4, 0, 0, 0]
        (fun _ rest => RealReply [4, 0, 0, 0] rest) ∧
      ¬ SuccessIs deleteCommand (fun _ => 0) [4, 0, 0, 0]
        (fun _ rest => RealReply [4, 0, 0, 0] rest) := by
  have hLength : replyLength [4, 0, 0, 0] = 4 := by decide
  have hArrives : Arrives [4, 0, 0, 0] := by
    unfold Arrives replySize
    rw [hLength]
    decide
  have hCode : returnCode
      (replyBuffer (fun _ => 0) [4, 0, 0, 0]) = edbOk := by
    decide
  have hShort : ¬ (sizeofMsgReply : Int) ≤
      replyLength [4, 0, 0, 0] := by
    rw [hLength]
    decide
  refine ⟨hLength, ?_, ?_⟩
  · rw [successIs_iff (by decide) canSend_insert
      (fun _ => rfl)]
    exact fun hHolds => hShort (hHolds hArrives hCode)
  · rw [successIs_iff (by decide) canSend_delete
      (fun _ => rfl)]
    exact fun hHolds => hShort (hHolds hArrives hCode)

end EmeraldDb
