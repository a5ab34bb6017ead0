import EmeraldDb.Client.Delivery

/-
  Clients, their agents and the store as one system.

  A client sends a request over its connection, the agent at
  the other end takes it, calls the store and sends a reply,
  and the client takes the reply.  All three parts are the
  functions of the code, and what the system calls answer to
  them is arbitrary, but the data file can be extended.
  Whatever clients ask for one after the other, each over its
  own connection, they get the answers of one map.

  Key definitions include:
    * `Connection.exchange`
    * `Network`
    * `NetworkStep`

  Key results include:
    * `Connection.exchange_answer`
    * `network_refines_map`
-/

namespace EmeraldDb

------------------------------------------------------------
-- Codes of the Store
------------------------------------------------------------

/- The codes that a call of the store ends with. -/
def StoreCode (rc : Int) : Prop :=
  rc ∈ [edbOk, edbInvalidArg, edbSys, edbIxmIdExist]

section Codes

variable {h : List UInt8 → Nat} {s t : DmsFile}
variable {record : BSONObj} {rc : Int}

theorem StoreCode.isInt
    (hCode : StoreCode rc) :
    IsInt rc := by
  have hAll : ∀ c ∈ [edbOk, edbInvalidArg, edbSys,
      edbIxmIdExist], IsInt c := by decide
  exact hAll rc hCode

theorem insertPage_code
    {pageID : Nat}
    {r : DmsFile.InsertResult}
    (hCode : StoreCode rc)
    (hCall : s.insertPage pageID record rc = .ok r) :
    StoreCode r.rc := by
  have hSys : StoreCode edbSys := by simp [StoreCode]
  unfold DmsFile.insertPage at hCall
  split at hCall
  · obtain rfl := Except.ok.inj hCall
    exact hSys
  · split at hCall
    · obtain rfl := Except.ok.inj hCall
      exact hSys
    · rename_i page _ _
      simp only at hCall
      -- The page may have been reorganised or not.
      generalize (if DmsFile.needsRecover s.file page
          record.length = true then
        { s with file := Page.recoverSpace s.file page }
        else s) = u at hCall
      split at hCall
      · obtain rfl := Except.ok.inj hCall
        exact hSys
      · unfold DmsFile.insertRecord at hCall
        rcases bind_ok hCall with ⟨_, _, hRest⟩
        obtain rfl := Except.ok.inj hRest
        exact hCode

/- A mapping that is not refused by the system. -/
theorem ossMmapFileMap_code
    (fileSize offset length : Nat) :
    StoreCode
      (ossMmapFileMap fileSize offset length none).1 := by
  unfold ossMmapFileMap
  split
  · simp [StoreCode]
  · split
    · simp [StoreCode]
    · simp [StoreCode]

theorem mapSegment_code
    {offset : Nat}
    (hMap : s.mapSegment offset none = (rc, t)) :
    StoreCode rc := by
  have hMapped := ossMmapFileMap_code s.fileSize offset
    dmsFileSegmentSize
  unfold DmsFile.mapSegment at hMap
  generalize ossMmapFileMap s.fileSize offset
    dmsFileSegmentSize none = r at hMap hMapped
  rcases r with ⟨rc', _ | data⟩
  · exact (Prod.mk.inj hMap).1 ▸ hMapped
  · exact (Prod.mk.inj hMap).1 ▸ hMapped

theorem extendSegment_code
    (hExtend : s.extendSegment .success = (rc, t)) :
    StoreCode rc := by
  rw [DmsFile.extendSegment] at hExtend
  exact mapSegment_code hExtend

theorem insertLoop_code
    (n : Nat)
    {r : DmsFile.InsertResult}
    (hCode : StoreCode rc)
    (hCall : DmsFile.insertLoop record
      (List.replicate n .success) rc s = .ok r) :
    StoreCode r.rc := by
  induction n generalizing rc s with
  | zero =>
      rw [List.replicate_zero] at hCall
      by_cases hNone :
          s.findPage record.length = dmsInvalidPageID
      · simp [DmsFile.insertLoop, hNone] at hCall
      · rw [DmsFile.insertLoop_found hNone] at hCall
        exact insertPage_code hCode hCall
  | succ n ih =>
      rw [List.replicate_succ] at hCall
      by_cases hNone :
          s.findPage record.length = dmsInvalidPageID
      · rcases hExtend : s.extendSegment .success with
          ⟨rc', t⟩
        have hNext := extendSegment_code hExtend
        by_cases hFailed : rc' = edbOk
        · rw [hFailed] at hExtend
          rw [DmsFile.insertLoop_extended hNone hExtend]
            at hCall
          exact ih (by simp [StoreCode]) hCall
        · rw [DmsFile.insertLoop_failed hNone hExtend hFailed]
            at hCall
          obtain rfl := Except.ok.inj hCall
          exact hNext
      · rw [DmsFile.insertLoop_found hNone] at hCall
        exact insertPage_code hCode hCall

theorem isIDExist_code
    {m : Memory}
    {mgr : IxmBucketManager}
    (hCall : mgr.isIDExist h m record = .ok rc) :
    StoreCode rc := by
  unfold IxmBucketManager.isIDExist at hCall
  rcases bind_ok hCall with ⟨found, _, hFound⟩
  cases found with
  | none =>
      obtain rfl := Except.ok.inj hFound
      simp [StoreCode]
  | some e =>
      rcases bind_ok hFound with ⟨k, _, hNum⟩
      rcases bind_ok hNum with ⟨v, _, hMatch⟩
      cases v with
      | none =>
          obtain rfl := Except.ok.inj hMatch
          simp [StoreCode]
      | some _ =>
          obtain rfl := Except.ok.inj hMatch
          simp [StoreCode]

theorem createIndex_code
    {mgr mgr' : IxmBucketManager}
    {rid : DmsRecordID}
    (hCall : mgr.createIndex h record rid = .ok (rc, mgr')) :
    StoreCode rc := by
  unfold IxmBucketManager.createIndex at hCall
  rcases bind_ok hCall with ⟨found, _, hFound⟩
  cases found with
  | none =>
      obtain ⟨rfl, _⟩ := Prod.mk.inj (Except.ok.inj hFound)
      simp [StoreCode]
  | some e =>
      rcases bind_ok hFound with ⟨k, _, hNum⟩
      obtain ⟨rfl, _⟩ := Prod.mk.inj (Except.ok.inj hNum)
      simp [StoreCode]

theorem rtnInsert_code
    {s t : Rtn}
    (n : Nat)
    (hCall : s.rtnInsert h (List.replicate n .success) record =
      .ok (rc, t)) :
    StoreCode rc := by
  unfold Rtn.rtnInsert at hCall
  rcases bind_ok hCall with ⟨rc₁, hCheck, hRest⟩
  split at hRest
  · obtain ⟨rfl, _⟩ := Prod.mk.inj (Except.ok.inj hRest)
    exact isIDExist_code hCheck
  · rcases bind_ok hRest with ⟨r, hInsert, hWritten⟩
    have hInserted : StoreCode r.rc := by
      refine insertLoop_code n ?_ hInsert
      split <;> simp [StoreCode]
    simp only at hWritten
    split at hWritten
    · obtain ⟨rfl, _⟩ := Prod.mk.inj (Except.ok.inj hWritten)
      exact hInserted
    · split at hWritten
      · obtain ⟨rfl, _⟩ :=
          Prod.mk.inj (Except.ok.inj hWritten)
        exact hInserted
      · rcases bind_ok hWritten with ⟨⟨rc₂, ixm⟩, hCreate, hEnd⟩
        obtain ⟨rfl, _⟩ := Prod.mk.inj (Except.ok.inj hEnd)
        exact createIndex_code hCreate

end Codes

------------------------------------------------------------
-- Connections
------------------------------------------------------------

/- The socket of a client and the agent at its other end. -/
structure Connection where
  client : OssSocket
  agent : Agent

/-
  What the calls answer that are made for one request: those
  of the agent's round, the number of extensions that an
  insertion makes at most, the allocation of the reply, and
  what the client's receive buffer held before.
-/
structure Outcomes where
  round : Round
  exts : Nat
  replyRealloc : Option Memory
  recvBuf : Memory

namespace OssSocket

/- More bytes arrive at a socket. -/
def arrive
    (socket : OssSocket)
    (bytes : List UInt8) : OssSocket :=
  { socket with input := socket.input ++ bytes }

/- What was sent since the socket was `before`. -/
def sentSince
    (socket before : OssSocket) : List UInt8 :=
  socket.output.drop before.output.length

end OssSocket

/-
  What the client sees of a reply: its code and, where it has
  printed one, the document.
-/
def StoreOp.answer
    (m : Memory)
    (rc : Int) :
    StoreOp → StoreAnswer
| insert _ => ⟨rc, none⟩
| find _ =>
    ⟨rc, if rc = edbOk then
      some (BSONObj.document ⟨m, sizeofMsgReply⟩) else none⟩
| remove _ => ⟨rc, none⟩

namespace Connection

variable (toString : BSONObj → Except Fault Unit)

/- The client sends the request for a call. -/
def request
    (op : StoreOp)
    (c : Connection) : Option Connection :=
  match (op.command toString).request [some op.argument]
      c.client with
  | .error _ => none
  | .ok (.error _, _) => none
  | .ok (.ok (), client) =>
      some {
        client := client
        agent := { c.agent with
          socket := c.agent.socket.arrive
            (client.sentSince c.client) } }

/- The round goes on with the result of the request. -/
def answered
    (handed : Handed)
    (r : Round)
    (rc : Int)
    (result : MsgBuffer)
    (c : Connection) : Option Connection :=
  match handed.answer { r with
      process := fun _ _ _ => (rc, result) } with
  | .error _ => none
  | .ok agent =>
      some {
        client := c.client.arrive
          (agent.socket.sentSince handed.agent.socket)
        agent := agent }

/-
  The agent makes one round: it takes a request, handles it
  and sends the reply.  If the round ends its loop there is
  no connection any more; if the request is not handled to
  its end, there is no server.
-/
def serve
    (s : EdbKrcb)
    (replyRealloc : Option Memory)
    (r : Round)
    (c : Connection) : Option (Option Connection × Rtn) :=
  match c.agent.handOver r with
  | .error _ => some (none, s.rtnMgr)
  | .ok handed =>
      match pmdProcessAgentRequest s replyRealloc
          handed.request handed.result false with
      | .error _ => none
      | .ok (rc, result, rtnMgr) =>
          rtnMgr.map (fun t =>
            (c.answered handed r rc result, t))

/- The client takes the reply. -/
def reply
    (recvBuf : Memory)
    (op : StoreOp)
    (c : Connection) : Option (StoreAnswer × Connection) :=
  match recvReply recvBuf c.client with
  | (none, _, _) => none
  | (some rc, m, client) =>
      if rc < 0 then none
      else
        match (op.command toString).handleReply m with
        | .error _ => none
        | .ok rc =>
            some (op.answer m rc, { c with client := client })

/-
  A call of the store over a connection: the answer that the
  client gets, if any, and the store.  A client that gets no
  answer gives the connection up.
-/
def exchange
    (h : List UInt8 → Nat)
    (prints : BSONObj → Bool)
    (w : Outcomes)
    (op : StoreOp)
    (c : Connection)
    (store : Rtn) :
    Option (Option (StoreAnswer × Connection) × Rtn) :=
  match c.request toString op with
  | none => some (none, store)
  | some c =>
      match c.serve
          ⟨h, prints, List.replicate w.exts .success, store⟩
          w.replyRealloc w.round with
      | none => none
      | some (none, t) => some (none, t)
      | some (some c, t) =>
          some (c.reply toString w.recvBuf op, t)

/- Nothing is on its way in either direction. -/
structure Idle (c : Connection) : Prop where
  client : c.client.input = []
  agent : c.agent.socket.input = []
  sized : c.agent.Sized

end Connection

------------------------------------------------------------
-- The Three Parts of an Exchange
------------------------------------------------------------

section Parts

variable {toString : BSONObj → Except Fault Unit}
variable {c c' : Connection} {op : StoreOp}

namespace Connection

/- After a request all of it is on its way, and it alone. -/
theorem request_sent
    (hIdle : c.Idle)
    (hForm : op.argument.WellFormed)
    (hCall : c.request toString op = some c') :
    c'.client.input = [] ∧ c'.agent.Sized ∧
      Carries c'.agent.socket.input op.opCode op.fields
        (some op.argument) := by
  unfold request at hCall
  rcases hRequest : (op.command toString).request
      [some op.argument] c.client with
    fault | ⟨_ | _, client⟩
  · simp [hRequest] at hCall
  · simp [hRequest] at hCall
  · rcases Command.request_sends hForm hRequest with
      ⟨packet, hCarries, hOutput, hInput⟩
    simp only [hRequest] at hCall
    obtain rfl := Option.some.inj hCall
    refine ⟨hInput.trans hIdle.client, ?_, ?_⟩
    · exact ⟨hIdle.sized.exact, hIdle.sized.least,
        hIdle.sized.word⟩
    · simp only [OssSocket.arrive, OssSocket.sentSince,
        hOutput, List.drop_left, hIdle.agent,
        List.nil_append]
      exact hCarries

/- What a round has sent is a prefix of the reply. -/
theorem answered_sent
    {handed : Handed}
    {r : Round}
    {rc : Int}
    {result : MsgBuffer}
    (hClient : c.client.input = [])
    (hSized : handed.agent.Sized)
    (hInput : handed.agent.socket.input = [])
    (hCall : c.answered handed r rc result = some c') :
    rc = edbOk ∧ c'.client.input <+: messageBytes result ∧
      c'.agent.Sized ∧ c'.agent.socket.input = [] := by
  unfold answered at hCall
  cases hAnswer : handed.answer { r with
      process := fun _ _ _ => (rc, result) } with
  | error exit => simp [hAnswer] at hCall
  | ok agent =>
      simp only [hAnswer, Option.some.injEq] at hCall
      subst hCall
      rcases Handed.answer_sends hAnswer with
        ⟨hBuilt, sent, hPrefix, hOutput⟩
      rcases Handed.answer_frame hSized hAnswer with
        ⟨hSized', hSame⟩
      refine ⟨hBuilt, ?_, hSized', hSame.trans hInput⟩
      simp only [OssSocket.arrive, OssSocket.sentSince,
        hOutput, List.drop_left, hClient, List.nil_append]
      exact hPrefix

/-
  A round that has not left the store alone has run the
  request.  If its connection is still there, a prefix of the
  reply is on its way.
-/
theorem serve_ran
    {s : EdbKrcb}
    {replyRealloc : Option Memory}
    {r : Round}
    {next : Option Connection}
    {t : Rtn}
    {opCode : Int}
    {fields : List Int}
    {obj : Option BSONObj}
    (hClient : c.client.input = [])
    (hSized : c.agent.Sized)
    (hCarries : Carries c.agent.socket.input opCode fields obj)
    (hCall : c.serve s replyRealloc r = some (next, t)) :
    (next = none ∧ t = s.rtnMgr) ∨
      ∃ m ran b, HoldsMessage m opCode fields obj ∧
        runCommand s m = .ok ran ∧ ran.rtnMgr = some t ∧
        ∀ c', next = some c' → ∃ result,
          msgBuildReply replyRealloc b ran.rc
              (ran.objReturn m) = (edbOk, result) ∧
            c'.client.input <+: messageBytes result ∧
            c'.agent.Sized ∧ c'.agent.socket.input = [] := by
  unfold serve at hCall
  cases hHand : c.agent.handOver r with
  | error exit =>
      simp only [hHand, Option.some.injEq, Prod.mk.injEq]
        at hCall
      exact Or.inl ⟨hCall.1.symm, hCall.2.symm⟩
  | ok handed =>
      right
      rcases Agent.handOver_takes hSized hCarries rfl hHand
        with ⟨hNext, hHolds, hEmpty⟩
      simp only [hHand] at hCall
      cases hRequest : pmdProcessAgentRequest s replyRealloc
          handed.request handed.result false with
      | error fault => simp [hRequest] at hCall
      | ok done =>
          rcases done with ⟨rc, result, rtnMgr⟩
          simp only [hRequest] at hCall
          rcases Option.map_eq_some_iff.mp hCall with
            ⟨t', hStore, hPair⟩
          obtain ⟨rfl, rfl⟩ := Prod.mk.inj hPair
          unfold pmdProcessAgentRequest at hRequest
          rcases bind_ok hRequest with ⟨ran, hRun, hBuild⟩
          simp only [Bool.false_eq_true, if_false] at hBuild
          obtain ⟨hRc, hRest⟩ :=
            Prod.mk.inj (Except.ok.inj hBuild)
          obtain ⟨hResult, hMgr⟩ := Prod.mk.inj hRest
          refine ⟨handed.request, ran, handed.result, hHolds,
            hRun, hMgr.trans hStore, ?_⟩
          intro c' hAnswered
          rcases answered_sent hClient hNext hEmpty hAnswered
            with ⟨hOk, hPrefix, hSized', hTaken⟩
          exact ⟨result, Prod.ext (hRc.trans hOk) hResult,
            hPrefix, hSized', hTaken⟩

/-
  A reply that is evaluated is all of the one that is on its
  way.
-/
theorem reply_evaluated
    {recvBuf : Memory}
    {answer : StoreAnswer}
    {code : Int}
    {fields : List Int}
    {obj : Option BSONObj}
    {whole : List UInt8}
    (hCarries : Carries whole code fields obj)
    (hFields : fields.length = 2)
    (hPrefix : c.client.input <+: whole)
    (hCall : c.reply toString recvBuf op = some (answer, c')) :
    ∃ m rc, HoldsMessage m code fields obj ∧
      (op.command toString).handleReply m = .ok rc ∧
      answer = op.answer m rc ∧ c'.client.input = [] ∧
      c'.agent = c.agent := by
  unfold reply at hCall
  rcases hRecv : recvReply recvBuf c.client with
    ⟨_ | rc, m, client⟩
  · simp [hRecv] at hCall
  · simp only [hRecv] at hCall
    split at hCall
    · simp at hCall
    · rename_i hCode
      obtain rfl : rc = edbOk :=
        (recvReply_code hRecv).resolve_right hCode
      rcases recvReply_takes (hCarries.isReply hFields) hPrefix
        rfl hRecv with ⟨hBytes, hEmpty⟩
      cases hHandle : (op.command toString).handleReply m with
      | error fault => simp [hHandle] at hCall
      | ok rc =>
          simp only [hHandle, Option.some.injEq,
            Prod.mk.injEq] at hCall
          rcases hCall with ⟨rfl, rfl⟩
          exact ⟨m, rc, hCarries.holds m hBytes, hHandle, rfl,
            hEmpty, rfl⟩

end Connection

end Parts

------------------------------------------------------------
-- Running a Request
------------------------------------------------------------

/-
  What a request leaves, for a call of the store: the object
  that was found, if any, and a step of the map with the
  call's code.
-/
structure Handled.Does
    (r : Handled)
    (h : List UInt8 → Nat)
    (f : Contents)
    (op : StoreOp)
    (t : Rtn)
    (found : Option BSONObj) : Prop where
  object : r.retObj = found.getD .empty
  form : ∀ o, found = some o → o.WellFormed
  code : IsInt r.rc
  isSome : found.isSome = true ↔
    op.commandFunc = .pmdQueryCommand ∧ r.rc = edbOk
  step : ∃ g,
    MapStep f (op, ⟨r.rc, found.map BSONObj.document⟩) g ∧
      Simulates h t g

section Running

variable {s : EdbKrcb} {t : Rtn} {n : Nat} {f : Contents}
variable {m : Memory} {op : StoreOp} {r : Handled}
variable {o : BSONObj}

/- A request that holds the call's message gets its object. -/
theorem runCommand_of_holds
    (hForm : op.argument.WellFormed)
    (hHolds : HoldsMessage m op.opCode op.fields
      (some op.argument)) :
    ∃ o, SameRecord op.argument o ∧
      runCommand s m = op.commandFunc.onObject s o := by
  have hFive := hForm.five_le
  have hLen := hHolds.len
  have hBody := (hHolds.body _ rfl).bytes
  have hSame : ∀ o : BSONObj,
      Memory.Same op.argument.mem op.argument.objdata o.mem
        o.objdata op.argument.length →
      SameRecord op.argument o := by
    intro o hBytes
    refine ⟨hForm.walkable, ?_, hForm.length_congr o hBytes,
      hBytes⟩
    unfold BSONObj.length
    omega
  refine ⟨⟨m, sizeofMsg op.fields.length⟩, hSame _ hBody, ?_⟩
  have hCommand : getCommand (msgOpCode m) =
      some op.commandFunc := by
    rw [hHolds.code]
    cases op <;> rfl
  have hSize : op.commandFunc.size =
      sizeofMsg op.fields.length := by
    cases op <;> rfl
  have hCount : ¬ (op.commandFunc = .pmdInsertCommand ∧
      m.int 8 = 0) := by
    rintro ⟨hInsert, hZero⟩
    cases op with
    | insert record =>
        have hOne := hHolds.field 0 1 rfl
        rw [show sizeofMsgHeader + 4 * 0 = 8 from rfl, hZero]
          at hOne
        exact absurd hOne (by decide)
    | find inRecord => cases hInsert
    | remove record => cases hInsert
  simp only [bodySize] at hLen
  rw [runCommand_some hCommand, hSize, if_neg (by omega),
    if_neg hCount]

/- A call of the store does a step of the map. -/
theorem storeCall_does
    (hSim : Simulates s.h s.rtnMgr f)
    (hExts : s.exts = List.replicate n .success)
    (hGuard : Admissible s.h s.rtnMgr op)
    (hCall : op.commandFunc.storeCall s op.argument = .ok r)
    (hStore : r.rtnMgr = some t) :
    ∃ found, r.Does s.h f op t found := by
  cases op with
  | insert record =>
      rcases map_ok hCall with ⟨⟨rc, u⟩, hCatch, rfl⟩
      obtain rfl : u = some t := hStore
      cases hInsert : s.rtnMgr.rtnInsert s.h s.exts record with
      | error fault =>
          rw [show (StoreOp.insert record).argument = record
            from rfl, hInsert] at hCatch
          cases fault <;> simp [catchInsert] at hCatch
      | ok v =>
          rcases v with ⟨rc', u⟩
          rw [show (StoreOp.insert record).argument = record
            from rfl, hInsert] at hCatch
          simp only [catchInsert, Except.ok.injEq,
            Prod.mk.injEq, Option.some.injEq] at hCatch
          rcases hCatch with ⟨rfl, rfl⟩
          rw [hExts] at hInsert
          refine ⟨none, rfl, by simp,
            (rtnInsert_code n hInsert).isInt, ?_, ?_⟩
          · simp [StoreOp.commandFunc]
          · exact hSim.step ⟨hGuard, .insert n hInsert⟩
  | find inRecord =>
      rcases map_ok hCall with ⟨⟨rc, found⟩, hFind, rfl⟩
      obtain rfl : s.rtnMgr = t := Option.some.inj hStore
      have hCases := hSim.agrees.rtnFind_cases hGuard
      refine ⟨found, rfl, ?_, ?_, ?_,
        hSim.step ⟨hGuard, .find hFind⟩⟩
      · intro o ho
        rcases hCases with
          ⟨_, _, rid, _, hLive, _, hFound⟩ | ⟨_, hMissed⟩
        · have hSame := (Except.ok.inj
            (hFound.symm.trans hFind))
          rw [ho] at hSame
          rw [← Option.some.inj (Prod.mk.inj hSame).2]
          exact hSim.agrees.file.form hLive
        · have hSame := (Except.ok.inj
            (hMissed.symm.trans hFind))
          rw [ho] at hSame
          exact absurd (Prod.mk.inj hSame).2 (by simp)
      · rcases hCases with
          ⟨_, _, _, _, _, _, hFound⟩ | ⟨_, hMissed⟩
        · obtain ⟨rfl, _⟩ := Prod.mk.inj (Except.ok.inj
            (hFound.symm.trans hFind))
          exact (by decide : IsInt edbOk)
        · obtain ⟨rfl, _⟩ := Prod.mk.inj (Except.ok.inj
            (hMissed.symm.trans hFind))
          exact (by decide : IsInt edbInvalidArg)
      · rcases hCases with
          ⟨_, _, _, _, _, _, hFound⟩ | ⟨_, hMissed⟩
        · obtain ⟨rfl, rfl⟩ := Prod.mk.inj (Except.ok.inj
            (hFound.symm.trans hFind))
          simp [StoreOp.commandFunc]
        · obtain ⟨rfl, rfl⟩ := Prod.mk.inj (Except.ok.inj
            (hMissed.symm.trans hFind))
          simp [StoreOp.commandFunc, edbInvalidArg, edbOk]
  | remove record =>
      rcases map_ok hCall with ⟨⟨rc, u⟩, hRemove, rfl⟩
      obtain rfl : u = t := Option.some.inj hStore
      refine ⟨none, rfl, by simp, ?_, ?_,
        hSim.step ⟨hGuard, .remove hRemove⟩⟩
      · rcases hSim.agrees.rtnRemove_cases hGuard with
          ⟨_, _, _, _, _, _, _, hRemoved, _⟩ | ⟨_, hMissed⟩
        · obtain ⟨rfl, _⟩ := Prod.mk.inj (Except.ok.inj
            (hRemoved.symm.trans hRemove))
          exact (by decide : IsInt edbOk)
        · obtain ⟨rfl, _⟩ := Prod.mk.inj (Except.ok.inj
            (hMissed.symm.trans hRemove))
          exact (by decide : IsInt edbInvalidArg)
      · simp [StoreOp.commandFunc]

/- So does a command that gets a copy of the call's object. -/
theorem onObject_does
    (hSim : Simulates s.h s.rtnMgr f)
    (hExts : s.exts = List.replicate n .success)
    (hGuard : Admissible s.h s.rtnMgr op)
    (hSame : SameRecord op.argument o)
    (hCall : op.commandFunc.onObject s o = .ok r)
    (hStore : r.rtnMgr = some t) :
    ∃ found, r.Does s.h f op t found := by
  unfold PmdCommandFunc.onObject at hCall
  split at hCall
  · rw [PmdCommandFunc.storeCall_congr hSame] at hCall
    exact storeCall_does hSim hExts hGuard hCall hStore
  · -- Only an insertion is refused with a code.
    unfold PmdCommandFunc.refusal at hCall
    split at hCall
    · rename_i hInsert
      have hRefused : ∀ rc : Int, IsInt rc → rc ≠ edbOk →
          r = ⟨rc, .empty, some s.rtnMgr⟩ →
          ∃ found, r.Does s.h f op t found := by
        intro rc hInt hRc hEq
        subst hEq
        obtain rfl : s.rtnMgr = t := Option.some.inj hStore
        cases op with
        | insert record =>
            exact ⟨none, rfl, by simp, hInt,
              by simp [StoreOp.commandFunc],
              f, .refused hRc, hSim⟩
        | find inRecord => cases hInsert
        | remove record => cases hInsert
      split at hCall
      · exact hRefused _ (by decide) (by decide)
          (Except.ok.inj hCall).symm
      · split at hCall
        · exact hRefused _ (by decide) (by decide)
            (Except.ok.inj hCall).symm
        · cases hCall
    · cases hCall

/- The reply to a call has an object if it is a lookup. -/
theorem repliesObject_of_holds
    {obj : Option BSONObj}
    (hHolds : HoldsMessage m op.opCode op.fields obj) :
    RepliesObject m ↔
      op.commandFunc = .pmdQueryCommand := by
  unfold RepliesObject
  rw [hHolds.code]
  cases op <;> simp [StoreOp.opCode, StoreOp.commandFunc,
    opSnapshot, opInsert, opDelete, opQuery]

/- The client sees the code and the document of the call. -/
theorem answer_of_reply
    {toString : BSONObj → Except Fault Unit}
    {found : Option BSONObj}
    {rc count : Int}
    {obj : Option BSONObj}
    (hReply : HoldsMessage m opReply [r.rc, count] obj)
    (hObject : ∀ o, found = some o → obj = some o)
    (hFound : found.isSome = true ↔
      op.commandFunc = .pmdQueryCommand ∧ r.rc = edbOk)
    (hHandle : (op.command toString).handleReply m = .ok rc) :
    op.answer m rc =
      ⟨r.rc, found.map BSONObj.document⟩ := by
  have hCode : returnCode m = r.rc := hReply.field 0 _ rfl
  cases op with
  | insert record =>
      obtain rfl := Except.ok.inj hHandle
      have hNone : found = none := by
        simpa [StoreOp.commandFunc] using hFound
      rw [hNone]
      simp [StoreOp.answer, hCode]
  | remove record =>
      obtain rfl := Except.ok.inj hHandle
      have hNone : found = none := by
        simpa [StoreOp.commandFunc] using hFound
      rw [hNone]
      simp [StoreOp.answer, hCode]
  | find inRecord =>
      simp only [StoreOp.commandFunc, true_and] at hFound
      have hRc : rc = r.rc := by
        simp only [StoreOp.command, queryCommand] at hHandle
        split at hHandle
        · rcases bind_ok hHandle with ⟨_, _, hPrint⟩
          rcases bind_ok hPrint with ⟨_, _, hEnd⟩
          rw [← hCode]
          exact (Except.ok.inj hEnd).symm
        · rw [← hCode]
          exact (Except.ok.inj hHandle).symm
      rw [hRc]
      simp only [StoreOp.answer]
      by_cases hOk : r.rc = edbOk
      · rcases Option.isSome_iff_exists.mp (hFound.mpr hOk) with
          ⟨o, ho⟩
        have hBody := hReply.body o (hObject o ho)
        have hLength : BSONObj.length ⟨m, sizeofMsgReply⟩ =
            o.length := by
          unfold BSONObj.length
          rw [show (⟨m, sizeofMsgReply⟩ : BSONObj).objsize =
            o.objsize from hBody.objsize]
        rw [if_pos hOk, ho, Option.map_some]
        congr 2
        unfold BSONObj.document
        rw [hLength]
        exact hBody.bytes.bytes.symm
      · have hNone : found = none := by
          simpa using mt hFound.mp hOk
        rw [if_neg hOk, hNone]
        rfl

end Running

------------------------------------------------------------
-- Exchanges
------------------------------------------------------------

section Exchanges

variable {h : List UInt8 → Nat} {prints : BSONObj → Bool}
variable {toString : BSONObj → Except Fault Unit}

/- The object of a reply has a valid length word. -/
theorem Handled.Does.validSize
    {r : Handled}
    {f : Contents}
    {op : StoreOp}
    {t : Rtn}
    {found : Option BSONObj}
    (hDoes : r.Does h f op t found)
    (m : Memory)
    (o : BSONObj)
    (hObject : r.objReturn m = some o) :
    ValidSize o := by
  unfold Handled.objReturn at hObject
  split at hObject
  · rw [← Option.some.inj hObject, hDoes.object]
    cases hFound : found with
    | none =>
        unfold ValidSize
        decide
    | some o' => exact (hDoes.form o' hFound).validSize
  · cases hObject

/-
  An exchange over an idle connection does a step of the map,
  with the answer that the client gets if it gets one, and
  then the connection is idle again.
-/
theorem Connection.exchange_answer
    {c : Connection}
    {store t : Rtn}
    {op : StoreOp}
    {w : Outcomes}
    {f : Contents}
    {result : Option (StoreAnswer × Connection)}
    (hIdle : c.Idle)
    (hSim : Simulates h store f)
    (hForm : op.argument.WellFormed)
    (hGuard : Admissible h store op)
    (hCall : c.exchange toString h prints w op store =
      some (result, t)) :
    (∀ c', result.map Prod.snd = some c' → c'.Idle) ∧
      ∃ g, LossyStep f (op, result.map Prod.fst) g ∧
        Simulates h t g := by
  unfold exchange at hCall
  cases hRequest : c.request toString op with
  | none =>
      simp only [hRequest, Option.some.injEq, Prod.mk.injEq]
        at hCall
      obtain ⟨rfl, rfl⟩ := hCall
      exact ⟨by simp, f, .lostRequest f op, hSim⟩
  | some c₁ =>
  rcases request_sent hIdle hForm hRequest with
    ⟨hClient, hSized, hSent⟩
  simp only [hRequest] at hCall
  rcases hServe : c₁.serve
      ⟨h, prints, List.replicate w.exts .success, store⟩
      w.replyRealloc w.round with _ | ⟨next, t'⟩
  · simp [hServe] at hCall
  rw [hServe] at hCall
  rcases serve_ran hClient hSized hSent hServe with
    ⟨rfl, rfl⟩ | ⟨m, r, b, hHolds, hRun, hStore, hReplied⟩
  · -- The agent has left its loop before the request.
    obtain ⟨rfl, rfl⟩ := Prod.mk.inj (Option.some.inj hCall)
    exact ⟨by simp, f, .lostRequest f op, hSim⟩
  rcases runCommand_of_holds hForm hHolds with
    ⟨o, hSame, hCommand⟩
  rw [hCommand] at hRun
  rcases onObject_does hSim rfl hGuard hSame hRun hStore with
    ⟨found, hDoes⟩
  rcases hDoes.step with ⟨g, hMap, hNext⟩
  cases next with
  | none =>
      obtain ⟨rfl, rfl⟩ := Prod.mk.inj (Option.some.inj hCall)
      exact ⟨by simp, g, .lostReply hMap, hNext⟩
  | some c₂ =>
  obtain ⟨hReply, rfl⟩ := Prod.mk.inj (Option.some.inj hCall)
  cases result with
  | none => exact ⟨by simp, g, .lostReply hMap, hNext⟩
  | some seen =>
  rcases seen with ⟨answer, c₃⟩
  rcases hReplied c₂ rfl with
    ⟨reply, hBuild, hPrefix, hSized', hTaken⟩
  -- The reply is a message with the code of the call.
  have hSize := hDoes.validSize m
  have hFields : ∀ v ∈ [r.rc, if (r.objReturn m).isSome then
      (1 : Int) else 0], IsInt v := by
    intro v hv
    rw [List.mem_pair] at hv
    rcases hv with rfl | rfl
    · exact hDoes.code
    · split <;> decide
  have hMessage := (msgBuild_holds hSize (le_refl 2) hFields
    (by decide) hBuild).1
  rcases reply_evaluated (carries_messageBytes hMessage hSize)
      rfl hPrefix hReply with
    ⟨m', rc, hHolds', hHandle, rfl, hEmpty, hAgent⟩
  have hObject : ∀ o, found = some o →
      r.objReturn m = some o := by
    intro o ho
    have hQuery := (hDoes.isSome.mp (by rw [ho]; rfl)).1
    unfold Handled.objReturn
    rw [if_pos ((repliesObject_of_holds hHolds).mpr hQuery),
      hDoes.object, ho]
    rfl
  rw [← answer_of_reply hHolds' hObject hDoes.isSome hHandle]
    at hMap
  refine ⟨?_, g, .answered hMap, hNext⟩
  intro c' hc'
  obtain rfl : c₃ = c' := Option.some.inj hc'
  refine ⟨hEmpty, ?_, ?_⟩
  · rw [hAgent]
    exact hTaken
  · rw [hAgent]
    exact hSized'

end Exchanges

------------------------------------------------------------
-- Networks
------------------------------------------------------------

/-
  Connections of any number of clients, those that have not
  been given up, and the store that their agents share.
-/
structure Network (ι : Type) where
  connections : ι → Option Connection
  store : Rtn

/-
  One exchange over one of the connections.  It is over
  before the next one starts.
-/
inductive NetworkStep
    {ι : Type}
    [DecidableEq ι]
    (h : List UInt8 → Nat)
    (prints : BSONObj → Bool)
    (toString : BSONObj → Except Fault Unit) :
    Network ι → StoreOp × Option StoreAnswer →
      Network ι → Prop
| exchange
    {s : Network ι}
    {i : ι}
    {c : Connection}
    {op : StoreOp}
    {result : Option (StoreAnswer × Connection)}
    {t : Rtn}
    (w : Outcomes)
    (hOpen : s.connections i = some c)
    (hCall : c.exchange toString h prints w op s.store =
      some (result, t)) :
    NetworkStep h prints toString s
      (op, result.map Prod.fst)
      ⟨Function.update s.connections i
        (result.map Prod.snd), t⟩

/- The store admits the call that a client makes. -/
def NetworkGuard
    {ι : Type}
    (h : List UInt8 → Nat)
    (s : Network ι)
    (a : StoreOp × Option StoreAnswer) : Prop :=
  Admissible h s.store a.1

/- Open connections are idle and the store is that of a map. -/
structure NetworkSimulates
    {ι : Type}
    (h : List UInt8 → Nat)
    (s : Network ι)
    (f : Contents) : Prop where
  idle : ∀ i c, s.connections i = some c → c.Idle
  store : Simulates h s.store f

section Networks

variable {ι : Type} [DecidableEq ι]
variable {h : List UInt8 → Nat} {prints : BSONObj → Bool}
variable {toString : BSONObj → Except Fault Unit}

theorem Admissible.wellFormed
    {store : Rtn}
    {op : StoreOp}
    (hGuard : Admissible h store op) :
    op.argument.WellFormed := by
  cases op with
  | insert record => exact hGuard.1
  | find inRecord => exact hGuard
  | remove record => exact hGuard

theorem NetworkSimulates.step
    {s t : Network ι}
    {a : StoreOp × Option StoreAnswer}
    {f : Contents}
    (hSim : NetworkSimulates h s f)
    (hStep : Guarded (NetworkGuard h)
      (NetworkStep h prints toString) s a t) :
    ∃ g, LossyStep f a g ∧ NetworkSimulates h t g := by
  rcases hStep with ⟨hGuard, hStep⟩
  cases hStep with
  | @exchange i c op result t w hOpen hCall =>
      rcases Connection.exchange_answer (hSim.idle i c hOpen)
        hSim.store (Admissible.wellFormed hGuard) hGuard hCall
        with
        ⟨hIdle, g, hMap, hNext⟩
      refine ⟨g, hMap, ?_, hNext⟩
      intro j c' hc'
      simp only [Function.update_apply] at hc'
      split at hc'
      · exact hIdle c' hc'
      · exact hSim.idle j c' hc'

/-
  Whatever the clients ask for that the store admits, in
  whatever order over their connections, and whatever the
  system calls answer, if the data file can be extended: the
  answers that the clients get are those of one map, which
  the store represents, and a call whose answer is lost was
  made once or not at all.
-/
theorem network_refines_map
    (h : List UInt8 → Nat)
    (prints : BSONObj → Bool)
    (toString : BSONObj → Except Fault Unit)
    (file : Memory)
    {s t : Network ι}
    {as : List (StoreOp × Option StoreAnswer)}
    (hInit : Rtn.init h .success (fun _ => none) file 0 =
      .ok (edbOk, s.store))
    (hIdle : ∀ i c, s.connections i = some c → c.Idle)
    (hRun : Steps (Guarded (NetworkGuard h)
      (NetworkStep h prints toString)) s as t) :
    ∃ f, Steps LossyStep Contents.empty as f ∧
      Represents t.store.dmsFile f := by
  rw [Rtn.init_created] at hInit
  have hStore : Rtn.created file = s.store :=
    (Prod.mk.inj (Except.ok.inj hInit)).2
  have hStart : NetworkSimulates h s Contents.empty :=
    ⟨hIdle, hStore ▸ Simulates.created h file⟩
  rcases hRun.simulation
      (fun _ _ _ _ hSim hStep => hSim.step hStep) hStart with
    ⟨f, hMap, hSim⟩
  exact ⟨f, hMap, hSim.store.map⟩

end Networks

/- An exchange in which every call succeeds at once. -/
def clearOutcomes : Outcomes where
  round := {
    forcedLength := [false]
    fresh := none
    forcedBody := [false]
    activateEDU := edbOk
    freshResult := some (fun _ => 0)
    process := fun _ _ b => (edbOk, b)
    forcedSend := [false]
    waitEDU := edbOk }
  exts := 1
  replyRealloc := some (fun _ => 0)
  recvBuf := fun _ => 0

/-
  A new connection for `n` requests, on which the first
  `replies` replies can be sent.
-/
def clearConnection (n replies : Nat) : Connection where
  client := {
    timeout := 0
    selects := List.replicate (3 * n) (.ready true)
    sends := List.replicate (3 * n) (.sent sendBufSize)
    recvs := List.replicate (2 * n) (.received recvBufSize)
    input := []
    output := [] }
  agent := startAgent (fun _ => 0) (fun _ => 0) {
    timeout := 0
    selects := List.replicate (3 * n) (.ready true)
    sends := List.replicate replies (.sent sendBufSize)
    recvs := List.replicate (2 * n) (.received recvBufSize)
    input := []
    output := [] }

theorem clearConnection_idle (n replies : Nat) :
    (clearConnection n replies).Idle := by
  refine ⟨rfl, rfl, ⟨rfl, ?_, ?_⟩⟩
  · simp [clearConnection, startAgent]
  · simp [clearConnection, startAgent]

/-
  Two clients of a new store.  The connection of the second
  one breaks before its first reply is sent.
-/
def twoClients : Network Bool where
  connections := fun i =>
    some (if i then clearConnection 2 2
      else clearConnection 1 0)
  store := emptyStore

/- A client's call, and what is then. -/
def clearExchange
    (s : Network Bool)
    (i : Bool)
    (op : StoreOp) :
    Option (Option (StoreAnswer × Connection) × Rtn) :=
  (s.connections i).bind (fun c =>
    c.exchange (fun _ => .ok ()) hashFunc (fun _ => true)
      clearOutcomes op s.store)

def afterExchange
    (s : Network Bool)
    (i : Bool)
    (op : StoreOp) : Network Bool :=
  match clearExchange s i op with
  | none => s
  | some (result, t) =>
      ⟨Function.update s.connections i
        (result.map Prod.snd), t⟩

theorem clearExchange_step
    {s : Network Bool}
    {i : Bool}
    {op : StoreOp}
    {answer : Option StoreAnswer}
    (hAnswer : (clearExchange s i op).map
      (fun r => r.1.map Prod.fst) = some answer) :
    NetworkStep hashFunc (fun _ => true) (fun _ => .ok ()) s
      (op, answer) (afterExchange s i op) := by
  rcases Option.map_eq_some_iff.mp hAnswer with
    ⟨⟨result, t⟩, hCall, rfl⟩
  unfold afterExchange
  rw [hCall]
  rcases Option.bind_eq_some_iff.mp hCall with
    ⟨c, hOpen, hExchange⟩
  exact .exchange clearOutcomes hOpen hExchange

/- One client inserts a document and gets no answer. -/
def insertedNetwork : Network Bool :=
  afterExchange twoClients false (.insert (textDocument 1 22))

/- The other one looks it up, and then removes it. -/
def foundNetwork : Network Bool :=
  afterExchange insertedNetwork true
    (.find (textDocument 1 22))

def removedNetwork : Network Bool :=
  afterExchange foundNetwork true
    (.remove (textDocument 1 22))

theorem insertedNetwork_answer :
    (clearExchange twoClients false
      (.insert (textDocument 1 22))).map
        (fun r => r.1.map Prod.fst) = some none := by
  decide +kernel

theorem foundNetwork_answer :
    (clearExchange insertedNetwork true
      (.find (textDocument 1 22))).map
        (fun r => r.1.map Prod.fst) =
          some (some ⟨edbOk,
            some (textDocument 1 22).document⟩) := by
  decide +kernel

theorem removedNetwork_answer :
    (clearExchange foundNetwork true
      (.remove (textDocument 1 22))).map
        (fun r => r.1.map Prod.fst) =
          some (some ⟨edbOk, none⟩) := by
  decide +kernel

/-
  An insertion whose answer is lost was made: another client
  finds the document and removes it.
-/
theorem network_refines_map_twoClients :
    ∃ f, Steps LossyStep Contents.empty
        [(.insert (textDocument 1 22), none),
          (.find (textDocument 1 22), some ⟨edbOk,
            some (textDocument 1 22).document⟩),
          (.remove (textDocument 1 22),
            some ⟨edbOk, none⟩)] f ∧
      Represents removedNetwork.store.dmsFile f := by
  have hForm : (textDocument 1 22).WellFormed :=
    textDocument_wellFormed (by decide) (by decide)
      (by decide)
  have hPlace : emptyStore.dmsFile.Placeable
      (textDocument 1 22) :=
    emptyStore_placeable (textDocument_small 1)
  have hIdle : ∀ i c, twoClients.connections i = some c →
      c.Idle := by
    intro i c hOpen
    cases i with
    | true =>
        obtain rfl := Option.some.inj hOpen
        exact clearConnection_idle 2 2
    | false =>
        obtain rfl := Option.some.inj hOpen
        exact clearConnection_idle 1 0
  exact network_refines_map hashFunc (fun _ => true)
    (fun _ => .ok ()) (fun _ => 0)
    (Rtn.init_created hashFunc (fun _ => 0)) hIdle
    (.cons ⟨⟨hForm, fun _ => hPlace⟩,
      clearExchange_step insertedNetwork_answer⟩
      (.cons ⟨hForm,
        clearExchange_step foundNetwork_answer⟩
        (.cons ⟨hForm,
          clearExchange_step removedNetwork_answer⟩
          (.nil _))))

end EmeraldDb
