import EmeraldDb.Pmd.Registry

/-
  The threads of the EDUs.

  A thread waits for an event, runs the function of its type,
  and returns its EDU to the manager; it leaves this loop
  when the manager reports that the EDU was destroyed.  The
  manager also reports so for an EDU that it puts to the pool,
  so a pooled EDU has no thread.

  Key definitions include:
    * `EduCB.waitEvent`
    * `EduThread`
    * `EduSystem.Step`
    * `EduMgr.ReportsRight`
    * `EduSystem.NeverPools`

  Key results include:
    * `EduMgr.reportsRight_iff`
    * `EduSystem.threads_held`
    * `EduSystem.registered_alive`
    * `EduSystem.pooled_dead`
-/

namespace EmeraldDb

------------------------------------------------------------
-- Waiting for Events
------------------------------------------------------------

/- The block when an event was taken from its queue. -/
def EduCB.received
    (c : EduCB)
    (e : EduEvent) : EduCB :=
  if e.eventType = .term then { c with isDisconnected := true }
  else { c with status := .running }

/-
  The event that is taken from the queue, `none` when it is
  too `late`, and the block then.  There is no result while
  the call waits.  An event may have come when the time has
  passed; it is then left in the queue.
-/
def EduCB.waitEvent
    (c : EduCB)
    (millsec : Int)
    (late : Bool) : Option (Option EduEvent × EduCB) :=
  let c' :=
    if c.status ≠ .idle then c.setStatus .waitting else c
  if late ∧ 0 < millsec then some (none, c')
  else
    match c'.queue with
    | e :: rest =>
        some (some e, { c' with queue := rest }.received e)
    | [] => none

theorem EduCB.waitEvent_sound
    {c c' : EduCB}
    {millsec : Int}
    {late : Bool}
    {msg : Option EduEvent}
    (hWait : c.waitEvent millsec late = some (msg, c')) :
    c'.id = c.id ∧
      (c'.status = .destroy → c.status = .destroy) := by
  unfold EduCB.waitEvent EduCB.received EduCB.setStatus at hWait
  grind

------------------------------------------------------------
-- Threads
------------------------------------------------------------

/- Where a thread is in the loop. -/
inductive EduPlace
| waiting
| entered
| returning
deriving DecidableEq, Repr

/- A thread in the loop, with the variables it keeps. -/
structure EduThread where
  type : EduType
  cb : Nat
  force : Bool := false
  place : EduPlace := .waiting
deriving DecidableEq, Repr

/-
  The thread after `waitEvent`.  A thread of a system EDU
  waits again when the time has passed.  An event other than
  a resume, also one that is not expected, forces the EDU.
-/
def EduThread.afterWait
    (t : EduThread)
    (isSystemEDU : EduType → Bool)
    (isForced : Bool) :
    Option EduEvent → EduThread
| none =>
    if isForced then { t with force := true, place := .returning }
    else if isSystemEDU t.type then t
    else { t with place := .returning }
| some e =>
    if t.force then { t with place := .returning }
    else if e.eventType = .resume then
      { t with place := .entered }
    else { t with force := true, place := .returning }

/- The manager and the threads that are in the loop. -/
structure EduSystem where
  mgr : EduMgr := {}
  threads : EduMap EduThread := ∅

/- The thread that a call creates, with the id of its EDU. -/
def EduMgr.startedThread
    (m : EduMgr) :
    EduCall → Option (Nat × EduThread)
| .startEDU type _ (.started p) =>
    if m.isQuiesced then none
    else if m.idleQueue.isEmpty ∨ ¬ isPoolable type then
      some (m.eduID, { type := type, cb := p })
    else none
| _ => none

/- The calls that are not made by the loop of an EDU. -/
def EduCall.IsOuter : EduCall → Prop
| .returnEDU _ _ => False
| _ => True

/-
  What happens next: a call of the manager, by a function
  that an EDU runs or by another thread; or the EDU `id` gets
  from `waitEvent` to its function or to `returnEDU`, from its
  function to `returnEDU`, or through `returnEDU`.
-/
inductive EduAct
| call (c : EduCall)
| wait (id : Nat)
| leave (id : Nat)
| ret (id : Nat)
deriving DecidableEq, Repr

namespace EduSystem

/- The threads when the one of `id` is where `t` says. -/
def place
    (s : EduSystem)
    (m : EduMgr)
    (id : Nat)
    (t : EduThread) : EduSystem :=
  { mgr := m, threads := s.threads.insert id t }

/- The threads after a call. -/
def started
    (s : EduSystem)
    (c : EduCall) : EduMap EduThread :=
  match s.mgr.startedThread c with
  | none => s.threads
  | some (id, t) => s.threads.insert id t

/-
  One step.  `isSystemEDU` is the table of the types that
  were registered as system types.  A type without a function
  ends the process, so there is no step into it.
-/
inductive Step
    (maxPool : UInt32)
    (isSystemEDU : EduType → Bool)
    (s : EduSystem) :
    EduAct → EduSystem → Prop
| call
    (c : EduCall)
    (m' : EduMgr)
    (hOuter : c.IsOuter)
    (hStep : EduMgr.Step maxPool s.mgr c m') :
    Step maxPool isSystemEDU s (.call c) ⟨m', s.started c⟩
| waitOn
    (id : Nat)
    (t : EduThread)
    (c c' : EduCB)
    (late : Bool)
    (msg : Option EduEvent)
    (hThread : s.threads[id]? = some t)
    (hPlace : t.place = .waiting)
    (hBlock : s.mgr.blocks[t.cb]? = some c)
    (hWait : c.waitEvent c.maxIdleTime late = some (msg, c'))
    (hNot : (t.afterWait isSystemEDU c'.isForced msg).place ≠
      .entered) :
    Step maxPool isSystemEDU s (.wait id)
      (s.place
        { s.mgr with blocks := s.mgr.blocks.insert t.cb c' } id
        (t.afterWait isSystemEDU c'.isForced msg))
| enter
    (id : Nat)
    (t : EduThread)
    (c c' : EduCB)
    (late : Bool)
    (msg : Option EduEvent)
    (rc : Int)
    (m' : EduMgr)
    (hThread : s.threads[id]? = some t)
    (hPlace : t.place = .waiting)
    (hBlock : s.mgr.blocks[t.cb]? = some c)
    (hWait : c.waitEvent c.maxIdleTime late = some (msg, c'))
    (hEntry : (t.afterWait isSystemEDU c'.isForced msg).place =
      .entered)
    (hType : t.type ≠ .unknown)
    (hCall :
      ({ s.mgr with blocks := s.mgr.blocks.insert t.cb c' }).waitEDU
        id = .ok (rc, m')) :
    Step maxPool isSystemEDU s (.wait id)
      (s.place m' id
        (t.afterWait isSystemEDU c'.isForced msg))
| leave
    (id : Nat)
    (t : EduThread)
    (rc : Int)
    (m' : EduMgr)
    (hThread : s.threads[id]? = some t)
    (hPlace : t.place = .entered)
    (hCall : s.mgr.waitEDU id = .ok (rc, m')) :
    Step maxPool isSystemEDU s (.leave id)
      (s.place m' id { t with place := .returning })
| stay
    (id : Nat)
    (t : EduThread)
    (rc : Int)
    (m' : EduMgr)
    (hThread : s.threads[id]? = some t)
    (hPlace : t.place = .returning)
    (hCall : s.mgr.returnEDU maxPool id t.force (some false) =
      .ok (rc, some false, m')) :
    Step maxPool isSystemEDU s (.ret id)
      (s.place m' id { t with place := .waiting })
| exit
    (id : Nat)
    (t : EduThread)
    (rc : Int)
    (m' : EduMgr)
    (hThread : s.threads[id]? = some t)
    (hPlace : t.place = .returning)
    (hCall : s.mgr.returnEDU maxPool id t.force (some false) =
      .ok (rc, some true, m')) :
    Step maxPool isSystemEDU s (.ret id)
      ⟨m', s.threads.erase id⟩

end EduSystem

------------------------------------------------------------
-- What returnEDU Reports
------------------------------------------------------------

namespace EduMgr

/- `destroyed` is true exactly when no queue has the EDU. -/
def ReportsRight
    (maxPool : UInt32)
    (m : EduMgr)
    (id : Nat)
    (force : Bool) : Prop :=
  ∀ rc out m', m.returnEDU maxPool id force (some false) =
      .ok (rc, out, m') →
    (out = some true ↔ ¬ m'.Registered id)

/- A registered EDU is always reported to be destroyed. -/
theorem returnEDU_reports
    {maxPool : UInt32}
    {m m' : EduMgr}
    {id : Nat}
    {force : Bool}
    {rc : Int}
    {out : Option Bool}
    (hIn : m.Registered id)
    (hCall : m.returnEDU maxPool id force (some false) =
      .ok (rc, out, m')) :
    out = some true := by
  have hRc : out = reportDestroyed (some false) rc ∧
      (rc = edbOk ∨ rc = edbSys) := by
    rcases returnEDU_cases hCall with
      ⟨hOut, _⟩ | ⟨_, _, hOut, hDestory⟩ | ⟨_, hOut, hDeactive⟩
    · exact absurd hIn hOut
    · exact ⟨hOut, destoryEDU_code hDestory⟩
    · exact ⟨hOut, deactiveEDU_code hDeactive⟩
  rcases hRc with ⟨rfl, hCode⟩
  simp [reportDestroyed, hCode]

/- The report is wrong exactly when the EDU is pooled. -/
theorem reportsRight_iff
    {maxPool : UInt32}
    {m : EduMgr}
    {id : Nat}
    {force : Bool}
    (hReg : Registry m)
    (hIn : m.Registered id) :
    ReportsRight maxPool m id force ↔
      ¬ m.Pools maxPool id force := by
  constructor
  · intro hRight hPools
    rcases returnEDU_returns hReg maxPool id force false with
      ⟨⟨rc, out, m'⟩, hCall⟩
    have hOut := (hRight rc out m' hCall).1
      (returnEDU_reports hIn hCall)
    rcases returnEDU_cases hCall with
      ⟨hNone, _⟩ | ⟨_, hNot, _⟩ | ⟨_, _, hDeactive⟩
    · exact hNone hIn
    · exact hNot hPools
    · exact hOut (Or.inr (deactiveEDU_idle hIn hDeactive))
  · intro hNot rc out m' hCall
    have hOut := hReg.returnEDU_out hNot hCall
    exact iff_of_true (returnEDU_reports hIn hCall) hOut

end EduMgr

------------------------------------------------------------
-- Runs
------------------------------------------------------------

namespace EduSystem

variable {maxPool : UInt32} {isSystemEDU : EduType → Bool}

/- A thread in the loop is that of a registered EDU. -/
structure Held (s : EduSystem) : Prop where
  registry : EduMgr.Registry s.mgr
  thread : ∀ id t, s.threads[id]? = some t →
    s.mgr.Holds id t.cb

/- A call that is not a return lets every EDU registered. -/
theorem outer_stays
    {m : EduMgr}
    {c : EduCall}
    {k : EduMgr.MoveKind}
    (hOuter : c.IsOuter)
    (hKind : m.CallKind maxPool c k)
    (id : Nat) :
    k ≠ .left id := by
  rintro rfl
  cases c with
  | startEDU type arg new =>
      have hStart : .left id = m.startKind type new := hKind
      unfold EduMgr.startKind EduMgr.createKind at hStart
      grind
  | activateEDU eduID => exact False.elim hKind
  | waitEDU eduID => exact False.elim hKind
  | returnEDU eduID force => exact hOuter
  | postEDUPost eduID type release data => cases hKind
  | forceEDUs property => cases hKind
  | setDestroyed => cases hKind

/- Exactly a creation that succeeds adds an EDU. -/
theorem startKind_added
    {m : EduMgr}
    {type type' : EduType}
    {new : NewEdu}
    {p : Nat} :
    m.startKind type new = .added type' p ↔
      m.Creates type ∧ new = .started p ∧ type' = type := by
  unfold EduMgr.startKind EduMgr.createKind EduMgr.Creates
  cases new <;> grind

theorem startedThread_start
    {m : EduMgr}
    {type : EduType}
    {arg : Nat}
    {new : NewEdu}
    {id : Nat}
    {t : EduThread} :
    m.startedThread (.startEDU type arg new) = some (id, t) ↔
      ∃ p, m.Creates type ∧ new = .started p ∧
        id = m.eduID ∧ t = { type := type, cb := p } := by
  unfold EduMgr.Creates
  cases new with
  | oom => simp [EduMgr.startedThread]
  | noThread p => simp [EduMgr.startedThread]
  | started p =>
      simp only [EduMgr.startedThread]
      grind

/- The thread that a call creates is that of the new EDU. -/
theorem startedThread_some
    {m : EduMgr}
    {c : EduCall}
    {k : EduMgr.MoveKind}
    {id : Nat}
    {t : EduThread}
    (hKind : m.CallKind maxPool c k)
    (hStarted : m.startedThread c = some (id, t)) :
    id = m.eduID ∧ k = .added t.type t.cb := by
  cases c with
  | startEDU type arg new =>
      rcases startedThread_start.1 hStarted with
        ⟨p, hCreates, hNew, hId, rfl⟩
      have hStart : k = m.startKind type new := hKind
      exact ⟨hId, hStart.trans
        (startKind_added.2 ⟨hCreates, hNew, rfl⟩)⟩
  | _ => cases hStarted

theorem startedThread_of_adds
    {m : EduMgr}
    {c : EduCall}
    {k : EduMgr.MoveKind}
    {id : Nat}
    (hKind : m.CallKind maxPool c k)
    (hAdds : m.Adds k id) :
    ∃ t, m.startedThread c = some (id, t) := by
  rcases hAdds with ⟨hId, type', p, rfl⟩
  cases c with
  | startEDU type arg new =>
      have hStart : .added type' p = m.startKind type new := hKind
      rcases startKind_added.1 hStart.symm with
        ⟨hCreates, hNew, _⟩
      exact ⟨_, startedThread_start.2
        ⟨p, hCreates, hNew, hId, rfl⟩⟩
  | activateEDU eduID => exact False.elim hKind
  | waitEDU eduID => exact False.elim hKind
  | returnEDU eduID force => exact False.elim hKind
  | postEDUPost eduID type release data => cases hKind
  | forceEDUs property => cases hKind
  | setDestroyed => cases hKind

------------------------------------------------------------
-- Steps
------------------------------------------------------------

/- The manager after an event was taken from a block. -/
theorem event_tended
    {m : EduMgr}
    {p : Nat}
    {c c' : EduCB}
    {millsec : Int}
    {late : Bool}
    {msg : Option EduEvent}
    (hBlock : m.blocks[p]? = some c)
    (hWait : c.waitEvent millsec late = some (msg, c')) :
    EduMgr.Tended m
      { m with blocks := m.blocks.insert p c' } := by
  rcases EduCB.waitEvent_sound hWait with ⟨hId, hStatus⟩
  exact ⟨rfl, rfl, rfl, BlocksKept.insert hBlock hId hStatus⟩

/-
  What the parts of a thread's round before `returnEDU` keep:
  the registered EDUs and their entries.
-/
structure Still (m m' : EduMgr) : Prop where
  registry : EduMgr.Registry m'
  holds : ∀ j p, m.Holds j p → m'.Holds j p
  registered : ∀ j, m'.Registered j → m.Registered j

theorem event_still
    {m : EduMgr}
    {p : Nat}
    {c c' : EduCB}
    {millsec : Int}
    {late : Bool}
    {msg : Option EduEvent}
    (hReg : EduMgr.Registry m)
    (hBlock : m.blocks[p]? = some c)
    (hWait : c.waitEvent millsec late = some (msg, c')) :
    Still m { m with blocks := m.blocks.insert p c' } := by
  have hTended := event_tended hBlock hWait
  exact ⟨hReg.tended hTended,
    fun j q hHolds => (hTended.holds j q).2 hHolds,
    fun j hIn => (hTended.registered j).1 hIn⟩

theorem waitEDU_still
    {m m' : EduMgr}
    {id : Nat}
    {rc : Int}
    (hReg : EduMgr.Registry m)
    (hCall : m.waitEDU id = .ok (rc, m')) :
    Still m m' := by
  have hEffect := EduMgr.waitEDU_effect hCall
  rcases hEffect with ⟨k, n, hKind, hMove, hTended⟩
  refine ⟨(hReg.move hMove).tended hTended, ?_, ?_⟩
  · intro j p hHolds
    rw [hTended.holds]
    refine EduMgr.holds_of_move hReg hMove ?_ hHolds
    rintro rfl
    exact hKind
  · intro j hIn
    rcases EduMgr.registered_of_move hMove
      ((hTended.registered j).1 hIn) with hOld | ⟨_, _, hAdds⟩
    · exact hOld
    · rcases hAdds with ⟨type, p, rfl⟩
      exact False.elim hKind

theorem Still.trans
    {m m' m'' : EduMgr}
    (hFirst : Still m m')
    (hSecond : Still m' m'') :
    Still m m'' :=
  ⟨hSecond.registry,
    fun j p hHolds => hSecond.holds j p (hFirst.holds j p hHolds),
    fun j hIn => hFirst.registered j (hSecond.registered j hIn)⟩

theorem afterWait_cb
    (t : EduThread)
    (isForced : Bool)
    (msg : Option EduEvent) :
    (t.afterWait isSystemEDU isForced msg).cb = t.cb := by
  cases msg <;> grind [EduThread.afterWait]

/- A step of a thread in its loop, up to `returnEDU`. -/
theorem Held.place
    {s : EduSystem}
    {m' : EduMgr}
    {id : Nat}
    {t t' : EduThread}
    (hHeld : Held s)
    (hStill : Still s.mgr m')
    (hThread : s.threads[id]? = some t)
    (hSame : t'.cb = t.cb) :
    Held (s.place m' id t') where
  registry := hStill.registry
  thread := by
    intro j u hU
    apply hStill.holds
    by_cases hJ : j = id
    · subst hJ
      obtain rfl : t' = u := by
        simpa [EduSystem.place] using hU
      rw [hSame]
      exact hHeld.thread j t hThread
    · apply hHeld.thread j u
      unfold EduSystem.place at hU
      grind

theorem Held.call
    {s : EduSystem}
    {c : EduCall}
    {m' : EduMgr}
    (hHeld : Held s)
    (hOuter : c.IsOuter)
    (hStep : EduMgr.Step maxPool s.mgr c m') :
    Held ⟨m', s.started c⟩ where
  registry := hHeld.registry.step hStep
  thread := by
    intro j u hU
    rcases EduMgr.step_effect hStep with
      ⟨k, n, hKind, hMove, hTended⟩
    rw [hTended.holds]
    have hOld : s.threads[j]? = some u → n.Holds j u.cb :=
      fun hBefore => EduMgr.holds_of_move hHeld.registry hMove
        (outer_stays hOuter hKind j) (hHeld.thread j u hBefore)
    cases hStarted : s.mgr.startedThread c with
    | none =>
        apply hOld
        simpa [started, hStarted] using hU
    | some e =>
        rcases e with ⟨id, t⟩
        rcases startedThread_some hKind hStarted with ⟨rfl, rfl⟩
        by_cases hJ : j = s.mgr.eduID
        · subst hJ
          obtain rfl : t = u := by
            simpa [started, hStarted] using hU
          cases hMove with
          | added type p hFresh hCount =>
              left
              simp [EduMgr.addEDU]
        · apply hOld
          simp only [started, hStarted] at hU
          grind

/- A thread that returns a registered EDU leaves the loop. -/
theorem Held.no_stay
    {s : EduSystem}
    {id : Nat}
    {t : EduThread}
    {rc : Int}
    {m' : EduMgr}
    (hHeld : Held s)
    (hThread : s.threads[id]? = some t)
    (hCall : s.mgr.returnEDU maxPool id t.force (some false) =
      .ok (rc, some false, m')) :
    False := by
  have hIn : s.mgr.Registered id :=
    (EduMgr.registered_iff _ id).2
      ⟨t.cb, hHeld.thread id t hThread⟩
  have hReport := EduMgr.returnEDU_reports hIn hCall
  simp at hReport

theorem Held.exit
    {s : EduSystem}
    {id : Nat}
    {t : EduThread}
    {rc : Int}
    {out : Option Bool}
    {m' : EduMgr}
    (hHeld : Held s)
    (hCall : s.mgr.returnEDU maxPool id t.force (some false) =
      .ok (rc, out, m')) :
    Held ⟨m', s.threads.erase id⟩ where
  registry :=
    hHeld.registry.effect (EduMgr.returnEDU_effect hCall)
  thread := by
    intro j u hU
    have hOther : j ≠ id ∧ s.threads[j]? = some u := by grind
    rcases EduMgr.returnEDU_effect hCall with
      ⟨k, n, hKind, hMove, hTended⟩
    rw [hTended.holds]
    refine EduMgr.holds_of_move hHeld.registry hMove ?_
      (hHeld.thread j u hOther.2)
    rintro rfl
    exact hOther.1 hKind.1

theorem Held.step
    {s s' : EduSystem}
    {act : EduAct}
    (hHeld : Held s)
    (hStep : Step maxPool isSystemEDU s act s') :
    Held s' := by
  cases hStep with
  | call c m' hOuter hStep => exact hHeld.call hOuter hStep
  | waitOn id t c c' late msg hThread hPlace hBlock hWait hNot =>
      exact hHeld.place (event_still hHeld.registry hBlock hWait)
        hThread (afterWait_cb t _ msg)
  | enter id t c c' late msg rc m' hThread hPlace hBlock hWait
      hEntry hType hCall =>
      have hEvent := event_still hHeld.registry hBlock hWait
      exact hHeld.place
        (hEvent.trans (waitEDU_still hEvent.registry hCall))
        hThread (afterWait_cb t _ msg)
  | leave id t rc m' hThread hPlace hCall =>
      exact hHeld.place (waitEDU_still hHeld.registry hCall)
        hThread rfl
  | stay id t rc m' hThread hPlace hCall =>
      exact (hHeld.no_stay hThread hCall).elim
  | exit id t rc m' hThread hPlace hCall =>
      exact hHeld.exit hCall

theorem held_init : Held {} where
  registry := EduMgr.Registry.init
  thread := by simp

/- In every run a thread in the loop has a registered EDU. -/
theorem threads_held
    {acts : List EduAct}
    {s : EduSystem}
    (hRun : Steps (Step maxPool isSystemEDU) {} acts s) :
    Held s :=
  hRun.invariant (fun _ _ _ hOld hStep => hOld.step hStep)
    held_init

------------------------------------------------------------
-- Registered EDUs Are Alive
------------------------------------------------------------

/- Every registered EDU has its thread in the loop. -/
def Alive (s : EduSystem) : Prop :=
  ∀ id, s.mgr.Registered id → id ∈ s.threads

theorem Alive.place
    {s : EduSystem}
    {m' : EduMgr}
    {id : Nat}
    {t : EduThread}
    (hAlive : Alive s)
    (hStill : Still s.mgr m') :
    Alive (s.place m' id t) := by
  intro j hJ
  have hOld := hAlive j (hStill.registered j hJ)
  unfold EduSystem.place
  grind

theorem Alive.call
    {s : EduSystem}
    {c : EduCall}
    {m' : EduMgr}
    (hAlive : Alive s)
    (hStep : EduMgr.Step maxPool s.mgr c m') :
    Alive ⟨m', s.started c⟩ := by
  intro j hJ
  rcases EduMgr.step_effect hStep with
    ⟨k, n, hKind, hMove, hTended⟩
  rcases EduMgr.registered_of_move hMove
    ((hTended.registered j).1 hJ) with hOld | ⟨_, hAdds⟩
  · have hIn := hAlive j hOld
    unfold started
    split
    · exact hIn
    · grind
  · rcases startedThread_of_adds hKind hAdds with ⟨t, hStarted⟩
    simp [started, hStarted]

/- No EDU is pooled by the return of its thread. -/
def NeverPools
    (maxPool : UInt32)
    (s : EduSystem)
    (act : EduAct) : Prop :=
  ∀ id t, act = .ret id → s.threads[id]? = some t →
    ¬ s.mgr.Pools maxPool id t.force

/- Below the limit every return destroys its EDU. -/
theorem neverPools_small
    {s : EduSystem}
    {act : EduAct}
    (hSmall : s.mgr.size < maxPool) :
    NeverPools maxPool s act := by
  rintro id t _ _ ⟨p, c, _, _, hKeeps⟩
  simp [EduMgr.destroys, hSmall] at hKeeps

theorem Alive.exit
    {s : EduSystem}
    {id : Nat}
    {t : EduThread}
    {rc : Int}
    {out : Option Bool}
    {m' : EduMgr}
    (hAlive : Alive s)
    (hReg : EduMgr.Registry s.mgr)
    (hNot : ¬ s.mgr.Pools maxPool id t.force)
    (hCall : s.mgr.returnEDU maxPool id t.force (some false) =
      .ok (rc, out, m')) :
    Alive ⟨m', s.threads.erase id⟩ := by
  intro j hJ
  have hOut := hReg.returnEDU_out hNot hCall
  have hNe : j ≠ id := by
    rintro rfl
    exact hOut hJ
  rcases EduMgr.returnEDU_effect hCall with
    ⟨k, n, hKind, hMove, hTended⟩
  rcases EduMgr.registered_of_move hMove
    ((hTended.registered j).1 hJ) with hOld | ⟨_, _, hAdds⟩
  · have hIn := hAlive j hOld
    grind
  · rcases hAdds with ⟨type, p, rfl⟩
    exact False.elim hKind

theorem Alive.step
    {s s' : EduSystem}
    {act : EduAct}
    (hHeld : Held s)
    (hAlive : Alive s)
    (hStep :
      Guarded (NeverPools maxPool) (Step maxPool isSystemEDU)
        s act s') :
    Alive s' := by
  rcases hStep with ⟨hGuard, hStep⟩
  cases hStep with
  | call c m' hOuter hStep => exact hAlive.call hStep
  | waitOn id t c c' late msg hThread hPlace hBlock hWait hNot =>
      exact hAlive.place (event_still hHeld.registry hBlock hWait)
  | enter id t c c' late msg rc m' hThread hPlace hBlock hWait
      hEntry hType hCall =>
      have hEvent := event_still hHeld.registry hBlock hWait
      exact hAlive.place
        (hEvent.trans (waitEDU_still hEvent.registry hCall))
  | leave id t rc m' hThread hPlace hCall =>
      exact hAlive.place (waitEDU_still hHeld.registry hCall)
  | stay id t rc m' hThread hPlace hCall =>
      exact (hHeld.no_stay hThread hCall).elim
  | exit id t rc m' hThread hPlace hCall =>
      exact hAlive.exit hHeld.registry
        (hGuard id t rfl hThread) hCall

/-
  In the runs in which no return pools its EDU, the registered
  EDUs are those whose thread is in the loop; and in each
  state of such a run a return of a registered EDU reports
  right exactly if it does not pool the EDU.
-/
theorem registered_alive
    {acts : List EduAct}
    {s : EduSystem}
    (hRun :
      Steps (Guarded (NeverPools maxPool)
        (Step maxPool isSystemEDU)) {} acts s) :
    (∀ id, s.mgr.Registered id ↔ id ∈ s.threads) ∧
      ∀ id force, s.mgr.Registered id →
        (EduMgr.ReportsRight maxPool s.mgr id force ↔
          ¬ s.mgr.Pools maxPool id force) := by
  have hBoth : Held s ∧ Alive s := by
    refine hRun.invariant
      (I := fun u => Held u ∧ Alive u) ?_ ⟨held_init, ?_⟩
    · rintro u act u' ⟨hHeld, hAlive⟩ hStep
      exact ⟨hHeld.step hStep.2, hAlive.step hHeld hStep⟩
    · intro id hIn
      simp [EduMgr.Registered] at hIn
  rcases hBoth with ⟨hHeld, hAlive⟩
  constructor
  · intro id
    refine ⟨hAlive id, ?_⟩
    intro hIn
    rcases Option.isSome_iff_exists.1
      (Std.TreeMap.mem_iff_isSome_getElem?.1 hIn) with ⟨t, hT⟩
    exact (EduMgr.registered_iff _ id).2
      ⟨t.cb, hHeld.thread id t hT⟩
  · intro id force hIn
    exact EduMgr.reportsRight_iff hHeld.registry hIn

/- One agent comes and goes, and the next one has a thread. -/
theorem registered_alive_twoAgents :
    ∃ s : EduSystem, s.mgr.Registered 2 ∧ 2 ∈ s.threads := by
  have hRun : ∃ s,
      Steps (Guarded (NeverPools 5) (Step 5 (fun _ => false))) {}
        [.call (.startEDU .agent 7 (.started 100)), .wait 1,
          .leave 1, .ret 1,
          .call (.startEDU .agent 8 (.started 101))] s ∧
        s.mgr.Registered 2 := by
    refine ⟨_,
      .cons ⟨?_, .call _ _ trivial ⟨⟨?_, ?_⟩, rfl⟩⟩
        (.cons ⟨?_, .enter 1 _ _ _ false _ _ _ rfl rfl rfl rfl
            rfl ?_ rfl⟩
          (.cons ⟨?_, .leave 1 _ _ _ rfl rfl rfl⟩
            (.cons ⟨?_, .exit 1 _ _ _ rfl rfl rfl⟩
              (.cons ⟨?_, .call _ _ trivial
                ⟨⟨?_, ?_⟩, rfl⟩⟩ (.nil _))))), ?_⟩
    · exact neverPools_small (by decide +kernel)
    · simp [NewEdu.block]
    · simp
    · exact neverPools_small (by decide +kernel)
    · simp
    · exact neverPools_small (by decide +kernel)
    · exact neverPools_small (by decide +kernel)
    · exact neverPools_small (by decide +kernel)
    · rintro p hP
      obtain rfl : 101 = p := by simpa [NewEdu.block] using hP
      decide +kernel
    · intro _
      decide +kernel
    · decide +kernel
  rcases hRun with ⟨s, hSteps, hIn⟩
  exact ⟨s, hIn, ((registered_alive hSteps).1 2).1 hIn⟩

/- With a pool of no EDU, the agent is pooled and it dies. -/
theorem pooled_dead :
    ¬ ∀ (maxPool : UInt32) (isSystemEDU : EduType → Bool)
        (acts : List EduAct) (s : EduSystem),
      Steps (Step maxPool isSystemEDU) {} acts s →
        ∀ id, s.mgr.Registered id ↔ id ∈ s.threads := by
  intro hAlive
  have hRun : ∃ s : EduSystem,
      Steps (Step 0 (fun _ => false)) {}
        [.call (.startEDU .agent 7 (.started 100)), .wait 1,
          .leave 1, .ret 1] s ∧
        s.mgr.Registered 1 ∧ 1 ∉ s.threads := by
    refine ⟨_,
      .cons (.call _ _ trivial ⟨⟨?_, ?_⟩, rfl⟩)
        (.cons (.enter 1 _ _ _ false _ _ _ rfl rfl rfl rfl rfl ?_
            rfl)
          (.cons (.leave 1 _ _ _ rfl rfl rfl)
            (.cons (.exit 1 _ _ _ rfl rfl rfl) (.nil _)))),
      ?_, ?_⟩
    · simp [NewEdu.block]
    · simp
    · simp
    · decide +kernel
    · decide +kernel
  rcases hRun with ⟨s, hSteps, hIn, hOut⟩
  exact hOut ((hAlive 0 (fun _ => false) _ s hSteps 1).1 hIn)

end EduSystem

end EmeraldDb
