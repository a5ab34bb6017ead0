import EmeraldDb.Pmd.EduThread

/-
  Calls of `startEDU` and returns of EDUs that interleave.

  `startEDU` reads the first entry of the idle queue before
  it has the latch and posts the resume after it has released
  it.  Every section under the latch and every statement
  outside of it is one step.  The iterator stands for the
  entry that it refers to, so moving it when another step has
  removed the entry uses the old id and pointer.

  Key definitions include:
    * `StartCall`
    * `HandOff`
    * `HandOff.Step`
    * `HandOff.Undisturbed`
    * `HandOff.Ready`

  Key results include:
    * `HandOff.Ready.step`
    * `HandOff.resume_exclusive`
    * `HandOff.resume_lost`
-/

namespace EmeraldDb

------------------------------------------------------------
-- Calls of startEDU
------------------------------------------------------------

/-
  Where a call of `startEDU` is.  With the iterator that it
  has read stands whether a later step has removed the entry,
  or has filled the queue if the iterator was at the end; the
  code does not keep this.
-/
inductive StartPlace
| read (it : Option (Nat × Nat)) (moved : Bool)
| checked (it : Option (Nat × Nat)) (moved : Bool)
| creating
| opened
| allocated (p : Nat)
| posting (id p : Nat)
| done (rc : Int)
deriving DecidableEq, Repr

structure StartCall where
  type : EduType
  arg : Nat
  place : StartPlace
deriving DecidableEq, Repr

namespace EduMgr

/- The entry that an iterator refers to is not in the queue. -/
def lost
    (m : EduMgr) :
    Option (Nat × Nat) → Bool
| none => !m.idleQueue.isEmpty
| some (id, p) => decide (m.idleQueue[id]? ≠ some p)

/- The latched section of a creation, before the thread. -/
def registerEDU
    (m : EduMgr)
    (p : Nat) : Except Fault EduMgr := do
  let m' ← m.write p (fun c => { c with id := m.eduID })
  .ok { m' with
    runQueue := m'.runQueue.insert m.eduID p
    eduID := (m.eduID + 1) % eduidRange }

end EduMgr

/- What a step that leads to `m` does to a call's iterator. -/
def StartPlace.watch
    (m : EduMgr) :
    StartPlace → StartPlace
| .read it moved => .read it (moved || m.lost it)
| .checked it moved => .checked it (moved || m.lost it)
| place => place

def StartCall.watch
    (m : EduMgr)
    (c : StartCall) : StartCall :=
  { c with place := c.place.watch m }

------------------------------------------------------------
-- State
------------------------------------------------------------

/-
  Where a thread is between the steps of its round: behind a
  `waitEvent` without an event, or in a call of `returnEDU`.
-/
inductive ReturnStage
| outside
| timedOut
| found (type : EduType)
| decided (destroy : Bool)
deriving DecidableEq, Repr

structure HandThread where
  thread : EduThread
  stage : ReturnStage := .outside
deriving DecidableEq, Repr

/-
  The manager, the calls of `startEDU` by their number, and
  the threads in the loop.  `resumed` has the EDUs that got a
  resume from a call, with its number, since they were last
  returned.
-/
structure HandOff where
  mgr : EduMgr := {}
  starters : EduMap StartCall := ∅
  threads : EduMap HandThread := ∅
  resumed : EduMap Nat := ∅

inductive HandAct
| begin (k : Nat) (type : EduType) (arg : Nat)
| check (k : Nat)
| create (k : Nat)
| take (k : Nat)
| recheck (k : Nat)
| alloc (k : Nat) (p : Option Nat)
| register (k : Nat) (created : Bool)
| post (k : Nat)
| call (c : EduCall)
| wait (id : Nat)
| test (id : Nat)
| leave (id : Nat)
| find (id : Nat)
| decide (id : Nat)
| finish (id : Nat)
deriving DecidableEq, Repr

/- The calls that the functions of EDUs make, of one section. -/
def EduCall.IsSection : EduCall → Prop
| .startEDU _ _ _ => False
| .returnEDU _ _ => False
| _ => True

namespace HandOff

/- A step of the manager, as the calls of `startEDU` see it. -/
def observe
    (s : HandOff)
    (m : EduMgr) : HandOff :=
  { s with
    mgr := m
    starters := s.starters.map (fun _ c => c.watch m) }

/- A step of the call `k`, which is then at `place`. -/
def advance
    (s : HandOff)
    (m : EduMgr)
    (k : Nat)
    (c : StartCall)
    (place : StartPlace) : HandOff :=
  { s with
    mgr := m
    starters := (s.observe m).starters.insert k
      { c with place := place } }

/- A step of the thread of `id`. -/
def move
    (s : HandOff)
    (m : EduMgr)
    (id : Nat)
    (t : HandThread) : HandOff :=
  { s.observe m with threads := s.threads.insert id t }

/- The second section of `returnEDU`. -/
def finishReturn
    (m : EduMgr)
    (id : Nat)
    (destroy : Bool) : Except Fault (Int × EduMgr) :=
  if destroy then m.destoryEDU id else m.deactiveEDU id

/-
  One step.  The allocated block is not in use and the ids
  have not run out.  There is no step from an iterator at the
  end when the queue is not empty, and none that uses a block
  that was freed.  The status that a thread sets around its
  function is set by steps of `waitEDU`.
-/
inductive Step
    (maxPool : UInt32)
    (isSystemEDU : EduType → Bool)
    (s : HandOff) :
    HandAct → HandOff → Prop
| begin
    (k : Nat)
    (type : EduType)
    (arg : Nat)
    (hNew : k ∉ s.starters) :
    Step maxPool isSystemEDU s (.begin k type arg)
      (s.advance s.mgr k ⟨type, arg, .creating⟩
        (.read s.mgr.firstIdle false))
| check
    (k : Nat)
    (c : StartCall)
    (it : Option (Nat × Nat))
    (moved : Bool)
    (hStart : s.starters[k]? = some c)
    (hPlace : c.place = .read it moved) :
    Step maxPool isSystemEDU s (.check k)
      (s.advance s.mgr k c
        (if s.mgr.isQuiesced then .done edbQuiesced
          else .checked it (moved || s.mgr.lost it)))
| create
    (k : Nat)
    (c : StartCall)
    (it : Option (Nat × Nat))
    (moved : Bool)
    (hStart : s.starters[k]? = some c)
    (hPlace : c.place = .checked it moved)
    (hNew : s.mgr.idleQueue.isEmpty ∨ ¬ isPoolable c.type) :
    Step maxPool isSystemEDU s (.create k)
      (s.advance s.mgr k c .creating)
| take
    (k : Nat)
    (c : StartCall)
    (id p : Nat)
    (moved : Bool)
    (m' : EduMgr)
    (hStart : s.starters[k]? = some c)
    (hPlace : c.place = .checked (some (id, p)) moved)
    (hReused :
      ¬ (s.mgr.idleQueue.isEmpty ∨ ¬ isPoolable c.type))
    (hCall : s.mgr.reuseEDU c.type id p = .ok m') :
    Step maxPool isSystemEDU s (.take k)
      (s.advance m' k c (.posting id p))
| recheck
    (k : Nat)
    (c : StartCall)
    (hStart : s.starters[k]? = some c)
    (hPlace : c.place = .creating) :
    Step maxPool isSystemEDU s (.recheck k)
      (s.advance s.mgr k c
        (if s.mgr.isQuiesced then .done edbQuiesced
          else .opened))
| oom
    (k : Nat)
    (c : StartCall)
    (hStart : s.starters[k]? = some c)
    (hPlace : c.place = .opened) :
    Step maxPool isSystemEDU s (.alloc k none)
      (s.advance s.mgr k c (.done edbOom))
| alloc
    (k : Nat)
    (c : StartCall)
    (p : Nat)
    (hStart : s.starters[k]? = some c)
    (hPlace : c.place = .opened)
    (hFresh : p ∉ s.mgr.blocks) :
    Step maxPool isSystemEDU s (.alloc k (some p))
      (s.advance
        { s.mgr with
          blocks := s.mgr.blocks.insert p
            (EduCB.created c.type 0) }
        k c (.allocated p))
| register
    (k : Nat)
    (c : StartCall)
    (p : Nat)
    (m' : EduMgr)
    (hStart : s.starters[k]? = some c)
    (hPlace : c.place = .allocated p)
    (hCount : s.mgr.eduID ≠ 0)
    (hCall : s.mgr.registerEDU p = .ok m') :
    Step maxPool isSystemEDU s (.register k true)
      { s.advance m' k c (.posting s.mgr.eduID p) with
        threads := s.threads.insert s.mgr.eduID
          { thread := { type := c.type, cb := p } } }
| refuse
    (k : Nat)
    (c : StartCall)
    (p : Nat)
    (m' : EduMgr)
    (hStart : s.starters[k]? = some c)
    (hPlace : c.place = .allocated p)
    (hCount : s.mgr.eduID ≠ 0)
    (hCall : s.mgr.registerEDU p = .ok m') :
    Step maxPool isSystemEDU s (.register k false)
      (s.advance (m'.dropEDU s.mgr.eduID p) k c
        (.done edbSys))
| post
    (k : Nat)
    (c : StartCall)
    (id p : Nat)
    (m' : EduMgr)
    (hStart : s.starters[k]? = some c)
    (hPlace : c.place = .posting id p)
    (hCall : s.mgr.write p
      (·.postEvent (EduMgr.resumeEvent c.arg)) = .ok m') :
    Step maxPool isSystemEDU s (.post k)
      { s.advance m' k c (.done edbOk) with
        resumed := s.resumed.insert id k }
| call
    (c : EduCall)
    (m' : EduMgr)
    (hSection : c.IsSection)
    (hStep : EduMgr.Step maxPool s.mgr c m') :
    Step maxPool isSystemEDU s (.call c) (s.observe m')
| wait
    (id : Nat)
    (t : HandThread)
    (c c' : EduCB)
    (late : Bool)
    (e : EduEvent)
    (hThread : s.threads[id]? = some t)
    (hPlace : t.thread.place = .waiting)
    (hStage : t.stage = .outside)
    (hBlock : s.mgr.blocks[t.thread.cb]? = some c)
    (hWait : c.waitEvent c.maxIdleTime late =
      some (some e, c')) :
    Step maxPool isSystemEDU s (.wait id)
      (s.move
        { s.mgr with
          blocks := s.mgr.blocks.insert t.thread.cb c' } id
        ⟨t.thread.afterWait isSystemEDU c'.isForced (some e),
          .outside⟩)
| timeout
    (id : Nat)
    (t : HandThread)
    (c c' : EduCB)
    (late : Bool)
    (hThread : s.threads[id]? = some t)
    (hPlace : t.thread.place = .waiting)
    (hStage : t.stage = .outside)
    (hBlock : s.mgr.blocks[t.thread.cb]? = some c)
    (hWait : c.waitEvent c.maxIdleTime late =
      some (none, c')) :
    Step maxPool isSystemEDU s (.wait id)
      (s.move
        { s.mgr with
          blocks := s.mgr.blocks.insert t.thread.cb c' } id
        ⟨t.thread, .timedOut⟩)
| test
    (id : Nat)
    (t : HandThread)
    (c : EduCB)
    (hThread : s.threads[id]? = some t)
    (hStage : t.stage = .timedOut)
    (hBlock : s.mgr.blocks[t.thread.cb]? = some c) :
    Step maxPool isSystemEDU s (.test id)
      (s.move s.mgr id
        ⟨t.thread.afterWait isSystemEDU c.isForced none,
          .outside⟩)
| leave
    (id : Nat)
    (t : HandThread)
    (hThread : s.threads[id]? = some t)
    (hPlace : t.thread.place = .entered) :
    Step maxPool isSystemEDU s (.leave id)
      (s.move s.mgr id
        ⟨{ t.thread with place := .returning }, .outside⟩)
| find
    (id : Nat)
    (t : HandThread)
    (p : Nat)
    (c : EduCB)
    (hThread : s.threads[id]? = some t)
    (hPlace : t.thread.place = .returning)
    (hStage : t.stage = .outside)
    (hFind : s.mgr.find id = some p)
    (hBlock : s.mgr.blocks[p]? = some c) :
    Step maxPool isSystemEDU s (.find id)
      (s.move s.mgr id ⟨t.thread, .found c.type⟩)
| missing
    (id : Nat)
    (t : HandThread)
    (hThread : s.threads[id]? = some t)
    (hPlace : t.thread.place = .returning)
    (hStage : t.stage = .outside)
    (hFind : s.mgr.find id = none) :
    Step maxPool isSystemEDU s (.find id)
      (s.move s.mgr id
        ⟨{ t.thread with place := .waiting }, .outside⟩)
| decide
    (id : Nat)
    (t : HandThread)
    (type : EduType)
    (hThread : s.threads[id]? = some t)
    (hStage : t.stage = .found type) :
    Step maxPool isSystemEDU s (.decide id)
      (s.move s.mgr id
        ⟨t.thread,
          .decided (s.mgr.destroys maxPool type t.thread.force)⟩)
| finish
    (id : Nat)
    (t : HandThread)
    (destroy : Bool)
    (rc : Int)
    (m' : EduMgr)
    (hThread : s.threads[id]? = some t)
    (hStage : t.stage = .decided destroy)
    (hCall : finishReturn s.mgr id destroy = .ok (rc, m')) :
    Step maxPool isSystemEDU s (.finish id)
      { s.observe m' with
        threads := s.threads.erase id
        resumed := s.resumed.erase id }

------------------------------------------------------------
-- The Invariant
------------------------------------------------------------

/- A block that is allocated and that no entry points to. -/
def Spare
    (m : EduMgr)
    (p : Nat) : Prop :=
  (∃ c, m.blocks[p]? = some c ∧ c.status ≠ .destroy) ∧
    ∀ id, ¬ m.Holds id p

/- What a call of `startEDU` relies on where it is. -/
def PlaceOk
    (m : EduMgr)
    (resumed : EduMap Nat) :
    StartPlace → Prop
| .read it moved => moved = false → m.lost it = false
| .checked it moved => moved = false → m.lost it = false
| .allocated p => Spare m p
| .posting id p => m.runQueue[id]? = some p ∧ id ∉ resumed
| _ => True

/- Two calls have different blocks and different EDUs. -/
def Apart : StartPlace → StartPlace → Prop
| .allocated p, .allocated q => p ≠ q
| .posting id _, .posting id' _ => id ≠ id'
| _, _ => True

theorem Apart.symm
    {a b : StartPlace}
    (hApart : Apart a b) :
    Apart b a := by
  cases a <;> cases b <;> simp_all [Apart, ne_comm]

structure Ready (s : HandOff) : Prop where
  registry : EduMgr.Registry s.mgr
  resumed : ∀ id, id ∈ s.resumed → s.mgr.Issued id
  idle : ∀ id, id ∈ s.mgr.idleQueue → id ∉ s.resumed
  place : ∀ (k : Nat) (c : StartCall), s.starters[k]? = some c →
    PlaceOk s.mgr s.resumed c.place
  apart : ∀ (j k : Nat) (c d : StartCall), j ≠ k →
    s.starters[j]? = some c → s.starters[k]? = some d →
    Apart c.place d.place

/-
  What a step leaves to a call that does not make it: a spare
  block stays spare, and an EDU whose resume is still to be
  posted stays in the run queue without one.
-/
structure Leaves
    (m m' : EduMgr)
    (r r' : EduMap Nat)
    (place : StartPlace) : Prop where
  spare : ∀ p, place = .allocated p → Spare m p → Spare m' p
  posting : ∀ id p, place = .posting id p →
    m.runQueue[id]? = some p → id ∉ r →
    m'.runQueue[id]? = some p ∧ id ∉ r'

theorem PlaceOk.watch
    {m m' : EduMgr}
    {r r' : EduMap Nat}
    {place : StartPlace}
    (hOk : PlaceOk m r place)
    (hLeaves : Leaves m m' r r' place) :
    PlaceOk m' r' (place.watch m') := by
  cases place with
  | allocated p => exact hLeaves.spare p rfl hOk
  | posting id p => exact hLeaves.posting id p rfl hOk.1 hOk.2
  | read it moved => simp [StartPlace.watch, PlaceOk]
  | checked it moved => simp [StartPlace.watch, PlaceOk]
  | _ => exact trivial

theorem apart_watch
    {m : EduMgr}
    {a b : StartPlace} :
    Apart (a.watch m) b ↔ Apart a b := by
  cases a <;> cases b <;> simp [StartPlace.watch, Apart]

/- The calls after a step are those before, watched. -/
theorem observe_starter
    {s : HandOff}
    {m : EduMgr}
    {k : Nat}
    {d : StartCall}
    (hStart : (s.observe m).starters[k]? = some d) :
    ∃ c, s.starters[k]? = some c ∧ d = c.watch m := by
  unfold observe at hStart
  rw [Std.TreeMap.getElem?_map, Option.map_eq_some_iff] at hStart
  rcases hStart with ⟨c, hC, rfl⟩
  exact ⟨c, hC, rfl⟩

/-
  A step that is no step of a call keeps the invariant if it
  leaves to every call what the call relies on.
-/
theorem Ready.observe
    {s : HandOff}
    {m' : EduMgr}
    {threads : EduMap HandThread}
    {r' : EduMap Nat}
    (hReady : Ready s)
    (hReg : EduMgr.Registry m')
    (hIssued : ∀ id, id ∈ r' → m'.Issued id)
    (hIdle : ∀ id, id ∈ m'.idleQueue → id ∉ r')
    (hLeaves : ∀ (k : Nat) (c : StartCall),
      s.starters[k]? = some c →
        Leaves s.mgr m' s.resumed r' c.place) :
    Ready ⟨m', (s.observe m').starters, threads, r'⟩ where
  registry := hReg
  resumed := hIssued
  idle := hIdle
  place := by
    intro k d hD
    rcases observe_starter hD with ⟨c, hC, rfl⟩
    exact (hReady.place k c hC).watch (hLeaves k c hC)
  apart := by
    intro j k d e hNe hD hE
    rcases observe_starter hD with ⟨c, hC, rfl⟩
    rcases observe_starter hE with ⟨c', hC', rfl⟩
    have hApart := hReady.apart j k c c' hNe hC hC'
    exact apart_watch.2 (apart_watch.2 hApart.symm).symm

/- A step of the call `k`, which is then at `place`. -/
theorem Ready.advance
    {s : HandOff}
    {m' : EduMgr}
    {threads : EduMap HandThread}
    {r' : EduMap Nat}
    {k : Nat}
    {c : StartCall}
    {place : StartPlace}
    (hReady : Ready s)
    (hReg : EduMgr.Registry m')
    (hIssued : ∀ id, id ∈ r' → m'.Issued id)
    (hIdle : ∀ id, id ∈ m'.idleQueue → id ∉ r')
    (hLeaves : ∀ (j : Nat) (d : StartCall), j ≠ k →
      s.starters[j]? = some d →
        Leaves s.mgr m' s.resumed r' d.place)
    (hPlace : PlaceOk m' r' place)
    (hApart : ∀ (j : Nat) (d : StartCall), j ≠ k →
      s.starters[j]? = some d → Apart place d.place) :
    Ready ⟨m', (s.advance m' k c place).starters, threads,
      r'⟩ := by
  have hOther : ∀ (j : Nat) (d : StartCall), j ≠ k →
      (s.advance m' k c place).starters[j]? = some d →
      ∃ e, s.starters[j]? = some e ∧ d = e.watch m' := by
    intro j d hNe hD
    unfold HandOff.advance at hD
    exact observe_starter (by grind)
  have hSelf : ∀ (d : StartCall),
      (s.advance m' k c place).starters[k]? = some d →
      d.place = place := by
    intro d hD
    unfold HandOff.advance at hD
    grind
  refine ⟨hReg, hIssued, hIdle, ?_, ?_⟩
  · intro j d hD
    by_cases hJ : j = k
    · subst hJ
      rw [hSelf d hD]
      exact hPlace
    · rcases hOther j d hJ hD with ⟨e, hE, rfl⟩
      exact (hReady.place j e hE).watch (hLeaves j e hJ hE)
  · intro i j d e hNe hD hE
    by_cases hI : i = k
    · subst hI
      rcases hOther j e (Ne.symm hNe) hE with ⟨e', hE', rfl⟩
      rw [hSelf d hD]
      exact (apart_watch.2
        (hApart j e' (Ne.symm hNe) hE').symm).symm
    · rcases hOther i d hI hD with ⟨d', hD', rfl⟩
      by_cases hJ : j = k
      · subst hJ
        rw [hSelf e hE]
        exact apart_watch.2 (hApart i d' hI hD').symm
      · rcases hOther j e hJ hE with ⟨e', hE', rfl⟩
        have hOld := hReady.apart i j d' e' hNe hD' hE'
        exact apart_watch.2 (apart_watch.2 hOld.symm).symm

------------------------------------------------------------
-- What Steps of the Manager Leave
------------------------------------------------------------

theorem Spare.tended
    {m m' : EduMgr}
    {p : Nat}
    (hSpare : Spare m p)
    (hTended : EduMgr.Tended m m') :
    Spare m' p := by
  rcases hSpare with ⟨⟨c, hC, hStatus⟩, hFree⟩
  rcases hTended.blocks p c hC with ⟨c', hC', _, hStatus'⟩
  exact ⟨⟨c', hC', fun hEnd => hStatus (hStatus' hEnd)⟩,
    fun id hHolds => hFree id ((hTended.holds id p).1 hHolds)⟩

/-
  A step that hands out no id leaves the calls what they rely
  on, unless it returns an EDU of theirs.
-/
theorem leaves_effect
    {K : EduMgr.MoveKind → Prop}
    {m m' : EduMgr}
    {r r' : EduMap Nat}
    {place : StartPlace}
    (hReg : EduMgr.Registry m)
    (hEffect : EduMgr.Effect K m m')
    (hOld : ∀ k, K k → ¬ k.IsNew)
    (hStays : ∀ id p, place = .posting id p →
      ¬ K (.left id) ∧ ¬ K (.pooled id))
    (hLess : ∀ id, id ∈ r' → id ∈ r) :
    Leaves m m' r r' place := by
  rcases hEffect with ⟨k, n, hKind, hMove, hTended⟩
  have hNot := hOld k hKind
  constructor
  · rintro p _ ⟨⟨c, hC, hStatus⟩, hFree⟩
    have hSame := EduMgr.block_of_move hMove hNot hFree
    have hSpare : Spare n p :=
      ⟨⟨c, hSame.trans hC, hStatus⟩, fun id hHolds =>
        hFree id (EduMgr.holds_before_move hMove hNot hHolds)⟩
    exact hSpare.tended hTended
  · intro id p hPlace hRun hOut
    rcases hStays id p hPlace with ⟨hLeft, hPooled⟩
    rw [hTended.run]
    refine ⟨EduMgr.run_of_move hReg hMove ⟨?_, ?_⟩ hRun,
      fun hIn => hOut (hLess id hIn)⟩
    · rintro rfl
      exact hLeft hKind
    · rintro rfl
      exact hPooled hKind

theorem Leaves.trans
    {m m' m'' : EduMgr}
    {r r' r'' : EduMap Nat}
    {place : StartPlace}
    (hFirst : Leaves m m' r r' place)
    (hSecond : Leaves m' m'' r' r'' place) :
    Leaves m m'' r r'' place where
  spare := fun p hPlace hSpare =>
    hSecond.spare p hPlace (hFirst.spare p hPlace hSpare)
  posting := by
    intro id p hPlace hRun hOut
    rcases hFirst.posting id p hPlace hRun hOut with
      ⟨hRun', hOut'⟩
    exact hSecond.posting id p hPlace hRun' hOut'

/- A call that only shifts an EDU fills no idle queue. -/
theorem shifts_frame
    {m m' : EduMgr}
    (hShifts : EduMgr.Effect EduMgr.Shifts m m') :
    m'.eduID = m.eduID ∧
      ∀ id, id ∈ m'.idleQueue → id ∈ m.idleQueue := by
  rcases hShifts with ⟨k, n, hKind, hMove, hTended⟩
  rw [hTended.next, hTended.idle]
  cases hMove with
  | kept => exact ⟨rfl, fun _ hIn => hIn⟩
  | taken id p hIn =>
      exact ⟨rfl, fun j hJ => Std.TreeMap.mem_of_mem_erase hJ⟩
  | _ => exact False.elim hKind

theorem leaves_tended
    {m m' : EduMgr}
    {r : EduMap Nat}
    {place : StartPlace}
    (hTended : EduMgr.Tended m m') :
    Leaves m m' r r place where
  spare := fun _ _ hSpare => hSpare.tended hTended
  posting := by
    intro id p _ hRun hOut
    rw [hTended.run]
    exact ⟨hRun, hOut⟩

------------------------------------------------------------
-- Steps That Keep the Queues
------------------------------------------------------------

theorem Ready.tended
    {s : HandOff}
    {m' : EduMgr}
    {threads : EduMap HandThread}
    (hReady : Ready s)
    (hTended : EduMgr.Tended s.mgr m') :
    Ready ⟨m', (s.observe m').starters, threads, s.resumed⟩ := by
  refine hReady.observe (hReady.registry.tended hTended) ?_ ?_ ?_
  · intro id hIn
    exact (EduMgr.issued_of_next hTended.next id).2
      (hReady.resumed id hIn)
  · rw [hTended.idle]
    exact hReady.idle
  · exact fun k c _ => leaves_tended hTended

/- A step of a call that keeps the queues. -/
theorem Ready.local_step
    {s : HandOff}
    {m' : EduMgr}
    {k : Nat}
    {c : StartCall}
    {place : StartPlace}
    (hReady : Ready s)
    (hTended : EduMgr.Tended s.mgr m')
    (hPlace : PlaceOk m' s.resumed place)
    (hApart : ∀ (j : Nat) (d : StartCall), j ≠ k →
      s.starters[j]? = some d → Apart place d.place) :
    Ready (s.advance m' k c place) := by
  refine hReady.advance (hReady.registry.tended hTended)
    ?_ ?_ ?_ hPlace hApart
  · intro id hIn
    exact (EduMgr.issued_of_next hTended.next id).2
      (hReady.resumed id hIn)
  · rw [hTended.idle]
    exact hReady.idle
  · exact fun j d _ _ => leaves_tended hTended

/- The iterator of a call that starts is not lost. -/
theorem firstIdle_kept (m : EduMgr) :
    m.lost m.firstIdle = false := by
  cases hFirst : m.firstIdle with
  | none =>
      have hEmpty : m.idleQueue.toList.isEmpty :=
        List.isEmpty_iff.2 (List.head?_eq_none_iff.1 hFirst)
      rw [Std.TreeMap.isEmpty_toList] at hEmpty
      simp [EduMgr.lost, hEmpty]
  | some e =>
      have hIn := EduMgr.firstIdle_some hFirst
      rcases e with ⟨id, p⟩
      simpa [EduMgr.lost] using hIn

/- A new block that no call and no entry has. -/
theorem Ready.alloc
    {s : HandOff}
    {k : Nat}
    {c : StartCall}
    {p : Nat}
    (hReady : Ready s)
    (hFresh : p ∉ s.mgr.blocks) :
    Ready (s.advance
      { s.mgr with
        blocks := s.mgr.blocks.insert p (EduCB.created c.type 0) }
      k c (.allocated p)) := by
  refine hReady.local_step ?_ ⟨?_, ?_⟩ ?_
  · refine ⟨rfl, rfl, rfl, ?_⟩
    intro q d hD
    exact ⟨d, by grind, rfl, id⟩
  · exact ⟨EduCB.created c.type 0, by simp, by simp [EduCB.created]⟩
  · intro id hHolds
    exact hReady.registry.block_ne hFresh hHolds rfl
  · intro j d _ hD
    have hOk := hReady.place j d hD
    cases hPlace : d.place with
    | allocated q =>
        rw [hPlace] at hOk
        rcases hOk.1 with ⟨c', hC', _⟩
        rintro rfl
        grind
    | _ => trivial

------------------------------------------------------------
-- Steps of startEDU
------------------------------------------------------------

theorem reuse_effect
    {m m' : EduMgr}
    {type : EduType}
    {id p : Nat}
    (hIn : m.idleQueue[id]? = some p)
    (hCall : m.reuseEDU type id p = .ok m') :
    EduMgr.Effect (· = .taken id) m m' ∧
      m'.runQueue[id]? = some p ∧
      m'.idleQueue = m.idleQueue.erase id ∧
      m'.eduID = m.eduID := by
  have hTended : EduMgr.Tended (m.takeIdle id p) m' :=
    EduMgr.Tended.write (EduMgr.sound_reuse type) hCall
  refine ⟨⟨_, _, rfl, .taken id p hIn, hTended⟩, ?_, ?_, ?_⟩
  · rw [hTended.run]
    simp [EduMgr.takeIdle]
  · exact hTended.idle
  · exact hTended.next

/- An entry that was not lost moves to the run queue. -/
theorem Ready.take
    {s : HandOff}
    {k : Nat}
    {c : StartCall}
    {id p : Nat}
    {m' : EduMgr}
    (hReady : Ready s)
    (hIn : s.mgr.idleQueue[id]? = some p)
    (hCall : s.mgr.reuseEDU c.type id p = .ok m') :
    Ready (s.advance m' k c (.posting id p)) := by
  rcases reuse_effect hIn hCall with
    ⟨hEffect, hRun, hIdle, hNext⟩
  have hMember := EduMgr.mem_iff_entry.2 ⟨p, hIn⟩
  refine hReady.advance (hReady.registry.effect hEffect)
    ?_ ?_ ?_ ⟨hRun, hReady.idle id hMember⟩ ?_
  · intro j hJ
    exact (EduMgr.issued_of_next hNext j).2 (hReady.resumed j hJ)
  · intro j hJ
    rw [hIdle] at hJ
    exact hReady.idle j (Std.TreeMap.mem_of_mem_erase hJ)
  · intro j d _ _
    refine leaves_effect hReady.registry hEffect ?_ ?_
      (fun _ hIn => hIn)
    · rintro kind rfl hNew
      exact hNew
    · intro i q _
      simp
  · intro j d _ hD
    have hOk := hReady.place j d hD
    cases hPlace : d.place with
    | posting i q =>
        rw [hPlace] at hOk
        rintro rfl
        exact hReady.registry.disjoint id
          (EduMgr.mem_iff_entry.2 ⟨q, hOk.1⟩) hMember
    | _ => trivial

theorem registerEDU_ok
    {m m' : EduMgr}
    {p : Nat}
    (hSpare : Spare m p)
    (hCall : m.registerEDU p = .ok m') :
    ∃ c : EduCB, c.id = m.eduID ∧ c.status ≠ .destroy ∧
      m' = m.enterEDU p c := by
  rcases hSpare.1 with ⟨c, hC, hStatus⟩
  unfold EduMgr.registerEDU at hCall
  rw [EduMgr.write_of_block _ hC] at hCall
  exact ⟨{ c with id := m.eduID }, rfl, hStatus,
    (Except.ok.inj hCall).symm⟩

/- The blocks of other calls are spare after a registration. -/
theorem leaves_enter
    {m : EduMgr}
    {p : Nat}
    {c : EduCB}
    {r : EduMap Nat}
    {place : StartPlace}
    (hReg : EduMgr.Registry m)
    (hCount : m.eduID ≠ 0)
    (hApart : Apart (.allocated p) place) :
    Leaves m (m.enterEDU p c) r r place := by
  have hFree := hReg.next_free hCount
  unfold EduMgr.Registered at hFree
  constructor
  · rintro q rfl ⟨⟨d, hD, hStatus⟩, hOut⟩
    have hNe : p ≠ q := hApart
    refine ⟨⟨d, ?_, hStatus⟩, ?_⟩
    · unfold EduMgr.enterEDU
      grind
    · intro id
      have hBefore := hOut id
      unfold EduMgr.Holds EduMgr.enterEDU at *
      grind
  · intro id q _ hRun hOut
    refine ⟨?_, hOut⟩
    unfold EduMgr.enterEDU
    grind

/- The new EDU waits in the run queue for its resume. -/
theorem Ready.register
    {s : HandOff}
    {threads : EduMap HandThread}
    {k : Nat}
    {c : StartCall}
    {p : Nat}
    {m' : EduMgr}
    (hReady : Ready s)
    (hStart : s.starters[k]? = some c)
    (hPlace : c.place = .allocated p)
    (hCount : s.mgr.eduID ≠ 0)
    (hCall : s.mgr.registerEDU p = .ok m') :
    Ready { s.advance m' k c (.posting s.mgr.eduID p) with
      threads := threads } := by
  have hReg := hReady.registry
  have hSpare : Spare s.mgr p := by
    have hOk := hReady.place k c hStart
    rwa [hPlace] at hOk
  rcases registerEDU_ok hSpare hCall with
    ⟨d, hId, hStatus, rfl⟩
  have hNext := hReg.next_free hCount
  have hNew : s.mgr.eduID ∉ s.resumed := by
    intro hIn
    have hBelow := (hReady.resumed _ hIn).2
    simp [EduMgr.bound, hCount] at hBelow
  refine hReady.advance
    (hReg.enterEDU hSpare.2 hCount hId hStatus)
    ?_ hReady.idle ?_ ⟨?_, hNew⟩ ?_
  · intro id hIn
    exact (EduMgr.issued_enterEDU hReg hCount).2
      (Or.inl (hReady.resumed id hIn))
  · intro j e hNe hE
    have hApart := hReady.apart k j c e (Ne.symm hNe) hStart hE
    rw [hPlace] at hApart
    exact leaves_enter hReg hCount hApart
  · exact Std.TreeMap.getElem?_insert_self
  · intro j e hNe hE
    have hOk := hReady.place j e hE
    cases hOther : e.place with
    | posting id q =>
        rw [hOther] at hOk
        rintro rfl
        exact hNext (Or.inl (EduMgr.mem_iff_entry.2 ⟨q, hOk.1⟩))
    | _ => trivial

/- A creation without a thread takes its entry back. -/
theorem Ready.refuse
    {s : HandOff}
    {k : Nat}
    {c : StartCall}
    {p : Nat}
    {m' : EduMgr}
    {rc : Int}
    (hReady : Ready s)
    (hStart : s.starters[k]? = some c)
    (hPlace : c.place = .allocated p)
    (hCount : s.mgr.eduID ≠ 0)
    (hCall : s.mgr.registerEDU p = .ok m') :
    Ready (s.advance (m'.dropEDU s.mgr.eduID p) k c
      (.done rc)) := by
  have hReg := hReady.registry
  have hSpare : Spare s.mgr p := by
    have hOk := hReady.place k c hStart
    rwa [hPlace] at hOk
  rcases registerEDU_ok hSpare hCall with
    ⟨d, hId, hStatus, rfl⟩
  have hEntered := hReg.enterEDU hSpare.2 hCount hId hStatus
  have hEntry : (s.mgr.enterEDU p d).runQueue[s.mgr.eduID]? =
      some p := by simp [EduMgr.enterEDU]
  refine hReady.advance (hEntered.dropEDU hEntry)
    ?_ hReady.idle ?_ trivial (fun _ _ _ _ => trivial)
  · intro id hIn
    have hIssued : (s.mgr.enterEDU p d).Issued id := by
      rw [EduMgr.issued_enterEDU hReg hCount]
      exact Or.inl (hReady.resumed id hIn)
    exact hIssued
  · intro j e hNe hE
    have hApart := hReady.apart k j c e (Ne.symm hNe) hStart hE
    rw [hPlace] at hApart
    have hFirst : Leaves s.mgr (s.mgr.enterEDU p d) s.resumed
        s.resumed e.place := leaves_enter hReg hCount hApart
    have hDrop : EduMgr.Effect (· = .left s.mgr.eduID)
        (s.mgr.enterEDU p d)
        ((s.mgr.enterEDU p d).dropEDU s.mgr.eduID p) :=
      ⟨_, _, rfl, .leftRun _ p hEntry, EduMgr.Tended.refl _⟩
    refine hFirst.trans (leaves_effect hEntered hDrop ?_ ?_
      (fun _ hIn => hIn))
    · rintro kind rfl hNew
      exact hNew
    · intro id q hOther
      have hOk := hReady.place j e hE
      rw [hOther] at hOk
      have hNe' : id ≠ s.mgr.eduID := by
        rintro rfl
        exact hReg.next_free hCount
          (Or.inl (EduMgr.mem_iff_entry.2 ⟨q, hOk.1⟩))
      simp [hNe']

/- The EDU of the call that posts gets its only resume. -/
theorem Ready.post
    {s : HandOff}
    {k : Nat}
    {c : StartCall}
    {id p : Nat}
    {m' : EduMgr}
    (hReady : Ready s)
    (hStart : s.starters[k]? = some c)
    (hPlace : c.place = .posting id p)
    (hCall : s.mgr.write p
      (·.postEvent (EduMgr.resumeEvent c.arg)) = .ok m') :
    Ready { s.advance m' k c (.done edbOk) with
      resumed := s.resumed.insert id k } := by
  have hOk := hReady.place k c hStart
  rw [hPlace] at hOk
  have hRun := EduMgr.mem_iff_entry.2 ⟨p, hOk.1⟩
  have hTended : EduMgr.Tended s.mgr m' :=
    EduMgr.Tended.write (EduMgr.sound_postEvent _) hCall
  refine hReady.advance (hReady.registry.tended hTended)
    ?_ ?_ ?_ trivial (fun _ _ _ _ => trivial)
  · intro j hJ
    apply (EduMgr.issued_of_next hTended.next j).2
    rcases Std.TreeMap.mem_insert.1 hJ with hSame | hOld
    · obtain rfl : id = j := by simpa using hSame
      exact hReady.registry.issued id (Or.inl hRun)
    · exact hReady.resumed j hOld
  · intro j hJ
    have hIdle : j ∈ s.mgr.idleQueue := by
      rw [← hTended.idle]
      exact hJ
    have hOut := hReady.idle j hIdle
    have hNe : id ≠ j := by
      rintro rfl
      exact hReady.registry.disjoint id hRun hIdle
    grind
  · intro j d hNe hD
    have hApart := hReady.apart k j c d (Ne.symm hNe) hStart hD
    rw [hPlace] at hApart
    constructor
    · exact fun _ _ hSpare => hSpare.tended hTended
    · intro i q hOther hEntry hOut
      rw [hOther] at hApart
      have hNe' : id ≠ i := hApart
      refine ⟨?_, by grind⟩
      rw [← hTended.run] at hEntry
      exact hEntry

------------------------------------------------------------
-- Other Steps
------------------------------------------------------------

/- A call of one section that an EDU's function makes. -/
theorem Ready.call
    {maxPool : UInt32}
    {s : HandOff}
    {c : EduCall}
    {m' : EduMgr}
    (hReady : Ready s)
    (hSection : c.IsSection)
    (hStep : EduMgr.Step maxPool s.mgr c m') :
    Ready (s.observe m') := by
  have hShifts : EduMgr.Effect EduMgr.Shifts s.mgr m' := by
    refine (EduMgr.step_effect hStep).mono ?_
    intro kind hKind
    cases c with
    | startEDU type arg new => exact False.elim hSection
    | returnEDU id force => exact False.elim hSection
    | activateEDU id => exact hKind
    | waitEDU id => exact hKind
    | postEDUPost id type release data =>
        obtain rfl : kind = .kept := hKind
        trivial
    | forceEDUs property =>
        obtain rfl : kind = .kept := hKind
        trivial
    | setDestroyed =>
        obtain rfl : kind = .kept := hKind
        trivial
  rcases shifts_frame hShifts with ⟨hNext, hIdle⟩
  refine hReady.observe (hReady.registry.effect hShifts) ?_ ?_ ?_
  · intro j hJ
    exact (EduMgr.issued_of_next hNext j).2 (hReady.resumed j hJ)
  · intro j hJ
    exact hReady.idle j (hIdle j hJ)
  · intro k d _
    refine leaves_effect hReady.registry hShifts ?_ ?_
      (fun _ hIn => hIn)
    · intro kind hKind hNew
      cases kind <;> first | exact hKind | exact hNew
    · intro i q _
      exact ⟨fun hKind => hKind, fun hKind => hKind⟩

theorem finishReturn_effect
    {m m' : EduMgr}
    {id : Nat}
    {destroy : Bool}
    {rc : Int}
    (hCall : finishReturn m id destroy = .ok (rc, m')) :
    EduMgr.Effect
      (fun kind =>
        kind = .kept ∨ kind = .left id ∨ kind = .pooled id)
      m m' := by
  unfold finishReturn at hCall
  by_cases hIn : m.Registered id
  · split at hCall
    · refine (EduMgr.destoryEDU_effect hIn hCall).mono ?_
      exact fun kind hKind => Or.inr (Or.inl hKind)
    · refine (EduMgr.deactiveEDU_effect hIn hCall).mono ?_
      rintro kind (hKept | hPooled)
      · exact Or.inl hKept
      · exact Or.inr (Or.inr hPooled)
  · have hSame : m' = m := by
      split at hCall
      · exact EduMgr.destoryEDU_missing hIn hCall
      · exact EduMgr.deactiveEDU_missing hIn hCall
    rw [hSame]
    exact EduMgr.Effect.same m (Or.inl rfl)

/- The EDU that is returned has no call that resumes it. -/
theorem Ready.finish
    {s : HandOff}
    {id : Nat}
    {destroy : Bool}
    {rc : Int}
    {m' : EduMgr}
    {threads : EduMap HandThread}
    (hReady : Ready s)
    (hAlone : ∀ (k : Nat) (c : StartCall) (p : Nat),
      s.starters[k]? = some c → c.place ≠ .posting id p)
    (hCall : finishReturn s.mgr id destroy = .ok (rc, m')) :
    Ready ⟨m', (s.observe m').starters, threads,
      s.resumed.erase id⟩ := by
  have hEffect := finishReturn_effect hCall
  have hFrame : m'.eduID = s.mgr.eduID ∧
      ∀ j, j ∈ m'.idleQueue → j = id ∨ j ∈ s.mgr.idleQueue := by
    rcases hEffect with ⟨kind, n, hKind, hMove, hTended⟩
    rw [hTended.next, hTended.idle]
    cases hMove with
    | kept => exact ⟨rfl, fun j hJ => Or.inr hJ⟩
    | leftRun i p hIn => exact ⟨rfl, fun j hJ => Or.inr hJ⟩
    | leftIdle i p hOut hIn =>
        exact ⟨rfl, fun j hJ =>
          Or.inr (Std.TreeMap.mem_of_mem_erase hJ)⟩
    | pooled i p hIn =>
        obtain rfl : i = id := by simpa using hKind
        refine ⟨rfl, fun j hJ => ?_⟩
        unfold EduMgr.poolRun at hJ
        grind
    | taken i p hIn => simp at hKind
    | added type p hFresh hCount => simp at hKind
    | refused type p hFresh hCount => simp at hKind
  refine hReady.observe (hReady.registry.effect hEffect) ?_ ?_ ?_
  · intro j hJ
    exact (EduMgr.issued_of_next hFrame.1 j).2
      (hReady.resumed j (Std.TreeMap.mem_of_mem_erase hJ))
  · intro j hJ
    rcases hFrame.2 j hJ with rfl | hOld
    · simp
    · have hOut := hReady.idle j hOld
      grind
  · intro k c hC
    refine leaves_effect hReady.registry hEffect ?_ ?_
      (fun _ hIn => Std.TreeMap.mem_of_mem_erase hIn)
    · rintro kind (rfl | rfl | rfl) hNew
      all_goals exact hNew
    · intro i p hPosting
      have hNe : i ≠ id := by
        rintro rfl
        exact hAlone k c p hC hPosting
      simp [hNe]

------------------------------------------------------------
-- Runs
------------------------------------------------------------

/-
  No step falls into the gaps of a call of `startEDU`: an
  entry that was read before the latch has not been removed
  when the call moves it, and no return takes effect on an
  EDU whose resume is still to be posted.
-/
def Undisturbed
    (s : HandOff) :
    HandAct → Prop
| .take k =>
    ∀ (c : StartCall) (it : Option (Nat × Nat)),
      s.starters[k]? = some c → c.place ≠ .checked it true
| .finish id =>
    ∀ (k : Nat) (c : StartCall) (p : Nat),
      s.starters[k]? = some c → c.place ≠ .posting id p
| _ => True

theorem ready_init : Ready {} where
  registry := EduMgr.Registry.init
  resumed := by simp
  idle := by simp
  place := by simp
  apart := by simp

theorem Ready.step
    {maxPool : UInt32}
    {isSystemEDU : EduType → Bool}
    {s s' : HandOff}
    {act : HandAct}
    (hReady : Ready s)
    (hStep :
      Guarded Undisturbed (Step maxPool isSystemEDU) s act s') :
    Ready s' := by
  rcases hStep with ⟨hGuard, hStep⟩
  have hSame := EduMgr.Tended.refl s.mgr
  cases hStep with
  | begin k type arg hNew =>
      exact hReady.local_step hSame
        (fun _ => firstIdle_kept s.mgr) (fun _ _ _ _ => trivial)
  | check k c it moved hStart hPlace =>
      split
      · exact hReady.local_step hSame trivial
          (fun _ _ _ _ => trivial)
      · refine hReady.local_step hSame ?_
          (fun _ _ _ _ => trivial)
        intro hNot
        simp only [Bool.or_eq_false_iff] at hNot
        exact hNot.2
  | create k c it moved hStart hPlace hNew =>
      exact hReady.local_step hSame trivial
        (fun _ _ _ _ => trivial)
  | take k c id p moved m' hStart hPlace hReused hCall =>
      have hOk := hReady.place k c hStart
      rw [hPlace] at hOk
      have hNot : moved = false := by
        cases moved with
        | false => rfl
        | true => exact absurd hPlace (hGuard c _ hStart)
      have hIn : s.mgr.idleQueue[id]? = some p := by
        simpa [EduMgr.lost] using hOk hNot
      exact hReady.take hIn hCall
  | recheck k c hStart hPlace =>
      split
      · exact hReady.local_step hSame trivial
          (fun _ _ _ _ => trivial)
      · exact hReady.local_step hSame trivial
          (fun _ _ _ _ => trivial)
  | oom k c hStart hPlace =>
      exact hReady.local_step hSame trivial
        (fun _ _ _ _ => trivial)
  | alloc k c p hStart hPlace hFresh => exact hReady.alloc hFresh
  | register k c p m' hStart hPlace hCount hCall =>
      exact hReady.register hStart hPlace hCount hCall
  | refuse k c p m' hStart hPlace hCount hCall =>
      exact hReady.refuse hStart hPlace hCount hCall
  | post k c id p m' hStart hPlace hCall =>
      exact hReady.post hStart hPlace hCall
  | call c m' hSection hStep => exact hReady.call hSection hStep
  | wait id t c c' late e hThread hPlace hStage hBlock hWait =>
      exact hReady.tended (EduSystem.event_tended hBlock hWait)
  | timeout id t c c' late hThread hPlace hStage hBlock hWait =>
      exact hReady.tended (EduSystem.event_tended hBlock hWait)
  | test id t c hThread hStage hBlock => exact hReady.tended hSame
  | leave id t hThread hPlace => exact hReady.tended hSame
  | find id t p c hThread hPlace hStage hFind hBlock =>
      exact hReady.tended hSame
  | missing id t hThread hPlace hStage hFind =>
      exact hReady.tended hSame
  | decide id t type hThread hStage => exact hReady.tended hSame
  | finish id t destroy rc m' hThread hStage hCall =>
      exact hReady.finish hGuard hCall

/-
  In the runs that do not disturb a call of `startEDU`: a call
  that is to reuse an EDU has one in the idle queue, and moves
  it; a call that is to post finds the EDU in the run queue,
  where it has got no resume since it was last returned, and
  posts.
-/
theorem resume_exclusive
    {maxPool : UInt32}
    {isSystemEDU : EduType → Bool}
    {acts : List HandAct}
    {s : HandOff}
    (hRun :
      Steps (Guarded Undisturbed (Step maxPool isSystemEDU)) {}
        acts s) :
    (∀ (k : Nat) (c : StartCall) (it : Option (Nat × Nat)),
      s.starters[k]? = some c → c.place = .checked it false →
      ¬ (s.mgr.idleQueue.isEmpty ∨ ¬ isPoolable c.type) →
      ∃ id p m', it = some (id, p) ∧
        s.mgr.idleQueue[id]? = some p ∧
        s.mgr.reuseEDU c.type id p = .ok m') ∧
    (∀ (k : Nat) (c : StartCall) (id p : Nat),
      s.starters[k]? = some c → c.place = .posting id p →
      s.mgr.runQueue[id]? = some p ∧ id ∉ s.resumed ∧
      ∃ m', s.mgr.write p
        (·.postEvent (EduMgr.resumeEvent c.arg)) = .ok m') := by
  have hReady : Ready s :=
    hRun.invariant (fun _ _ _ hOld hStep => hOld.step hStep)
      ready_init
  constructor
  · intro k c it hStart hPlace hReused
    have hOk := hReady.place k c hStart
    rw [hPlace] at hOk
    have hLost := hOk rfl
    cases it with
    | none =>
        have hEmpty : s.mgr.idleQueue.isEmpty := by
          simpa [EduMgr.lost] using hLost
        exact absurd (Or.inl hEmpty) hReused
    | some e =>
        rcases e with ⟨id, p⟩
        have hIn : s.mgr.idleQueue[id]? = some p := by
          simpa [EduMgr.lost] using hLost
        rcases hReady.registry.own id p (Or.inr hIn) with
          ⟨d, hD, _⟩
        exact ⟨id, p, _, rfl, hIn,
          @EduMgr.write_of_block (s.mgr.takeIdle id p) p d _ hD⟩
  · intro k c id p hStart hPlace
    have hOk := hReady.place k c hStart
    rw [hPlace] at hOk
    rcases hReady.registry.own id p (Or.inl hOk.1) with
      ⟨d, hD, _⟩
    exact ⟨hOk.1, hOk.2, _, EduMgr.write_of_block _ hD⟩

/-
  Two calls at a time: the second one has posted, and the
  thread of its EDU has the event, when the first one is about
  to post.
-/
theorem resume_exclusive_twoCalls :
    ∃ s : HandOff, s.resumed[1]? = some 2 ∧
      s.mgr.runQueue[2]? = some 100 ∧ 2 ∉ s.resumed := by
  have hRun : ∃ s : HandOff,
      Steps (Guarded Undisturbed (Step 5 (fun _ => false))) {}
        [.begin 1 .agent 7, .begin 2 .agent 8, .check 1,
          .check 2, .create 2, .create 1, .recheck 1,
          .recheck 2, .alloc 1 (some 100), .alloc 2 (some 101),
          .register 2 true, .register 1 true, .post 2,
          .wait 1] s ∧
        s.starters[1]? = some ⟨.agent, 7, .posting 2 100⟩ ∧
        s.resumed[1]? = some 2 := by
    refine ⟨_,
      .cons ⟨trivial, .begin 1 .agent 7 ?_⟩
      (.cons ⟨trivial, .begin 2 .agent 8 ?_⟩
      (.cons ⟨trivial, .check 1 _ _ _ rfl rfl⟩
      (.cons ⟨trivial, .check 2 _ _ _ rfl rfl⟩
      (.cons ⟨trivial, .create 2 _ _ _ rfl rfl ?_⟩
      (.cons ⟨trivial, .create 1 _ _ _ rfl rfl ?_⟩
      (.cons ⟨trivial, .recheck 1 _ rfl rfl⟩
      (.cons ⟨trivial, .recheck 2 _ rfl rfl⟩
      (.cons ⟨trivial, .alloc 1 _ 100 rfl rfl ?_⟩
      (.cons ⟨trivial, .alloc 2 _ 101 rfl rfl ?_⟩
      (.cons ⟨trivial, .register 2 _ 101 _ rfl rfl ?_ rfl⟩
      (.cons ⟨trivial, .register 1 _ 100 _ rfl rfl ?_ rfl⟩
      (.cons ⟨trivial, .post 2 _ 1 101 _ rfl rfl rfl⟩
      (.cons ⟨trivial, .wait 1 _ _ _ false _ rfl rfl rfl rfl
        rfl⟩ (.nil _)))))))))))))), ?_, ?_⟩
    · simp
    · decide +kernel
    · decide +kernel
    · decide +kernel
    · decide +kernel
    · decide +kernel
    · decide +kernel
    · decide +kernel
    · rfl
    · rfl
  rcases hRun with ⟨s, hSteps, hStart, hPosted⟩
  have hPosting := (resume_exclusive hSteps).2 1 _ 2 100
    hStart rfl
  exact ⟨s, hPosted, hPosting.1, hPosting.2.1⟩

/-
  A new EDU's thread waits too long and is destroyed before
  its resume is posted.
-/
theorem resume_lost :
    ¬ ∀ (maxPool : UInt32) (isSystemEDU : EduType → Bool)
        (acts : List HandAct) (s : HandOff),
      Steps (Step maxPool isSystemEDU) {} acts s →
        ∀ (k : Nat) (c : StartCall) (id p : Nat),
          s.starters[k]? = some c → c.place = .posting id p →
          s.mgr.runQueue[id]? = some p := by
  intro hExclusive
  have hRun : ∃ s : HandOff,
      Steps (Step 5 (fun _ => false)) {}
        [.begin 1 .agent 7, .check 1, .create 1, .recheck 1,
          .alloc 1 (some 100), .register 1 true, .wait 1,
          .test 1, .find 1, .decide 1, .finish 1] s ∧
        s.starters[1]? = some ⟨.agent, 7, .posting 1 100⟩ ∧
        s.mgr.runQueue[1]? = none := by
    refine ⟨_,
      .cons (.begin 1 .agent 7 ?_)
        (.cons (.check 1 _ _ _ rfl rfl)
          (.cons (.create 1 _ _ _ rfl rfl ?_)
            (.cons (.recheck 1 _ rfl rfl)
              (.cons (.alloc 1 _ 100 rfl rfl ?_)
                (.cons (.register 1 _ 100 _ rfl rfl ?_ rfl)
                  (.cons (.timeout 1 _ _ _ true rfl rfl rfl rfl rfl)
                    (.cons (.test 1 _ _ rfl rfl rfl)
                      (.cons (.find 1 _ 100 _ rfl rfl rfl rfl rfl)
                        (.cons (.decide 1 _ _ rfl rfl)
                          (.cons (.finish 1 _ _ _ _ rfl rfl rfl)
                            (.nil _))))))))))), ?_, ?_⟩
    · simp
    · decide +kernel
    · decide +kernel
    · decide +kernel
    · rfl
    · rfl
  rcases hRun with ⟨s, hSteps, hStart, hOut⟩
  have hIn := hExclusive 5 (fun _ => false) _ s hSteps 1 _ 1 100
    hStart rfl
  rw [hOut] at hIn
  cases hIn

end HandOff

end EmeraldDb
