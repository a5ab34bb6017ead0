import EmeraldDb.Lib.Returns
import EmeraldDb.Lib.Transition
import EmeraldDb.Pmd.EduMgr

/-
  What each call of the manager does to the queues.

  A call changes the queues in one of a few ways: it moves an
  EDU between the queues, adds one, drops one, or leaves both
  queues and changes blocks only.  A block that is changed
  keeps its id and does not become one of a destroyed EDU.

  Key definitions include:
    * `EduMgr.Effect`
    * `EduCall`
    * `EduMgr.Step`

  Key results include:
    * `EduMgr.startEDU_effect`
    * `EduMgr.returnEDU_effect`
    * `EduMgr.step_effect`
-/

namespace EmeraldDb

/-
  The blocks before and after some writes: each is still
  there, with its id, and was of a destroyed EDU if it is.
-/
def BlocksKept (b b' : EduMap EduCB) : Prop :=
  ∀ (p : Nat) (c : EduCB), b[p]? = some c →
    ∃ c' : EduCB, b'[p]? = some c' ∧ c'.id = c.id ∧
      (c'.status = .destroy → c.status = .destroy)

namespace BlocksKept

theorem refl (b : EduMap EduCB) : BlocksKept b b :=
  fun _ c hC => ⟨c, hC, rfl, id⟩

theorem trans
    {b b' b'' : EduMap EduCB}
    (hFirst : BlocksKept b b')
    (hSecond : BlocksKept b' b'') :
    BlocksKept b b'' := by
  intro p c hC
  rcases hFirst p c hC with ⟨c', hC', hId, hStatus⟩
  rcases hSecond p c' hC' with ⟨c'', hC'', hId', hStatus'⟩
  exact ⟨c'', hC'', hId'.trans hId,
    fun hEnd => hStatus (hStatus' hEnd)⟩

theorem insert
    {b : EduMap EduCB}
    {p : Nat}
    {c c' : EduCB}
    (hC : b[p]? = some c)
    (hId : c'.id = c.id)
    (hStatus : c'.status = .destroy → c.status = .destroy) :
    BlocksKept b (b.insert p c') := by
  intro q d hD
  by_cases hSame : p = q
  · subst hSame
    obtain rfl : c = d := by simpa [hC] using hD
    exact ⟨c', by simp, hId, hStatus⟩
  · exact ⟨d, by grind, rfl, id⟩

end BlocksKept

namespace EduMgr

------------------------------------------------------------
-- Entries
------------------------------------------------------------

def Holds
    (m : EduMgr)
    (id p : Nat) : Prop :=
  m.runQueue[id]? = some p ∨ m.idleQueue[id]? = some p

def Registered
    (m : EduMgr)
    (id : Nat) : Prop :=
  id ∈ m.runQueue ∨ id ∈ m.idleQueue

instance (m : EduMgr) (id : Nat) :
    Decidable (m.Registered id) := by
  unfold Registered
  infer_instance

theorem mem_iff_entry
    {q : EduMap Nat}
    {id : Nat} :
    id ∈ q ↔ ∃ p, q[id]? = some p := by
  rw [Std.TreeMap.mem_iff_isSome_getElem?, Option.isSome_iff_exists]

theorem registered_iff
    (m : EduMgr)
    (id : Nat) :
    m.Registered id ↔ ∃ p, m.Holds id p := by
  unfold Registered Holds
  rw [mem_iff_entry, mem_iff_entry, exists_or]

theorem find_none
    {m : EduMgr}
    {id : Nat} :
    m.find id = none ↔ ¬ m.Registered id := by
  unfold find Registered
  grind

theorem holds_of_find
    {m : EduMgr}
    {id p : Nat}
    (hFind : m.find id = some p) :
    m.Holds id p := by
  unfold find at hFind
  unfold Holds
  grind

theorem firstIdle_some
    {m : EduMgr}
    {e : Nat × Nat}
    (hFirst : m.firstIdle = some e) :
    m.idleQueue[e.1]? = some e.2 := by
  have hIn := List.mem_of_mem_head? hFirst
  exact Std.TreeMap.mem_toList_iff_getElem?_eq_some.1 hIn

theorem isEmpty_of_firstIdle
    {m : EduMgr}
    (hFirst : m.firstIdle = none) :
    m.idleQueue.isEmpty := by
  rw [← Std.TreeMap.isEmpty_toList]
  exact List.isEmpty_iff.2 (List.head?_eq_none_iff.1 hFirst)

theorem write_ok
    {m m' : EduMgr}
    {p : Nat}
    {f : EduCB → EduCB}
    (hWrite : m.write p f = .ok m') :
    ∃ c, m.blocks[p]? = some c ∧
      m' = { m with blocks := m.blocks.insert p (f c) } := by
  unfold write at hWrite
  cases hC : m.blocks[p]? with
  | none => simp [hC] at hWrite
  | some c =>
      simp only [hC, Except.ok.injEq] at hWrite
      exact ⟨c, rfl, hWrite.symm⟩

theorem write_of_block
    {m : EduMgr}
    {p : Nat}
    {c : EduCB}
    (f : EduCB → EduCB)
    (hC : m.blocks[p]? = some c) :
    m.write p f =
      .ok { m with blocks := m.blocks.insert p (f c) } := by
  simp [write, hC]

theorem cb_of_block
    {m : EduMgr}
    {p : Nat}
    {c : EduCB}
    (hC : m.blocks[p]? = some c) :
    m.cb p = .ok c := by
  simp [cb, hC]

theorem cb_ok
    {m : EduMgr}
    {p : Nat}
    {c : EduCB}
    (hC : m.cb p = .ok c) :
    m.blocks[p]? = some c := by
  unfold cb at hC
  grind

/-
  A change of a block that keeps its id and that does not
  give it the status of a destroyed EDU.
-/
structure Sound (f : EduCB → EduCB) : Prop where
  id : ∀ c, (f c).id = c.id
  status : ∀ c, (f c).status = .destroy → c.status = .destroy

theorem sound_postEvent (e : EduEvent) :
    Sound (·.postEvent e) :=
  ⟨fun _ => rfl, fun _ h => h⟩

theorem sound_force : Sound EduCB.force :=
  ⟨fun _ => rfl, fun _ h => h⟩

theorem sound_setStatus
    {status : EduStatus}
    (hStatus : status ≠ .destroy) :
    Sound (·.setStatus status) :=
  ⟨fun _ => rfl, fun _ h => absurd h hStatus⟩

theorem sound_reuse (type : EduType) :
    Sound (fun c => (c.setType type).setStatus .waitting) :=
  ⟨fun _ => rfl, fun _ h => by cases h⟩

/-
  The manager after some sound writes of blocks: the queues
  and the next id are the same.
-/
structure Tended (m m' : EduMgr) : Prop where
  run : m'.runQueue = m.runQueue
  idle : m'.idleQueue = m.idleQueue
  next : m'.eduID = m.eduID
  blocks : BlocksKept m.blocks m'.blocks

namespace Tended

theorem refl (m : EduMgr) : Tended m m :=
  ⟨rfl, rfl, rfl, BlocksKept.refl _⟩

theorem trans
    {m m' m'' : EduMgr}
    (hFirst : Tended m m')
    (hSecond : Tended m' m'') :
    Tended m m'' :=
  ⟨hSecond.run.trans hFirst.run,
    hSecond.idle.trans hFirst.idle,
    hSecond.next.trans hFirst.next,
    hFirst.blocks.trans hSecond.blocks⟩

theorem write
    {m m' : EduMgr}
    {p : Nat}
    {f : EduCB → EduCB}
    (hSound : Sound f)
    (hWrite : m.write p f = .ok m') :
    Tended m m' := by
  rcases write_ok hWrite with ⟨c, hC, rfl⟩
  exact ⟨rfl, rfl, rfl, BlocksKept.insert hC (hSound.id c)
    (hSound.status c)⟩

theorem registered
    {m m' : EduMgr}
    (hTended : Tended m m')
    (id : Nat) :
    m'.Registered id ↔ m.Registered id := by
  unfold Registered
  rw [hTended.run, hTended.idle]

theorem holds
    {m m' : EduMgr}
    (hTended : Tended m m')
    (id p : Nat) :
    m'.Holds id p ↔ m.Holds id p := by
  unfold Holds
  rw [hTended.run, hTended.idle]

end Tended

------------------------------------------------------------
-- Moves
------------------------------------------------------------

/- Put the entry of `id` from the run to the idle queue. -/
def poolRun
    (m : EduMgr)
    (id p : Nat) : EduMgr :=
  { m with
    runQueue := m.runQueue.erase id
    idleQueue := m.idleQueue.insert id p }

def dropIdle
    (m : EduMgr)
    (id p : Nat) : EduMgr :=
  { m with
    idleQueue := m.idleQueue.erase id
    blocks := m.blocks.erase p }

/- The ways a call changes the queues, with the EDU. -/
inductive MoveKind
| kept
| taken (id : Nat)
| pooled (id : Nat)
| added (type : EduType) (p : Nat)
| refused
| left (id : Nat)
deriving DecidableEq, Repr

/- The manager after a call, without its writes of blocks. -/
inductive Move (m : EduMgr) : MoveKind → EduMgr → Prop
| kept : Move m .kept m
| taken
    (id p : Nat)
    (hIn : m.idleQueue[id]? = some p) :
    Move m (.taken id) (m.takeIdle id p)
| pooled
    (id p : Nat)
    (hIn : m.runQueue[id]? = some p) :
    Move m (.pooled id) (m.poolRun id p)
| added
    (type : EduType)
    (p : Nat)
    (hFresh : p ∉ m.blocks)
    (hCount : m.eduID ≠ 0) :
    Move m (.added type p) (m.addEDU type p)
| refused
    (type : EduType)
    (p : Nat)
    (hFresh : p ∉ m.blocks)
    (hCount : m.eduID ≠ 0) :
    Move m .refused ((m.addEDU type p).dropEDU m.eduID p)
| leftRun
    (id p : Nat)
    (hIn : m.runQueue[id]? = some p) :
    Move m (.left id) (m.dropEDU id p)
| leftIdle
    (id p : Nat)
    (hOut : id ∉ m.runQueue)
    (hIn : m.idleQueue[id]? = some p) :
    Move m (.left id) (m.dropIdle id p)

/- A move of one of the kinds and then sound writes. -/
def Effect
    (K : MoveKind → Prop)
    (m m' : EduMgr) : Prop :=
  ∃ k n, K k ∧ Move m k n ∧ Tended n m'

namespace Effect

variable {K L : MoveKind → Prop} {m m' m'' : EduMgr}

theorem same
    (m : EduMgr)
    (hKind : K .kept) :
    Effect K m m :=
  ⟨.kept, m, hKind, .kept, Tended.refl m⟩

theorem mono
    (hLarger : ∀ k, K k → L k)
    (hEffect : Effect K m m') :
    Effect L m m' := by
  rcases hEffect with ⟨k, n, hKind, hMove, hTended⟩
  exact ⟨k, n, hLarger k hKind, hMove, hTended⟩

theorem then_write
    {p : Nat}
    {f : EduCB → EduCB}
    (hEffect : Effect K m m')
    (hSound : Sound f)
    (hWrite : m'.write p f = .ok m'') :
    Effect K m m'' := by
  rcases hEffect with ⟨k, n, hKind, hMove, hTended⟩
  exact ⟨k, n, hKind, hMove,
    hTended.trans (Tended.write hSound hWrite)⟩

/- A move whose blocks are then written. -/
theorem move_write
    {k : MoveKind}
    {n : EduMgr}
    {p : Nat}
    {f : EduCB → EduCB}
    (hMove : Move m k n)
    (hKind : K k)
    (hSound : Sound f)
    (hWrite : n.write p f = .ok m') :
    Effect K m m' :=
  ⟨k, n, hKind, hMove, Tended.write hSound hWrite⟩

end Effect

------------------------------------------------------------
-- Start
------------------------------------------------------------

/- A start makes a new EDU. -/
def Creates
    (m : EduMgr)
    (type : EduType) : Prop :=
  m.isQuiesced = false ∧
    (m.idleQueue.isEmpty ∨ ¬ isPoolable type)

/-
  What is assumed when an EDU starts: the block that the
  system allocates is not in use, and the counter of the ids
  has not run out.
-/
structure CanStart
    (m : EduMgr)
    (type : EduType)
    (new : NewEdu) : Prop where
  fresh : ∀ p ∈ new.block, p ∉ m.blocks
  count : m.Creates type → m.eduID ≠ 0

/- What a creation does to the queues. -/
def createKind
    (m : EduMgr)
    (type : EduType)
    (new : NewEdu) : MoveKind :=
  if m.isQuiesced then .kept
  else
    match new with
    | .oom => .kept
    | .noThread _ => .refused
    | .started p => .added type p

/- What a start does to the queues. -/
def startKind
    (m : EduMgr)
    (type : EduType)
    (new : NewEdu) : MoveKind :=
  if m.isQuiesced then .kept
  else if m.idleQueue.isEmpty ∨ ¬ isPoolable type then
    m.createKind type new
  else
    match m.firstIdle with
    | none => .kept
    | some (eduID, _) => .taken eduID

theorem createNewEDU_effect
    {m m' : EduMgr}
    {type : EduType}
    {arg : Nat}
    {new : NewEdu}
    {rc : Int}
    {eduid : Option Nat}
    (hFresh : ∀ p ∈ new.block, p ∉ m.blocks)
    (hCount : m.isQuiesced = false → m.eduID ≠ 0)
    (hCall : m.createNewEDU type arg new = .ok (rc, eduid, m')) :
    Effect (· = m.createKind type new) m m' := by
  unfold createNewEDU at hCall
  unfold createKind
  split at hCall
  · rename_i hClosed
    obtain ⟨_, _, rfl⟩ := by simpa using hCall
    exact Effect.same m (by simp [hClosed])
  · rename_i hOpen
    have hNext := hCount (by simpa using hOpen)
    simp only [hOpen, Bool.false_eq_true, if_false]
    cases new with
    | oom =>
        obtain ⟨_, _, rfl⟩ := by simpa using hCall
        exact Effect.same m rfl
    | noThread p =>
        obtain ⟨_, _, rfl⟩ := by simpa using hCall
        exact ⟨_, _, rfl,
          .refused type p (hFresh p rfl) hNext, Tended.refl _⟩
    | started p =>
        rcases bind_ok hCall with ⟨n, hWrite, hRest⟩
        obtain ⟨_, _, rfl⟩ := by simpa using hRest
        exact Effect.move_write
          (.added type p (hFresh p rfl) hNext) rfl
          (sound_postEvent _) hWrite

theorem startEDU_effect
    {m m' : EduMgr}
    {type : EduType}
    {arg : Nat}
    {new : NewEdu}
    {rc : Int}
    {eduid : Option Nat}
    (hCan : m.CanStart type new)
    (hCall : m.startEDU type arg new = .ok (rc, eduid, m')) :
    Effect (· = m.startKind type new) m m' := by
  unfold startEDU at hCall
  unfold startKind
  split at hCall
  · rename_i hClosed
    obtain ⟨_, _, rfl⟩ := by simpa using hCall
    exact Effect.same m (by simp [hClosed])
  · rename_i hOpen
    simp only [hOpen, Bool.false_eq_true, if_false]
    split at hCall
    · rename_i hNew
      simp only [hNew, if_true]
      exact createNewEDU_effect hCan.fresh
        (fun hLive => hCan.count ⟨hLive, hNew⟩) hCall
    · rename_i hReused
      simp only [hReused, if_false]
      cases hFirst : m.firstIdle with
      | none => simp [hFirst] at hCall
      | some e =>
          rcases e with ⟨eduID, p⟩
          simp only [hFirst] at hCall
          rcases bind_ok hCall with ⟨n, hReuse, hRest⟩
          rcases bind_ok hRest with ⟨n', hWrite, hEnd⟩
          obtain ⟨_, _, rfl⟩ := by simpa using hEnd
          have hTaken : Effect (· = .taken eduID) m n :=
            Effect.move_write
              (.taken eduID p (firstIdle_some hFirst)) rfl
              (sound_reuse type) hReuse
          exact hTaken.then_write (sound_postEvent _) hWrite

------------------------------------------------------------
-- Status
------------------------------------------------------------

/- The calls that register no EDU and drop none. -/
def Shifts : MoveKind → Prop
| .kept => True
| .taken _ => True
| _ => False

theorem activateEDU_effect
    {m m' : EduMgr}
    {eduID : Nat}
    {rc : Int}
    (hCall : m.activateEDU eduID = .ok (rc, m')) :
    Effect Shifts m m' := by
  have hSound : Sound (·.setStatus .running) :=
    sound_setStatus (by simp)
  unfold activateEDU at hCall
  cases hIdle : m.idleQueue[eduID]? with
  | some p =>
      simp only [hIdle] at hCall
      rcases bind_ok hCall with ⟨n, hWrite, hRest⟩
      obtain ⟨_, rfl⟩ := by simpa using hRest
      exact Effect.move_write (.taken eduID p hIdle) trivial
        hSound hWrite
  | none =>
      cases hRun : m.runQueue[eduID]? with
      | none =>
          obtain ⟨_, rfl⟩ := by
            simpa [hIdle, hRun] using hCall
          exact Effect.same m trivial
      | some p =>
          simp only [hIdle, hRun] at hCall
          rcases bind_ok hCall with ⟨n, hWrite, hRest⟩
          obtain ⟨_, rfl⟩ := by simpa using hRest
          exact Effect.move_write .kept trivial hSound hWrite

theorem waitEDU_effect
    {m m' : EduMgr}
    {id : Nat}
    {rc : Int}
    (hCall : m.waitEDU id = .ok (rc, m')) :
    Effect Shifts m m' := by
  unfold waitEDU at hCall
  cases hRun : m.runQueue[id]? with
  | none =>
      obtain ⟨_, rfl⟩ := by simpa [hRun] using hCall
      exact Effect.same m trivial
  | some p =>
      simp only [hRun] at hCall
      rcases bind_ok hCall with ⟨c, _, hRest⟩
      split at hRest
      · obtain ⟨_, rfl⟩ := by simpa using hRest
        exact Effect.same m trivial
      · split at hRest
        · obtain ⟨_, rfl⟩ := by simpa using hRest
          exact Effect.same m trivial
        · rcases bind_ok hRest with ⟨n, hWrite, hEnd⟩
          obtain ⟨_, rfl⟩ := by simpa using hEnd
          exact Effect.move_write .kept trivial
            (sound_setStatus (by simp)) hWrite

------------------------------------------------------------
-- Return
------------------------------------------------------------

/- The block of a destroyed EDU is written and then freed. -/
theorem blocksKept_free
    {b : EduMap EduCB}
    {p : Nat}
    {c : EduCB} :
    BlocksKept (b.erase p) ((b.insert p c).erase p) := by
  intro q d hD
  refine ⟨d, ?_, rfl, id⟩
  grind

/-
  An EDU that is destroyed leaves the queue that has it.
-/
theorem destoryEDU_cases
    {m m' : EduMgr}
    {eduID : Nat}
    {rc : Int}
    (hCall : m.destoryEDU eduID = .ok (rc, m')) :
    (¬ m.Registered eduID ∧ rc = edbSys ∧ m' = m) ∨
    (m.Registered eduID ∧ rc = edbOk ∧ ∃ n,
      Move m (.left eduID) n ∧ Tended n m') := by
  unfold destoryEDU at hCall
  cases hRun : m.runQueue[eduID]? with
  | some p =>
      right
      simp only [hRun] at hCall
      rcases bind_ok hCall with ⟨n, hWrite, hRest⟩
      obtain ⟨rfl, rfl⟩ := by simpa using hRest
      rcases write_ok hWrite with ⟨c, _, rfl⟩
      exact ⟨Or.inl (mem_iff_entry.2 ⟨p, hRun⟩), rfl, _,
        .leftRun eduID p hRun, rfl, rfl, rfl,
        blocksKept_free⟩
  | none =>
      have hOut : eduID ∉ m.runQueue := by
        simpa [mem_iff_entry] using hRun
      cases hIdle : m.idleQueue[eduID]? with
      | none =>
          left
          obtain ⟨rfl, rfl⟩ := by
            simpa [hIdle, hRun] using hCall
          refine ⟨?_, rfl, rfl⟩
          simp [Registered, mem_iff_entry, hRun, hIdle]
      | some p =>
          right
          simp only [hIdle, hRun] at hCall
          rcases bind_ok hCall with ⟨n, hWrite, hRest⟩
          obtain ⟨rfl, rfl⟩ := by simpa using hRest
          rcases write_ok hWrite with ⟨c, _, rfl⟩
          exact ⟨Or.inr (mem_iff_entry.2 ⟨p, hIdle⟩), rfl, _,
            .leftIdle eduID p hOut hIdle, rfl, rfl, rfl,
            blocksKept_free⟩

/- An EDU that is put to the pool stays if it is idle. -/
theorem deactiveEDU_cases
    {m m' : EduMgr}
    {eduID : Nat}
    {rc : Int}
    (hCall : m.deactiveEDU eduID = .ok (rc, m')) :
    (¬ m.Registered eduID ∧ rc = edbSys ∧ m' = m) ∨
    (m.Registered eduID ∧ rc = edbOk ∧
      eduID ∈ m'.idleQueue ∧
      Effect (fun k => k = .kept ∨ k = .pooled eduID) m m') := by
  have hSound : Sound (·.setStatus .waitting) :=
    sound_setStatus (by simp)
  unfold deactiveEDU at hCall
  cases hRun : m.runQueue[eduID]? with
  | some p =>
      right
      simp only [hRun] at hCall
      rcases bind_ok hCall with ⟨n, hWrite, hRest⟩
      obtain ⟨rfl, rfl⟩ := by simpa using hRest
      rcases write_ok hWrite with ⟨c, hC, rfl⟩
      exact ⟨Or.inl (mem_iff_entry.2 ⟨p, hRun⟩), rfl,
        by simp, _, _, Or.inr rfl, .pooled eduID p hRun,
        rfl, rfl, rfl,
        BlocksKept.insert hC (hSound.id c) (hSound.status c)⟩
  | none =>
      cases hIdle : m.idleQueue[eduID]? with
      | none =>
          left
          obtain ⟨rfl, rfl⟩ := by
            simpa [hIdle, hRun] using hCall
          refine ⟨?_, rfl, rfl⟩
          simp [Registered, mem_iff_entry, hRun, hIdle]
      | some p =>
          right
          simp only [hIdle, hRun] at hCall
          rcases bind_ok hCall with ⟨n, hWrite, hRest⟩
          obtain ⟨rfl, rfl⟩ := by simpa using hRest
          have hTended := Tended.write hSound hWrite
          have hIn : eduID ∈ m.idleQueue :=
            mem_iff_entry.2 ⟨p, hIdle⟩
          refine ⟨Or.inr hIn, rfl, ?_, _, m, Or.inl rfl, .kept,
            hTended⟩
          rw [hTended.idle]
          exact hIn

theorem destoryEDU_effect
    {m m' : EduMgr}
    {eduID : Nat}
    {rc : Int}
    (hIn : m.Registered eduID)
    (hCall : m.destoryEDU eduID = .ok (rc, m')) :
    Effect (· = .left eduID) m m' := by
  rcases destoryEDU_cases hCall with
    ⟨hOut, _⟩ | ⟨_, _, n, hMove, hTended⟩
  · exact absurd hIn hOut
  · exact ⟨_, n, rfl, hMove, hTended⟩

/- An idle EDU stays where it is. -/
theorem deactiveEDU_effect
    {m m' : EduMgr}
    {eduID : Nat}
    {rc : Int}
    (hIn : m.Registered eduID)
    (hCall : m.deactiveEDU eduID = .ok (rc, m')) :
    Effect (fun k => k = .kept ∨ k = .pooled eduID) m m' := by
  rcases deactiveEDU_cases hCall with
    ⟨hOut, _⟩ | ⟨_, _, _, hEffect⟩
  · exact absurd hIn hOut
  · exact hEffect

/-
  The condition under which the manager puts an EDU that is
  returned to the pool.
-/
def Pools
    (m : EduMgr)
    (maxPool : UInt32)
    (eduID : Nat)
    (force : Bool) : Prop :=
  ∃ p c, m.find eduID = some p ∧ m.blocks[p]? = some c ∧
    m.destroys maxPool c.type force = false

theorem returnEDU_cases
    {m m' : EduMgr}
    {maxPool : UInt32}
    {eduID : Nat}
    {force : Bool}
    {destroyed out : Option Bool}
    {rc : Int}
    (hCall : m.returnEDU maxPool eduID force destroyed =
      .ok (rc, out, m')) :
    (¬ m.Registered eduID ∧ rc = edbSys ∧ out = some false ∧
      m' = m) ∨
    (m.Registered eduID ∧ ¬ m.Pools maxPool eduID force ∧
      out = reportDestroyed destroyed rc ∧
      m.destoryEDU eduID = .ok (rc, m')) ∨
    (m.Pools maxPool eduID force ∧
      out = reportDestroyed destroyed rc ∧
      m.deactiveEDU eduID = .ok (rc, m')) := by
  unfold returnEDU at hCall
  cases hFind : m.find eduID with
  | none =>
      left
      cases destroyed with
      | none => simp [hFind] at hCall
      | some d =>
          obtain ⟨hRc, hOut, hM⟩ := by
            simpa [hFind] using hCall
          exact ⟨find_none.1 hFind, hRc.symm, hOut.symm, hM.symm⟩
  | some p =>
      right
      simp only [hFind] at hCall
      rcases bind_ok hCall with ⟨c, hC, hRest⟩
      have hBlock : m.blocks[p]? = some c := cb_ok hC
      have hIn : m.Registered eduID :=
        (registered_iff m eduID).2 ⟨p, holds_of_find hFind⟩
      split at hRest
      · rename_i hDestroys
        left
        rcases bind_ok hRest with ⟨r, hDestory, hEnd⟩
        simp only [Except.ok.injEq, Prod.mk.injEq] at hEnd
        rcases hEnd with ⟨rfl, rfl, rfl⟩
        refine ⟨hIn, ?_, rfl, hDestory⟩
        rintro ⟨q, d, hFind', hBlock', hPools⟩
        obtain rfl : p = q := by simpa [hFind] using hFind'
        obtain rfl : c = d := by simpa [hBlock] using hBlock'
        simp [hDestroys] at hPools
      · rename_i hPools
        right
        rcases bind_ok hRest with ⟨r, hDeactive, hEnd⟩
        simp only [Except.ok.injEq, Prod.mk.injEq] at hEnd
        rcases hEnd with ⟨rfl, rfl, rfl⟩
        exact ⟨⟨p, c, hFind, hBlock, by simpa using hPools⟩,
          rfl, hDeactive⟩

theorem Pools.registered
    {m : EduMgr}
    {maxPool : UInt32}
    {eduID : Nat}
    {force : Bool}
    (hPools : m.Pools maxPool eduID force) :
    m.Registered eduID := by
  rcases hPools with ⟨p, c, hFind, _⟩
  exact (registered_iff m eduID).2 ⟨p, holds_of_find hFind⟩

theorem destoryEDU_missing
    {m m' : EduMgr}
    {eduID : Nat}
    {rc : Int}
    (hOut : ¬ m.Registered eduID)
    (hCall : m.destoryEDU eduID = .ok (rc, m')) :
    m' = m := by
  rcases destoryEDU_cases hCall with
    ⟨_, _, hSame⟩ | ⟨hIn, _⟩
  · exact hSame
  · exact absurd hIn hOut

theorem deactiveEDU_missing
    {m m' : EduMgr}
    {eduID : Nat}
    {rc : Int}
    (hOut : ¬ m.Registered eduID)
    (hCall : m.deactiveEDU eduID = .ok (rc, m')) :
    m' = m := by
  rcases deactiveEDU_cases hCall with
    ⟨_, _, hSame⟩ | ⟨hIn, _⟩
  · exact hSame
  · exact absurd hIn hOut

theorem destoryEDU_code
    {m m' : EduMgr}
    {eduID : Nat}
    {rc : Int}
    (hCall : m.destoryEDU eduID = .ok (rc, m')) :
    rc = edbOk ∨ rc = edbSys := by
  rcases destoryEDU_cases hCall with
    ⟨_, hCode, _⟩ | ⟨_, hCode, _⟩
  · exact Or.inr hCode
  · exact Or.inl hCode

theorem deactiveEDU_code
    {m m' : EduMgr}
    {eduID : Nat}
    {rc : Int}
    (hCall : m.deactiveEDU eduID = .ok (rc, m')) :
    rc = edbOk ∨ rc = edbSys := by
  rcases deactiveEDU_cases hCall with
    ⟨_, hCode, _⟩ | ⟨_, hCode, _⟩
  · exact Or.inr hCode
  · exact Or.inl hCode

/- The moves of a return, with when each of them is made. -/
def ReturnKind
    (m : EduMgr)
    (maxPool : UInt32)
    (eduID : Nat)
    (force : Bool) : MoveKind → Prop
| .kept => m.Registered eduID → m.Pools maxPool eduID force
| .pooled id => id = eduID ∧ m.Pools maxPool eduID force
| .left id => id = eduID ∧ ¬ m.Pools maxPool eduID force
| _ => False

theorem returnEDU_effect
    {m m' : EduMgr}
    {maxPool : UInt32}
    {eduID : Nat}
    {force : Bool}
    {destroyed out : Option Bool}
    {rc : Int}
    (hCall : m.returnEDU maxPool eduID force destroyed =
      .ok (rc, out, m')) :
    Effect (m.ReturnKind maxPool eduID force) m m' := by
  rcases returnEDU_cases hCall with
    ⟨hOut, _, _, rfl⟩ | ⟨hIn, hNot, _, hDestory⟩ |
      ⟨hPools, _, hDeactive⟩
  · exact Effect.same m' (fun hIn => absurd hIn hOut)
  · refine (destoryEDU_effect hIn hDestory).mono ?_
    rintro k rfl
    exact ⟨rfl, hNot⟩
  · refine (deactiveEDU_effect hPools.registered
      hDeactive).mono ?_
    rintro k (rfl | rfl)
    · exact fun _ => hPools
    · exact ⟨rfl, hPools⟩

------------------------------------------------------------
-- Events
------------------------------------------------------------

theorem postEDUPost_effect
    {m m' : EduMgr}
    {eduID : Nat}
    {type : EduEventType}
    {release : Bool}
    {data : Nat}
    {rc : Int}
    (hCall : m.postEDUPost eduID type release data =
      .ok (rc, m')) :
    Effect (· = .kept) m m' := by
  unfold postEDUPost at hCall
  cases hFind : m.find eduID with
  | none =>
      obtain ⟨_, rfl⟩ := by simpa [hFind] using hCall
      exact Effect.same m rfl
  | some p =>
      simp only [hFind] at hCall
      rcases bind_ok hCall with ⟨n, hWrite, hRest⟩
      obtain ⟨_, rfl⟩ := by simpa using hRest
      exact Effect.move_write .kept rfl (sound_postEvent _) hWrite

theorem forceEDU_tended
    {property : Nat}
    {m m' : EduMgr}
    {entry : Nat × Nat}
    (hForce : forceEDU property m entry = .ok m') :
    Tended m m' := by
  unfold forceEDU at hForce
  split at hForce
  · exact Tended.write sound_force hForce
  · obtain rfl : m = m' := by simpa using hForce
    exact Tended.refl m

theorem forceAll_tended
    {property : Nat}
    {entries : List (Nat × Nat)}
    {m m' : EduMgr}
    (hForce :
      entries.foldlM (forceEDU property) m = .ok m') :
    Tended m m' := by
  induction entries generalizing m with
  | nil =>
      obtain rfl : m = m' := Except.ok.inj hForce
      exact Tended.refl m
  | cons e rest ih =>
      rw [List.foldlM_cons] at hForce
      rcases bind_ok hForce with ⟨n, hHead, hTail⟩
      exact (forceEDU_tended hHead).trans (ih hTail)

theorem forceEDUs_effect
    {m m' : EduMgr}
    {property : Nat}
    {rc : Int}
    (hCall : m.forceEDUs property = .ok (rc, m')) :
    Effect (· = .kept) m m' := by
  unfold forceEDUs at hCall
  rcases bind_ok hCall with ⟨n, hRun, hRest⟩
  rcases bind_ok hRest with ⟨n', hIdle, hEnd⟩
  obtain ⟨_, rfl⟩ := by simpa using hEnd
  exact ⟨_, m, rfl, .kept, (forceAll_tended hRun).trans
    (forceAll_tended hIdle)⟩

end EduMgr

------------------------------------------------------------
-- Calls
------------------------------------------------------------

/-
  The calls of a manager.  Creations come with what the
  system answers.  `setDestroyed` stands for the start of
  `_destroyAll`, which then only makes calls of `forceEDUs`.
-/
inductive EduCall
| startEDU (type : EduType) (arg : Nat) (new : NewEdu)
| activateEDU (eduID : Nat)
| waitEDU (id : Nat)
| returnEDU (eduID : Nat) (force : Bool)
| postEDUPost
    (eduID : Nat)
    (type : EduEventType)
    (release : Bool)
    (data : Nat)
| forceEDUs (property : Nat)
| setDestroyed
deriving DecidableEq, Repr

namespace EduMgr

/- The manager after a call. -/
def run
    (m : EduMgr)
    (maxPool : UInt32) :
    EduCall → Except Fault EduMgr
| .startEDU type arg new =>
    (m.startEDU type arg new).map (fun r => r.2.2)
| .activateEDU eduID => (m.activateEDU eduID).map (fun r => r.2)
| .waitEDU id => (m.waitEDU id).map (fun r => r.2)
| .returnEDU eduID force =>
    (m.returnEDU maxPool eduID force (some false)).map
      (fun r => r.2.2)
| .postEDUPost eduID type release data =>
    (m.postEDUPost eduID type release data).map (fun r => r.2)
| .forceEDUs property => (m.forceEDUs property).map (fun r => r.2)
| .setDestroyed => .ok m.setDestroyed

def Allowed (m : EduMgr) : EduCall → Prop
| .startEDU type _ new => m.CanStart type new
| _ => True

/- One call, from the start to the end, under `maxPool`. -/
def Step
    (maxPool : UInt32)
    (m : EduMgr)
    (call : EduCall)
    (m' : EduMgr) : Prop :=
  m.Allowed call ∧ m.run maxPool call = .ok m'

/- The moves that a call makes, with when it makes them. -/
def CallKind
    (m : EduMgr)
    (maxPool : UInt32) :
    EduCall → MoveKind → Prop
| .startEDU type _ new => (· = m.startKind type new)
| .activateEDU _ => Shifts
| .waitEDU _ => Shifts
| .returnEDU eduID force => m.ReturnKind maxPool eduID force
| .postEDUPost _ _ _ _ => (· = .kept)
| .forceEDUs _ => (· = .kept)
| .setDestroyed => (· = .kept)

theorem step_effect
    {maxPool : UInt32}
    {m m' : EduMgr}
    {call : EduCall}
    (hStep : Step maxPool m call m') :
    Effect (m.CallKind maxPool call) m m' := by
  rcases hStep with ⟨hAllowed, hRun⟩
  cases call with
  | startEDU type arg new =>
      rcases map_ok hRun with ⟨⟨rc, eduid, n⟩, hCall, rfl⟩
      exact startEDU_effect hAllowed hCall
  | activateEDU eduID =>
      rcases map_ok hRun with ⟨⟨rc, n⟩, hCall, rfl⟩
      exact activateEDU_effect hCall
  | waitEDU id =>
      rcases map_ok hRun with ⟨⟨rc, n⟩, hCall, rfl⟩
      exact waitEDU_effect hCall
  | returnEDU eduID force =>
      rcases map_ok hRun with ⟨⟨rc, out, n⟩, hCall, rfl⟩
      exact returnEDU_effect hCall
  | postEDUPost eduID type release data =>
      rcases map_ok hRun with ⟨⟨rc, n⟩, hCall, rfl⟩
      exact postEDUPost_effect hCall
  | forceEDUs property =>
      rcases map_ok hRun with ⟨⟨rc, n⟩, hCall, rfl⟩
      exact forceEDUs_effect hCall
  | setDestroyed =>
      obtain rfl : m.setDestroyed = m' := by
        simpa [run] using hRun
      exact ⟨_, m, rfl, .kept, rfl, rfl, rfl,
        BlocksKept.refl _⟩

/- An agent is put to the pool by its return only. -/
theorem pooled_by_return
    {maxPool : UInt32}
    {m : EduMgr}
    {call : EduCall}
    {id : Nat}
    (hKind : m.CallKind maxPool call (.pooled id)) :
    ∃ force, call = .returnEDU id force ∧
      m.Pools maxPool id force := by
  cases call with
  | startEDU type arg new =>
      have hStart : .pooled id = m.startKind type new := hKind
      unfold startKind createKind at hStart
      grind
  | returnEDU eduID force =>
      rcases hKind with ⟨rfl, hPools⟩
      exact ⟨force, rfl, hPools⟩
  | activateEDU eduID => exact False.elim hKind
  | waitEDU eduID => exact False.elim hKind
  | postEDUPost eduID type release data => cases hKind
  | forceEDUs property => cases hKind
  | setDestroyed => cases hKind

end EduMgr

end EmeraldDb
