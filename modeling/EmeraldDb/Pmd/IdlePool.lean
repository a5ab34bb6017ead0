import EmeraldDb.Pmd.Registry

/-
  How many EDUs the pool holds.

  `returnEDU` destroys an agent as long as fewer EDUs than
  `maxPool` are registered, and pools it from there on: the
  comparison is the other way round than a limit needs it.
  The pool keeps its limit in the runs in which no agent is
  returned while more than `maxPool` EDUs are registered.

  Key definitions include:
    * `EduMgr.Overfull`
    * `EduMgr.ReturnsRight`
    * `EduMgr.WithinPool`

  Key results include:
    * `EduMgr.returnsRight_iff`
    * `EduMgr.idle_bounded`
    * `EduMgr.idle_not_bounded`
-/

namespace EmeraldDb

namespace EduMgr

/- The number of EDUs in the two queues. -/
def count (m : EduMgr) : Nat :=
  m.runQueue.size + m.idleQueue.size

/- A registered EDU of a type that can be pooled. -/
def IsAgent
    (m : EduMgr)
    (id : Nat) : Prop :=
  ∃ p c, m.find id = some p ∧ m.blocks[p]? = some c ∧
    c.type = .agent

/-
  More EDUs are registered than may be pooled, and the test
  of `returnEDU` lets an agent pass.  Below 2^32 EDUs `size`
  is `count`.
-/
def Overfull
    (maxPool : UInt32)
    (m : EduMgr) : Prop :=
  m.isDestroyed = false ∧ maxPool ≤ m.size ∧
    maxPool.toNat < m.count

/-
  An agent that is returned without force enters the idle
  queue only if the EDUs do not exceed the limit, and is
  destroyed if they do.
-/
def ReturnsRight
    (maxPool : UInt32)
    (m : EduMgr)
    (id : Nat) : Prop :=
  ∀ m', m.run maxPool (.returnEDU id false) = .ok m' →
    (id ∈ m'.idleQueue → m.count ≤ maxPool.toNat) ∧
    (maxPool.toNat < m.count → ¬ m'.Registered id)

/- No agent is returned in an overfull manager. -/
def WithinPool
    (maxPool : UInt32)
    (m : EduMgr)
    (call : EduCall) : Prop :=
  ∀ id, call = .returnEDU id false → m.IsAgent id →
    ¬ Overfull maxPool m

------------------------------------------------------------
-- The Test of returnEDU
------------------------------------------------------------

/- What is pooled: an agent, in a live and filled manager. -/
theorem pools_iff
    {m : EduMgr}
    {maxPool : UInt32}
    {id : Nat}
    {force : Bool} :
    m.Pools maxPool id force ↔
      m.IsAgent id ∧ force = false ∧ m.isDestroyed = false ∧
        maxPool ≤ m.size := by
  unfold Pools IsAgent destroys isPoolable
  constructor
  · rintro ⟨p, c, hFind, hC, hKeeps⟩
    simp only [Bool.or_eq_false_iff, Bool.not_eq_false',
      decide_eq_true_eq, decide_eq_false_iff_not,
      UInt32.not_lt] at hKeeps
    rcases hKeeps with ⟨⟨⟨hType, hForce⟩, hLive⟩, hSize⟩
    exact ⟨⟨p, c, hFind, hC, hType⟩, hForce, hLive, hSize⟩
  · rintro ⟨⟨p, c, hFind, hC, hType⟩, hForce, hLive, hSize⟩
    refine ⟨p, c, hFind, hC, ?_⟩
    simp only [Bool.or_eq_false_iff, Bool.not_eq_false',
      decide_eq_true_eq, decide_eq_false_iff_not,
      UInt32.not_lt]
    exact ⟨⟨⟨hType, hForce⟩, hLive⟩, hSize⟩

theorem IsAgent.registered
    {m : EduMgr}
    {id : Nat}
    (hAgent : m.IsAgent id) :
    m.Registered id := by
  rcases hAgent with ⟨p, c, hFind, _⟩
  exact (registered_iff m id).2 ⟨p, holds_of_find hFind⟩

/-
  Exactly in an overfull manager an agent is returned the
  wrong way.
-/
theorem returnsRight_iff
    {m : EduMgr}
    {maxPool : UInt32}
    {id : Nat}
    (hReg : Registry m)
    (hAgent : m.IsAgent id) :
    ReturnsRight maxPool m id ↔ ¬ Overfull maxPool m := by
  constructor
  · rintro hRight ⟨hLive, hSize, hMore⟩
    have hPools : m.Pools maxPool id false :=
      pools_iff.2 ⟨hAgent, rfl, hLive, hSize⟩
    rcases run_returns hReg maxPool (.returnEDU id false) with
      ⟨m', hRun⟩
    have hOut := (hRight m' hRun).2 hMore
    rcases map_ok hRun with ⟨⟨rc, out, n⟩, hCall, rfl⟩
    rcases returnEDU_cases hCall with
      ⟨hNone, _⟩ | ⟨_, hNot, _⟩ | ⟨_, _, hDeactive⟩
    · exact hNone hAgent.registered
    · exact hNot hPools
    · exact hOut (Or.inr
        (deactiveEDU_idle hAgent.registered hDeactive))
  · intro hNot m' hRun
    rcases map_ok hRun with ⟨⟨rc, out, n⟩, hCall, rfl⟩
    by_cases hPools : m.Pools maxPool id false
    · rcases pools_iff.1 hPools with ⟨_, _, hLive, hSize⟩
      have hWithin : m.count ≤ maxPool.toNat := by
        by_contra hMore
        exact hNot ⟨hLive, hSize, Nat.lt_of_not_le hMore⟩
      exact ⟨fun _ => hWithin, fun hMore => by omega⟩
    · have hOut := hReg.returnEDU_out hPools hCall
      exact ⟨fun hIdle => absurd (Or.inr hIdle) hOut,
        fun _ => hOut⟩

------------------------------------------------------------
-- The Bound
------------------------------------------------------------

theorem size_pos_of_entry
    {q : EduMap Nat}
    {id p : Nat}
    (hIn : q[id]? = some p) :
    1 ≤ q.size := by
  have hEmpty : q.isEmpty = false :=
    Std.TreeMap.isEmpty_eq_false_iff_exists_mem.2
      ⟨id, mem_iff_entry.2 ⟨p, hIn⟩⟩
  rw [Std.TreeMap.isEmpty_eq_size_eq_zero] at hEmpty
  have hNe : q.size ≠ 0 := by simpa using hEmpty
  omega

/- Only an agent that is pooled makes the idle queue grow. -/
theorem idle_move
    {k : MoveKind}
    {m m' : EduMgr}
    (hMove : Move m k m') :
    m'.idleQueue.size ≤ m.idleQueue.size ∨
      ((∃ id, k = .pooled id) ∧
        m'.idleQueue.size ≤ m.count) := by
  cases hMove with
  | pooled id p hIn =>
      right
      have hRun := size_pos_of_entry hIn
      have hGrow : (m.poolRun id p).idleQueue.size ≤
          m.idleQueue.size + 1 := Std.TreeMap.size_insert_le
      refine ⟨⟨id, rfl⟩, ?_⟩
      unfold count
      omega
  | taken id p hIn =>
      exact Or.inl Std.TreeMap.size_erase_le
  | leftIdle id p hOut hIn =>
      exact Or.inl Std.TreeMap.size_erase_le
  | _ => exact Or.inl (Nat.le_refl _)

theorem idle_step
    {maxPool : UInt32}
    {m m' : EduMgr}
    {call : EduCall}
    (hBound : m.idleQueue.size ≤ maxPool.toNat)
    (hStep :
      Guarded (WithinPool maxPool) (Step maxPool) m call m') :
    m'.idleQueue.size ≤ maxPool.toNat := by
  rcases hStep with ⟨hWithin, hStep⟩
  rcases step_effect hStep with
    ⟨k, n, hKind, hMove, hTended⟩
  rw [hTended.idle]
  rcases idle_move hMove with hShrunk | ⟨⟨id, rfl⟩, hCount⟩
  · omega
  · rcases pooled_by_return hKind with ⟨force, rfl, hPools⟩
    rcases pools_iff.1 hPools with
      ⟨hAgent, rfl, hLive, hSize⟩
    have hNot := hWithin id rfl hAgent
    by_contra hOver
    exact hNot ⟨hLive, hSize, by omega⟩

/-
  In runs without a return to an overfull manager the idle
  queue keeps within the limit, and in each state of such a
  run the return of an agent is right exactly if the manager
  is not overfull then.
-/
theorem idle_bounded
    {maxPool : UInt32}
    {calls : List EduCall}
    {m : EduMgr}
    (hRun :
      Steps (Guarded (WithinPool maxPool) (Step maxPool)) {}
        calls m) :
    m.idleQueue.size ≤ maxPool.toNat ∧
      ∀ id, m.IsAgent id →
        (ReturnsRight maxPool m id ↔ ¬ Overfull maxPool m) := by
  have hAll : Steps (Step maxPool) {} calls m :=
    hRun.mono (fun _ _ _ hStep => hStep.2)
  have hReg : Registry m := Registry.init.steps hAll
  constructor
  · exact hRun.invariant
      (I := fun n => n.idleQueue.size ≤ maxPool.toNat)
      (fun _ _ _ hBound hStep => idle_step hBound hStep)
      (Nat.zero_le _)
  · intro id hAgent
    exact returnsRight_iff hReg hAgent

/- One agent is returned to a pool of one. -/
theorem idle_bounded_onePooled :
    ∃ m : EduMgr, m.idleQueue[1]? = some 100 ∧
      m.idleQueue.size ≤ 1 := by
  have hRun : ∃ m,
      Steps (Guarded (WithinPool 1) (Step 1)) {}
        [.startEDU .agent 7 (.started 100), .returnEDU 1 false]
        m ∧ m.idleQueue[1]? = some 100 := by
    refine ⟨_, .cons ⟨?_, ⟨?_, ?_⟩, rfl⟩
      (.cons ⟨?_, trivial, rfl⟩ (.nil _)), rfl⟩
    · intro id hCall
      cases hCall
    · simp [NewEdu.block]
    · simp
    · rintro id _ _ ⟨_, _, hMore⟩
      revert hMore
      decide +kernel
  rcases hRun with ⟨m, hSteps, hIdle⟩
  exact ⟨m, hIdle, (idle_bounded hSteps).1⟩

/- With a pool of no EDU, the one agent is pooled. -/
theorem idle_not_bounded :
    ¬ ∀ (maxPool : UInt32) (calls : List EduCall) (m : EduMgr),
      Steps (Step maxPool) {} calls m →
        m.idleQueue.size ≤ maxPool.toNat := by
  intro hBounded
  have hRun : ∃ m,
      Steps (Step 0) {}
        [.startEDU .agent 7 (.started 100), .returnEDU 1 false]
        m ∧ m.idleQueue.size = 1 := by
    refine ⟨_, .cons ⟨⟨?_, ?_⟩, rfl⟩
      (.cons ⟨trivial, rfl⟩ (.nil _)), ?_⟩
    · simp [NewEdu.block]
    · simp
    · decide +kernel
  rcases hRun with ⟨m, hSteps, hSize⟩
  have hZero := hBounded 0 _ m hSteps
  rw [hSize] at hZero
  revert hZero
  decide

end EduMgr

end EmeraldDb
