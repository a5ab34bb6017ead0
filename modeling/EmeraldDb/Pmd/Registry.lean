import EmeraldDb.Pmd.EduCalls

/-
  What holds of the two queues after any calls.

  An id is in one queue at most, was handed out by the
  counter and is the id of its own block, which is allocated
  and not of a destroyed EDU.  An id that was handed out and
  is in no queue stays out of both.

  Key definitions include:
    * `EduMgr.Issued`
    * `EduMgr.Registry`

  Key results include:
    * `EduMgr.Registry.move`
    * `EduMgr.Registry.steps`
    * `EduMgr.run_returns`
    * `EduMgr.registry_exact`
-/

namespace EmeraldDb

namespace EduMgr

/-
  The ids below this one have been handed out.  The counter
  is 0 when it has handed out the last id of its range.
-/
def bound (m : EduMgr) : Nat :=
  if m.eduID = 0 then eduidRange else m.eduID

def Issued
    (m : EduMgr)
    (id : Nat) : Prop :=
  1 ≤ id ∧ id < m.bound

theorem issued_of_next
    {m m' : EduMgr}
    (hNext : m'.eduID = m.eduID)
    (id : Nat) :
    m'.Issued id ↔ m.Issued id := by
  unfold Issued bound
  rw [hNext]

------------------------------------------------------------
-- The Invariant
------------------------------------------------------------

structure Registry (m : EduMgr) : Prop where
  counter : m.eduID < eduidRange
  disjoint : ∀ id, id ∈ m.runQueue → id ∉ m.idleQueue
  issued : ∀ id, m.Registered id → m.Issued id
  own : ∀ id p, m.Holds id p →
    ∃ c, m.blocks[p]? = some c ∧ c.id = id ∧
      c.status ≠ .destroy

namespace Registry

variable {m m' : EduMgr}

theorem init : Registry {} where
  counter := by decide
  disjoint := by simp
  issued := by simp [Registered]
  own := by simp [Holds]

/- A block is registered under its own id only. -/
theorem holds_inj
    (hReg : Registry m)
    {id id' p : Nat}
    (hHolds : m.Holds id p)
    (hHolds' : m.Holds id' p) :
    id = id' := by
  rcases hReg.own id p hHolds with ⟨c, hC, hId, _⟩
  rcases hReg.own id' p hHolds' with ⟨c', hC', hId', _⟩
  obtain rfl : c = c' := by simpa [hC] using hC'
  exact hId.symm.trans hId'

/- The next id is in no queue. -/
theorem next_free
    (hReg : Registry m)
    (hCount : m.eduID ≠ 0) :
    ¬ m.Registered m.eduID := by
  intro hIn
  have hBelow := (hReg.issued _ hIn).2
  simp [bound, hCount] at hBelow

/- A registered block is not one that gets allocated. -/
theorem block_ne
    (hReg : Registry m)
    {id p q : Nat}
    (hFresh : q ∉ m.blocks)
    (hHolds : m.Holds id p) :
    q ≠ p := by
  rcases hReg.own id p hHolds with ⟨c, hC, _, _⟩
  rintro rfl
  grind

theorem tended
    (hReg : Registry m)
    (hTended : Tended m m') :
    Registry m' where
  counter := by
    rw [hTended.next]
    exact hReg.counter
  disjoint := by
    rw [hTended.run, hTended.idle]
    exact hReg.disjoint
  issued := by
    intro id hIn
    exact (issued_of_next hTended.next id).2
      (hReg.issued id ((hTended.registered id).1 hIn))
  own := by
    intro id p hHolds
    rcases hReg.own id p ((hTended.holds id p).1 hHolds) with
      ⟨c, hC, hId, hStatus⟩
    rcases hTended.blocks p c hC with ⟨c', hC', hId', hStatus'⟩
    exact ⟨c', hC', hId'.trans hId,
      fun hEnd => hStatus (hStatus' hEnd)⟩

end Registry

/- The counter after it has handed out an id. -/
theorem bound_next
    {n : Nat}
    (hRange : n < eduidRange) :
    (if (n + 1) % eduidRange = 0 then eduidRange
      else (n + 1) % eduidRange) = n + 1 := by
  unfold eduidRange at hRange ⊢
  split <;> omega

/- The next id goes to the run queue with the block `c`. -/
def enterEDU
    (m : EduMgr)
    (p : Nat)
    (c : EduCB) : EduMgr :=
  { m with
    runQueue := m.runQueue.insert m.eduID p
    eduID := (m.eduID + 1) % eduidRange
    blocks := m.blocks.insert p c }

theorem addEDU_eq
    (m : EduMgr)
    (type : EduType)
    (p : Nat) :
    m.addEDU type p =
      m.enterEDU p (EduCB.created type m.eduID) := rfl

theorem issued_enterEDU
    {m : EduMgr}
    {p id : Nat}
    {c : EduCB}
    (hReg : Registry m)
    (hCount : m.eduID ≠ 0) :
    (m.enterEDU p c).Issued id ↔
      m.Issued id ∨ id = m.eduID := by
  have hBound : (m.enterEDU p c).bound = m.eduID + 1 :=
    bound_next hReg.counter
  have hOld : m.bound = m.eduID := by simp [bound, hCount]
  unfold Issued
  rw [hBound, hOld]
  omega

namespace Registry

variable {m m' : EduMgr}

/-
  Every entry is an old one whose block is as it was, and
  the queues are still disjoint.
-/
theorem of_holds
    (hReg : Registry m)
    (hNext : m'.eduID = m.eduID)
    (hDisjoint : ∀ id, id ∈ m'.runQueue → id ∉ m'.idleQueue)
    (hHolds : ∀ id p, m'.Holds id p →
      m.Holds id p ∧ m'.blocks[p]? = m.blocks[p]?) :
    Registry m' where
  counter := by
    rw [hNext]
    exact hReg.counter
  disjoint := hDisjoint
  issued := by
    intro id hIn
    rcases (registered_iff m' id).1 hIn with ⟨p, hP⟩
    exact (issued_of_next hNext id).2 (hReg.issued id
      ((registered_iff m id).2 ⟨p, (hHolds id p hP).1⟩))
  own := by
    intro id p hP
    rcases hHolds id p hP with ⟨hOld, hSame⟩
    rw [hSame]
    exact hReg.own id p hOld

/- Moving an entry between the queues. -/
theorem takeIdle
    (hReg : Registry m)
    {id p : Nat}
    (hIn : m.idleQueue[id]? = some p) :
    Registry (m.takeIdle id p) := by
  have hDisjoint := hReg.disjoint
  refine hReg.of_holds ?_ ?_ ?_
  · rfl
  · unfold EduMgr.takeIdle
    grind
  · unfold EduMgr.takeIdle Holds
    grind

theorem poolRun
    (hReg : Registry m)
    {id p : Nat}
    (hIn : m.runQueue[id]? = some p) :
    Registry (m.poolRun id p) := by
  have hDisjoint := hReg.disjoint
  refine hReg.of_holds ?_ ?_ ?_
  · rfl
  · unfold EduMgr.poolRun
    grind
  · unfold EduMgr.poolRun Holds
    grind

/- An EDU that leaves the run queue with its block. -/
theorem dropEDU
    (hReg : Registry m)
    {id p : Nat}
    (hIn : m.runQueue[id]? = some p) :
    Registry (m.dropEDU id p) := by
  have hDisjoint := hReg.disjoint
  have hOnly : ∀ j, m.Holds j p → j = id :=
    fun j hJ => hReg.holds_inj hJ (Or.inl hIn)
  have hOut : id ∉ m.idleQueue :=
    hDisjoint id (mem_iff_entry.2 ⟨p, hIn⟩)
  refine hReg.of_holds ?_ ?_ ?_
  · rfl
  · unfold EduMgr.dropEDU
    grind
  · unfold EduMgr.dropEDU Holds at *
    grind

theorem dropIdle
    (hReg : Registry m)
    {id p : Nat}
    (hOut : id ∉ m.runQueue)
    (hIn : m.idleQueue[id]? = some p) :
    Registry (m.dropIdle id p) := by
  have hDisjoint := hReg.disjoint
  have hOnly : ∀ j, m.Holds j p → j = id :=
    fun j hJ => hReg.holds_inj hJ (Or.inr hIn)
  refine hReg.of_holds ?_ ?_ ?_
  · rfl
  · unfold EduMgr.dropIdle
    grind
  · unfold EduMgr.dropIdle Holds at *
    grind

/- A new EDU has an id of its own and a block of its own. -/
theorem enterEDU
    (hReg : Registry m)
    {p : Nat}
    {c : EduCB}
    (hFree : ∀ id, ¬ m.Holds id p)
    (hCount : m.eduID ≠ 0)
    (hId : c.id = m.eduID)
    (hStatus : c.status ≠ .destroy) :
    Registry (m.enterEDU p c) := by
  have hNext := hReg.next_free hCount
  have hHolds : ∀ j q, (m.enterEDU p c).Holds j q →
      m.Holds j q ∨ (j = m.eduID ∧ q = p) := by
    unfold EduMgr.enterEDU Holds
    grind
  refine ⟨Nat.mod_lt _ (by decide), ?_, ?_, ?_⟩
  · have hDisjoint := hReg.disjoint
    unfold Registered at hNext
    unfold EduMgr.enterEDU
    grind
  · intro j hJ
    rw [issued_enterEDU hReg hCount]
    rcases (registered_iff _ j).1 hJ with ⟨q, hQ⟩
    rcases hHolds j q hQ with hOld | ⟨hNew, _⟩
    · exact Or.inl (hReg.issued j
        ((registered_iff m j).2 ⟨q, hOld⟩))
    · exact Or.inr hNew
  · intro j q hQ
    rcases hHolds j q hQ with hOld | ⟨rfl, rfl⟩
    · rcases hReg.own j q hOld with ⟨d, hD, hOwn⟩
      have hNe : p ≠ q := by
        rintro rfl
        exact hFree j hOld
      refine ⟨d, ?_, hOwn⟩
      unfold EduMgr.enterEDU
      grind
    · exact ⟨c, by simp [EduMgr.enterEDU], hId, hStatus⟩

theorem addEDU
    (hReg : Registry m)
    {type : EduType}
    {p : Nat}
    (hFresh : p ∉ m.blocks)
    (hCount : m.eduID ≠ 0) :
    Registry (m.addEDU type p) := by
  rw [addEDU_eq]
  refine hReg.enterEDU ?_ hCount rfl ?_
  · intro id hHolds
    exact hReg.block_ne hFresh hHolds rfl
  · simp [EduCB.created]

/- The entry of a thread that was not created is dropped. -/
theorem refused
    (hReg : Registry m)
    {type : EduType}
    {p : Nat}
    (hFresh : p ∉ m.blocks)
    (hCount : m.eduID ≠ 0) :
    Registry ((m.addEDU type p).dropEDU m.eduID p) :=
  (hReg.addEDU hFresh hCount).dropEDU
    (by simp [EduMgr.addEDU])

theorem move
    {k : MoveKind}
    (hReg : Registry m)
    (hMove : Move m k m') :
    Registry m' := by
  cases hMove with
  | kept => exact hReg
  | taken id p hIn => exact hReg.takeIdle hIn
  | pooled id p hIn => exact hReg.poolRun hIn
  | added type p hFresh hCount =>
      exact hReg.addEDU hFresh hCount
  | refused type p hFresh hCount =>
      exact hReg.refused hFresh hCount
  | leftRun id p hIn => exact hReg.dropEDU hIn
  | leftIdle id p hOut hIn => exact hReg.dropIdle hOut hIn

theorem effect
    {K : MoveKind → Prop}
    (hReg : Registry m)
    (hEffect : Effect K m m') :
    Registry m' := by
  rcases hEffect with ⟨k, n, _, hMove, hTended⟩
  exact (hReg.move hMove).tended hTended

theorem step
    {maxPool : UInt32}
    {call : EduCall}
    (hReg : Registry m)
    (hStep : Step maxPool m call m') :
    Registry m' :=
  hReg.effect (step_effect hStep)

theorem steps
    {maxPool : UInt32}
    {calls : List EduCall}
    (hReg : Registry m)
    (hRun : Steps (Step maxPool) m calls m') :
    Registry m' :=
  hRun.invariant (fun _ _ _ hOld hStep => hOld.step hStep) hReg

end Registry

------------------------------------------------------------
-- Ids That Are Gone
------------------------------------------------------------

/- The move registers the next id. -/
def Adds (m : EduMgr) (k : MoveKind) (id : Nat) : Prop :=
  id = m.eduID ∧ ∃ type p, k = .added type p

/- Only an id that is handed out now enters the queues. -/
theorem registered_of_move
    {k : MoveKind}
    {m m' : EduMgr}
    {id : Nat}
    (hMove : Move m k m')
    (hIn : m'.Registered id) :
    m.Registered id ∨ (m.eduID ≠ 0 ∧ m.Adds k id) := by
  unfold Registered at hIn ⊢
  cases hMove with
  | kept => exact Or.inl hIn
  | taken j p hJ =>
      unfold takeIdle at hIn
      grind
  | pooled j p hJ =>
      unfold poolRun at hIn
      grind
  | added type p hFresh hCount =>
      by_cases hNew : id = m.eduID
      · exact Or.inr ⟨hCount, hNew, type, p, rfl⟩
      · unfold addEDU at hIn
        grind
  | refused type p hFresh hCount =>
      unfold addEDU dropEDU at hIn
      grind
  | leftRun j p hJ =>
      unfold dropEDU at hIn
      grind
  | leftIdle j p hOut hJ =>
      unfold dropIdle at hIn
      grind

/- The entry of an EDU that does not leave points as before. -/
theorem holds_of_move
    {k : MoveKind}
    {m m' : EduMgr}
    {id p : Nat}
    (hReg : Registry m)
    (hMove : Move m k m')
    (hStays : k ≠ .left id)
    (hHolds : m.Holds id p) :
    m'.Holds id p := by
  have hIn := (registered_iff m id).2 ⟨p, hHolds⟩
  unfold Holds at hHolds ⊢
  cases hMove with
  | kept => exact hHolds
  | taken j q hJ =>
      have hDisjoint := hReg.disjoint j
      unfold takeIdle
      grind
  | pooled j q hJ =>
      have hDisjoint := hReg.disjoint j
      unfold poolRun
      grind
  | added type q hFresh hCount =>
      have hFree := hReg.next_free hCount
      unfold addEDU
      grind
  | refused type q hFresh hCount =>
      have hFree := hReg.next_free hCount
      unfold addEDU dropEDU
      grind
  | leftRun j q hJ =>
      unfold dropEDU
      grind
  | leftIdle j q hOut hJ =>
      unfold dropIdle
      grind

/- An EDU that works goes on unless it is returned. -/
theorem run_of_move
    {k : MoveKind}
    {m m' : EduMgr}
    {id p : Nat}
    (hReg : Registry m)
    (hMove : Move m k m')
    (hStays : k ≠ .left id ∧ k ≠ .pooled id)
    (hRun : m.runQueue[id]? = some p) :
    m'.runQueue[id]? = some p := by
  have hHolds : m.Holds id p := Or.inl hRun
  have hIn : id ∈ m.runQueue := mem_iff_entry.2 ⟨p, hRun⟩
  have hBusy := hReg.disjoint id hIn
  cases hMove with
  | kept => exact hRun
  | taken j q hJ =>
      unfold takeIdle
      grind
  | pooled j q hJ =>
      unfold poolRun
      grind
  | added type q hFresh hCount =>
      have hFree := hReg.next_free hCount
      unfold Registered at hFree
      unfold addEDU
      grind
  | refused type q hFresh hCount =>
      have hFree := hReg.next_free hCount
      unfold Registered at hFree
      unfold addEDU dropEDU
      grind
  | leftRun j q hJ =>
      unfold dropEDU
      grind
  | leftIdle j q hOut hJ => exact hRun

/- The move hands out an id. -/
def MoveKind.IsNew : MoveKind → Prop
| .added _ _ => True
| .refused => True
| _ => False

theorem holds_before_move
    {k : MoveKind}
    {m m' : EduMgr}
    {id p : Nat}
    (hMove : Move m k m')
    (hOld : ¬ k.IsNew)
    (hHolds : m'.Holds id p) :
    m.Holds id p := by
  unfold Holds at hHolds ⊢
  cases hMove with
  | kept => exact hHolds
  | taken j q hJ =>
      unfold takeIdle at hHolds
      grind
  | pooled j q hJ =>
      unfold poolRun at hHolds
      grind
  | added type q hFresh hCount => exact absurd trivial hOld
  | refused type q hFresh hCount => exact absurd trivial hOld
  | leftRun j q hJ =>
      unfold dropEDU at hHolds
      grind
  | leftIdle j q hOut hJ =>
      unfold dropIdle at hHolds
      grind

/- A block without an entry is as before. -/
theorem block_of_move
    {k : MoveKind}
    {m m' : EduMgr}
    {p : Nat}
    (hMove : Move m k m')
    (hOld : ¬ k.IsNew)
    (hFree : ∀ id, ¬ m.Holds id p) :
    m'.blocks[p]? = m.blocks[p]? := by
  unfold Holds at hFree
  cases hMove with
  | added type q hFresh hCount => exact absurd trivial hOld
  | refused type q hFresh hCount => exact absurd trivial hOld
  | leftRun j q hJ =>
      unfold dropEDU
      grind
  | leftIdle j q hOut hJ =>
      unfold dropIdle
      grind
  | _ => rfl

theorem issued_of_move
    {k : MoveKind}
    {m m' : EduMgr}
    {id : Nat}
    (hReg : Registry m)
    (hMove : Move m k m')
    (hIssued : m.Issued id) :
    m'.Issued id := by
  cases hMove with
  | added type p hFresh hCount =>
      rw [addEDU_eq, issued_enterEDU hReg hCount]
      exact Or.inl hIssued
  | refused type p hFresh hCount =>
      have hAdded : (m.addEDU type p).Issued id := by
        rw [addEDU_eq, issued_enterEDU hReg hCount]
        exact Or.inl hIssued
      exact hAdded
  | _ => exact hIssued

/- An id that was handed out and is in no queue. -/
def Gone
    (m : EduMgr)
    (id : Nat) : Prop :=
  m.Issued id ∧ ¬ m.Registered id

theorem Gone.effect
    {K : MoveKind → Prop}
    {m m' : EduMgr}
    {id : Nat}
    (hReg : Registry m)
    (hGone : m.Gone id)
    (hEffect : Effect K m m') :
    m'.Gone id := by
  rcases hEffect with ⟨k, n, _, hMove, hTended⟩
  have hIssued := issued_of_move hReg hMove hGone.1
  constructor
  · exact (issued_of_next hTended.next id).2 hIssued
  · intro hIn
    have hBefore := (hTended.registered id).1 hIn
    rcases registered_of_move hMove hBefore with
      hOld | ⟨hCount, rfl, _⟩
    · exact hGone.2 hOld
    · have hBelow := hGone.1.2
      simp [bound, hCount] at hBelow

theorem Gone.steps
    {maxPool : UInt32}
    {m m' : EduMgr}
    {calls : List EduCall}
    {id : Nat}
    (hReg : Registry m)
    (hGone : m.Gone id)
    (hRun : Steps (Step maxPool) m calls m') :
    m'.Gone id := by
  have hBoth : Registry m' ∧ m'.Gone id := by
    refine hRun.invariant
      (I := fun n => Registry n ∧ n.Gone id) ?_ ⟨hReg, hGone⟩
    rintro n call n' ⟨hOld, hOut⟩ hStep
    exact ⟨hOld.step hStep,
      hOut.effect hOld (step_effect hStep)⟩
  exact hBoth.2

------------------------------------------------------------
-- Every Call Returns
------------------------------------------------------------

/- A block that is there can be written. -/
theorem write_returns
    {m : EduMgr}
    {p : Nat}
    (hBlock : ∃ c, m.blocks[p]? = some c)
    (f : EduCB → EduCB) :
    ∃ m', m.write p f = .ok m' := by
  rcases hBlock with ⟨c, hC⟩
  exact ⟨_, write_of_block f hC⟩

/- The entries of the queues point to blocks. -/
theorem Registry.block
    {m : EduMgr}
    {id p : Nat}
    (hReg : Registry m)
    (hHolds : m.Holds id p) :
    ∃ c, m.blocks[p]? = some c := by
  rcases hReg.own id p hHolds with ⟨c, hC, _⟩
  exact ⟨c, hC⟩

theorem forceAll_returns
    {property : Nat}
    {entries : List (Nat × Nat)}
    {m : EduMgr}
    (hReg : Registry m)
    (hHeld : ∀ e ∈ entries, m.Holds e.1 e.2) :
    ∃ m', entries.foldlM (forceEDU property) m = .ok m' := by
  induction entries generalizing m with
  | nil => exact ⟨m, rfl⟩
  | cons e rest ih =>
      rw [List.foldlM_cons]
      apply bind_returns
      · unfold forceEDU
        split
        · exact write_returns
            (hReg.block (hHeld e List.mem_cons_self)) _
        · exact ⟨m, rfl⟩
      · intro n hForce
        have hTended := forceEDU_tended hForce
        apply ih (hReg.tended hTended)
        intro e' hIn
        exact (hTended.holds _ _).2
          (hHeld e' (List.mem_cons_of_mem e hIn))

section Returns

variable {m : EduMgr}

theorem startEDU_returns
    (hReg : Registry m)
    (type : EduType)
    (arg : Nat)
    (new : NewEdu) :
    ∃ r, m.startEDU type arg new = .ok r := by
  unfold startEDU
  split
  · exact ⟨_, rfl⟩
  · split
    · unfold createNewEDU
      split
      · exact ⟨_, rfl⟩
      · cases new with
        | oom => exact ⟨_, rfl⟩
        | noThread p => exact ⟨_, rfl⟩
        | started p =>
            apply bind_returns
            · exact write_returns
                ⟨EduCB.created type m.eduID, by simp [addEDU]⟩ _
            · exact fun n _ => ⟨_, rfl⟩
    · rename_i hReuse
      cases hFirst : m.firstIdle with
      | none =>
          have hEmpty := isEmpty_of_firstIdle hFirst
          exact absurd (Or.inl hEmpty) hReuse
      | some e =>
          have hBlock := hReg.block (Or.inr (firstIdle_some hFirst))
          apply bind_returns
          · exact @write_returns (m.takeIdle e.1 e.2) _ hBlock _
          · intro n hTaken
            rcases write_ok hTaken with ⟨c, _, rfl⟩
            apply bind_returns
            · exact write_returns ⟨_, by simp; rfl⟩ _
            · exact fun n _ => ⟨_, rfl⟩

theorem activateEDU_returns
    (hReg : Registry m)
    (eduID : Nat) :
    ∃ r, m.activateEDU eduID = .ok r := by
  unfold activateEDU
  cases hIdle : m.idleQueue[eduID]? with
  | some p =>
      have hBlock := hReg.block (Or.inr hIdle)
      apply bind_returns
      · exact @write_returns (m.takeIdle eduID p) _ hBlock _
      · exact fun n _ => ⟨_, rfl⟩
  | none =>
      cases hRun : m.runQueue[eduID]? with
      | none => exact ⟨_, rfl⟩
      | some p =>
          apply bind_returns
          · exact write_returns (hReg.block (Or.inl hRun)) _
          · exact fun n _ => ⟨_, rfl⟩

theorem waitEDU_returns
    (hReg : Registry m)
    (id : Nat) :
    ∃ r, m.waitEDU id = .ok r := by
  unfold waitEDU
  cases hRun : m.runQueue[id]? with
  | none => exact ⟨_, rfl⟩
  | some p =>
      rcases hReg.block (Or.inl hRun) with ⟨c, hC⟩
      apply bind_returns
      · exact ⟨c, cb_of_block hC⟩
      · intro c' _
        split
        · exact ⟨_, rfl⟩
        · split
          · exact ⟨_, rfl⟩
          · apply bind_returns
            · exact write_returns ⟨c, hC⟩ _
            · exact fun n _ => ⟨_, rfl⟩

theorem destoryEDU_returns
    (hReg : Registry m)
    (eduID : Nat) :
    ∃ r, m.destoryEDU eduID = .ok r := by
  unfold destoryEDU
  cases hRun : m.runQueue[eduID]? with
  | some p =>
      apply bind_returns
      · exact write_returns (hReg.block (Or.inl hRun)) _
      · exact fun n _ => ⟨_, rfl⟩
  | none =>
      cases hIdle : m.idleQueue[eduID]? with
      | none => exact ⟨_, rfl⟩
      | some p =>
          apply bind_returns
          · exact write_returns (hReg.block (Or.inr hIdle)) _
          · exact fun n _ => ⟨_, rfl⟩

theorem deactiveEDU_returns
    (hReg : Registry m)
    (eduID : Nat) :
    ∃ r, m.deactiveEDU eduID = .ok r := by
  unfold deactiveEDU
  cases hRun : m.runQueue[eduID]? with
  | some p =>
      apply bind_returns
      · exact write_returns (hReg.block (Or.inl hRun)) _
      · exact fun n _ => ⟨_, rfl⟩
  | none =>
      cases hIdle : m.idleQueue[eduID]? with
      | none => exact ⟨_, rfl⟩
      | some p =>
          apply bind_returns
          · exact write_returns (hReg.block (Or.inr hIdle)) _
          · exact fun n _ => ⟨_, rfl⟩

theorem returnEDU_returns
    (hReg : Registry m)
    (maxPool : UInt32)
    (eduID : Nat)
    (force destroyed : Bool) :
    ∃ r, m.returnEDU maxPool eduID force (some destroyed) =
      .ok r := by
  unfold returnEDU
  cases hFind : m.find eduID with
  | none => exact ⟨_, rfl⟩
  | some p =>
      rcases hReg.block (holds_of_find hFind) with ⟨c, hC⟩
      apply bind_returns
      · exact ⟨c, cb_of_block hC⟩
      · intro c' _
        split
        · exact bind_returns (destoryEDU_returns hReg eduID)
            (fun r _ => ⟨_, rfl⟩)
        · exact bind_returns (deactiveEDU_returns hReg eduID)
            (fun r _ => ⟨_, rfl⟩)

theorem postEDUPost_returns
    (hReg : Registry m)
    (eduID : Nat)
    (type : EduEventType)
    (release : Bool)
    (data : Nat) :
    ∃ r, m.postEDUPost eduID type release data = .ok r := by
  unfold postEDUPost
  cases hFind : m.find eduID with
  | none => exact ⟨_, rfl⟩
  | some p =>
      apply bind_returns
      · exact write_returns (hReg.block (holds_of_find hFind)) _
      · exact fun n _ => ⟨_, rfl⟩

theorem forceEDUs_returns
    (hReg : Registry m)
    (property : Nat) :
    ∃ r, m.forceEDUs property = .ok r := by
  unfold forceEDUs
  have hRun : ∀ e ∈ m.runQueue.toList, m.Holds e.1 e.2 :=
    fun e hIn => Or.inl
      (Std.TreeMap.mem_toList_iff_getElem?_eq_some.1 hIn)
  apply bind_returns (forceAll_returns hReg hRun)
  intro n hFirst
  have hIdle : ∀ e ∈ n.idleQueue.toList, n.Holds e.1 e.2 :=
    fun e hIn => Or.inr
      (Std.TreeMap.mem_toList_iff_getElem?_eq_some.1 hIn)
  apply bind_returns (forceAll_returns
    (hReg.tended (forceAll_tended hFirst)) hIdle)
  exact fun n' _ => ⟨_, rfl⟩

/- No call reads or writes a block that has been freed. -/
theorem run_returns
    (hReg : Registry m)
    (maxPool : UInt32)
    (call : EduCall) :
    ∃ m', m.run maxPool call = .ok m' := by
  have hMap : ∀ {α : Type} {x : Except Fault α}
      (f : α → EduMgr),
      (∃ r, x = .ok r) → ∃ m', x.map f = .ok m' := by
    rintro α x f ⟨r, rfl⟩
    exact ⟨f r, rfl⟩
  cases call with
  | startEDU type arg new =>
      exact hMap _ (startEDU_returns hReg type arg new)
  | activateEDU eduID => exact hMap _ (activateEDU_returns hReg eduID)
  | waitEDU id => exact hMap _ (waitEDU_returns hReg id)
  | returnEDU eduID force =>
      exact hMap _ (returnEDU_returns hReg maxPool eduID force false)
  | postEDUPost eduID type release data =>
      exact hMap _
        (postEDUPost_returns hReg eduID type release data)
  | forceEDUs property =>
      exact hMap _ (forceEDUs_returns hReg property)
  | setDestroyed => exact ⟨_, rfl⟩

end Returns

------------------------------------------------------------
-- Destroyed EDUs
------------------------------------------------------------

theorem Registry.out_of_left
    {m n : EduMgr}
    {id : Nat}
    (hReg : Registry m)
    (hMove : Move m (.left id) n) :
    ¬ n.Registered id := by
  have hDisjoint := hReg.disjoint id
  unfold Registered
  cases hMove with
  | leftRun _ p hIn =>
      have hOut := hDisjoint (mem_iff_entry.2 ⟨p, hIn⟩)
      unfold EduMgr.dropEDU
      grind
  | leftIdle _ p hOut hIn =>
      unfold EduMgr.dropIdle
      grind

/- The id of an EDU that is destroyed is in no queue. -/
theorem Registry.destoryEDU_out
    {m m' : EduMgr}
    {eduID : Nat}
    {rc : Int}
    (hReg : Registry m)
    (hCall : m.destoryEDU eduID = .ok (rc, m')) :
    ¬ m'.Registered eduID := by
  rcases destoryEDU_cases hCall with
    ⟨hOut, _, rfl⟩ | ⟨_, _, n, hMove, hTended⟩
  · exact hOut
  · rw [hTended.registered]
    exact hReg.out_of_left hMove

theorem Registry.returnEDU_out
    {maxPool : UInt32}
    {m m' : EduMgr}
    {eduID : Nat}
    {force : Bool}
    {destroyed out : Option Bool}
    {rc : Int}
    (hReg : Registry m)
    (hPools : ¬ m.Pools maxPool eduID force)
    (hCall : m.returnEDU maxPool eduID force destroyed =
      .ok (rc, out, m')) :
    ¬ m'.Registered eduID := by
  rcases returnEDU_cases hCall with
    ⟨hOut, _, _, rfl⟩ | ⟨_, _, _, hDestory⟩ | ⟨hPooled, _, _⟩
  · exact hOut
  · exact hReg.destoryEDU_out hDestory
  · exact absurd hPooled hPools

/- An EDU that is put to the pool is in the idle queue. -/
theorem deactiveEDU_idle
    {m m' : EduMgr}
    {eduID : Nat}
    {rc : Int}
    (hIn : m.Registered eduID)
    (hCall : m.deactiveEDU eduID = .ok (rc, m')) :
    eduID ∈ m'.idleQueue := by
  rcases deactiveEDU_cases hCall with
    ⟨hOut, _⟩ | ⟨_, _, hIdle, _⟩
  · exact absurd hIn hOut
  · exact hIdle

/-
  After any calls: the queues share no id; an entry has an id
  that was handed out, which is that of its block, and the
  block is allocated and not of a destroyed EDU; no block has
  two entries.  The next call returns.  An EDU that is
  returned and not pooled leaves the queues, and no call
  brings its id, or any other that is gone, back.  The counter
  is 0 only when all ids of its range are handed out, and no
  EDU is created then.
-/
theorem registry_exact
    {maxPool : UInt32}
    {calls : List EduCall}
    {m : EduMgr}
    (hRun : Steps (Step maxPool) {} calls m) :
    (∀ id, id ∈ m.runQueue → id ∉ m.idleQueue) ∧
    (∀ id p, m.Holds id p →
      1 ≤ id ∧ (m.eduID ≠ 0 → id < m.eduID) ∧
      ∃ c, m.blocks[p]? = some c ∧ c.id = id ∧
        c.status ≠ .destroy) ∧
    (∀ id id' p, m.Holds id p → m.Holds id' p → id = id') ∧
    (∀ call, ∃ m', m.run maxPool call = .ok m') ∧
    (∀ id force m', m.Registered id →
      ¬ m.Pools maxPool id force →
      Step maxPool m (.returnEDU id force) m' → m'.Gone id) ∧
    (∀ id calls' m', m.Gone id →
      Steps (Step maxPool) m calls' m' →
      ¬ m'.Registered id) := by
  have hReg : Registry m := Registry.init.steps hRun
  refine ⟨hReg.disjoint, ?_, ?_, ?_, ?_, ?_⟩
  · intro id p hHolds
    have hIn := (registered_iff m id).2 ⟨p, hHolds⟩
    rcases hReg.issued id hIn with ⟨hPos, hBelow⟩
    refine ⟨hPos, ?_, hReg.own id p hHolds⟩
    intro hCount
    simpa [bound, hCount] using hBelow
  · intro id id' p hHolds hHolds'
    exact hReg.holds_inj hHolds hHolds'
  · exact run_returns hReg maxPool
  · intro id force m' hIn hPools hStep
    rcases step_effect hStep with ⟨k, n, _, hMove, hTended⟩
    have hIssued := issued_of_move hReg hMove (hReg.issued id hIn)
    rcases map_ok hStep.2 with ⟨⟨rc, out, n'⟩, hCall, rfl⟩
    exact ⟨(issued_of_next hTended.next id).2 hIssued,
      hReg.returnEDU_out hPools hCall⟩
  · intro id calls' m' hGone hLater
    exact (hGone.steps hReg hLater).2

/- An agent is created and returned to a pool of one EDU. -/
theorem registry_exact_onePooled :
    ∃ m : EduMgr, m.idleQueue[1]? = some 100 ∧
      1 ≤ 1 ∧ (m.eduID ≠ 0 → 1 < m.eduID) ∧
      ∃ c, m.blocks[100]? = some c ∧ c.id = 1 ∧
        c.status ≠ .destroy := by
  have hRun : ∃ m,
      Steps (Step 1) {}
        [.startEDU .agent 7 (.started 100), .returnEDU 1 false]
        m ∧ m.idleQueue[1]? = some 100 := by
    refine ⟨_, .cons ⟨⟨?_, ?_⟩, rfl⟩
      (.cons ⟨trivial, rfl⟩ (.nil _)), rfl⟩
    · simp [NewEdu.block]
    · simp
  rcases hRun with ⟨m, hSteps, hIdle⟩
  exact ⟨m, hIdle, (registry_exact hSteps).2.1 1 100
    (Or.inr hIdle)⟩

end EduMgr

end EmeraldDb
