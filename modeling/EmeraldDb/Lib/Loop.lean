import Mathlib.Tactic.Common

/-
  Loops that stop at the first non-zero result code.

  `forUntil f is s` runs `f` over the list `is`, threading a
  state; a non-zero code ends the loop with that code.

  Key results include:
    * `forUntil_append`
    * `forUntil_preserves`
    * `forUntil_range_spec`
-/

variable {ε σ ι : Type}

def forUntil
    (f : σ → ι → Except ε (Int × σ)) :
    List ι → σ → Except ε (Int × σ)
| [], s => .ok (0, s)
| i :: is, s =>
    match f s i with
    | .error e => .error e
    | .ok (rc, t) =>
        if rc = 0 then forUntil f is t else .ok (rc, t)

/- A loop over an appended list is two loops in a row. -/
theorem forUntil_append
    (f : σ → ι → Except ε (Int × σ))
    (is js : List ι)
    (s : σ) :
    forUntil f (is ++ js) s =
      match forUntil f is s with
      | .error e => .error e
      | .ok (rc, t) =>
          if rc = 0 then forUntil f js t
          else .ok (rc, t) := by
  induction is generalizing s with
  | nil => simp [forUntil]
  | cons i is ih =>
      simp only [List.cons_append, forUntil]
      cases f s i with
      | error e => rfl
      | ok r =>
          rcases r with ⟨rc, t⟩
          by_cases hCode : rc = 0
          · simp [hCode, ih]
          · simp [hCode]

/- Running one more index after a loop that went through. -/
theorem forUntil_range_succ
    (f : σ → Nat → Except ε (Int × σ))
    {n : Nat}
    {s t : σ}
    (hLoop : forUntil f (List.range n) s = .ok (0, t)) :
    forUntil f (List.range (n + 1)) s =
      forUntil f [n] t := by
  rw [List.range_succ, forUntil_append, hLoop]
  simp

/- A loop that stopped does not run further indices. -/
theorem forUntil_range_stopped
    (f : σ → Nat → Except ε (Int × σ))
    {n : Nat}
    {s t : σ}
    {rc : Int}
    (hLoop : forUntil f (List.range n) s = .ok (rc, t))
    (hCode : rc ≠ 0) :
    forUntil f (List.range (n + 1)) s = .ok (rc, t) := by
  rw [List.range_succ, forUntil_append, hLoop]
  simp [hCode]

theorem forUntil_singleton_ok
    (f : σ → ι → Except ε (Int × σ))
    {i : ι}
    {s : σ}
    {rc : Int}
    {t : σ}
    (hStep : f s i = .ok (rc, t)) :
    forUntil f [i] s = .ok (rc, t) := by
  simp only [forUntil, hStep]
  split
  · rename_i hCode
    rw [hCode]
  · rfl

/-
  The rule for a counted loop.  Every round keeps the
  invariant `I` or ends the loop in a state of `Stop`.
-/
theorem forUntil_range_spec
    (f : σ → Nat → Except ε (Int × σ))
    {n : Nat}
    {s : σ}
    (I : Nat → σ → Prop)
    (Stop : Int → σ → Prop)
    (hStart : I 0 s)
    (hRound : ∀ i < n, ∀ t, I i t →
      (∃ u, f t i = .ok (0, u) ∧ I (i + 1) u) ∨
        ∃ rc u, f t i = .ok (rc, u) ∧ rc ≠ 0 ∧ Stop rc u) :
    (∃ t, forUntil f (List.range n) s = .ok (0, t) ∧ I n t) ∨
      ∃ rc t, forUntil f (List.range n) s = .ok (rc, t) ∧
        rc ≠ 0 ∧ Stop rc t := by
  induction n with
  | zero => exact Or.inl ⟨s, rfl, hStart⟩
  | succ n ih =>
      rcases ih (fun i hi => hRound i (Nat.lt_succ_of_lt hi))
        with ⟨t, hLoop, hInv⟩ | ⟨rc, t, hLoop, hCode, hStop⟩
      · rw [forUntil_range_succ f hLoop]
        rcases hRound n (Nat.lt_succ_self n) t hInv with
          ⟨u, hStep, hNext⟩ | ⟨rc, u, hStep, hCode, hStop⟩
        · exact Or.inl
            ⟨u, forUntil_singleton_ok f hStep, hNext⟩
        · exact Or.inr ⟨rc, u, forUntil_singleton_ok f hStep,
            hCode, hStop⟩
      · exact Or.inr ⟨rc, t,
          forUntil_range_stopped f hLoop hCode, hCode, hStop⟩

/- What every round preserves, the loop preserves. -/
theorem forUntil_preserves
    {f : σ → ι → Except ε (Int × σ)}
    {P : σ → Prop}
    {is : List ι}
    (hRound : ∀ s, ∀ i ∈ is, ∀ rc t,
      P s → f s i = .ok (rc, t) → P t)
    {s t : σ}
    {rc : Int}
    (hStart : P s)
    (hLoop : forUntil f is s = .ok (rc, t)) :
    P t := by
  induction is generalizing s with
  | nil =>
      simp only [forUntil, Except.ok.injEq, Prod.mk.injEq]
        at hLoop
      exact hLoop.2 ▸ hStart
  | cons i is ih =>
      cases hStep : f s i with
      | error e => simp [forUntil, hStep] at hLoop
      | ok r =>
          rcases r with ⟨rc', u⟩
          have hNext := hRound s i List.mem_cons_self rc' u
            hStart hStep
          by_cases hCode : rc' = 0
          · simp only [forUntil, hStep, hCode, if_true]
              at hLoop
            refine ih ?_ hNext hLoop
            intro v j hj
            exact hRound v j (List.mem_cons_of_mem i hj)
          · simp only [forUntil, hStep, if_neg hCode,
              Except.ok.injEq, Prod.mk.injEq] at hLoop
            exact hLoop.2 ▸ hNext

/- A loop that went through ran every one of its rounds. -/
theorem forUntil_round
    {f : σ → ι → Except ε (Int × σ)}
    {P : σ → Prop}
    (hRound : ∀ s i rc t, P s → f s i = .ok (rc, t) → P t)
    {is : List ι}
    {s t : σ}
    (hStart : P s)
    (hLoop : forUntil f is s = .ok (0, t))
    {i : ι}
    (hIndex : i ∈ is) :
    ∃ u v, P u ∧ f u i = .ok (0, v) := by
  induction is generalizing s with
  | nil => simp at hIndex
  | cons j is ih =>
      cases hStep : f s j with
      | error e => simp [forUntil, hStep] at hLoop
      | ok r =>
          rcases r with ⟨rc, u⟩
          by_cases hCode : rc = 0
          · subst hCode
            simp only [forUntil, hStep, if_true] at hLoop
            rcases List.mem_cons.mp hIndex with rfl | hRest
            · exact ⟨s, u, hStart, hStep⟩
            · exact ih (hRound s j 0 u hStart hStep) hLoop
                hRest
          · simp only [forUntil, hStep, if_neg hCode,
              Except.ok.injEq, Prod.mk.injEq] at hLoop
            exact absurd hLoop.1 hCode
