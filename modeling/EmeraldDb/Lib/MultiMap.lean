import Mathlib.Data.List.Perm.Basic
import Mathlib.Data.List.Pairwise
import Mathlib.Order.Lattice
import Mathlib.Tactic.Common

/-
  Ordered multimaps.

  A multimap is a list of entries kept in key order.  A new
  entry goes behind the entries with the same key, so the
  values under one key form a queue.

  Key definitions include:
    * `MultiMap`
    * `MultiMap.insert`
    * `MultiMap.upperBound`
    * `MultiMap.equalRange`
    * `MultiMap.eraseFirst`

  Key results include:
    * `MultiMap.perm_insert`
    * `MultiMap.equalRange_insert_self`
    * `MultiMap.perm_eraseFirst`
    * `MultiMap.equalRange_eraseFirst_self`
-/

------------------------------------------------------------
-- Multimaps
------------------------------------------------------------

structure MultiMap
    (κ ν : Type)
    [LinearOrder κ] where
  entries : List (κ × ν)
  sorted : entries.Pairwise (fun a b => a.1 ≤ b.1)

namespace MultiMap

variable {κ ν : Type} [LinearOrder κ]

/- Place an entry behind all entries with the same key. -/
def insertEntry
    (k : κ)
    (v : ν) :
    List (κ × ν) → List (κ × ν)
| [] => [(k, v)]
| e :: es =>
    if e.1 ≤ k then e :: insertEntry k v es
    else (k, v) :: e :: es

theorem perm_insertEntry
    (k : κ)
    (v : ν)
    (es : List (κ × ν)) :
    (insertEntry k v es).Perm ((k, v) :: es) := by
  induction es with
  | nil => exact List.Perm.refl _
  | cons e es ih =>
      unfold insertEntry
      split
      · exact (ih.cons e).trans (List.Perm.swap _ _ _)
      · exact List.Perm.refl _

theorem sorted_insertEntry
    (k : κ)
    (v : ν)
    {es : List (κ × ν)}
    (hSorted : es.Pairwise (fun a b => a.1 ≤ b.1)) :
    (insertEntry k v es).Pairwise
      (fun a b => a.1 ≤ b.1) := by
  induction es with
  | nil => simp [insertEntry]
  | cons e es ih =>
      rw [List.pairwise_cons] at hSorted
      unfold insertEntry
      split
      · rename_i hLe
        rw [List.pairwise_cons]
        refine ⟨?_, ih hSorted.2⟩
        intro f hf
        have hMember :=
          (perm_insertEntry k v es).mem_iff.mp hf
        rcases List.mem_cons.mp hMember with rfl | hOld
        · exact hLe
        · exact hSorted.1 f hOld
      · rename_i hGreater
        have hLt : k < e.1 := lt_of_not_ge hGreater
        rw [List.pairwise_cons, List.pairwise_cons]
        refine ⟨?_, hSorted⟩
        intro f hf
        rcases List.mem_cons.mp hf with rfl | hOld
        · exact hLt.le
        · exact hLt.le.trans (hSorted.1 f hOld)

/- The multimap without entries. -/
def empty : MultiMap κ ν where
  entries := []
  sorted := List.Pairwise.nil

/- Insert an entry behind its equals. -/
def insert
    (M : MultiMap κ ν)
    (k : κ)
    (v : ν) : MultiMap κ ν where
  entries := insertEntry k v M.entries
  sorted := sorted_insertEntry k v M.sorted

/- Number of entries. -/
def size (M : MultiMap κ ν) : Nat :=
  M.entries.length

/- First entry with a key above `k`. -/
def upperBound
    (M : MultiMap κ ν)
    (k : κ) : Option (κ × ν) :=
  M.entries.find? (fun e => decide (k < e.1))

/- Values under one key, oldest first. -/
def equalRange
    (M : MultiMap κ ν)
    (k : κ) : List ν :=
  (M.entries.filter (fun e => decide (e.1 = k))).map Prod.snd

/- Erase the first value under `k` that satisfies `p`. -/
def eraseFirst
    (M : MultiMap κ ν)
    (k : κ)
    (p : ν → Bool) : MultiMap κ ν where
  entries :=
    M.entries.eraseP (fun e => decide (e.1 = k) && p e.2)
  sorted := M.sorted.sublist List.eraseP_sublist

@[simp] theorem entries_empty :
    (empty : MultiMap κ ν).entries = [] := rfl

@[simp] theorem equalRange_empty (k : κ) :
    (empty : MultiMap κ ν).equalRange k = [] := rfl

------------------------------------------------------------
-- Insertion
------------------------------------------------------------

theorem perm_insert
    (M : MultiMap κ ν)
    (k : κ)
    (v : ν) :
    (M.insert k v).entries.Perm ((k, v) :: M.entries) :=
  perm_insertEntry k v M.entries

@[simp] theorem mem_insert
    (M : MultiMap κ ν)
    (k : κ)
    (v : ν)
    (e : κ × ν) :
    e ∈ (M.insert k v).entries ↔
      e = (k, v) ∨ e ∈ M.entries := by
  rw [(M.perm_insert k v).mem_iff, List.mem_cons]

theorem mem_equalRange
    (M : MultiMap κ ν)
    (k : κ)
    (v : ν) :
    v ∈ M.equalRange k ↔ (k, v) ∈ M.entries := by
  simp [equalRange]

/- A new value joins the end of the queue under its key. -/
theorem equalRange_insert_self
    (M : MultiMap κ ν)
    (k : κ)
    (v : ν) :
    (M.insert k v).equalRange k = M.equalRange k ++ [v] := by
  rcases M with ⟨es, hSorted⟩
  simp only [equalRange, insert]
  induction es with
  | nil => simp [insertEntry]
  | cons e es ih =>
      rw [List.pairwise_cons] at hSorted
      unfold insertEntry
      split
      · rename_i hLe
        by_cases hKey : e.1 = k
        · simp [hKey, ih hSorted.2]
        · simp [hKey, ih hSorted.2]
      · rename_i hGreater
        -- every entry from here on has a larger key
        have hLt : k < e.1 := lt_of_not_ge hGreater
        have hNone :
            (e :: es).filter (fun f => decide (f.1 = k)) =
              [] := by
          rw [List.filter_eq_nil_iff]
          intro f hf
          rcases List.mem_cons.mp hf with rfl | hOld
          · simpa using hLt.ne'
          · have hFar : k < f.1 :=
              lt_of_lt_of_le hLt (hSorted.1 f hOld)
            simpa using hFar.ne'
        rw [List.filter_cons_of_pos (by simp), hNone]
        simp

theorem equalRange_insert_of_ne
    (M : MultiMap κ ν)
    {k l : κ}
    (v : ν)
    (hKey : l ≠ k) :
    (M.insert k v).equalRange l = M.equalRange l := by
  rcases M with ⟨es, hSorted⟩
  simp only [equalRange, insert]
  clear hSorted
  induction es with
  | nil => simp [insertEntry, hKey.symm]
  | cons e es ih =>
      unfold insertEntry
      split
      · by_cases hHead : e.1 = l
        · simp [hHead, ih]
        · simp [hHead, ih]
      · rw [List.filter_cons_of_neg (by simpa using hKey.symm)]

------------------------------------------------------------
-- Erasure
------------------------------------------------------------

theorem mem_of_mem_eraseFirst
    (M : MultiMap κ ν)
    {k : κ}
    {p : ν → Bool}
    {e : κ × ν}
    (hMember : e ∈ (M.eraseFirst k p).entries) :
    e ∈ M.entries :=
  List.mem_of_mem_eraseP hMember

theorem equalRange_eraseFirst_self
    (M : MultiMap κ ν)
    (k : κ)
    (p : ν → Bool) :
    (M.eraseFirst k p).equalRange k =
      (M.equalRange k).eraseP p := by
  rcases M with ⟨es, hSorted⟩
  simp only [equalRange, eraseFirst]
  clear hSorted
  induction es with
  | nil => rfl
  | cons e es ih =>
      by_cases hKey : e.1 = k
      · by_cases hMatch : p e.2 = true
        · rw [List.eraseP_cons_of_pos (by simp [hKey, hMatch]),
            List.filter_cons_of_pos (by simpa using hKey),
            List.map_cons, List.eraseP_cons_of_pos hMatch]
        · rw [List.eraseP_cons_of_neg (by simp [hMatch]),
            List.filter_cons_of_pos (by simpa using hKey),
            List.filter_cons_of_pos (by simpa using hKey),
            List.map_cons, List.map_cons,
            List.eraseP_cons_of_neg hMatch, ih]
      · rw [List.eraseP_cons_of_neg (by simp [hKey]),
          List.filter_cons_of_neg (by simpa using hKey),
          List.filter_cons_of_neg (by simpa using hKey), ih]

theorem equalRange_eraseFirst_of_ne
    (M : MultiMap κ ν)
    {k l : κ}
    (p : ν → Bool)
    (hKey : l ≠ k) :
    (M.eraseFirst k p).equalRange l = M.equalRange l := by
  rcases M with ⟨es, hSorted⟩
  simp only [equalRange, eraseFirst]
  clear hSorted
  induction es with
  | nil => rfl
  | cons e es ih =>
      by_cases hMatch : e.1 = k ∧ p e.2 = true
      · rw [List.eraseP_cons_of_pos (by simp [hMatch]),
          List.filter_cons_of_neg
            (by simpa [hMatch.1] using hKey.symm)]
      · rw [List.eraseP_cons_of_neg (by simpa using hMatch)]
        by_cases hHead : e.1 = l
        · simp [hHead, ih]
        · simp [hHead, ih]

/-
  If `v` is the first value under `k` satisfying `p`, the
  map is the erased map and the one entry `(k, v)`.
-/
theorem perm_eraseFirst
    (M : MultiMap κ ν)
    {k : κ}
    {p : ν → Bool}
    {v : ν}
    (hFound : (M.equalRange k).find? p = some v) :
    M.entries.Perm ((k, v) :: (M.eraseFirst k p).entries) := by
  rcases M with ⟨es, hSorted⟩
  simp only [equalRange, eraseFirst] at hFound ⊢
  clear hSorted
  induction es with
  | nil => simp at hFound
  | cons e es ih =>
      by_cases hKey : e.1 = k
      · rw [List.filter_cons_of_pos (by simpa using hKey),
          List.map_cons, List.find?_cons] at hFound
        cases hMatch : p e.2 with
        | true =>
            simp only [hMatch, Option.some.injEq] at hFound
            rw [List.eraseP_cons_of_pos
              (by simp [hKey, hMatch])]
            have hEntry : e = (k, v) :=
              Prod.ext hKey hFound
            rw [hEntry]
        | false =>
            simp only [hMatch] at hFound
            rw [List.eraseP_cons_of_neg (by simp [hMatch])]
            exact ((ih hFound).cons e).trans
              (List.Perm.swap _ _ _)
      · rw [List.filter_cons_of_neg (by simpa using hKey)]
          at hFound
        rw [List.eraseP_cons_of_neg (by simp [hKey])]
        exact ((ih hFound).cons e).trans
          (List.Perm.swap _ _ _)

/-
  A map with one entry under every index below `n`, and other
  entries, in which the entry of index `i` is replaced.
-/
theorem perm_replace_append
    (M : MultiMap κ Nat)
    {n i : Nat}
    {f g : Nat → κ}
    {rest : List (κ × Nat)}
    (hEntries : M.entries.Perm
      ((List.range n).map (fun j => (f j, j)) ++ rest))
    (hIndex : i < n)
    (hOther : ∀ j < n, j ≠ i → g j = f j) :
    ((M.eraseFirst (f i) (fun j => decide (j = i))).insert
        (g i) i).entries.Perm
      ((List.range n).map (fun j => (g j, j)) ++ rest) := by
  have hMember : i ∈ List.range n := List.mem_range.mpr hIndex
  have hSplit := List.perm_cons_erase hMember
  have hTail : ((List.range n).erase i).map
        (fun j => (f j, j)) =
      ((List.range n).erase i).map (fun j => (g j, j)) := by
    apply List.map_congr_left
    intro j hj
    rw [List.nodup_range.mem_erase_iff] at hj
    rw [hOther j (List.mem_range.mp hj.2) hj.1]
  have hFound : (M.equalRange (f i)).find?
      (fun j => decide (j = i)) = some i := by
    have hIn : i ∈ M.equalRange (f i) := by
      rw [mem_equalRange, hEntries.mem_iff]
      exact List.mem_append_left _
        (List.mem_map.mpr ⟨i, hMember, rfl⟩)
    cases hCase : (M.equalRange (f i)).find?
        (fun j => decide (j = i)) with
    | none =>
        have hNot := List.find?_eq_none.mp hCase i hIn
        simp at hNot
    | some j =>
        have hEq : j = i := by
          simpa using List.find?_some hCase
        rw [hEq]
  have hFirst : ((List.range n).map (fun j => (f j, j)) ++
      rest).Perm ((f i, i) :: (((List.range n).erase i).map
        (fun j => (f j, j)) ++ rest)) :=
    (hSplit.map (fun j => (f j, j))).append_right rest
  have hErased := (M.perm_eraseFirst hFound).symm.trans
    (hEntries.trans hFirst)
  have hRest := hErased.cons_inv
  rw [hTail] at hRest
  have hLast : ((g i, i) :: (((List.range n).erase i).map
      (fun j => (g j, j)) ++ rest)).Perm
        ((List.range n).map (fun j => (g j, j)) ++ rest) :=
    ((hSplit.map (fun j => (g j, j))).append_right rest).symm
  exact (perm_insert _ _ _).trans ((hRest.cons _).trans hLast)

theorem perm_replace
    (M : MultiMap κ Nat)
    {n i : Nat}
    {f g : Nat → κ}
    (hEntries : M.entries.Perm
      ((List.range n).map (fun j => (f j, j))))
    (hIndex : i < n)
    (hOther : ∀ j < n, j ≠ i → g j = f j) :
    ((M.eraseFirst (f i) (fun j => decide (j = i))).insert
        (g i) i).entries.Perm
      ((List.range n).map (fun j => (g j, j))) := by
  rw [← List.append_nil (List.map _ _)] at hEntries ⊢
  exact M.perm_replace_append hEntries hIndex hOther

------------------------------------------------------------
-- Bounds
------------------------------------------------------------

theorem upperBound_some
    {M : MultiMap κ ν}
    {k : κ}
    {e : κ × ν}
    (hBound : M.upperBound k = some e) :
    e ∈ M.entries ∧ k < e.1 := by
  refine ⟨List.mem_of_find?_eq_some hBound, ?_⟩
  simpa using List.find?_some hBound

theorem upperBound_none
    {M : MultiMap κ ν}
    {k : κ}
    (hBound : M.upperBound k = none) :
    ∀ e ∈ M.entries, e.1 ≤ k := by
  intro e he
  have hNot := List.find?_eq_none.mp hBound e he
  simpa using hNot

end MultiMap
