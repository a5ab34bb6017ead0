import Mathlib.Data.List.Basic
import Mathlib.Logic.Function.Basic
import Mathlib.Tactic.Common

/-
  Queues by key.

  A keyed queue has one queue of values for every key.  A
  list whose elements have keys stands for a keyed queue: the
  queue of a key is what the elements with that key hold, in
  list order.  Appending an element pushes its value, and
  erasing the first element with a key pops the queue of that
  key.

  Key definitions include:
    * `KeyedQueue`
    * `KeyedQueue.push`
    * `KeyedQueue.pop`
    * `KeyedQueue.ofList`

  Key results include:
    * `KeyedQueue.head_ofList`
    * `KeyedQueue.ofList_append`
    * `KeyedQueue.ofList_eraseFirst`
-/

------------------------------------------------------------
-- Keyed Queues
------------------------------------------------------------

/- A queue for every key, the oldest value first. -/
def KeyedQueue (κ α : Type) :=
  κ → List α

namespace KeyedQueue

variable {κ α β : Type}

def empty : KeyedQueue κ α :=
  fun _ => []

section Update

variable [DecidableEq κ]

/- Append a value to the queue of a key. -/
def push
    (Q : KeyedQueue κ α)
    (k : κ)
    (a : α) : KeyedQueue κ α :=
  Function.update Q k (Q k ++ [a])

/- Delete the oldest value of a key. -/
def pop
    (Q : KeyedQueue κ α)
    (k : κ) : KeyedQueue κ α :=
  Function.update Q k (Q k).tail

theorem push_self
    (Q : KeyedQueue κ α)
    (k : κ)
    (a : α) :
    Q.push k a k = Q k ++ [a] :=
  Function.update_self _ _ _

theorem push_of_ne
    (Q : KeyedQueue κ α)
    {k l : κ}
    (a : α)
    (hKey : l ≠ k) :
    Q.push k a l = Q l :=
  Function.update_of_ne hKey _ _

theorem pop_self
    (Q : KeyedQueue κ α)
    (k : κ) :
    Q.pop k k = (Q k).tail :=
  Function.update_self _ _ _

theorem pop_of_ne
    (Q : KeyedQueue κ α)
    {k l : κ}
    (hKey : l ≠ k) :
    Q.pop k l = Q l :=
  Function.update_of_ne hKey _ _

end Update

------------------------------------------------------------
-- Lists of Keyed Elements
------------------------------------------------------------

/-
  The queue of a key in a list: `P k` says which elements
  have the key, `f` what an element holds.
-/
def ofList
    (P : κ → β → Bool)
    (f : β → α)
    (bs : List β) : KeyedQueue κ α :=
  fun k => (bs.filter (P k)).map f

variable {P : κ → β → Bool} {f : β → α} {bs : List β}
variable {k : κ} {b : β}

theorem head_ofList
    (P : κ → β → Bool)
    (f : β → α)
    (bs : List β)
    (k : κ) :
    (ofList P f bs k).head? = (bs.find? (P k)).map f := by
  rw [ofList, List.head?_map, List.head?_filter]

theorem ofList_append
    (hKey : P k b = true) :
    ofList P f (bs ++ [b]) k = ofList P f bs k ++ [f b] := by
  simp [ofList, List.filter_append, hKey]

theorem ofList_append_of_ne
    (hKey : P k b = false) :
    ofList P f (bs ++ [b]) k = ofList P f bs k := by
  simp [ofList, List.filter_append, hKey]

variable [DecidableEq β]

/- The first element with the key is the one erased. -/
theorem ofList_eraseFirst
    (hFirst : bs.find? (P k) = some b) :
    ofList P f (bs.eraseP (fun c => decide (c = b))) k =
      (ofList P f bs k).tail := by
  have hKey := List.find?_some hFirst
  unfold ofList
  induction bs with
  | nil => simp at hFirst
  | cons c cs ih =>
      by_cases hHead : P k c = true
      · rw [List.find?_cons_of_pos hHead, Option.some.injEq]
          at hFirst
        subst hFirst
        simp [hHead]
      · rw [List.find?_cons_of_neg hHead] at hFirst
        have hNe : c ≠ b := fun hEq => hHead (hEq ▸ hKey)
        rw [List.eraseP_cons_of_neg (by simpa using hNe),
          List.filter_cons_of_neg hHead,
          List.filter_cons_of_neg hHead]
        exact ih hFirst

/- The queues of other keys do not have the erased one. -/
theorem ofList_eraseFirst_of_ne
    (hKey : P k b = false) :
    ofList P f (bs.eraseP (fun c => decide (c = b))) k =
      ofList P f bs k := by
  unfold ofList
  induction bs with
  | nil => rfl
  | cons c cs ih =>
      by_cases hHead : c = b
      · subst hHead
        simp [hKey]
      · rw [List.eraseP_cons_of_neg (by simpa using hHead),
          List.filter_cons, List.filter_cons]
        split
        · rw [List.map_cons, List.map_cons, ih]
        · exact ih

end KeyedQueue
