import Mathlib.Tactic.Common

/-
  Streams of frames that carry their own length.

  `size s` is the length of the frame that starts the stream
  `s`, if the stream has got far enough to tell.  A stream
  has one longest list of complete frames, and every list of
  complete frames from its start is a prefix of that one.

  Key definitions include:
    * `Frames`
    * `frames`

  Key results include:
    * `Frames.flatten`
    * `Frames.parse`
-/

variable {β : Type}

/-
  The stream starts with these complete frames, none of them
  empty, and this is what lies behind them.
-/
inductive Frames
    (size : List β → Option Nat) :
    List β → List (List β) → List β → Prop
| nil (s : List β) : Frames size s [] s
| cons
    {s rest : List β}
    {n : Nat}
    {fs : List (List β)}
    (hSize : size s = some n)
    (hSome : 0 < n)
    (hLong : n ≤ s.length)
    (hRest : Frames size (s.drop n) fs rest) :
    Frames size s (s.take n :: fs) rest

/- All complete frames at the start of a stream. -/
def frames
    (size : List β → Option Nat)
    (s : List β) : List (List β) :=
  match size s with
  | none => []
  | some n =>
      if _hFits : 0 < n ∧ n ≤ s.length then
        s.take n :: frames size (s.drop n)
      else []
termination_by s.length
decreasing_by
  rw [List.length_drop]
  omega

namespace Frames

variable {size : List β → Option Nat} {s rest : List β}
variable {fs : List (List β)}

/- The frames and the rest make up the stream. -/
theorem flatten
    (hFrames : Frames size s fs rest) :
    s = fs.flatten ++ rest := by
  induction hFrames with
  | nil s => simp
  | cons hSize hSome hLong hRest ih =>
      rw [List.flatten_cons, List.append_assoc, ← ih,
        List.take_append_drop]

/- The frames come first among all frames of the stream. -/
theorem parse
    (hFrames : Frames size s fs rest) :
    frames size s = fs ++ frames size rest := by
  induction hFrames with
  | nil s => simp
  | cons hSize hSome hLong hRest ih =>
      rw [frames, hSize]
      simp only [hSome, hLong, and_self, dif_pos, ih,
        List.cons_append]

theorem prefix_frames
    (hFrames : Frames size s fs rest) :
    fs <+: frames size s :=
  ⟨frames size rest, hFrames.parse.symm⟩

end Frames
