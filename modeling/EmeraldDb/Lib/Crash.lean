import EmeraldDb.Lib.Memory

/-
  Crashes between and inside the writes of a program.

  A program is a list of writes, and a crash ends it after
  some of them or in the middle of one.  What a write that
  was cut short may leave is a relation of its own.  The
  second part instantiates this with a file that is written
  through memory: a word is stored at once, a block byte by
  byte in any order, and the end of the file moves.

  Key definitions include:
    * `Cut`
    * `writeAll`
    * `Disk`
    * `DiskWrite`
    * `Disk.Crashed`

  Key results include:
    * `Cut.append_cases`
    * `Cut.invariant`
    * `Disk.Crashed.within`
    * `Disk.Crashed.beyond`
-/

------------------------------------------------------------
-- Programs That Are Cut
------------------------------------------------------------

section Programs

variable {σ ω : Type}

/- The state after all writes. -/
def writeAll
    (apply : ω → σ → σ) :
    List ω → σ → σ
| [], s => s
| w :: ws, s => writeAll apply ws (apply w s)

/-
  The states that a crash may leave: before a write, within
  one, or after the last one.
-/
inductive Cut
    (apply : ω → σ → σ)
    (torn : ω → σ → σ → Prop) :
    List ω → σ → σ → Prop
| stop
    (ws : List ω)
    (s : σ) :
    Cut apply torn ws s s
| torn
    {w : ω}
    {s t : σ}
    (ws : List ω)
    (hTorn : torn w s t) :
    Cut apply torn (w :: ws) s t
| next
    {w : ω}
    {ws : List ω}
    {s t : σ}
    (hRest : Cut apply torn ws (apply w s) t) :
    Cut apply torn (w :: ws) s t

variable {apply : ω → σ → σ} {torn : ω → σ → σ → Prop}

theorem writeAll_append
    (ws us : List ω)
    (s : σ) :
    writeAll apply (ws ++ us) s =
      writeAll apply us (writeAll apply ws s) := by
  induction ws generalizing s with
  | nil => rfl
  | cons w ws ih => exact ih (apply w s)

namespace Cut

/- A crash between two writes. -/
theorem between
    (ws : List ω)
    (s : σ)
    (n : Nat) :
    Cut apply torn ws s (writeAll apply (ws.take n) s) := by
  induction ws generalizing s n with
  | nil => simpa [writeAll] using Cut.stop [] s
  | cons w ws ih =>
      cases n with
      | zero => exact .stop _ s
      | succ n => exact .next (ih (apply w s) n)

/- A crash after the last write loses nothing. -/
theorem complete
    (ws : List ω)
    (s : σ) :
    Cut apply torn ws s (writeAll apply ws s) := by
  have hAll : Cut apply torn ws s
      (writeAll apply (ws.take ws.length) s) :=
    between ws s ws.length
  rw [List.take_length] at hAll
  exact hAll

theorem nil_eq
    {s t : σ}
    (hCut : Cut apply torn [] s t) :
    t = s := by
  cases hCut
  rfl

/- A crash in one of two programs that run in a row. -/
theorem append_cases
    {ws us : List ω}
    {s t : σ}
    (hCut : Cut apply torn (ws ++ us) s t) :
    Cut apply torn ws s t ∨
      Cut apply torn us (writeAll apply ws s) t := by
  induction ws generalizing s with
  | nil => exact Or.inr hCut
  | cons w ws ih =>
      cases hCut with
      | stop => exact Or.inl (.stop _ _)
      | torn _ hTorn => exact Or.inl (.torn _ hTorn)
      | next hRest =>
          rcases ih hRest with hFirst | hSecond
          · exact Or.inl (.next hFirst)
          · exact Or.inr hSecond

/-
  What complete and torn writes preserve holds after every
  crash.
-/
theorem invariant
    {I : σ → Prop}
    {ws : List ω}
    (hApply : ∀ w ∈ ws, ∀ s, I s → I (apply w s))
    (hTorn : ∀ w ∈ ws, ∀ s t, I s → torn w s t → I t)
    {s t : σ}
    (hCut : Cut apply torn ws s t)
    (hStart : I s) :
    I t := by
  induction hCut with
  | stop _ s => exact hStart
  | torn ws hNow =>
      exact hTorn _ List.mem_cons_self _ _ hStart hNow
  | next _ ih =>
      apply ih
      · intro w hw
        exact hApply w (List.mem_cons_of_mem _ hw)
      · intro w hw
        exact hTorn w (List.mem_cons_of_mem _ hw)
      · exact hApply _ List.mem_cons_self _ hStart

/- A crash in a program that one write begins. -/
theorem cons_cases
    {w : ω}
    {ws : List ω}
    {s t : σ}
    (hCut : Cut apply torn (w :: ws) s t) :
    t = s ∨ torn w s t ∨ Cut apply torn ws (apply w s) t := by
  cases hCut with
  | stop => exact Or.inl rfl
  | torn _ hTorn => exact Or.inr (Or.inl hTorn)
  | next hRest => exact Or.inr (Or.inr hRest)

end Cut

end Programs

------------------------------------------------------------
-- Files Written Through Memory
------------------------------------------------------------

/- The bytes of a file and its length. -/
structure Disk where
  file : Memory
  fileSize : Nat

inductive DiskWrite
| word (a v : Nat)
| block (dst : Nat) (src : Memory) (start n : Nat)
| append (n : Nat)

namespace DiskWrite

/- A complete write. -/
def apply : DiskWrite → Disk → Disk
| word a v, d => { d with file := d.file.setWord a v }
| block dst src start n, d =>
    { d with file := d.file.copy dst src start n }
| append n, d =>
    ⟨d.file.fill d.fileSize n 0, d.fileSize + n⟩

/-
  A write that was cut short.  A word is stored at once; of a
  block every byte is old or new; of appended bytes some are
  in the file.
-/
def Torn : DiskWrite → Disk → Disk → Prop
| word _ _, _, _ => False
| block dst src start n, d, e =>
    e.fileSize = d.fileSize ∧
      ∀ x, e.file x = d.file x ∨
        e.file x = d.file.copy dst src start n x
| append n, d, e => ∃ i ≤ n, e = (append i).apply d

/- The write stores to addresses of a region alone. -/
def Inside (R : Nat → Prop) : DiskWrite → Prop
| word a _ => ∀ i < 4, R (a + i)
| block dst _ _ n => ∀ i < n, R (dst + i)
| append _ => False

/- The write leaves the bytes before `a` alone. -/
def Beyond (a : Nat) : DiskWrite → Prop
| word x _ => a ≤ x
| block dst _ _ _ => a ≤ dst
| append _ => True

end DiskWrite

namespace Disk

/- What a crash of a program may leave. -/
abbrev Crashed : List DiskWrite → Disk → Disk → Prop :=
  Cut DiskWrite.apply DiskWrite.Torn

/- The file after all writes of a program. -/
abbrev written : List DiskWrite → Disk → Disk :=
  writeAll DiskWrite.apply

variable {d e : Disk} {ws us : List DiskWrite} {a : Nat}
variable {R : Nat → Prop}

@[simp] theorem written_append :
    written (ws ++ us) d = written us (written ws d) :=
  writeAll_append ws us d

/- A copy to a region leaves other addresses alone. -/
theorem copy_outside
    {m src : Memory}
    {dst start n x : Nat}
    (hInside : ∀ i < n, R (dst + i))
    (hOutside : ¬ R x) :
    m.copy dst src start n x = m x := by
  apply Memory.copy_of_disjoint
  by_contra hIn
  obtain ⟨i, rfl⟩ := Nat.exists_eq_add_of_le
    (by omega : dst ≤ x)
  exact hOutside (hInside i (by omega))

theorem setWord_outside
    {m : Memory}
    {y v x : Nat}
    (hInside : ∀ i < 4, R (y + i))
    (hOutside : ¬ R x) :
    m.setWord y v x = m x := by
  apply Memory.setWord_of_disjoint
  by_contra hIn
  obtain ⟨i, rfl⟩ := Nat.exists_eq_add_of_le
    (by omega : y ≤ x)
  exact hOutside (hInside i (by omega))

/- A crash in writes that stay inside a region. -/
theorem Crashed.within
    (hInside : ∀ w ∈ ws, w.Inside R)
    (hCrash : Crashed ws d e) :
    e.fileSize = d.fileSize ∧
      ∀ x, ¬ R x → e.file x = d.file x := by
  refine Cut.invariant
    (I := fun u : Disk => u.fileSize = d.fileSize ∧
      ∀ x, ¬ R x → u.file x = d.file x)
    ?_ ?_ hCrash ⟨rfl, fun _ _ => rfl⟩
  · intro w hw u hu
    have hIn := hInside w hw
    cases w with
    | word y v =>
        refine ⟨hu.1, ?_⟩
        intro x hx
        exact (setWord_outside hIn hx).trans (hu.2 x hx)
    | block dst src start n =>
        refine ⟨hu.1, ?_⟩
        intro x hx
        exact (copy_outside hIn hx).trans (hu.2 x hx)
    | append n => exact absurd hIn id
  · intro w hw u v hu hTorn
    have hIn := hInside w hw
    cases w with
    | word y z => exact absurd hTorn id
    | block dst src start n =>
        refine ⟨hTorn.1.trans hu.1, ?_⟩
        intro x hx
        rcases hTorn.2 x with hOld | hNew
        · exact hOld.trans (hu.2 x hx)
        · exact (hNew.trans (copy_outside hIn hx)).trans
            (hu.2 x hx)
    | append n => exact absurd hIn id

/- Such a crash differs from the end inside the region. -/
theorem Crashed.within_written
    (hInside : ∀ w ∈ ws, w.Inside R)
    (hCrash : Crashed ws d e) :
    e.fileSize = (written ws d).fileSize ∧
      ∀ x, ¬ R x → e.file x = (written ws d).file x := by
  have hNow := hCrash.within hInside
  have hEnd := Crashed.within hInside (Cut.complete ws d)
  refine ⟨hNow.1.trans hEnd.1.symm, ?_⟩
  intro x hx
  exact (hNow.2 x hx).trans (hEnd.2 x hx).symm

/- A crash in writes behind an address. -/
theorem Crashed.beyond
    (hBeyond : ∀ w ∈ ws, w.Beyond a)
    (hInside : a ≤ d.fileSize)
    (hCrash : Crashed ws d e) :
    d.fileSize ≤ e.fileSize ∧
      ∀ x < a, e.file x = d.file x := by
  have hGrown : ∀ (n : Nat) (u : Disk),
      d.fileSize ≤ u.fileSize ∧
        (∀ x < a, u.file x = d.file x) →
      d.fileSize ≤ ((DiskWrite.append n).apply u).fileSize ∧
        ∀ x < a, ((DiskWrite.append n).apply u).file x =
          d.file x := by
    intro n u hu
    refine ⟨Nat.le_add_right_of_le hu.1, ?_⟩
    intro x hx
    rw [← hu.2 x hx]
    exact Memory.fill_of_disjoint _ _ _ _ (by omega)
  refine Cut.invariant
    (I := fun u : Disk => d.fileSize ≤ u.fileSize ∧
      ∀ x < a, u.file x = d.file x)
    ?_ ?_ hCrash ⟨le_refl _, fun _ _ => rfl⟩
  · intro w hw u hu
    have hFar := hBeyond w hw
    cases w with
    | word y v =>
        refine ⟨hu.1, ?_⟩
        intro x hx
        rw [← hu.2 x hx]
        apply Memory.setWord_of_disjoint
        simp only [DiskWrite.Beyond] at hFar
        omega
    | block dst src start n =>
        refine ⟨hu.1, ?_⟩
        intro x hx
        rw [← hu.2 x hx]
        apply Memory.copy_of_disjoint
        simp only [DiskWrite.Beyond] at hFar
        omega
    | append n => exact hGrown n u hu
  · intro w hw u v hu hTorn
    have hFar := hBeyond w hw
    cases w with
    | word y z => exact absurd hTorn id
    | block dst src start n =>
        refine ⟨le_trans hu.1 (ge_of_eq hTorn.1), ?_⟩
        intro x hx
        have hCopy := Memory.copy_of_disjoint u.file dst src
          start n (x := x) (by
            simp only [DiskWrite.Beyond] at hFar
            omega)
        rcases hTorn.2 x with hOld | hNew
        · exact hOld.trans (hu.2 x hx)
        · exact (hNew.trans hCopy).trans (hu.2 x hx)
    | append n =>
        rcases hTorn with ⟨i, _, rfl⟩
        exact hGrown i u hu

end Disk
