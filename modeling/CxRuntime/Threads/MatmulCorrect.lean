import CxRuntime.Threads.Matmul
import Mathlib.Data.Nat.ModEq

/-!
# The threads compute the matrix product

The invariant ties the loop variables of a thread to the value of its logical
accumulator and to the elements of `C` that it has written.  Every element is
written by the one thread whose id is its row modulo the number of threads, so
the invariant survives any schedule; the work left to a thread bounds the number
of turns it needs.
-/

namespace CxRuntime.Matmul

open Threads (mac reset readState soloOf)

/-- The wrapping sum of the first `count` products of an element. -/
def dot (A B : Mat) (i j : Nat) : Nat → Word
  | 0 => 0
  | count + 1 => dot A B i j count + A.cells i count * B.cells count j

/-! ## Matrices -/

namespace Mat

variable {mat : Mat} {m n i j : Nat}

theorem Shaped.load_eq (shaped : mat.Shaped m n) (row : i < n)
    (column : j < m) : mat.load i j = some (mat.cells i j) := by
  have inside : i < mat.rows ∧ j < mat.cols := by
    rw [shaped.rows, shaped.cols]
    exact ⟨row, column⟩
  rw [load, if_pos inside]

theorem Shaped.store_eq (shaped : mat.Shaped m n) (row : i < n)
    (column : j < m) (value : Word) :
    mat.store i j value = some (mat.set i j value) := by
  have inside : i < mat.rows ∧ j < mat.cols := by
    rw [shaped.rows, shaped.cols]
    exact ⟨row, column⟩
  rw [store, if_pos inside]

theorem Shaped.set (shaped : mat.Shaped m n) (i j : Nat) (value : Word) :
    (mat.set i j value).Shaped m n := ⟨shaped.rows, shaped.cols⟩

@[simp] theorem cells_set_same (mat : Mat) (i j : Nat) (value : Word) :
    (mat.set i j value).cells i j = value := by
  simp [Mat.set]

theorem cells_set_other (mat : Mat) {i j row column : Nat}
    (different : ¬(row = i ∧ column = j)) (value : Word) :
    (mat.set i j value).cells row column = mat.cells row column := by
  by_cases sameRow : row = i
  · subst sameRow
    have otherColumn : column ≠ j := fun same => different ⟨rfl, same⟩
    simp [Mat.set, otherColumn]
  · simp [Mat.set, sameRow]

private theorem set_set (mat : Mat) (i j : Nat) (first second : Word) :
    (mat.set i j first).set i j second = mat.set i j second := by
  simp [Mat.set]

end Mat

/-! ## The scalar product -/

section Scalar

variable {A B C : Mat} {size : Nat}

theorem scalarElement_eq (aShaped : A.Shaped size size)
    (bShaped : B.Shaped size size) (cShaped : C.Shaped size size) {i j : Nat}
    (row : i < size) (column : j < size) :
    Loop.forUpTo size
      (fun k C => do
        let left ← A.load i k
        let right ← B.load k j
        let old ← C.load i j
        C.store i j (old + left * right)) C =
      some (C.set i j (C.cells i j + dot A B i j size)) := by
  obtain ⟨final, ran, finalEq⟩ := Loop.forUpTo_total
    (fun k C => do
      let left ← A.load i k
      let right ← B.load k j
      let old ← C.load i j
      C.store i j (old + left * right)) C
    (fun count current =>
      current = C.set i j (C.cells i j + dot A B i j count))
    (by simp [dot, Mat.set]) size (by
      intro k current below currentEq
      subst currentEq
      have shaped := cShaped.set i j (C.cells i j + dot A B i j k)
      refine ⟨_, ?_, rfl⟩
      simp only [aShaped.load_eq row below, bShaped.load_eq below column,
        shaped.load_eq row column, shaped.store_eq row column,
        Option.bind_eq_bind, Option.bind_some, Mat.cells_set_same, Mat.set_set,
        dot, BitVec.add_assoc])
  rw [ran, finalEq]

/-- From a zero matrix the loops leave the product. -/
theorem scalarMatmul_eq (aShaped : A.Shaped size size)
    (bShaped : B.Shaped size size) :
    ∃ final, scalarMatmul A B (allocMat size size) size size = some final ∧
      ∀ i j, i < size → j < size → final.cells i j = dot A B i j size := by
  have zeroShaped : (allocMat size size).Shaped size size := ⟨rfl, rfl⟩
  obtain ⟨final, ran, _, cells⟩ := Loop.forUpTo_total _ (allocMat size size)
    (fun rows (C : Mat) => C.Shaped size size ∧
      ∀ i j, j < size → C.cells i j = if i < rows then dot A B i j size else 0)
    ⟨zeroShaped, fun _ _ _ => rfl⟩ size (by
      intro i C row held
      obtain ⟨shaped, cells⟩ := held
      obtain ⟨next, ran, nextShaped, nextCells⟩ := Loop.forUpTo_total _ C
        (fun columns (current : Mat) => current.Shaped size size ∧
          ∀ row j, j < size → current.cells row j =
            if row < i ∨ (row = i ∧ j < columns) then dot A B row j size
            else 0)
        ⟨shaped, by simpa using cells⟩ size (by
          intro j current column held
          obtain ⟨shaped, cells⟩ := held
          refine ⟨_, scalarElement_eq aShaped bShaped shaped row column,
            shaped.set i j _, ?_⟩
          intro other otherColumn below
          by_cases same : other = i ∧ otherColumn = j
          · obtain ⟨rfl, rfl⟩ := same
            have blank := cells other otherColumn below
            rw [if_neg (by omega)] at blank
            rw [Mat.cells_set_same, blank, if_pos (by omega)]
            exact BitVec.zero_add _
          · rw [Mat.cells_set_other _ same, cells other otherColumn below]
            congr 1
            exact propext (by omega))
      refine ⟨next, ran, nextShaped, ?_⟩
      intro row j below
      rw [nextCells row j below]
      congr 1
      exact propext (by omega))
  refine ⟨final, ran, ?_⟩
  intro i j row column
  rw [cells i j column, if_pos row]

end Scalar

/-! ## The invariant of a thread -/

/-- What a thread knows before its next statement; `value k` is the sum of the
first `k` products of its element. -/
def Values (value : Nat → Word) (size : Nat) (acc result : Word) : Pc → Prop
  | .mac k => k ≤ size ∧ acc = value k
  | .read => acc = value size
  | .write => result = value size
  | .reset => True

/-- The loop variables, the accumulator and the result of a thread fit
together. -/
structure Worked (A B : Mat) (size nThreads tid : Nat) (frame : Frame)
    (acc result : Word) : Prop where
  row : frame.i % nThreads = tid
  between : ¬frame.j < size → frame.pc = .mac 0
  values : Values (dot A B frame.i frame.j) size acc result frame.pc

/-- The thread with these loop variables has written the element. -/
def Written (frame : Frame) (i j : Nat) : Prop :=
  i < frame.i ∨
    (i = frame.i ∧ (j < frame.j ∨ (j = frame.j ∧ frame.pc = .reset)))

def Writing (size : Nat) (frame : Frame) : Prop :=
  frame.i < size ∧ frame.j < size ∧ frame.pc = .write

instance (frame : Frame) (i j : Nat) : Decidable (Written frame i j) :=
  inferInstanceAs (Decidable (_ ∨ _))

instance (size : Nat) (frame : Frame) : Decidable (Writing size frame) :=
  inferInstanceAs (Decidable (_ ∧ _))

private theorem worked_start (A B : Mat) {size nThreads : Nat}
    (tid : Fin nThreads)
    (result : Word) :
    Worked A B size nThreads tid (.start tid) 0 result where
  row := Nat.mod_eq_of_lt tid.isLt
  between _ := rfl
  values := ⟨Nat.zero_le _, rfl⟩

section Next

variable {A B : Mat} {size nThreads tid i j : Nat} {acc result : Word}

private theorem worked_mac {k : Nat} (more : k < size)
    (worked : Worked A B size nThreads tid ⟨i, j, .mac k⟩ acc result)
    (column : j < size) :
    Worked A B size nThreads tid ⟨i, j, .mac (k + 1)⟩
      (acc + A.cells i k * B.cells k j) result where
  row := worked.row
  between outside := absurd column outside
  values := by
    obtain ⟨_, accEq⟩ := worked.values
    refine ⟨more, ?_⟩
    rw [accEq]
    rfl

private theorem worked_summed {k : Nat} (all : ¬k < size)
    (worked : Worked A B size nThreads tid ⟨i, j, .mac k⟩ acc result)
    (column : j < size) :
    Worked A B size nThreads tid ⟨i, j, .read⟩ acc result where
  row := worked.row
  between outside := absurd column outside
  values := by
    obtain ⟨atMost, accEq⟩ := worked.values
    have kEq : k = size := by omega
    rwa [kEq] at accEq

private theorem worked_read
    (worked : Worked A B size nThreads tid ⟨i, j, .read⟩ acc result)
    (column : j < size) :
    Worked A B size nThreads tid ⟨i, j, .write⟩ acc acc where
  row := worked.row
  between outside := absurd column outside
  values := worked.values

private theorem worked_write
    (worked : Worked A B size nThreads tid ⟨i, j, .write⟩ acc result)
    (column : j < size) :
    Worked A B size nThreads tid ⟨i, j, .reset⟩ acc result where
  row := worked.row
  between outside := absurd column outside
  values := trivial

private theorem worked_reset
    (worked : Worked A B size nThreads tid ⟨i, j, .reset⟩ acc result) :
    Worked A B size nThreads tid ⟨i, j + 1, .mac 0⟩ 0 result where
  row := worked.row
  between _ := rfl
  values := ⟨Nat.zero_le _, rfl⟩

private theorem worked_row {pc : Pc}
    (worked : Worked A B size nThreads tid ⟨i, j, pc⟩ acc result)
    (finished : ¬j < size) :
    Worked A B size nThreads tid ⟨i + nThreads, 0, .mac 0⟩ acc result where
  row := by
    rw [Nat.add_mod_right]
    exact worked.row
  between _ := rfl
  values := by
    have values := worked.values
    rw [worked.between finished] at values
    exact ⟨Nat.zero_le _, values.2⟩

end Next

/-- One statement more has been written exactly if it was the store. -/
theorem written_next_iff {A B : Mat} {size nThreads tid : Nat} {frame : Frame}
    {acc result : Word} (threads : 0 < nThreads)
    (worked : Worked A B size nThreads tid frame acc result) {i j : Nat}
    (sameThread : i % nThreads = tid) (column : j < size) :
    Written (frame.next size size nThreads) i j ↔
      Written frame i j ∨
        (Writing size frame ∧ i = frame.i ∧ j = frame.j) := by
  obtain ⟨frameRow, frameColumn, pc⟩ := frame
  have between := worked.between
  by_cases live : frameRow < size
  · by_cases inRow : frameColumn < size
    · cases pc with
      | mac k =>
          by_cases more : k < size
          · simp [Written, Writing, Frame.next, live, inRow, more]
          · simp [Written, Writing, Frame.next, live, inRow, more]
      | read => simp [Written, Writing, Frame.next, live, inRow]
      | write =>
          simp only [Written, Writing, Frame.next, live, inRow, if_true,
            reduceCtorEq, and_false, or_false, true_and, and_true]
          omega
      | reset =>
          simp only [Written, Writing, Frame.next, live, inRow, if_true,
            reduceCtorEq, and_false, or_false, and_true, false_and]
          omega
    · have pcEq := between inRow
      change pc = .mac 0 at pcEq
      subst pcEq
      have nextRow : i < frameRow + nThreads ↔ i < frameRow ∨ i = frameRow := by
        constructor
        · intro below
          by_contra above
          have later : frameRow < i := by omega
          have congruent : frameRow % nThreads = i % nThreads :=
            worked.row.trans sameThread.symm
          have apart := Nat.ModEq.add_le_of_lt congruent later
          omega
        · intro atMost
          rcases atMost with below | rfl
          · omega
          · omega
      have full : j < frameColumn := by omega
      simp only [Written, Writing, Frame.next, live, inRow, if_true, if_false,
        reduceCtorEq, and_false, or_false, full, and_true, nextRow,
        Nat.not_lt_zero, false_and]
  · simp [Written, Writing, Frame.next, live]

/-! ## One statement -/

section Step

variable {κ : Type} [DecidableEq κ] {kernel : mulacc.Kernel κ}
  {selectors : mulacc.Selectors} {here : mulacc.Context}
  {stands : kernel.State → (κ → mulacc.State) → Prop} {A B : Mat}
  {size nThreads : Nat} {cxSel : Fin nThreads → κ}

/-- A custom instruction moves the logical accumulator of its thread. -/
theorem cxReg_eq (faithful : kernel.Faithful (selectors.sel here) stands)
    {pool : Pool kernel nThreads} {machines : κ → mulacc.State}
    (isStanding : stands pool.accs machines) (cxSel : Fin nThreads → κ)
    (turn : Turn kernel nThreads) (instruction : mulacc.Instruction) :
    ∃ accs moved,
      cxReg cxSel turn instruction pool =
        some ((Mulacc.soloFunc instruction.1.cfId instruction.1.a
          instruction.1.b (soloOf here (machines (cxSel turn.1)))).2,
          { pool with accs := accs }) ∧
      stands accs (Function.update machines (cxSel turn.1) moved) ∧
      soloOf here moved = (Mulacc.soloFunc instruction.1.cfId instruction.1.a
        instruction.1.b (soloOf here (machines (cxSel turn.1)))).1 := by
  obtain ⟨accs, moved, executed, standsNext, movedEq⟩ :=
    Threads.exec_eq faithful isStanding (cxSel turn.1) turn.2 instruction
  refine ⟨accs, moved, ?_, standsNext, movedEq⟩
  rw [cxReg, executed, Option.map_some]

/-- The logical accumulators, with the loop variables of the threads. -/
def AllWorked (here : mulacc.Context)
    (stands : kernel.State → (κ → mulacc.State) → Prop)
    (cxSel : Fin nThreads → κ) (A B : Mat) (size : Nat)
    (frames : Fin nThreads → Frame) (pool : Pool kernel nThreads) : Prop :=
  ∃ machines, stands pool.accs machines ∧
    ∀ tid : Fin nThreads, Worked A B size nThreads tid (frames tid)
      (soloOf here (machines (cxSel tid))).acc (pool.results tid)

/-- It is enough to look at the thread that moved: no other is on its context. -/
theorem allWorked_of_moved (own : Function.Injective cxSel)
    {pool : Pool kernel nThreads} {machines : κ → mulacc.State}
    (worked : ∀ tid : Fin nThreads, Worked A B size nThreads tid
      (pool.frames tid) (soloOf here (machines (cxSel tid))).acc
      (pool.results tid))
    (moved : Pool kernel nThreads) {machine : mulacc.State}
    {tid : Fin nThreads}
    (isStanding : stands moved.accs
      (Function.update machines (cxSel tid) machine))
    (resultsKept : ∀ other, other ≠ tid →
      moved.results other = pool.results other)
    {frame : Frame}
    (workedHere : Worked A B size nThreads tid frame
      (soloOf here machine).acc (moved.results tid)) :
    AllWorked here stands cxSel A B size
      (Function.update pool.frames tid frame) moved := by
  refine ⟨_, isStanding, ?_⟩
  intro other
  by_cases same : other = tid
  · subst same
    rwa [Function.update_self, Function.update_self]
  · rw [Function.update_of_ne same, Function.update_of_ne (own.ne same),
      resultsKept other same]
    exact worked other

private theorem allWorked_of_kept (own : Function.Injective cxSel)
    {pool : Pool kernel nThreads} {machines : κ → mulacc.State}
    (isStanding : stands pool.accs machines)
    (worked : ∀ tid : Fin nThreads, Worked A B size nThreads tid
      (pool.frames tid) (soloOf here (machines (cxSel tid))).acc
      (pool.results tid))
    (moved : Pool kernel nThreads) {tid : Fin nThreads}
    (accsKept : moved.accs = pool.accs)
    (resultsKept : moved.results = pool.results) {frame : Frame}
    (workedHere : Worked A B size nThreads tid frame
      (soloOf here (machines (cxSel tid))).acc (pool.results tid)) :
    AllWorked here stands cxSel A B size
      (Function.update pool.frames tid frame) moved := by
  have standsNext : stands moved.accs
      (Function.update machines (cxSel tid) (machines (cxSel tid))) := by
    rwa [accsKept, Function.update_eq_self]
  apply allWorked_of_moved own worked moved standsNext
  · intro other _
    rw [resultsKept]
  · rwa [resultsKept]

/-- What a statement does to the pool: it keeps the frames, stores the result of
the thread if it is the store, and leaves every thread ready for its next
statement. -/
structure Performed (here : mulacc.Context)
    (stands : kernel.State → (κ → mulacc.State) → Prop)
    (cxSel : Fin nThreads → κ) (A B : Mat) (size : Nat) (tid : Fin nThreads)
    (pool moved : Pool kernel nThreads) : Prop where
  frames : moved.frames = pool.frames
  C : moved.C = if Writing size (pool.frames tid) then
    pool.C.set (pool.frames tid).i (pool.frames tid).j (pool.results tid)
    else pool.C
  allWorked : AllWorked here stands cxSel A B size
    (Function.update pool.frames tid
      ((pool.frames tid).next size size nThreads)) moved

private theorem perform_worked
    (faithful : kernel.Faithful (selectors.sel here) stands)
    (own : Function.Injective cxSel) (aShaped : A.Shaped size size)
    (bShaped : B.Shaped size size) {pool : Pool kernel nThreads}
    (cShaped : pool.C.Shaped size size)
    (allWorked : AllWorked here stands cxSel A B size pool.frames pool)
    (turn : Turn kernel nThreads) :
    ∃ moved, perform cxSel A B size size turn pool = some moved ∧
      Performed here stands cxSel A B size turn.1 pool moved := by
  obtain ⟨machines, isStanding, worked⟩ := allWorked
  have mine := worked turn.1
  obtain ⟨i, j, pc, frameEq⟩ : ∃ i j pc, pool.frames turn.1 = ⟨i, j, pc⟩ :=
    ⟨_, _, _, rfl⟩
  rw [frameEq] at mine
  by_cases live : i < size ∧ j < size
  · obtain ⟨row, column⟩ := live
    cases pc with
    | mac k =>
        by_cases more : k < size
        · obtain ⟨accs, machine, instruction, standsNext, accEq⟩ :=
            cxReg_eq faithful isStanding cxSel turn
              (mac (A.cells i k) (B.cells k j))
          refine ⟨{ pool with accs := accs }, ?_, rfl, ?_, ?_⟩
          · simp only [perform, frameEq, row, column, and_self, if_true,
              more, aShaped.load_eq row more, bShaped.load_eq more column,
              instruction, Option.bind_eq_bind, Option.bind_some]
          · simp [Writing, frameEq]
          · apply allWorked_of_moved own worked { pool with accs := accs }
              standsNext (fun _ _ => rfl)
            rw [accEq]
            simp only [frameEq, Frame.next, row, column, more, if_true]
            exact worked_mac more mine column
        · refine ⟨pool, ?_, rfl, ?_, ?_⟩
          · simp only [perform, frameEq, row, column, and_self, if_true,
              more, if_false]
          · simp [Writing, frameEq]
          · apply allWorked_of_kept own isStanding worked pool rfl rfl
            simp only [frameEq, Frame.next, row, column, more, if_true,
              if_false]
            exact worked_summed more mine column
    | read =>
        obtain ⟨accs, machine, instruction, standsNext, accEq⟩ :=
          cxReg_eq faithful isStanding cxSel turn readState
        have results : Function.update pool.results turn.1
            (soloOf here (machines (cxSel turn.1))).acc turn.1 =
              (soloOf here (machines (cxSel turn.1))).acc :=
          Function.update_self ..
        refine ⟨{ pool with
          accs := accs
          results := Function.update pool.results turn.1
            (soloOf here (machines (cxSel turn.1))).acc }, ?_, rfl, ?_, ?_⟩
        · simp only [perform, frameEq, row, column, and_self, if_true,
            instruction, Option.bind_eq_bind, Option.bind_some]
          rfl
        · simp [Writing, frameEq]
        · apply allWorked_of_moved own worked _ standsNext
          · exact fun other different => Function.update_of_ne different ..
          · change Worked A B size nThreads turn.1 _ _ (Function.update
              pool.results turn.1 (soloOf here (machines (cxSel turn.1))).acc
              turn.1)
            rw [results, accEq]
            simp only [frameEq, Frame.next, row, column, if_true]
            exact worked_read mine column
    | write =>
        refine ⟨{ pool with C := pool.C.set i j (pool.results turn.1) }, ?_,
          rfl, ?_, ?_⟩
        · simp only [perform, frameEq, row, column, and_self, if_true,
            cShaped.store_eq row column, Option.bind_eq_bind, Option.bind_some]
        · simp [Writing, frameEq, row, column]
        · apply allWorked_of_kept own isStanding worked _ rfl rfl
          simp only [frameEq, Frame.next, row, column, if_true]
          exact worked_write mine column
    | reset =>
        obtain ⟨accs, machine, instruction, standsNext, accEq⟩ :=
          cxReg_eq faithful isStanding cxSel turn reset
        refine ⟨{ pool with accs := accs }, ?_, rfl, ?_, ?_⟩
        · simp only [perform, frameEq, row, column, and_self, if_true,
            instruction, Option.bind_eq_bind, Option.bind_some]
        · simp [Writing, frameEq]
        · apply allWorked_of_moved own worked { pool with accs := accs }
            standsNext (fun _ _ => rfl)
          rw [accEq]
          simp only [frameEq, Frame.next, row, column, if_true]
          exact worked_reset mine
  · have idle : ¬Writing size (pool.frames turn.1) := by
      intro writing
      rw [frameEq] at writing
      exact live ⟨writing.1, writing.2.1⟩
    refine ⟨pool, ?_, rfl, ?_, ?_⟩
    · simp only [perform, frameEq, live, if_false]
    · rw [if_neg idle]
    · apply allWorked_of_kept own isStanding worked pool rfl rfl
      rw [frameEq]
      by_cases row : i < size
      · have finished : ¬j < size := fun column => live ⟨row, column⟩
        simp only [Frame.next, row, finished, if_true, if_false]
        exact worked_row mine finished
      · simp only [Frame.next, row, if_false]
        exact mine

end Step

/-! ## The pool -/

section Pool

variable {κ : Type} {kernel : mulacc.Kernel κ} {selectors : mulacc.Selectors}
  {here : mulacc.Context}
  {stands : kernel.State → (κ → mulacc.State) → Prop} {A B : Mat}
  {size nThreads : Nat} {cxSel : Fin nThreads → κ}

/-- Every thread is ready for its next statement, and each element of `C` is the
product if its thread has written it, and zero if not. -/
structure Correct (here : mulacc.Context)
    (stands : kernel.State → (κ → mulacc.State) → Prop)
    (cxSel : Fin nThreads → κ) (A B : Mat) (size : Nat)
    (pool : Pool kernel nThreads) : Prop where
  shaped : pool.C.Shaped size size
  allWorked : AllWorked here stands cxSel A B size pool.frames pool
  cells : ∀ (tid : Fin nThreads) {i j : Nat}, i % nThreads = tid → j < size →
    pool.C.cells i j =
      if Written (pool.frames tid) i j then dot A B i j size else 0

theorem Performed.cells {pool moved : Pool kernel nThreads} {tid : Fin nThreads}
    (performed : Performed here stands cxSel A B size tid pool moved)
    (i j : Nat) :
    moved.C.cells i j =
      if Writing size (pool.frames tid) ∧ i = (pool.frames tid).i ∧
          j = (pool.frames tid).j then pool.results tid
      else pool.C.cells i j := by
  rw [performed.C]
  by_cases writing : Writing size (pool.frames tid)
  · rw [if_pos writing]
    by_cases stored : i = (pool.frames tid).i ∧ j = (pool.frames tid).j
    · rw [if_pos ⟨writing, stored⟩, stored.1, stored.2, Mat.cells_set_same]
    · rw [Mat.cells_set_other _ stored,
        if_neg fun both => stored both.2]
  · rw [if_neg writing, if_neg fun both => writing both.1]

private theorem Performed.shaped {pool moved : Pool kernel nThreads}
    {tid : Fin nThreads}
    (performed : Performed here stands cxSel A B size tid pool moved)
    (shaped : pool.C.Shaped size size) : moved.C.Shaped size size := by
  rw [performed.C]
  by_cases writing : Writing size (pool.frames tid)
  · rw [if_pos writing]
    exact shaped.set ..
  · rwa [if_neg writing]

/-- The elements of the thread that moved. -/
theorem Performed.cells_moved {pool moved : Pool kernel nThreads}
    {tid : Fin nThreads}
    (performed : Performed here stands cxSel A B size tid pool moved)
    (correct : Correct here stands cxSel A B size pool) {i j : Nat}
    (sameThread : i % nThreads = tid) (column : j < size) :
    moved.C.cells i j =
      if Written ((pool.frames tid).next size size nThreads) i j then
        dot A B i j size
      else 0 := by
  obtain ⟨machines, _, worked⟩ := correct.allWorked
  have advances := written_next_iff (Nat.zero_lt_of_lt tid.isLt) (worked tid)
    sameThread column
  rw [performed.cells]
  by_cases stored : Writing size (pool.frames tid) ∧
      i = (pool.frames tid).i ∧ j = (pool.frames tid).j
  · rw [if_pos stored, if_pos (advances.mpr (.inr stored))]
    have values := (worked tid).values
    rw [stored.1.2.2] at values
    rw [stored.2.1, stored.2.2]
    exact values
  · have unmoved : Written ((pool.frames tid).next size size nThreads) i j ↔
        Written (pool.frames tid) i j :=
      advances.trans (or_iff_left stored)
    rw [if_neg stored, correct.cells tid sameThread column,
      if_congr unmoved rfl rfl]

/-- A store hits no row of another thread. -/
theorem Performed.cells_other {pool moved : Pool kernel nThreads}
    {tid : Fin nThreads}
    (performed : Performed here stands cxSel A B size tid pool moved)
    (correct : Correct here stands cxSel A B size pool) {i j : Nat}
    (otherThread : i % nThreads ≠ tid) :
    moved.C.cells i j = pool.C.cells i j := by
  obtain ⟨machines, _, worked⟩ := correct.allWorked
  rw [performed.cells]
  apply if_neg
  rintro ⟨_, rfl, _⟩
  exact otherThread (worked tid).row

def advance (size : Nat) (frames : Fin nThreads → Frame)
    (turn : Turn kernel nThreads) : Fin nThreads → Frame :=
  Function.update frames turn.1 ((frames turn.1).next size size nThreads)

variable [DecidableEq κ]

private theorem step_correct
    (faithful : kernel.Faithful (selectors.sel here) stands)
    (own : Function.Injective cxSel) (aShaped : A.Shaped size size)
    (bShaped : B.Shaped size size) (pool : Pool kernel nThreads)
    (turn : Turn kernel nThreads)
    (correct : Correct here stands cxSel A B size pool) :
    ∃ next, step cxSel A B size size pool turn = some next ∧
      Correct here stands cxSel A B size next ∧
      next.frames = advance size pool.frames turn := by
  obtain ⟨moved, ran, performed⟩ := perform_worked faithful own aShaped bShaped
    correct.shaped correct.allWorked turn
  have frames : Function.update moved.frames turn.1
      ((pool.frames turn.1).next size size nThreads) =
        advance size pool.frames turn := by
    rw [performed.frames, advance]
  refine ⟨{ moved with frames := advance size pool.frames turn }, ?_, ?_, rfl⟩
  · rw [step, ran, Option.map_some, frames]
  · refine ⟨performed.shaped correct.shaped, performed.allWorked, ?_⟩
    intro tid i j sameThread column
    change moved.C.cells i j = if Written (advance size pool.frames turn tid) i j
      then dot A B i j size else 0
    by_cases same : tid = turn.1
    · subst same
      rw [performed.cells_moved correct sameThread column, advance,
        Function.update_self]
    · have otherThread : i % nThreads ≠ turn.1 := by
        intro both
        exact same (Fin.ext (sameThread.symm.trans both))
      rw [performed.cells_other correct otherThread,
        correct.cells tid sameThread column, advance,
        Function.update_of_ne same]

/-- No schedule breaks the invariant. -/
theorem threadedMatmul_run
    (faithful : kernel.Faithful (selectors.sel here) stands)
    (own : Function.Injective cxSel) (aShaped : A.Shaped size size)
    (bShaped : B.Shaped size size) {accs : kernel.State}
    {machines : κ → mulacc.State} (isStanding : stands accs machines)
    (zero : ∀ tid, (soloOf here (machines (cxSel tid))).acc = 0)
    (schedule : List (Turn kernel nThreads)) :
    ∃ final, threadedMatmul cxSel A B size size accs schedule = some final ∧
      Correct here stands cxSel A B size final ∧
      final.frames =
        schedule.foldl (advance size) (fun tid => .start tid) := by
  apply Transition.foldlM_view Pool.frames (advance size)
    (Correct here stands cxSel A B size)
    (step_correct faithful own aShaped bShaped) schedule
  refine ⟨⟨rfl, rfl⟩, ⟨machines, isStanding, ?_⟩, ?_⟩
  · intro tid
    rw [zero tid]
    exact worked_start A B tid 0
  · intro tid i j sameThread column
    have unwritten : ¬Written (.start tid) i j := by
      rintro (before | ⟨_, before | ⟨_, atReset⟩⟩)
      · rw [← sameThread] at before
        exact absurd before (Nat.not_lt.mpr (Nat.mod_le i nThreads))
      · exact Nat.not_lt_zero j before
      · cases atReset
    rw [if_neg unwritten]
    rfl

end Pool

/-! ## The work left -/

def Pc.left (size : Nat) : Pc → Nat
  | .mac k => size - k + 4
  | .read => 3
  | .write => 2
  | .reset => 1

def Frame.rowLeft (size : Nat) (frame : Frame) : Nat :=
  if frame.j < size then
    (size - frame.j - 1) * (size + 4) + frame.pc.left size + 1
  else 1

def rowTurns (size : Nat) : Nat := size * (size + 4) + 1

/-- Enough turns to the end of the thread. -/
def Frame.left (size : Nat) (frame : Frame) : Nat :=
  if frame.i < size then
    (size - frame.i - 1) * rowTurns size + frame.rowLeft size
  else 0

section Left

variable {κ : Type} {kernel : mulacc.Kernel κ} {size nThreads : Nat}

theorem rowLeft_start (size i : Nat) :
    Frame.rowLeft size ⟨i, 0, .mac 0⟩ = rowTurns size := by
  cases size with
  | zero => rfl
  | succ below =>
      simp only [Frame.rowLeft, rowTurns, Pc.left, Nat.zero_lt_succ, if_true,
        Nat.sub_zero, Nat.add_sub_cancel, Nat.succ_mul]

private theorem rowLeft_next {frame : Frame} (row : frame.i < size)
    (column : frame.j < size) :
    (frame.next size size nThreads).i = frame.i ∧
      (frame.next size size nThreads).rowLeft size < frame.rowLeft size := by
  obtain ⟨i, j, pc⟩ := frame
  change i < size at row
  change j < size at column
  cases pc with
  | mac k =>
      by_cases more : k < size
      · simp only [Frame.next, row, column, more, if_true, Frame.rowLeft,
          Pc.left, true_and]
        omega
      · simp only [Frame.next, row, column, more, if_true, if_false,
          Frame.rowLeft, Pc.left, true_and]
        omega
  | read =>
      simp only [Frame.next, row, column, if_true, Frame.rowLeft, Pc.left,
        true_and]
      omega
  | write =>
      simp only [Frame.next, row, column, if_true, Frame.rowLeft, Pc.left,
        true_and]
      omega
  | reset =>
      simp only [Frame.next, row, column, if_true, Frame.rowLeft, Pc.left,
        true_and, Nat.sub_zero]
      by_cases last : j + 1 < size
      · obtain ⟨columns, columnsEq⟩ : ∃ columns, size - j - 1 = columns + 1 :=
          ⟨size - j - 2, by omega⟩
        have fewer : size - (j + 1) - 1 = columns := by omega
        rw [if_pos last, columnsEq, fewer, Nat.succ_mul]
        omega
      · rw [if_neg last]
        omega

/-- Every turn of a thread that has not returned leaves it less to do. -/
theorem left_next {frame : Frame} (threads : 0 < nThreads)
    (row : frame.i < size) :
    (frame.next size size nThreads).left size < frame.left size := by
  by_cases column : frame.j < size
  · obtain ⟨sameRow, fewer⟩ := @rowLeft_next size nThreads frame row column
    rw [Frame.left, Frame.left, sameRow, if_pos row, if_pos row]
    omega
  · have moved : frame.next size size nThreads =
        ⟨frame.i + nThreads, 0, .mac 0⟩ := by
      simp only [Frame.next, row, column, if_true, if_false]
    have rowLeft : frame.rowLeft size = 1 := if_neg column
    rw [moved, Frame.left, Frame.left, if_pos row, rowLeft, rowLeft_start]
    by_cases another : frame.i + nThreads < size
    · have rows : size - (frame.i + nThreads) - 1 + 1 ≤ size - frame.i - 1 := by
        omega
      have turns := Nat.mul_le_mul_right (rowTurns size) rows
      rw [Nat.succ_mul] at turns
      rw [if_pos another]
      change (size - (frame.i + nThreads) - 1) * rowTurns size +
        rowTurns size < _
      omega
    · rw [if_neg another]
      omega

private theorem returned_of_left {frame : Frame} (threads : 0 < nThreads)
    (none : frame.left size = 0) : ¬frame.i < size := by
  intro row
  have fewer := @left_next size nThreads frame threads row
  omega

private theorem left_iterate (threads : 0 < nThreads) (turns : Nat)
    (frame : Frame) :
    ((Frame.next size size nThreads)^[turns] frame).left size ≤
      frame.left size - turns := by
  induction turns generalizing frame with
  | zero => exact Nat.le_refl _
  | succ turns induction =>
      rw [Function.iterate_succ_apply]
      apply (induction _).trans
      by_cases row : frame.i < size
      · have fewer := @left_next size nThreads frame threads row
        omega
      · have stays : frame.next size size nThreads = frame := if_neg row
        have finished : frame.left size = 0 := if_neg row
        rw [stays, finished]
        omega

private theorem left_start (size tid : Nat) :
    (Frame.start tid).left size ≤ size * rowTurns size := by
  by_cases row : tid < size
  · have rows : size - tid - 1 + 1 ≤ size := by omega
    have turns := Nat.mul_le_mul_right (rowTurns size) rows
    rw [Nat.succ_mul] at turns
    rw [Frame.start, Frame.left, if_pos row, rowLeft_start]
    exact turns
  · rw [Frame.start, Frame.left, if_neg row]
    exact Nat.zero_le _

private theorem foldl_advance (schedule : List (Turn kernel nThreads))
    (frames : Fin nThreads → Frame) (tid : Fin nThreads) :
    schedule.foldl (advance size) frames tid =
      (Frame.next size size nThreads)^[(schedule.map Prod.fst).count tid]
        (frames tid) := by
  induction schedule generalizing frames with
  | nil => rfl
  | cons turn schedule induction =>
      rw [List.foldl_cons, induction, List.map_cons]
      by_cases mine : turn.1 = tid
      · rw [mine, List.count_cons_self, Function.iterate_succ_apply, advance,
          mine, Function.update_self]
      · rw [List.count_cons_of_ne mine, advance,
          Function.update_of_ne fun same => mine same.symm]

/-- A thread with enough turns returns, whatever the other threads do. -/
theorem returned_of_turns {schedule : List (Turn kernel nThreads)}
    {tid : Fin nThreads}
    (turns : size * rowTurns size ≤ (schedule.map Prod.fst).count tid) :
    ¬(schedule.foldl (advance size) (fun tid => .start tid) tid).i < size := by
  rw [foldl_advance]
  have threads : 0 < nThreads := Nat.zero_lt_of_lt tid.isLt
  apply returned_of_left threads
  have left := @left_iterate size nThreads threads
    ((schedule.map Prod.fst).count tid) (.start tid)
  have start := left_start size tid
  omega

end Left

/-- Threads with contexts of their own, whose accumulators are zero: whatever the
schedule and the choices of the kernel, an element of `C` is zero or that of the
scalar product; threads that get their turns return, and once all have, `C` is
the scalar product. -/
theorem threadedMatmul_correct {κ : Type} [DecidableEq κ]
    {kernel : mulacc.Kernel κ} {selectors : mulacc.Selectors}
    {here : mulacc.Context}
    {stands : kernel.State → (κ → mulacc.State) → Prop}
    (faithful : kernel.Faithful (selectors.sel here) stands) {A B : Mat}
    {size nThreads : Nat} (aShaped : A.Shaped size size)
    (bShaped : B.Shaped size size) (threads : 0 < nThreads)
    {cxSel : Fin nThreads → κ} (own : Function.Injective cxSel)
    {accs : kernel.State} {machines : κ → mulacc.State}
    (isStanding : stands accs machines)
    (zero : ∀ tid, (soloOf here (machines (cxSel tid))).acc = 0)
    (schedule : List (Turn kernel nThreads)) :
    ∃ final reference,
      threadedMatmul cxSel A B size size accs schedule = some final ∧
      scalarMatmul A B (allocMat size size) size size = some reference ∧
      (∀ i j, i < size → j < size → final.C.cells i j = 0 ∨
        final.C.cells i j = reference.cells i j) ∧
      (∀ tid, size * rowTurns size ≤ (schedule.map Prod.fst).count tid →
        ¬(final.frames tid).i < size) ∧
      ((∀ tid, ¬(final.frames tid).i < size) →
        ∀ i j, i < size → j < size →
          final.C.cells i j = reference.cells i j) := by
  obtain ⟨final, ran, correct, frames⟩ := threadedMatmul_run faithful own
    aShaped bShaped isStanding zero schedule
  obtain ⟨reference, ranScalar, referenceCells⟩ :=
    scalarMatmul_eq aShaped bShaped
  refine ⟨final, reference, ran, ranScalar, ?_, ?_, ?_⟩
  · intro i j row column
    have cells := @correct.cells ⟨i % nThreads, Nat.mod_lt i threads⟩ i j rfl
      column
    rw [cells, referenceCells i j row column]
    by_cases written :
        Written (final.frames ⟨i % nThreads, Nat.mod_lt i threads⟩) i j
    · exact .inr (if_pos written)
    · exact .inl (if_neg written)
  · intro tid turns
    rw [frames]
    exact returned_of_turns turns
  · intro allReturned i j row column
    have cells := @correct.cells ⟨i % nThreads, Nat.mod_lt i threads⟩ i j rfl
      column
    have returned := allReturned ⟨i % nThreads, Nat.mod_lt i threads⟩
    rw [cells, referenceCells i j row column]
    exact if_pos (.inl (by omega))

/-- Two threads that take turns on one hardware context. -/
theorem threadedMatmul_correct_shared :
    let A : Mat := ⟨2, 2, fun i k => BitVec.ofNat 32 (2 * i + k + 1)⟩
    let B : Mat := ⟨2, 2, fun k j => BitVec.ofNat 32 (2 * k + j + 5)⟩
    let turns : List (Turn (Threads.savingKernel (Fin 2)) 2) :=
      (List.replicate 26
        [(0, Mulacc.firstContext), (1, Mulacc.firstContext)]).flatten
    ∃ final,
      threadedMatmul id A B 2 2 (Threads.freshAccs (Fin 2)) turns =
        some final ∧
      final.C.cells 0 1 = 22 ∧ final.C.cells 1 0 = 43 := by
  intro A B turns
  obtain ⟨final, reference, ran, ranScalar, _, returned, product⟩ :=
    @threadedMatmul_correct _ _ _ _ _ _ Threads.savingKernel_faithful A B 2 2
      ⟨rfl, rfl⟩ ⟨rfl, rfl⟩ Nat.zero_lt_two id Function.injective_id
      _ _ Threads.freshAccs_virtual (fun _ => rfl) turns
  have allReturned : ∀ tid, ¬(final.frames tid).i < 2 := by
    intro tid
    apply returned
    revert tid
    decide
  have first : (scalarMatmul A B (allocMat 2 2) 2 2).map
      (fun C => C.cells 0 1) = some 22 := rfl
  have second : (scalarMatmul A B (allocMat 2 2) 2 2).map
      (fun C => C.cells 1 0) = some 43 := rfl
  rw [ranScalar] at first second
  refine ⟨final, ran, ?_, ?_⟩
  · rw [product allReturned 0 1 (by decide) (by decide)]
    exact Option.some.inj first
  · rw [product allReturned 1 0 (by decide) (by decide)]
    exact Option.some.inj second

end CxRuntime.Matmul
