import CxRuntime.Lib.Loop
import CxRuntime.Threads.LogicalAccumulators

/-!
# Matrix product on threads

`mm_worker` and `scalar_matmul` of `tests/multi_thread_process_test.c`.  Each
thread accumulates on the logical context that `threaded_matmul` opened for it;
a scheduler decides which thread moves, and the kernel with which hardware
context.  A thread moves by one loop test, one custom instruction or one store
at a time.  Sizes are such that no loop counter overflows an `int`.
-/

namespace CxRuntime.Matmul

open Threads (mac reset readState)

/-- An `int **` of `alloc_mat`. -/
structure Mat where
  rows : Nat
  cols : Nat
  cells : Nat → Nat → Word

namespace Mat

def set (mat : Mat) (i j : Nat) (value : Word) : Mat :=
  { mat with
    cells := Function.update mat.cells i
      (Function.update (mat.cells i) j value) }

def load (mat : Mat) (i j : Nat) : Option Word :=
  if i < mat.rows ∧ j < mat.cols then some (mat.cells i j) else none

def store (mat : Mat) (i j : Nat) (value : Word) : Option Mat :=
  if i < mat.rows ∧ j < mat.cols then some (mat.set i j value) else none

/-- The shape of `alloc_mat(m, n)`. -/
structure Shaped (mat : Mat) (m n : Nat) : Prop where
  rows : mat.rows = n
  cols : mat.cols = m

end Mat

def allocMat (m n : Nat) : Mat :=
  { rows := n
    cols := m
    cells := fun _ _ => 0 }

def scalarMatmul (A B C : Mat) (m n : Nat) : Option Mat :=
  Loop.forUpTo m
    (fun i => Loop.forUpTo n
      (fun j => Loop.forUpTo m
        (fun k C => do
          let left ← A.load i k
          let right ← B.load k j
          let old ← C.load i j
          C.store i j (old + left * right))))
    C

/-! ## The workers -/

/-- The statement of the body of `mm_worker` that comes next. -/
inductive Pc where
  | mac (k : Nat)
  | read
  | write
  | reset
  deriving DecidableEq, Repr

structure Frame where
  i : Nat
  j : Nat
  pc : Pc
  deriving DecidableEq, Repr

def Frame.start (tid : Nat) : Frame := ⟨tid, 0, .mac 0⟩

/-- The control flow of `mm_worker`; it does not depend on data. -/
def Frame.next (m n nThreads : Nat) (frame : Frame) : Frame :=
  if frame.i < m then
    if frame.j < n then
      match frame.pc with
      | .mac k =>
          if k < m then { frame with pc := .mac (k + 1) }
          else { frame with pc := .read }
      | .read => { frame with pc := .write }
      | .write => { frame with pc := .reset }
      | .reset => ⟨frame.i, frame.j + 1, .mac 0⟩
    else ⟨frame.i + nThreads, 0, .mac 0⟩
  else frame

section Step

variable {κ : Type} (kernel : mulacc.Kernel κ)

/-- The logical contexts, the shared matrix `C`, and for each thread its loop
variables and the word that `CX_READ_STATE` returned. -/
structure Pool (nThreads : Nat) where
  accs : kernel.State
  C : Mat
  frames : Fin nThreads → Frame
  results : Fin nThreads → Word

/-- A thread, and the choice of the kernel if it executes an instruction. -/
abbrev Turn (nThreads : Nat) := Fin nThreads × kernel.Choice

variable {kernel} {nThreads : Nat} (cxSel : Fin nThreads → κ) (A B : Mat)
  (m n : Nat)

def cxReg (turn : Turn kernel nThreads) (instruction : mulacc.Instruction)
    (pool : Pool kernel nThreads) :
    Option (Returned × Pool kernel nThreads) :=
  (kernel.exec (cxSel turn.1) turn.2 instruction pool.accs).map fun answer =>
    (answer.1, { pool with accs := answer.2 })

/-- What the next statement of a thread does to everything but its frame. -/
def perform (turn : Turn kernel nThreads) (pool : Pool kernel nThreads) :
    Option (Pool kernel nThreads) :=
  let frame := pool.frames turn.1
  if frame.i < m ∧ frame.j < n then
    match frame.pc with
    | .mac k =>
        if k < m then do
          let left ← A.load frame.i k
          let right ← B.load k frame.j
          let answer ← cxReg cxSel turn (mac left right) pool
          some answer.2
        else some pool
    | .read => do
        let answer ← cxReg cxSel turn readState pool
        let word ← answer.1
        some { answer.2 with
          results := Function.update answer.2.results turn.1 word }
    | .write => do
        let C ← pool.C.store frame.i frame.j (pool.results turn.1)
        some { pool with C := C }
    | .reset => do
        let answer ← cxReg cxSel turn reset pool
        some answer.2
  else some pool

def step (pool : Pool kernel nThreads) (turn : Turn kernel nThreads) :
    Option (Pool kernel nThreads) :=
  (perform cxSel A B m n turn pool).map fun moved =>
    { moved with
      frames := Function.update moved.frames turn.1
        ((pool.frames turn.1).next m n nThreads) }

/-- Threads that have just been created over a zero matrix; `cxSel` are the
contexts that `cx_open` returned for them. -/
def threadedMatmul (accs : kernel.State)
    (schedule : List (Turn kernel nThreads)) : Option (Pool kernel nThreads) :=
  schedule.foldlM (step cxSel A B m n)
    { accs := accs
      C := allocMat m n
      frames := fun tid => .start tid
      results := fun _ => 0 }

end Step

end CxRuntime.Matmul
