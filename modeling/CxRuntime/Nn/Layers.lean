import CxRuntime.Lib.CInt
import CxRuntime.Lib.Cells
import CxRuntime.Runtime.Machine
import CxRuntime.Zoo.Exports

/-!
# Neural-network layers

The three layer functions of `tests/nn.c` and the loop of `run_nn` that chains
them.  The matrices are arrays of `size` words; an access outside them, and an
index that is no `int`, is `none`.  Sums and products of elements wrap.
-/

namespace CxRuntime.Nn

/-- The words of a matrix. -/
abbrev Words := Nat → Word

abbrev unrollFactor : Nat := 4

/-! ## Indices -/

/-- `IDX(i, j, n)` on plain arguments. -/
def idx (i j n : Int) : Option Int := do
  let start ← CInt.mul i n
  CInt.add start j

/-- `IDX(i, k + t, n)` is `i * n + k + t`. -/
def leftIdx (i k t n : Int) : Option Int := do
  let start ← idx i k n
  CInt.add start t

/-- `IDX(k + t, j, n)` is `k + t * n + j`, since the macro does not bracket its
arguments. -/
def rightIdx (k t j n : Int) : Option Int :=
  if t = 0 then idx k j n
  else do
    let scaled ← CInt.mul t n
    let start ← CInt.add k scaled
    CInt.add start j

/-! ## The loops -/

variable {τ σ : Type}

/-- The statements for `k`, `k + 1`, `k + 2` and `k + 3`. -/
def unrolled (statement : Nat → τ → Option τ) (state : τ) : Option τ := do
  let state ← statement 0 state
  let state ← statement 1 state
  let state ← statement 2 state
  statement 3 state

def kLoop (n : Nat) (statement : Nat → Nat → τ → Option τ) (start : τ) :
    Option τ :=
  Loop.forStride n unrollFactor (fun k => unrolled (statement k)) start

/-- `A[IDX(i, k + t, n)]` and `B[IDX(k + t, j, n)]`. -/
def operands (size : Nat) (A B : Words) (n i j k t : Nat) :
    Option (Word × Word) := do
  let left ← leftIdx i k t n
  let right ← rightIdx k t j n
  let leftWord ← Cells.load size A left
  let rightWord ← Cells.load size B right
  some (leftWord, rightWord)

def scalarMax (a b : Word) : Word := if b.slt a then a else b

/-- `C[IDX(i, j, n)] += A[IDX(i, k + t, n)] * B[IDX(k + t, j, n)]`. -/
def scalarStatement (size : Nat) (A B : Words) (n i j k t : Nat)
    (C : Words) : Option Words := do
  let target ← idx i j n
  let (left, right) ← operands size A B n i j k t
  let old ← Cells.load size C target
  Cells.store size C target (old + left * right)

def scalarElement (size : Nat) (A B : Words) (n i j : Nat) (C : Words) :
    Option Words := do
  let C ← kLoop n (scalarStatement size A B n i j) C
  let target ← idx i j n
  let sum ← Cells.load size C target
  Cells.store size C target (scalarMax 0 sum)

def nnLayerScalar (size : Nat) (A B C : Words) (m n : Nat) : Option Words :=
  Loop.forUpTo n
    (fun i => Loop.forUpTo m fun j => scalarElement size A B n i j) C

/-! ## The instructions of the headers -/

/-- `CX_REG_HELPER` with a used result. -/
def cxRegHelper (platform : Platform σ) (cfId : Nat) (rs1 rs2 : Word)
    (machine : Machine σ) : Option (Word × Machine σ) := do
  let (returned, machine) ← machine.cxReg platform cfId rs1 rs2
  let result ← returned
  some (result, machine)

section Instructions

variable (platform : Platform σ)

def mac (a b : Word) : Machine σ → Option (Word × Machine σ) :=
  cxRegHelper platform 0 a b

def reset : Machine σ → Option (Word × Machine σ) := cxRegHelper platform 1 0 0

def readAcc : Machine σ → Option (Word × Machine σ) :=
  cxRegHelper platform 4 0 0

def max (a b : Word) : Machine σ → Option (Word × Machine σ) :=
  cxRegHelper platform 0 a b

def nnAcc (a b : Word) : Machine σ → Option (Word × Machine σ) :=
  cxRegHelper platform 0 a b

def nnRelu : Machine σ → Option (Word × Machine σ) :=
  cxRegHelper platform 2 0 0

end Instructions

/-! ## The layers on the accelerators -/

/-- The matrix that a layer fills and the machine it runs on. -/
abbrev Bench (σ : Type) := Words × Machine σ

/-- `instruction(A[IDX(i, k + t, n)], B[IDX(k + t, j, n)])`. -/
def accumulate
    (instruction : Word → Word → Machine σ → Option (Word × Machine σ))
    (size : Nat) (A B : Words) (n i j k t : Nat) (bench : Bench σ) :
    Option (Bench σ) := do
  let (left, right) ← operands size A B n i j k t
  let (_, machine) ← instruction left right bench.2
  some (bench.1, machine)

def macReluElement (platform : Platform σ) (size : Nat) (A B : Words)
    (n : Nat) (macSel maxSel : Word) (i j : Nat) (bench : Bench σ) :
    Option (Bench σ) := do
  let (C, machine) ← kLoop n (accumulate (mac platform) size A B n i j) bench
  let target ← idx i j n
  let (acc, machine) ← readAcc platform machine
  let C ← Cells.store size C target acc
  let machine := machine.cxSel maxSel
  let sum ← Cells.load size C target
  let (larger, machine) ← max platform 0 sum machine
  let C ← Cells.store size C target larger
  some (C, machine.cxSel macSel)

def nnLayerMacRelu (platform : Platform σ) (size : Nat) (A B : Words)
    (n : Nat) (macSel maxSel : Word) (bench : Bench σ) :
    Option (Bench σ) := do
  let (_, machine) ← reset platform (bench.2.cxSel macSel)
  Loop.forUpTo n
    (fun i => Loop.forUpTo n fun j =>
      macReluElement platform size A B n macSel maxSel i j)
    (bench.1, machine)

def nnAccElement (platform : Platform σ) (size : Nat) (A B : Words)
    (n i j : Nat) (bench : Bench σ) : Option (Bench σ) := do
  let (_, machine) ← reset platform bench.2
  let (C, machine) ← kLoop n (accumulate (nnAcc platform) size A B n i j)
    (bench.1, machine)
  let target ← idx i j n
  let (result, machine) ← nnRelu platform machine
  let C ← Cells.store size C target result
  some (C, machine)

def nnLayerNnAcc (platform : Platform σ) (size : Nat) (A B : Words)
    (n : Nat) (nnSel : Word) (bench : Bench σ) : Option (Bench σ) :=
  Loop.forUpTo n
    (fun i => Loop.forUpTo n fun j => nnAccElement platform size A B n i j)
    (bench.1, bench.2.cxSel nnSel)

/-! ## The chain of layers -/

/-- `memcpy` of `size` words. -/
def memcpy (size : Nat) (destination source : Words) : Words :=
  Cells.overwrite destination 0 size source

/-- `memset` of `size` words to zero. -/
def memsetZero (size : Nat) (destination : Words) : Words :=
  Cells.overwrite destination 0 size fun _ => 0

/-- One turn of the loop in `run_nn`: the last layer leaves its matrix in `C`,
every other one passes it on in `B`. -/
def layerTurn (size nLayers : Nat)
    (layer : Words → Words × τ → Option (Words × τ)) (i : Nat)
    (state : Words × Words × τ) : Option (Words × Words × τ) := do
  let (C, rest) ← layer state.1 state.2
  if i = nLayers - 1 then some (state.1, C, rest)
  else some (memcpy size state.1 C, memsetZero size C, rest)

/-- The loop over the layers in `run_nn`. -/
def runLayers (size nLayers : Nat)
    (layer : Words → Words × τ → Option (Words × τ)) (B C : Words)
    (rest : τ) : Option (Words × Words × τ) :=
  Loop.forUpTo nLayers (layerTurn size nLayers layer) (B, C, rest)

end CxRuntime.Nn
