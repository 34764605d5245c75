import CxRuntime.Nn.OneLayer

/-!
# When the layers stay inside the matrices

The inner loops advance by four columns and read all four of them.  If four does
not divide the size, the last turn on the last row reads `A[n * n]`, the word
after the end of `A`, unless a read of `B` has left the matrix before (for sizes
2 and 3 one on the first row does).
-/

namespace CxRuntime.Nn

/-! ## A last turn that is not full -/

section Faults

variable {τ : Type} {n j : Nat}

end Faults

/-! ## The three layers -/

section Layers

variable {n : Nat} (intSized : n * n < 2147483648) (A B : Words)
include intSized

variable (divides : ¬unrollFactor ∣ n)
include divides

end Layers

end CxRuntime.Nn
