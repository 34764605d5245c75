import CxRuntime.Nn.Layers
import Mathlib.Algebra.BigOperators.Group.Finset.Basic
import Mathlib.Data.BitVec
import Mathlib.Tactic.Linarith

/-!
# What a layer computes

The matrix a layer is meant to leave, as sums over the inner dimension, and the
loop rules that carry an implementation to it: all indices are inside the
arrays, and the unrolled inner loop adds one product after the other.
-/

namespace CxRuntime.Nn

/-- Where the statement for `p = k + t` reads `B`. -/
def rightAddress (n p j : Nat) : Nat :=
  if p % unrollFactor = 0 then p * n + j
  else p - p % unrollFactor + p % unrollFactor * n + j

def product (A B : Words) (n i j p : Nat) : Word :=
  A (i * n + p) * B (rightAddress n p j)

/-- The products of one element that the first statements have added. -/
def partialSum (A B : Words) (n i j count : Nat) : Word :=
  ∑ p ∈ Finset.range count, product A B n i j p

/-- The word a layer leaves at an address of `C`. -/
def layerValue (A : Words) (n : Nat) (B : Words) (address : Nat) : Word :=
  scalarMax 0 (partialSum A B n (address / n) (address % n) n)

theorem partialSum_zero (A B : Words) (n i j : Nat) :
    partialSum A B n i j 0 = 0 := Finset.sum_range_zero _

theorem partialSum_succ (A B : Words) (n i j count : Nat) :
    partialSum A B n i j (count + 1) =
      partialSum A B n i j count + product A B n i j count :=
  Finset.sum_range_succ ..

variable {n : Nat} (A B : Words)

theorem layerValue_rowMajor {j : Nat} (i : Nat) (column : j < n) :
    layerValue A n B (i * n + j) =
      scalarMax 0 (partialSum A B n i j n) := by
  have row : (i * n + j) / n = i := by
    rw [Nat.mul_comm, Nat.mul_add_div (by omega), Nat.div_eq_of_lt column,
      Nat.add_zero]
  have columnEq : (i * n + j) % n = j := by
    rw [Nat.mul_comm, Nat.mul_add_mod, Nat.mod_eq_of_lt column]
  rw [layerValue, row, columnEq]

/-! ## Indices -/

section Indices

variable {i j k t p : Nat}

theorem idx_eq (intSized : n * n < 2147483648) (row : i < n)
    (column : j < n) : idx i j n = some ((i * n + j : Nat) : Int) := by
  have inside := Cells.rowMajor_lt row column
  rw [idx, CInt.mul_natCast (by omega), Option.bind_eq_bind,
    Option.bind_some, CInt.add_natCast (by omega)]

theorem leftIdx_eq (intSized : n * n < 2147483648) (row : i < n)
    (inRow : k + t < n) :
    leftIdx i k t n = some ((i * n + (k + t) : Nat) : Int) := by
  have inside := Cells.rowMajor_lt row inRow
  rw [leftIdx, idx_eq intSized row (by omega), Option.bind_eq_bind,
    Option.bind_some, CInt.add_natCast (by omega), Nat.add_assoc]

/-- All addresses that the unbracketed macro makes are inside the matrix. -/
theorem rightAddress_lt (divides : unrollFactor ∣ n) (column : j < n)
    (below : p < n) : rightAddress n p j < n * n := by
  rw [rightAddress]
  split
  · exact Cells.rowMajor_lt below column
  · have few : p % unrollFactor < 4 := Nat.mod_lt p (by decide)
    have turn : p - p % unrollFactor + 4 ≤ n := by
      obtain ⟨turns, rfl⟩ := divides
      simp only [unrollFactor] at below ⊢
      omega
    have scaled : p % unrollFactor * n ≤ 3 * n :=
      Nat.mul_le_mul_right n (Nat.le_of_lt_succ few)
    have square : 5 * n ≤ n * n + 4 := by nlinarith
    omega

theorem rightIdx_eq (intSized : n * n < 2147483648)
    (divides : unrollFactor ∣ n) (column : j < n) (below : p < n) :
    rightIdx (p - p % unrollFactor : Nat) (p % unrollFactor : Nat) j n =
      some (rightAddress n p j : Int) := by
  have inside := rightAddress_lt divides column below
  by_cases first : p % unrollFactor = 0
  · have isFirst : ((p % unrollFactor : Nat) : Int) = 0 := by omega
    rw [rightIdx, if_pos isFirst, first, Nat.sub_zero,
      idx_eq intSized below column, rightAddress, if_pos first]
  · have notFirst : ¬((p % unrollFactor : Nat) : Int) = 0 := by omega
    rw [rightAddress, if_neg first] at inside
    rw [rightIdx, if_neg notFirst, CInt.mul_natCast (by omega),
      Option.bind_eq_bind, Option.bind_some, CInt.add_natCast (by omega),
      Option.bind_some, CInt.add_natCast (by omega), rightAddress,
      if_neg first]

theorem operands_eq (intSized : n * n < 2147483648)
    (divides : unrollFactor ∣ n) (row : i < n) (column : j < n)
    (below : p < n) :
    operands (n * n) A B n i j (p - p % unrollFactor) (p % unrollFactor) =
      some (A (i * n + p), B (rightAddress n p j)) := by
  have whole : p - p % unrollFactor + p % unrollFactor = p :=
    Nat.sub_add_cancel (Nat.mod_le p unrollFactor)
  have leftEq := leftIdx_eq intSized row (whole.symm ▸ below)
  rw [whole] at leftEq
  simp only [operands, leftEq, rightIdx_eq intSized divides column below,
    Option.bind_eq_bind, Option.bind_some,
    Cells.load_natCast A (Cells.rowMajor_lt row below),
    Cells.load_natCast B (rightAddress_lt divides column below)]

end Indices

/-! ## The inner loop -/

/-- An invariant that each statement carries from one product to the next. -/
theorem kLoop_total {τ : Type} (divides : unrollFactor ∣ n)
    (statement : Nat → Nat → τ → Option τ) (start : τ)
    (invariant : Nat → τ → Prop) (initial : invariant 0 start)
    (step : ∀ p state, p < n → invariant p state →
      ∃ next, statement (p - p % unrollFactor) (p % unrollFactor) state =
          some next ∧
        invariant (p + 1) next) :
    ∃ final, kLoop n statement start = some final ∧ invariant n final := by
  apply Loop.forStride_total (by decide) divides _ start invariant initial
  intro k state turn full held
  change k + 4 ≤ n at full
  have next : ∀ t state, t < 4 → invariant (k + t) state →
      ∃ next, statement k t state = some next ∧
        invariant (k + (t + 1)) next := by
    intro t state few held
    have isT : (k + t) % unrollFactor = t := by
      rw [Nat.add_mod, Nat.mod_eq_zero_of_dvd turn, Nat.zero_add, Nat.mod_mod,
        Nat.mod_eq_of_lt few]
    have stepped := step (k + t) state (by omega) held
    rwa [isT, Nat.add_sub_cancel] at stepped
  obtain ⟨first, ranFirst, heldFirst⟩ := next 0 state (by decide) held
  obtain ⟨second, ranSecond, heldSecond⟩ := next 1 first (by decide) heldFirst
  obtain ⟨third, ranThird, heldThird⟩ := next 2 second (by decide) heldSecond
  obtain ⟨fourth, ranFourth, heldFourth⟩ := next 3 third (by decide) heldThird
  refine ⟨fourth, ?_, heldFourth⟩
  simp only [unrolled, ranFirst, ranSecond, ranThird, ranFourth,
    Option.bind_eq_bind, Option.bind_some]

end CxRuntime.Nn
