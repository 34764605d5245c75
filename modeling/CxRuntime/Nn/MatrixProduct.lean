import CxRuntime.Nn.LayersAgree

/-!
# Layers against the matrix product

A layer is meant to leave the matrix product with its negative elements set to
zero.  The unbracketed index macro makes three of four statements read another
row of `B`, from the second turn of the inner loop on; what that does to an
element decides whether it is the right one.
-/

namespace CxRuntime.Nn

/-- The element of the matrix product, wrapping. -/
def dotProduct (A B : Words) (n i j : Nat) : Word :=
  ∑ k ∈ Finset.range n, A (i * n + k) * B (k * n + j)

def relu (sum : Word) : Word := if sum.toInt < 0 then 0 else sum

/-- The layer finishes and every element is the clamped product. -/
def LeavesReluProduct (A B : Words) (n : Nat) (left : Option Words) : Prop :=
  ∃ C, left = some C ∧
    ∀ i j, i < n → j < n → C (i * n + j) = relu (dotProduct A B n i j)

/-! ## Rows read in place of others -/

/-- The statement for `p` comes after the first turn and is not the first of
its turn. -/
def Misread (p : Nat) : Prop := unrollFactor ≤ p ∧ p % unrollFactor ≠ 0

instance (p : Nat) : Decidable (Misread p) :=
  inferInstanceAs (Decidable (_ ∧ _))

/-- With `p = k + t` the macro gives `k + t * n + j` for `(k + t) * n + j`. -/
theorem rightAddress_eq_iff {n : Nat} (several : 1 < n) (p j : Nat) :
    rightAddress n p j = p * n + j ↔ ¬Misread p := by
  have turn : p - p % 4 = 4 * (p / 4) := by omega
  have rows : p * n = 4 * (p / 4) * n + p % 4 * n := by
    rw [← Nat.add_mul, Nat.div_add_mod]
  change (if p % 4 = 0 then p * n + j else p - p % 4 + p % 4 * n + j) =
    p * n + j ↔ ¬(4 ≤ p ∧ p % 4 ≠ 0)
  split_ifs with first
  · simp [first]
  · rw [turn, rows]
    by_cases firstTurn : p / 4 = 0
    · simp only [firstTurn]
      omega
    · have larger : 4 * (p / 4) * 1 < 4 * (p / 4) * n :=
        Nat.mul_lt_mul_of_pos_left several (by omega)
      omega

/-- What the misread rows add to an element. -/
def misreadSum (A B : Words) (n i j : Nat) : Word :=
  ∑ p ∈ (Finset.range n).filter Misread,
    A (i * n + p) * (B (rightAddress n p j) - B (p * n + j))

theorem partialSum_eq (A B : Words) {n : Nat} (several : 1 < n) (i j : Nat) :
    partialSum A B n i j n =
      dotProduct A B n i j + misreadSum A B n i j := by
  rw [partialSum, dotProduct, misreadSum, Finset.sum_filter,
    ← Finset.sum_add_distrib]
  apply Finset.sum_congr rfl
  intro p _
  rw [product]
  split_ifs with misread
  · ring
  · rw [(rightAddress_eq_iff several p j).mpr misread, add_zero]

/-- The misread rows add nothing, or the product is clamped with and without
them. -/
def Harmless (A B : Words) (n i j : Nat) : Prop :=
  misreadSum A B n i j = 0 ∨
    ((dotProduct A B n i j).toInt ≤ 0 ∧
      (dotProduct A B n i j + misreadSum A B n i j).toInt ≤ 0)

theorem scalarMax_zero (sum : Word) : scalarMax 0 sum = relu sum := by
  rw [scalarMax, relu]
  simp [BitVec.slt]

private theorem relu_eq_iff (left right : Word) :
    relu left = relu right ↔
      left = right ∨ left.toInt ≤ 0 ∧ right.toInt ≤ 0 := by
  have clamped : ∀ sum : Word,
      (relu sum).toInt = if sum.toInt < 0 then 0 else sum.toInt := by
    intro sum
    rw [relu]
    split_ifs <;> rfl
  rw [← BitVec.toInt_inj, ← BitVec.toInt_inj, clamped, clamped]
  split_ifs <;> omega

section Elements

variable {n i j : Nat} (divides : unrollFactor ∣ n) (A B C : Words)
include divides

private theorem element_relu_iff (row : i < n) (column : j < n) :
    Cells.overwrite C 0 (n * n) (layerValue A n B) (i * n + j) =
        relu (dotProduct A B n i j) ↔
      Harmless A B n i j := by
  have several : 1 < n := Nat.lt_of_lt_of_le (show 1 < 4 by decide)
    (Nat.le_of_dvd (Nat.zero_lt_of_lt row) divides)
  have left := @Cells.overwrite_inside _ C 0 _ _
    (Cells.rowMajor_lt row column) (layerValue A n B)
  rw [Nat.zero_add] at left
  rw [left, layerValue_rowMajor A B i column, scalarMax_zero,
    partialSum_eq A B several, relu_eq_iff, add_eq_left, Harmless, and_comm]

private theorem layerValue_relu_iff :
    (∀ i j, i < n → j < n →
      Cells.overwrite C 0 (n * n) (layerValue A n B) (i * n + j) =
        relu (dotProduct A B n i j)) ↔
      ∀ i j, i < n → j < n → Harmless A B n i j := by
  constructor
  · intro correct i j row column
    apply (element_relu_iff divides A B C row column).mp
    exact correct i j row column
  · intro harmless i j row column
    apply (element_relu_iff divides A B C row column).mpr
    exact harmless i j row column

end Elements

/-! ## Matrices too large for an `int` index -/

/-- The loops over the elements do not finish if the last row faults. -/
theorem rows_none {τ : Type} {n : Nat} (some_row : 0 < n)
    (element : Nat → Nat → τ → Option τ)
    (faults : ∀ j state, element (n - 1) j state = none) (start : τ) :
    Loop.forUpTo n (fun i => Loop.forUpTo n (element i)) start = none := by
  apply Loop.forUpTo_none_at (show n - 1 < n by omega)
  intro rowStart
  apply Loop.forUpTo_none_at some_row
  intro state
  exact faults 0 state

theorem kLoop_none {τ : Type} {n : Nat} (some_row : 0 < n)
    (statement : Nat → Nat → τ → Option τ)
    (faults : ∀ k t state, statement k t state = none) (start : τ) :
    kLoop n statement start = none := by
  have some_turn : 0 < (n + unrollFactor - 1) / unrollFactor := by
    apply Nat.div_pos _ (by decide)
    simp only [unrollFactor]
    omega
  apply Loop.forUpTo_none_at some_turn
  intro state
  simp only [unrolled, faults, Option.bind_eq_bind, Option.bind_none]

theorem some_row_of_large {n : Nat} (large : 2147483648 ≤ n * n) : 0 < n := by
  apply Nat.pos_of_ne_zero
  rintro rfl
  omega

section Overflow

variable {n : Nat} (large : 2147483648 ≤ n * n) (divides : unrollFactor ∣ n)
include large divides

private theorem lastRow_overflow : 2147483648 ≤ (n - 1) * n := by
  have atLeast : 46341 ≤ n := by
    by_contra below
    have small : n * n ≤ 46340 * 46340 :=
      Nat.mul_le_mul (by omega) (by omega)
    omega
  have next : 46344 ≤ n := by
    obtain ⟨turns, rfl⟩ := divides
    simp only [unrollFactor] at atLeast ⊢
    omega
  have product : 46343 * 46344 ≤ (n - 1) * n :=
    Nat.mul_le_mul (by omega) next
  omega

theorem idx_overflow (j : Int) : idx (n - 1 : Nat) j n = none := by
  rw [idx, CInt.mul_overflow (lastRow_overflow large divides),
    Option.bind_eq_bind, Option.bind_none]

private theorem operands_overflow (size : Nat) (A B : Words) (j k t : Nat) :
    operands size A B n (n - 1) j k t = none := by
  simp only [operands, leftIdx, idx_overflow large divides,
    Option.bind_eq_bind, Option.bind_none]

private theorem nnLayerScalar_overflow (A B C : Words) :
    nnLayerScalar (n * n) A B C n n = none := by
  have some_row := some_row_of_large large
  apply rows_none some_row
  intro j state
  have ran := kLoop_none some_row
    (scalarStatement (n * n) A B n (n - 1) j)
    (by
      intro k t state
      simp only [scalarStatement, idx_overflow large divides,
        Option.bind_eq_bind, Option.bind_none])
    state
  simp only [scalarElement, ran, Option.bind_eq_bind, Option.bind_none]

private theorem nnLayerMacRelu_overflow (platform : Platform ZooStatics)
    (A B C : Words) (macSel maxSel : Word) (machine : Machine ZooStatics) :
    nnLayerMacRelu platform (n * n) A B n macSel maxSel (C, machine) =
      none := by
  have some_row := some_row_of_large large
  have ran := rows_none some_row
    (macReluElement platform (n * n) A B n macSel maxSel)
    (by
      intro j state
      have ran := kLoop_none some_row
        (accumulate (mac platform) (n * n) A B n (n - 1) j)
        (by
          intro k t state
          simp only [accumulate, operands_overflow large divides,
            Option.bind_eq_bind, Option.bind_none])
        state
      simp only [macReluElement, ran, Option.bind_eq_bind, Option.bind_none])
  simp only [nnLayerMacRelu, Option.bind_eq_bind]
  cases reset platform (machine.cxSel macSel) with
  | none => rfl
  | some cleared => exact ran _

end Overflow

/-! ## The layers -/

/-- Every index is an `int`, and reading other rows spoils no element. -/
def MisreadsHarmless (A B : Words) (n : Nat) : Prop :=
  n * n < 2147483648 ∧ ∀ i j, i < n → j < n → Harmless A B n i j

/-- In a 4 x 4 matrix the inner loop has one turn. -/
theorem misreadsHarmless_four (A B : Words) : MisreadsHarmless A B 4 := by
  refine ⟨by decide, ?_⟩
  intro i j _ _
  left
  apply Finset.sum_eq_zero
  intro p member
  obtain ⟨below, late, _⟩ := Finset.mem_filter.mp member
  exact absurd (Finset.mem_range.mp below) (Nat.not_lt_of_le late)

def oneAt (position : Nat) : Words :=
  fun address => if address = position then 1 else 0

/-- A 1 in column 5 of `A` multiplies `B[1 * n + 4]` and not `B[5 * n]`. -/
theorem misread_oneAt {n : Nat} (large : 8 ≤ n) :
    dotProduct (oneAt 5) (oneAt (n + 4)) n 0 0 = 0 ∧
      misreadSum (oneAt 5) (oneAt (n + 4)) n 0 0 = 1 := by
  have elsewhere : ∀ p, p ≠ 5 → oneAt 5 (0 * n + p) = 0 := by
    intro p different
    rw [Nat.zero_mul, Nat.zero_add]
    exact if_neg different
  have rightRow : oneAt (n + 4) (5 * n + 0) = 0 := by
    apply if_neg
    omega
  have readRow : oneAt (n + 4) (rightAddress n 5 0) = 1 := by
    apply if_pos
    change 5 - 5 % 4 + 5 % 4 * n + 0 = n + 4
    omega
  constructor
  · apply Finset.sum_eq_zero
    intro p _
    by_cases isFifth : p = 5
    · rw [isFifth, rightRow, mul_zero]
    · rw [elsewhere p isFifth, zero_mul]
  · rw [misreadSum, Finset.sum_eq_single_of_mem 5]
    · rw [readRow, rightRow]
      simp [oneAt]
    · apply Finset.mem_filter.mpr
      exact ⟨Finset.mem_range.mpr (by omega), by decide⟩
    · intro p _ different
      rw [elsewhere p different, zero_mul]

theorem not_misreadsHarmless_oneAt {n : Nat} (large : 8 ≤ n) :
    ¬MisreadsHarmless (oneAt 5) (oneAt (n + 4)) n := by
  intro harmless
  obtain ⟨noProduct, isOne⟩ := misread_oneAt large
  have first := harmless.2 0 0 (by omega) (by omega)
  rw [Harmless, noProduct, isOne] at first
  exact absurd first (by decide)

/-- Only on 4 x 4 matrices are the misread rows harmless whatever they hold. -/
theorem always_misreadsHarmless_iff {n : Nat} (some_row : 0 < n)
    (divides : unrollFactor ∣ n) :
    (∀ A B, MisreadsHarmless A B n) ↔ n = 4 := by
  constructor
  · intro always
    by_contra other
    have large : 8 ≤ n := by
      obtain ⟨turns, rfl⟩ := divides
      simp only [unrollFactor] at some_row other ⊢
      omega
    exact not_misreadsHarmless_oneAt large (always _ _)
  · rintro rfl A B
    exact misreadsHarmless_four A B

section Layers

variable {n : Nat} (divides : unrollFactor ∣ n) (A B : Words)
include divides

/-- A layer that leaves `layerValue` where it is defined at all. -/
theorem leavesReluProduct_iff {left : Option Words} (C : Words)
    (fits : n * n < 2147483648 →
      left = some (Cells.overwrite C 0 (n * n) (layerValue A n B)))
    (overflows : 2147483648 ≤ n * n → left = none) :
    LeavesReluProduct A B n left ↔ MisreadsHarmless A B n := by
  by_cases intSized : n * n < 2147483648
  · rw [fits intSized, MisreadsHarmless, ← layerValue_relu_iff divides A B C]
    simp [LeavesReluProduct, intSized]
  · rw [overflows (Nat.le_of_not_lt intSized)]
    simp [LeavesReluProduct, MisreadsHarmless, intSized]

theorem scalar_leavesReluProduct_iff (C : Words)
    (zero : ∀ address < n * n, C address = 0) :
    LeavesReluProduct A B n (nnLayerScalar (n * n) A B C n n) ↔
      MisreadsHarmless A B n := by
  apply leavesReluProduct_iff divides A B C
  · intro intSized
    exact nnLayerScalar_eq A B C intSized divides zero
  · intro large
    exact nnLayerScalar_overflow large divides A B C

theorem macRelu_leavesReluProduct_iff {platform : Platform ZooStatics}
    (applies : AppliesFuncs platform) {macSel maxSel : Word}
    {context : Mulacc.Context}
    (located : Mulacc.contextOf (.ofIdx macSel) = some context)
    (isMax : (CxSelidx.ofIdx maxSel).cxId.toNat = 6) (C : Words)
    (machine : Machine ZooStatics) :
    LeavesReluProduct A B n
        ((nnLayerMacRelu platform (n * n) A B n macSel maxSel
          (C, machine)).map Prod.fst) ↔
      MisreadsHarmless A B n := by
  apply leavesReluProduct_iff divides A B C
  · intro intSized
    obtain ⟨next, ran⟩ := nnLayerMacRelu_eq A B C applies intSized divides
      located isMax machine
    rw [ran, Option.map_some]
  · intro large
    rw [nnLayerMacRelu_overflow large divides, Option.map_none]

end Layers

/-- On all matrices the scalar layer and the layer on the multiply-accumulate
and max CXUs leave the clamped product exactly if the misread rows are
harmless. -/
theorem layers_leaveReluProduct_iff {platform : Platform ZooStatics}
    (applies : AppliesFuncs platform) {macSel maxSel : Word}
    {context : Mulacc.Context}
    (located : Mulacc.contextOf (.ofIdx macSel) = some context)
    (isMax : (CxSelidx.ofIdx maxSel).cxId.toNat = 6) {n : Nat}
    (divides : unrollFactor ∣ n) (A B C cleared : Words)
    (zero : ∀ address < n * n, cleared address = 0)
    (machine : Machine ZooStatics) :
    (LeavesReluProduct A B n
        ((nnLayerMacRelu platform (n * n) A B n macSel maxSel
          (C, machine)).map Prod.fst) ↔
      MisreadsHarmless A B n) ∧
    (LeavesReluProduct A B n (nnLayerScalar (n * n) A B cleared n n) ↔
      MisreadsHarmless A B n) :=
  ⟨macRelu_leavesReluProduct_iff divides A B applies located isMax C machine,
    scalar_leavesReluProduct_iff divides A B cleared zero⟩

/-- In 8 x 8 matrices of ones the misread rows are like the others. -/
theorem layers_leaveReluProduct_ones :
    LeavesReluProduct (fun _ => 1) (fun _ => 1) 8
        ((nnLayerMacRelu zooPlatform (8 * 8) (fun _ => 1) (fun _ => 1) 8
          0x10000002 0x10000006
          (fun _ => 7, cxInit sourceConfig cxInitFuncs)).map Prod.fst) ∧
      LeavesReluProduct (fun _ => 1) (fun _ => 1) 8
        (nnLayerScalar (8 * 8) (fun _ => 1) (fun _ => 1) (fun _ => 0) 8 8) ∧
      ¬LeavesReluProduct (oneAt 5) (oneAt 12) 8
        (nnLayerScalar (8 * 8) (oneAt 5) (oneAt 12) (fun _ => 0) 8 8) := by
  have layers_iff := fun A B C => @layers_leaveReluProduct_iff zooPlatform
    zooPlatform_appliesFuncs 0x10000002 0x10000006 Mulacc.firstContext
    Mulacc.firstSel_located rfl 8 (by decide) A B C (fun _ => 0)
    (fun _ _ => rfl) (cxInit sourceConfig cxInitFuncs)
  have harmless : MisreadsHarmless (fun _ => 1) (fun _ => 1) 8 := by
    refine ⟨by decide, ?_⟩
    intro i j _ _
    left
    apply Finset.sum_eq_zero
    intro p _
    rw [sub_self, mul_zero]
  have harmed := not_misreadsHarmless_oneAt (Nat.le_refl 8)
  refine ⟨(layers_iff _ _ _).1.mpr harmless, (layers_iff _ _ fun _ => 0).2.mpr
    harmless, ?_⟩
  rw [(layers_iff _ _ fun _ => 0).2]
  exact harmed

/-- On these 8 x 8 matrices both layers leave 1 for a product of 0. -/
theorem layers_eight_misread :
    dotProduct (oneAt 5) (oneAt 12) 8 0 0 = 0 ∧
      layerValue (oneAt 5) 8 (oneAt 12) 0 = 1 ∧
      ¬LeavesReluProduct (oneAt 5) (oneAt 12) 8
        ((nnLayerMacRelu zooPlatform (8 * 8) (oneAt 5) (oneAt 12) 8
          0x10000002 0x10000006
          (fun _ => 0, cxInit sourceConfig cxInitFuncs)).map Prod.fst) ∧
      ¬LeavesReluProduct (oneAt 5) (oneAt 12) 8
        (nnLayerScalar (8 * 8) (oneAt 5) (oneAt 12) (fun _ => 0) 8 8) := by
  have harmed := not_misreadsHarmless_oneAt (Nat.le_refl 8)
  have divides : unrollFactor ∣ 8 := by decide
  obtain ⟨noProduct, isOne⟩ := misread_oneAt (Nat.le_refl 8)
  refine ⟨noProduct, ?_, ?_, ?_⟩
  · have value := layerValue_rowMajor (oneAt 5) (oneAt 12) 0
      (show 0 < 8 by decide)
    rw [scalarMax_zero, partialSum_eq _ _ (by decide), noProduct, isOne]
      at value
    exact value
  · rw [macRelu_leavesReluProduct_iff divides _ _ zooPlatform_appliesFuncs
      Mulacc.firstSel_located rfl]
    exact harmed
  · rw [scalar_leavesReluProduct_iff divides _ _ _ (fun _ _ => rfl)]
    exact harmed

end CxRuntime.Nn
