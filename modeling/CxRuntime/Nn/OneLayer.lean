import CxRuntime.Nn.LayerValue

/-!
# One layer

Each of the three implementations leaves `layerValue` in every element of `C`.
On the accelerators the invariant of a layer is what the accumulator of the
selected context holds; everything else in the machine is arbitrary.
-/

namespace CxRuntime.Nn

/-- `cx_reg` applies the function of the selected CXU. -/
def AppliesFuncs (platform : Platform ZooStatics) : Prop :=
  ∀ cxSel cfId rs1 rs2 zoo, platform.cxReg cxSel cfId rs1 rs2 zoo =
    callFunc (.ofIdx cxSel) ⟨cfId, rs1, rs2⟩ zoo

/-- The eight CXUs, hardware initialisation only. -/
def zooPlatform : Platform ZooStatics :=
  { cxReg := fun cxSel cfId rs1 rs2 =>
      callFunc (.ofIdx cxSel) ⟨cfId, rs1, rs2⟩
    cxInitial := CxCs.preclean.word
    getCxInitializer := fun _ => 0 }

theorem zooPlatform_appliesFuncs : AppliesFuncs zooPlatform :=
  fun _ _ _ _ _ => rfl

variable {platform : Platform ZooStatics} {machine : Machine ZooStatics}

theorem cxRegHelper_eq (applies : AppliesFuncs platform) {cfId : Nat}
    {rs1 rs2 result : Word} {zoo : ZooStatics}
    (called : callFunc (.ofIdx machine.mcxSelector) ⟨cfId, rs1, rs2⟩
      machine.cxus = some (some result, zoo)) :
    cxRegHelper platform cfId rs1 rs2 machine =
      some (result, { machine with cxus := zoo }) := by
  have answered := applies machine.mcxSelector cfId rs1 rs2 machine.cxus
  rw [called] at answered
  simp only [cxRegHelper, Machine.cxReg, answered, Option.map_some,
    Option.bind_eq_bind, Option.bind_some]

/-! ## Accumulator contexts -/

/-- A context of an accumulator CXU, seen through a selector. -/
structure AccSlot (κ : Type) [DecidableEq κ] where
  sel : Word
  contextOf : CxSelidx → Option κ
  context : κ
  located : contextOf (.ofIdx sel) = some context
  statics : ZooStatics → AccStatics κ
  put : ZooStatics → AccStatics κ → ZooStatics
  statics_put : ∀ zoo after, statics (put zoo after) = after
  table : Nat → Option (CxFunc (AccStatics κ))
  call_eq : ∀ cfCall zoo, callFunc (.ofIdx sel) cfCall zoo =
    ((table cfCall.cfId).bind fun func =>
      func cfCall.a cfCall.b (.ofIdx sel) (statics zoo)).map fun answer =>
        (answer.1, put zoo answer.2)
  accumulate_entry : table 0 = some (Accumulator.accumulateFunc contextOf)
  reset_entry : table 1 = some (Accumulator.resetFunc contextOf)

namespace AccSlot

variable {κ : Type} [DecidableEq κ] (slot : AccSlot κ)

/-- The context is selected and its accumulator has this value. -/
structure Holds (acc : Word) (machine : Machine ZooStatics) : Prop where
  selected : machine.mcxSelector = slot.sel
  acc_eq : (slot.statics machine.cxus).data slot.context = acc

theorem instruction (applies : AppliesFuncs platform) {cfId : Nat}
    {func : CxFunc (AccStatics κ)} (entry : slot.table cfId = some func)
    (selected : machine.mcxSelector = slot.sel) {a b result value : Word}
    {after : AccStatics κ}
    (ran : func a b (.ofIdx slot.sel) (slot.statics machine.cxus) =
      some (some result, after))
    (left : after.data slot.context = value) :
    ∃ next, cxRegHelper platform cfId a b machine = some (result, next) ∧
      slot.Holds value next := by
  have called : callFunc (.ofIdx machine.mcxSelector) ⟨cfId, a, b⟩
      machine.cxus = some (some result, slot.put machine.cxus after) := by
    rw [selected, slot.call_eq]
    simp only [entry, Option.bind_some, ran, Option.map_some]
  refine ⟨_, cxRegHelper_eq applies called, selected, ?_⟩
  rw [slot.statics_put, left]

variable {slot}

private theorem accumulated (applies : AppliesFuncs platform) {acc : Word}
    (held : slot.Holds acc machine) (a b : Word) :
    ∃ result next, cxRegHelper platform 0 a b machine =
        some (result, next) ∧
      slot.Holds (acc + a * b) next := by
  refine ⟨_, slot.instruction applies slot.accumulate_entry held.selected
    (Accumulator.accumulateFunc_eq slot.located a b _) ?_⟩
  rw [Accumulator.setAcc_same, held.acc_eq]

variable (slot) in
theorem wasReset (applies : AppliesFuncs platform)
    (selected : machine.mcxSelector = slot.sel) :
    ∃ result next, reset platform machine = some (result, next) ∧
      slot.Holds 0 next :=
  ⟨_, slot.instruction applies slot.reset_entry selected
    (Accumulator.resetFunc_eq slot.located 0 0 _)
    (Accumulator.setAcc_same ..)⟩

/-- The inner loop adds the products of one element to a cleared accumulator. -/
theorem kLoop_accumulate (applies : AppliesFuncs platform) {n i j : Nat}
    (intSized : n * n < 2147483648) (divides : unrollFactor ∣ n)
    (row : i < n) (column : j < n) (A B C : Words)
    (cleared : slot.Holds 0 machine) :
    ∃ next, kLoop n (accumulate (cxRegHelper platform 0) (n * n) A B n i j)
        (C, machine) = some (C, next) ∧
      slot.Holds (partialSum A B n i j n) next := by
  obtain ⟨⟨finalC, final⟩, ran, sameC, held⟩ := kLoop_total divides
    (accumulate (cxRegHelper platform 0) (n * n) A B n i j) (C, machine)
    (fun p bench => bench.1 = C ∧
      slot.Holds (partialSum A B n i j p) bench.2)
    ⟨rfl, by rwa [partialSum_zero]⟩
    (by
      intro p bench below invariant
      obtain ⟨sameC, held⟩ := invariant
      obtain ⟨result, next, executed, heldNext⟩ :=
        accumulated applies held (A (i * n + p)) (B (rightAddress n p j))
      refine ⟨(bench.1, next), ?_, sameC, ?_⟩
      · simp only [accumulate,
          operands_eq A B intSized divides row column below,
          Option.bind_eq_bind, Option.bind_some, executed]
      · rwa [partialSum_succ])
  obtain rfl : finalC = C := sameC
  exact ⟨final, ran, held⟩

end AccSlot

def mulaccSlot {macSel : Word} {context : Mulacc.Context}
    (located : Mulacc.contextOf (.ofIdx macSel) = some context) :
    AccSlot Mulacc.Context :=
  { sel := macSel
    contextOf := Mulacc.contextOf
    context := context
    located := located
    statics := ZooStatics.mulacc
    put := fun zoo after => { zoo with mulacc := after }
    statics_put := fun _ _ => rfl
    table := Mulacc.cxFuncMulacc
    call_eq := by
      intro cfCall zoo
      obtain ⟨_, isInstance, _⟩ := Option.bind_eq_some_iff.mp located
      have cxId : (CxSelidx.ofIdx macSel).cxId.toNat = 2 := by
        by_contra other
        rw [Mulacc.cxuIdToInstanceNum, if_neg other] at isInstance
        cases isInstance
      simp only [callFunc, cxFuncs, cxId]
      cases Mulacc.cxFuncMulacc cfCall.cfId <;> rfl
    accumulate_entry := rfl
    reset_entry := rfl }

def nnAccSlot {nnSel : Word} {context : NnAcc.Context}
    (located : NnAcc.contextOf (.ofIdx nnSel) = some context) :
    AccSlot NnAcc.Context :=
  { sel := nnSel
    contextOf := NnAcc.contextOf
    context := context
    located := located
    statics := ZooStatics.nnAcc
    put := fun zoo after => { zoo with nnAcc := after }
    statics_put := fun _ _ => rfl
    table := NnAcc.cxFuncNnAcc
    call_eq := by
      intro cfCall zoo
      obtain ⟨_, isInstance, _⟩ := Option.bind_eq_some_iff.mp located
      have cxId : (CxSelidx.ofIdx nnSel).cxId.toNat = 7 := by
        by_contra other
        rw [NnAcc.cxuIdToInstanceNum, if_neg other] at isInstance
        cases isInstance
      simp only [callFunc, cxFuncs, cxId]
      cases NnAcc.cxFuncNnAcc cfCall.cfId <;> rfl
    accumulate_entry := rfl
    reset_entry := rfl }

/-! ## The scalar layer -/

section Layers

variable {n i j : Nat} (A B C : Words)

/-- A cleared element is left as the clamped sum. -/
theorem scalarElement_eq (intSized : n * n < 2147483648)
    (divides : unrollFactor ∣ n) (row : i < n) (column : j < n)
    (zero : C (i * n + j) = 0) :
    scalarElement (n * n) A B n i j C =
      some (Function.update C (i * n + j)
        (scalarMax 0 (partialSum A B n i j n))) := by
  have inside := Cells.rowMajor_lt row column
  obtain ⟨final, ran, finalEq⟩ := kLoop_total divides
    (scalarStatement (n * n) A B n i j) C
    (fun p cells => cells =
      Function.update C (i * n + j) (partialSum A B n i j p))
    (by rw [partialSum_zero, ← zero, Function.update_eq_self])
    (by
      intro p cells below cellsEq
      subst cellsEq
      refine ⟨_, ?_, rfl⟩
      simp only [scalarStatement, idx_eq intSized row column,
        operands_eq A B intSized divides row column below,
        Option.bind_eq_bind, Option.bind_some, Cells.load_natCast _ inside,
        Cells.store_natCast _ inside, Function.update_self,
        Function.update_idem, partialSum_succ, product])
  subst finalEq
  simp only [scalarElement, ran, idx_eq intSized row column,
    Option.bind_eq_bind, Option.bind_some, Cells.load_natCast _ inside,
    Cells.store_natCast _ inside, Function.update_self,
    Function.update_idem]

theorem nnLayerScalar_eq (intSized : n * n < 2147483648)
    (divides : unrollFactor ∣ n) (zero : ∀ address < n * n, C address = 0) :
    nnLayerScalar (n * n) A B C n n =
      some (Cells.overwrite C 0 (n * n) (layerValue A n B)) := by
  obtain ⟨final, ran, _, finalEq⟩ := Cells.forUpTo_matrix
    (fun cells : Words => cells) (fun _ => True) (layerValue A n B)
    (scalarElement (n * n) A B n) C trivial
    (by
      intro i j cells row column _ untouched
      have cleared : cells (i * n + j) = 0 :=
        untouched.trans (zero _ (Cells.rowMajor_lt row column))
      refine ⟨_, scalarElement_eq A B cells intSized divides row column
        cleared, trivial, ?_⟩
      rw [layerValue_rowMajor A B i column])
  exact ran.trans (congrArg some finalEq)

/-! ## The layer on the multiply-accumulate and max CXUs -/

variable {macSel maxSel : Word} {context : Mulacc.Context}

/-- `read_acc` returns the accumulator and clears it. -/
theorem readAcc_eq (applies : AppliesFuncs platform)
    {located : Mulacc.contextOf (.ofIdx macSel) = some context} {acc : Word}
    (held : (mulaccSlot located).Holds acc machine) :
    ∃ next, readAcc platform machine = some (acc, next) ∧
      (mulaccSlot located).Holds 0 next := by
  obtain ⟨selected, accEq⟩ := held
  have ran := Mulacc.readAccFunc_eq located 0 0 machine.cxus.mulacc
  change machine.cxus.mulacc.data context = acc at accEq
  rw [accEq] at ran
  exact (mulaccSlot located).instruction applies rfl selected ran
    (Accumulator.setAcc_same ..)

/-- `max` leaves every context alone. -/
theorem max_eq (applies : AppliesFuncs platform)
    (isMax : (CxSelidx.ofIdx maxSel).cxId.toNat = 6) (a b : Word)
    (machine : Machine ZooStatics) :
    max platform a b (machine.cxSel maxSel) =
      some (scalarMax a b, machine.cxSel maxSel) := by
  apply cxRegHelper_eq applies
  change callFunc (.ofIdx maxSel) ⟨0, a, b⟩ machine.cxus = _
  simp only [callFunc, cxFuncs, isMax]
  rfl

theorem macReluElement_eq (applies : AppliesFuncs platform)
    (intSized : n * n < 2147483648) (divides : unrollFactor ∣ n)
    (row : i < n) (column : j < n)
    {located : Mulacc.contextOf (.ofIdx macSel) = some context}
    (isMax : (CxSelidx.ofIdx maxSel).cxId.toNat = 6)
    (cleared : (mulaccSlot located).Holds 0 machine) :
    ∃ next, macReluElement platform (n * n) A B n macSel maxSel i j
        (C, machine) =
      some (Function.update C (i * n + j)
        (scalarMax 0 (partialSum A B n i j n)), next) ∧
      (mulaccSlot located).Holds 0 next := by
  have inside := Cells.rowMajor_lt row column
  obtain ⟨summed, ranLoop, heldSum⟩ := AccSlot.kLoop_accumulate applies
    intSized divides row column A B C cleared
  obtain ⟨read, ranRead, heldRead⟩ := readAcc_eq applies heldSum
  refine ⟨(read.cxSel maxSel).cxSel macSel, ?_, ⟨rfl, heldRead.acc_eq⟩⟩
  have macIs : mac platform = cxRegHelper platform 0 := rfl
  simp only [macReluElement, macIs, ranLoop, idx_eq intSized row column,
    ranRead, max_eq applies isMax, Option.bind_eq_bind, Option.bind_some,
    Cells.load_natCast _ inside, Cells.store_natCast _ inside,
    Function.update_self, Function.update_idem]

theorem nnLayerMacRelu_eq (applies : AppliesFuncs platform)
    (intSized : n * n < 2147483648) (divides : unrollFactor ∣ n)
    (located : Mulacc.contextOf (.ofIdx macSel) = some context)
    (isMax : (CxSelidx.ofIdx maxSel).cxId.toNat = 6)
    (machine : Machine ZooStatics) :
    ∃ next, nnLayerMacRelu platform (n * n) A B n macSel maxSel (C, machine) =
      some (Cells.overwrite C 0 (n * n) (layerValue A n B), next) := by
  have selected : (machine.cxSel macSel).mcxSelector =
      (mulaccSlot located).sel := rfl
  obtain ⟨_, cleared, ranReset, heldReset⟩ :=
    (mulaccSlot located).wasReset applies selected
  obtain ⟨⟨finalC, final⟩, ran, _, finalEq⟩ := Cells.forUpTo_matrix
    (Prod.fst : Bench ZooStatics → Words)
    (fun bench => (mulaccSlot located).Holds 0 bench.2) (layerValue A n B)
    (macReluElement platform (n * n) A B n macSel maxSel) (C, cleared)
    heldReset
    (by
      intro i j bench row column held _
      obtain ⟨next, ranElement, heldNext⟩ := macReluElement_eq A B bench.1
        applies intSized divides row column isMax held
      refine ⟨_, ranElement, heldNext, ?_⟩
      rw [layerValue_rowMajor A B i column])
  obtain rfl : finalC = _ := finalEq
  refine ⟨final, ?_⟩
  simp only [nnLayerMacRelu, ranReset, Option.bind_eq_bind, Option.bind_some]
  exact ran

/-! ## The layer on the neural-network accumulator CXU -/

variable {nnSel : Word} {nnContext : NnAcc.Context}

/-- The clamping of `relu_func` is `scalar_max` with 0. -/
theorem clamped_eq (value : Word) :
    NnAcc.clamped value = scalarMax 0 value := rfl

/-- `nn_relu` returns the clamped accumulator. -/
theorem nnRelu_eq (applies : AppliesFuncs platform)
    {located : NnAcc.contextOf (.ofIdx nnSel) = some nnContext} {acc : Word}
    (held : (nnAccSlot located).Holds acc machine) :
    ∃ next, nnRelu platform machine = some (scalarMax 0 acc, next) ∧
      (nnAccSlot located).Holds (scalarMax 0 acc) next := by
  obtain ⟨selected, accEq⟩ := held
  have ran := NnAcc.reluFunc_eq located 0 0 machine.cxus.nnAcc
  change machine.cxus.nnAcc.data nnContext = acc at accEq
  rw [accEq, clamped_eq] at ran
  exact (nnAccSlot located).instruction applies rfl selected ran
    (Accumulator.setAcc_same ..)

theorem nnAccElement_eq (applies : AppliesFuncs platform)
    (intSized : n * n < 2147483648) (divides : unrollFactor ∣ n)
    (row : i < n) (column : j < n)
    (located : NnAcc.contextOf (.ofIdx nnSel) = some nnContext)
    (selected : machine.mcxSelector = nnSel) :
    ∃ next, nnAccElement platform (n * n) A B n i j (C, machine) =
      some (Function.update C (i * n + j)
        (scalarMax 0 (partialSum A B n i j n)), next) ∧
      next.mcxSelector = nnSel := by
  have inside := Cells.rowMajor_lt row column
  obtain ⟨_, cleared, ranReset, heldReset⟩ :=
    (nnAccSlot located).wasReset applies selected
  obtain ⟨summed, ranLoop, heldSum⟩ := AccSlot.kLoop_accumulate applies
    intSized divides row column A B C heldReset
  obtain ⟨next, ranRelu, heldRelu⟩ := nnRelu_eq applies heldSum
  refine ⟨next, ?_, heldRelu.selected⟩
  have nnAccIs : nnAcc platform = cxRegHelper platform 0 := rfl
  simp only [nnAccElement, ranReset, nnAccIs, ranLoop,
    idx_eq intSized row column, ranRelu, Option.bind_eq_bind,
    Option.bind_some, Cells.store_natCast _ inside]

theorem nnLayerNnAcc_eq (applies : AppliesFuncs platform)
    (intSized : n * n < 2147483648) (divides : unrollFactor ∣ n)
    (located : NnAcc.contextOf (.ofIdx nnSel) = some nnContext)
    (machine : Machine ZooStatics) :
    ∃ next, nnLayerNnAcc platform (n * n) A B n nnSel (C, machine) =
      some (Cells.overwrite C 0 (n * n) (layerValue A n B), next) := by
  obtain ⟨⟨finalC, final⟩, ran, _, finalEq⟩ := Cells.forUpTo_matrix
    (Prod.fst : Bench ZooStatics → Words)
    (fun bench => bench.2.mcxSelector = nnSel) (layerValue A n B)
    (nnAccElement platform (n * n) A B n) (C, machine.cxSel nnSel) rfl
    (by
      intro i j bench row column selected _
      obtain ⟨next, ranElement, stillSelected⟩ := nnAccElement_eq A B bench.1
        applies intSized divides row column located selected
      refine ⟨_, ranElement, stillSelected, ?_⟩
      rw [layerValue_rowMajor A B i column])
  obtain rfl : finalC = _ := finalEq
  exact ⟨final, ran⟩

end Layers

end CxRuntime.Nn
