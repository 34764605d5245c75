import CxRuntime.Zoo.Accumulator

/-!
# The neural-network accumulator CXU

`nn_acc_common.h` and `nn_acc_func.c`.
-/

namespace CxRuntime.NnAcc

abbrev cxNnAccNumFuncs : Nat := 3

abbrev cxNnAccNumStates : Nat := 2

abbrev cxNumNnAccInstances : Nat := 1

abbrev Context := ContextId cxNumNnAccInstances cxNnAccNumStates

/-- `acc` and `cxu_stctx_status`. -/
abbrev Statics := AccStatics Context

def initialStatusWord : CxStctxs :=
  { dc := CxCs.preclean.dc
    stateSize := 1
    reserved0 := 0
    version := 1
    r := 0 }

def offStatusWord : CxStctxs :=
  { dc := CxCs.off.dc
    stateSize := 1
    reserved0 := 0
    version := 1
    r := 0 }

/-- Any other `cx_id` exits the process. -/
def cxuIdToInstanceNum (cxId : Nat) : Option (Fin cxNumNnAccInstances) :=
  if cxId = 7 then some ⟨0, by decide⟩ else none

def contextOf : CxSelidx → Option Context :=
  locate cxNnAccNumStates cxuIdToInstanceNum

def nnAccFunc : CxFunc Statics := Accumulator.accumulateFunc contextOf

def resetFunc : CxFunc Statics := Accumulator.resetFunc contextOf

/-- Negative accumulators are clamped to zero. -/
def reluFunc : CxFunc Statics := fun _ _ sysSel statics => do
  let context ← contextOf sysSel
  let dirty := statics.setDc context .dirty
  let final :=
    if (dirty.data context).slt 0 then Accumulator.setAcc dirty context 0
    else dirty
  some (some (final.data context), final)

def nnAccReadStatusFunc : CxFunc Statics := readStatusFunc contextOf

def nnAccWriteStatusFunc : CxFunc Statics :=
  writeStatusFunc contextOf initialStatusWord offStatusWord
    (Accumulator.resetStatics contextOf)

def nnAccReadStateFunc : CxFunc Statics := Accumulator.readStateFunc contextOf

def nnAccWriteStateFunc : CxFunc Statics :=
  Accumulator.writeStateFunc contextOf

/-- `cx_func_nn_acc` after `init_cx_func_nn_acc`; `none` is outside the table. -/
def cxFuncNnAcc (cfId : Nat) : Option (CxFunc Statics) :=
  if cfId = 0 then some nnAccFunc
  else if cfId = 1 then some resetFunc
  else if cfId = 2 then some reluFunc
  else if cfId = 1020 then some nnAccWriteStateFunc
  else if cfId = 1021 then some nnAccReadStateFunc
  else if cfId = 1022 then some nnAccWriteStatusFunc
  else if cfId = 1023 then some nnAccReadStatusFunc
  else if cfId < maxCfIds then some cxFuncUndefined
  else none

/-- The static arrays after `init_cx_func_nn_acc`. -/
def initCxFuncNnAcc : Statics :=
  { data := fun _ => 0
    cxuStctxStatus := fun _ => offStatusWord }

variable {sysSel : CxSelidx} {context : Context}

/-- The value left by `relu_func`. -/
def clamped (value : Word) : Word := if value.slt 0 then 0 else value

theorem reluFunc_eq (located : contextOf sysSel = some context)
    (a b : Word) (statics : Statics) :
    reluFunc a b sysSel statics =
      some (some (clamped (statics.data context)),
        Accumulator.setAcc (statics.setDc context .dirty) context
          (clamped (statics.data context))) := by
  by_cases negative : (statics.data context).slt 0 = true
  · have dirtyNegative :
        ((statics.setDc context .dirty).data context).slt 0 = true := negative
    simp only [reluFunc, located, Option.bind_eq_bind, Option.bind_some,
      if_pos dirtyNegative, clamped, if_pos negative, Accumulator.setAcc_same]
  · have dirtyNonneg :
        ¬((statics.setDc context .dirty).data context).slt 0 = true := negative
    have unchanged : Accumulator.setAcc (statics.setDc context .dirty) context
        (statics.data context) = statics.setDc context .dirty := by
      rw [Accumulator.setAcc, CxuStatics.setDc_data,
        Function.update_eq_self]
      rfl
    simp only [reluFunc, located, Option.bind_eq_bind, Option.bind_some,
      if_neg dirtyNonneg, clamped, if_neg negative, unchanged]
    rfl

/-- What holds of each function of the table holds of every entry. -/
theorem cxFuncNnAcc_forall (holds : CxFunc Statics → Prop)
    (nnAcc : holds nnAccFunc) (reset : holds resetFunc)
    (relu : holds reluFunc) (writeState : holds nnAccWriteStateFunc)
    (readState : holds nnAccReadStateFunc)
    (writeStatus : holds nnAccWriteStatusFunc)
    (readStatus : holds nnAccReadStatusFunc)
    (undefined : holds cxFuncUndefined) (cfId : Nat) :
    EveryEntry holds (cxFuncNnAcc cfId) :=
  .ite (.some nnAcc) <| .ite (.some reset) <| .ite (.some relu) <|
    .ite (.some writeState) <| .ite (.some readState) <|
      .ite (.some writeStatus) <| .ite (.some readStatus) <|
        .ite (.some undefined) .none

private theorem reluFunc_keepsSettled : KeepsSettled 1 reluFunc := by
  intro a b sysSel statics returned next settled ran
  obtain ⟨context, located, _⟩ := Option.bind_eq_some_iff.mp ran
  rw [reluFunc_eq located] at ran
  cases ran
  exact Accumulator.AllSettled_setAcc (settled.setDc context (by decide)) _ _

theorem cxFuncNnAcc_keepsSettled (cfId : Nat) :
    EveryEntry (fun func => KeepsSettled 1 func) (cxFuncNnAcc cfId) :=
  cxFuncNnAcc_forall (fun func => KeepsSettled 1 func)
    (Accumulator.accumulateFunc_keepsSettled contextOf)
    (Accumulator.resetFunc_keepsSettled contextOf) reluFunc_keepsSettled
    (Accumulator.writeStateFunc_keepsSettled contextOf)
    (Accumulator.readStateFunc_keepsSettled contextOf)
    (writeStatusFunc_keepsSettled rfl rfl Accumulator.resetStatics_status)
    (readStatusFunc_keepsSettled 1 contextOf)
    (cxFuncUndefined_keepsSettled 1) cfId

theorem cxFuncNnAcc_filled {cfId : Nat} (below : cfId < maxCfIds) :
    Filled (cxFuncNnAcc cfId) :=
  .ite (.some _) <| .ite (.some _) <| .ite (.some _) <| .ite (.some _) <|
    .ite (.some _) <| .ite (.some _) <| .ite (.some _) <| by
      rw [if_pos below]
      exact .some _

theorem cxFuncNnAcc_total (located : contextOf sysSel = some context)
    {cfId : Nat} (below : cfId < maxCfIds) (a b : Word) (statics : Statics) :
    ∃ answer, (cxFuncNnAcc cfId).bind (fun func => func a b sysSel statics) =
      some answer := by
  obtain ⟨func, entry⟩ := cxFuncNnAcc_filled below
  rw [entry]
  exact cxFuncNnAcc_forall
    (fun func => ∃ answer, func a b sysSel statics = some answer)
    ⟨_, Accumulator.accumulateFunc_eq located a b statics⟩
    ⟨_, Accumulator.resetFunc_eq located a b statics⟩
    ⟨_, reluFunc_eq located a b statics⟩
    (Accumulator.writeStateFunc_total located a b statics)
    (Accumulator.readStateFunc_total located a b statics)
    (writeStatusFunc_total located
      (fun statics => ⟨_, Accumulator.resetStatics_eq located statics⟩)
      a b statics)
    ⟨_, readStatusFunc_eq located a b statics⟩ ⟨_, rfl⟩ cfId func entry

end CxRuntime.NnAcc
