import CxRuntime.Zoo.Accumulator

/-!
# The multiply-accumulate CXU

`mulacc_common.h` and `mulacc_func.c`.
-/

namespace CxRuntime.Mulacc

def cxGuidMulacc : Word := 222

abbrev cxMulaccNumFuncs : Nat := 5

abbrev cxMulaccNumStates : Nat := 2

abbrev cxNumMulaccInstances : Nat := 1

abbrev Context := ContextId cxNumMulaccInstances cxMulaccNumStates

/-- `acc` and `cxu_stctx_status`. -/
abbrev Statics := AccStatics Context

def initialStatusWord : CxStctxs :=
  { dc := CxCs.preclean.dc
    stateSize := 1
    reserved0 := 0
    version := 1
    r := 0 }

def offStatusWord : CxStctxs :=
  { dc := CxCs.off.dc
    stateSize := 1
    reserved0 := 0
    version := 1
    r := 0 }

/-- Any other `cx_id` exits the process. -/
def cxuIdToInstanceNum (cxId : Nat) : Option (Fin cxNumMulaccInstances) :=
  if cxId = 2 then some ⟨0, by decide⟩ else none

def contextOf : CxSelidx → Option Context :=
  locate cxMulaccNumStates cxuIdToInstanceNum

/-- The selector of `cx_id` 2 and state 0. -/
def firstSel : CxSelidx := CxSelidx.ofIdx 0x10000002

def firstContext : Context := (⟨0, by decide⟩, ⟨0, by decide⟩)

theorem firstSel_located : contextOf firstSel = some firstContext := rfl

def doNothing : CxFunc Statics := fun _ _ _ statics => some (some 0, statics)

def macFunc : CxFunc Statics := Accumulator.accumulateFunc contextOf

def resetFunc : CxFunc Statics := Accumulator.resetFunc contextOf

def zeroMacFunc : CxFunc Statics := fun a b sysSel statics => do
  let context ← contextOf sysSel
  let clean := statics.setDc context .clean
  let res := clean.data context + a * b
  some (some res, Accumulator.setAcc clean context 0)

def readAccFunc : CxFunc Statics := fun _ _ sysSel statics => do
  let context ← contextOf sysSel
  let clean := statics.setDc context .clean
  let res := clean.data context
  some (some res, Accumulator.setAcc clean context 0)

def mulaccReadStatusFunc : CxFunc Statics := readStatusFunc contextOf

def mulaccWriteStatusFunc : CxFunc Statics :=
  writeStatusFunc contextOf initialStatusWord offStatusWord
    (Accumulator.resetStatics contextOf)

def mulaccReadStateFunc : CxFunc Statics := Accumulator.readStateFunc contextOf

def mulaccWriteStateFunc : CxFunc Statics :=
  Accumulator.writeStateFunc contextOf

/-- `cx_func_mulacc` after `init_cx_func_mulacc`; `none` is outside the table. -/
def cxFuncMulacc (cfId : Nat) : Option (CxFunc Statics) :=
  if cfId = 0 then some macFunc
  else if cfId = 1 then some resetFunc
  else if cfId = 2 then some doNothing
  else if cfId = 3 then some zeroMacFunc
  else if cfId = 4 then some readAccFunc
  else if cfId = 1020 then some mulaccWriteStateFunc
  else if cfId = 1021 then some mulaccReadStateFunc
  else if cfId = 1022 then some mulaccWriteStatusFunc
  else if cfId = 1023 then some mulaccReadStatusFunc
  else if cfId < maxCfIds then some cxFuncUndefined
  else none

/-- The static arrays after `init_cx_func_mulacc`. -/
def initCxFuncMulacc : Statics :=
  { data := fun _ => 0
    cxuStctxStatus := fun _ => offStatusWord }

variable {sysSel : CxSelidx} {context : Context}

theorem zeroMacFunc_eq (located : contextOf sysSel = some context)
    (a b : Word) (statics : Statics) :
    zeroMacFunc a b sysSel statics =
      some (some (statics.data context + a * b),
        Accumulator.setAcc (statics.setDc context .clean) context 0) := by
  simp only [zeroMacFunc, located, Option.bind_eq_bind, Option.bind_some,
    CxuStatics.setDc_data]

theorem readAccFunc_eq (located : contextOf sysSel = some context)
    (a b : Word) (statics : Statics) :
    readAccFunc a b sysSel statics =
      some (some (statics.data context),
        Accumulator.setAcc (statics.setDc context .clean) context 0) := by
  simp only [readAccFunc, located, Option.bind_eq_bind, Option.bind_some,
    CxuStatics.setDc_data]

/-- What holds of each function of the table holds of every entry. -/
theorem cxFuncMulacc_forall (holds : CxFunc Statics → Prop)
    (mac : holds macFunc) (reset : holds resetFunc)
    (nothing : holds doNothing) (zeroMac : holds zeroMacFunc)
    (readAcc : holds readAccFunc) (writeState : holds mulaccWriteStateFunc)
    (readState : holds mulaccReadStateFunc)
    (writeStatus : holds mulaccWriteStatusFunc)
    (readStatus : holds mulaccReadStatusFunc)
    (undefined : holds cxFuncUndefined) (cfId : Nat) :
    EveryEntry holds (cxFuncMulacc cfId) :=
  .ite (.some mac) <| .ite (.some reset) <| .ite (.some nothing) <|
    .ite (.some zeroMac) <| .ite (.some readAcc) <| .ite (.some writeState) <|
      .ite (.some readState) <| .ite (.some writeStatus) <|
        .ite (.some readStatus) <| .ite (.some undefined) .none

theorem cxFuncMulacc_keepsSettled (cfId : Nat) :
    EveryEntry (fun func => KeepsSettled 1 func) (cxFuncMulacc cfId) := by
  refine cxFuncMulacc_forall (fun func => KeepsSettled 1 func)
    (Accumulator.accumulateFunc_keepsSettled contextOf)
    (Accumulator.resetFunc_keepsSettled contextOf) ?_ ?_ ?_
    (Accumulator.writeStateFunc_keepsSettled contextOf)
    (Accumulator.readStateFunc_keepsSettled contextOf)
    (writeStatusFunc_keepsSettled rfl rfl Accumulator.resetStatics_status)
    (readStatusFunc_keepsSettled 1 contextOf)
    (cxFuncUndefined_keepsSettled 1) cfId
  · intro _ _ _ _ _ _ settled ran
    cases ran
    exact settled
  · intro _ _ _ _ _ _ settled ran
    obtain ⟨context, _, equality⟩ := Option.bind_eq_some_iff.mp ran
    cases equality
    exact Accumulator.AllSettled_setAcc (settled.setDc context (by decide)) _ _
  · intro _ _ _ _ _ _ settled ran
    obtain ⟨context, _, equality⟩ := Option.bind_eq_some_iff.mp ran
    cases equality
    exact Accumulator.AllSettled_setAcc (settled.setDc context (by decide)) _ _

theorem cxFuncMulacc_filled {cfId : Nat} (below : cfId < maxCfIds) :
    Filled (cxFuncMulacc cfId) :=
  .ite (.some _) <| .ite (.some _) <| .ite (.some _) <| .ite (.some _) <|
    .ite (.some _) <| .ite (.some _) <| .ite (.some _) <| .ite (.some _) <|
      .ite (.some _) <| by
        rw [if_pos below]
        exact .some _

theorem cxFuncMulacc_total (located : contextOf sysSel = some context)
    {cfId : Nat} (below : cfId < maxCfIds) (a b : Word) (statics : Statics) :
    ∃ answer, (cxFuncMulacc cfId).bind (fun func => func a b sysSel statics) =
      some answer := by
  obtain ⟨func, entry⟩ := cxFuncMulacc_filled below
  rw [entry]
  exact cxFuncMulacc_forall
    (fun func => ∃ answer, func a b sysSel statics = some answer)
    ⟨_, Accumulator.accumulateFunc_eq located a b statics⟩
    ⟨_, Accumulator.resetFunc_eq located a b statics⟩ ⟨_, rfl⟩
    ⟨_, zeroMacFunc_eq located a b statics⟩
    ⟨_, readAccFunc_eq located a b statics⟩
    (Accumulator.writeStateFunc_total located a b statics)
    (Accumulator.readStateFunc_total located a b statics)
    (writeStatusFunc_total located
      (fun statics => ⟨_, Accumulator.resetStatics_eq located statics⟩)
      a b statics)
    ⟨_, readStatusFunc_eq located a b statics⟩ ⟨_, rfl⟩ cfId func entry

end CxRuntime.Mulacc
