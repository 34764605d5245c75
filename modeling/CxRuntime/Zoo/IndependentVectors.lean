import CxRuntime.Zoo.IndependentAccumulators
import CxRuntime.Zoo.RegisterFile

/-!
# Vector contexts as independent machines

One register file with its status word, moved by the functions of the vector
unit.  With operands inside their ranges, calls on the four contexts in any
order run as four of these machines side by side.
-/

namespace CxRuntime.Vector

/-- A register file and its status word. -/
structure SoloVec where
  regs : RegFile
  status : CxStctxs

/-- A custom function on one register file. -/
abbrev SoloFunc := Word → Word → SoloVec → SoloVec × Returned

/-- The register that a valid operand names. -/
def regOf (operand : Word) : Reg :=
  ⟨operand.toNat % cxVectorNumRegs, Nat.mod_lt _ (by decide)⟩

/-- The register of an index operand. -/
def indexRegOf (index : Word) : Reg :=
  ⟨index.toNat / cxVectorVl % cxVectorNumRegs, Nat.mod_lt _ (by decide)⟩

/-- The lane of an index operand. -/
def indexLaneOf (index : Word) : Lane :=
  ⟨index.toNat % cxVectorVl, Nat.mod_lt _ (by decide)⟩

namespace SoloVec

def setDc (solo : SoloVec) (cs : CxCs) : SoloVec :=
  { solo with status := { solo.status with dc := cs.dc } }

def setReg (solo : SoloVec) (reg : Reg) (value : Lane → Word) : SoloVec :=
  { solo with regs := Function.update solo.regs reg value }

def add : SoloFunc := fun a b solo =>
  ((solo.setDc .dirty).setReg (regOf a) fun lane =>
    solo.regs (regOf a) lane + solo.regs (regOf b) lane, some 0)

def fill (value : Lane → Word) : SoloFunc := fun a _ solo =>
  ((solo.setDc .dirty).setReg (regOf a) value, some 0)

def reset : SoloFunc := fun _ _ solo => (solo, some 0)

def writeState : SoloFunc := fun index value solo =>
  (solo.setReg (indexRegOf index)
    (Function.update (solo.regs (indexRegOf index)) (indexLaneOf index) value),
    some value)

def readState : SoloFunc := fun index _ solo =>
  (solo, some (solo.regs (indexRegOf index) (indexLaneOf index)))

/-- `CX_PRECLEAN` ends as `CX_DIRTY` and leaves the registers. -/
def writeStatus : SoloFunc := fun value _ solo =>
  let dc := (CxStctxs.ofIdx value).dc
  if dc = CxCs.off.dc then ({ solo with status := offStatusWord }, some 0)
  else if dc = CxCs.preclean.dc then
    ({ solo with status := statusWord stateSize .dirty }, some 0)
  else if dc = CxCs.dirty.dc then (solo.setDc .dirty, some 0)
  else (solo.setDc .clean, some 0)

def readStatus : SoloFunc := fun _ _ solo => (solo, some solo.status.idx)

def undefined : SoloFunc := fun _ _ solo => (solo, some (-1))

end SoloVec

def soloFunc (cfId : Nat) : SoloFunc :=
  if cfId = 0 then SoloVec.add
  else if cfId = 1 then SoloVec.fill fun lane => BitVec.ofNat 32 lane
  else if cfId = 2 then SoloVec.fill fun _ => 2
  else if cfId = 3 then SoloVec.reset
  else if cfId = 1020 then SoloVec.writeState
  else if cfId = 1021 then SoloVec.readState
  else if cfId = 1022 then SoloVec.writeStatus
  else if cfId = 1023 then SoloVec.readStatus
  else SoloVec.undefined

def soloOf (statics : Statics) (context : Context) : SoloVec :=
  { regs := registers statics.data context
    status := statics.cxuStctxStatus context }

/-! ## Operands -/

theorem regOf_eq {operand : Word} {reg : Nat} (regLt : reg < cxVectorNumRegs)
    (regEq : operand.toInt = (reg : Int)) : regOf operand = ⟨reg, regLt⟩ := by
  have asNat : operand = BitVec.ofNat 32 reg := by
    apply BitVec.eq_of_toInt_eq
    have below : reg < cxVectorStateSize := Nat.lt_trans regLt (by decide)
    rw [regEq, toInt_ofNat_index below]
  apply Fin.ext
  change reg < 4 at regLt
  simp only [regOf, asNat, BitVec.toNat_ofNat, cxVectorNumRegs]
  omega

theorem indexRegOf_ofNat {index : Nat} (below : index < cxVectorStateSize) :
    (indexRegOf (BitVec.ofNat 32 index)).val = index / cxVectorVl := by
  change index < 128 at below
  simp only [indexRegOf, BitVec.toNat_ofNat, cxVectorVl, cxVectorNumRegs]
  omega

theorem indexLaneOf_ofNat {index : Nat} (below : index < cxVectorStateSize) :
    (indexLaneOf (BitVec.ofNat 32 index)).val = index % cxVectorVl := by
  change index < 128 at below
  simp only [indexLaneOf, BitVec.toNat_ofNat, cxVectorVl]
  omega

/-- The register and the lane of an index say where its word lies. -/
theorem index_split {index : Nat} (below : index < cxVectorStateSize) :
    cxVectorVl * (indexRegOf (BitVec.ofNat 32 index)).val +
      (indexLaneOf (BitVec.ofNat 32 index)).val = index := by
  rw [indexRegOf_ofNat below, indexLaneOf_ofNat below]
  exact Nat.div_add_mod index cxVectorVl

theorem wordOf_eq_registers (data : Nat → Word) (context : Context)
    {index : Nat} (below : index < cxVectorStateSize) :
    wordOf data context index =
      registers data context (indexRegOf (BitVec.ofNat 32 index))
        (indexLaneOf (BitVec.ofNat 32 index)) := by
  rw [registers, regBase_add_lane, index_split below, wordOf]

theorem registers_eq_wordOf (data : Nat → Word) (context : Context)
    (reg : Reg) (lane : Lane) :
    registers data context reg lane =
      wordOf data context (cxVectorVl * reg + lane) := by
  rw [registers, regBase_add_lane, wordOf]

/-! ## The functions act on one register file -/

variable {sysSel : CxSelidx} {context : Context}

theorem soloOf_setStatus (statics : Statics) (context : Context)
    (word : CxStctxs) :
    soloOf (statics.setStatus context word) =
      Function.update (soloOf statics) context
        { soloOf statics context with status := word } := by
  funext other
  by_cases same : other = context
  · subst same
    rw [Function.update_self, soloOf, CxuStatics.setStatus_same]
    rfl
  · rw [Function.update_of_ne same, soloOf, CxuStatics.setStatus_of_ne _ same]
    rfl

theorem soloOf_setDc (statics : Statics) (context : Context) (cs : CxCs) :
    soloOf (statics.setDc context cs) =
      Function.update (soloOf statics) context
        ((soloOf statics context).setDc cs) :=
  soloOf_setStatus statics context _

/-- Data that changes one register of one context. -/
theorem soloOf_setReg {statics : Statics} {data : Nat → Word}
    {context : Context} {reg : Reg} {value : Lane → Word}
    (written : registers data =
      Function.update (registers statics.data) context
        (Function.update (registers statics.data context) reg value)) :
    soloOf { statics with data := data } =
      Function.update (soloOf statics) context
        ((soloOf statics context).setReg reg value) := by
  funext other
  by_cases same : other = context
  · subst same
    rw [Function.update_self, soloOf, written, Function.update_self]
    rfl
  · rw [Function.update_of_ne same, soloOf, written, Function.update_of_ne same]
    rfl

/-- CF 0, 1 and 2 write a register and mark the context. -/
theorem soloOf_overwrite (statics : Statics) (context : Context) (reg : Reg)
    (value : Nat → Word) :
    soloOf { statics.setDc context .dirty with
        data := Cells.overwrite statics.data (regBase context reg) cxVectorVl
          value } =
      Function.update (soloOf statics) context
        (((soloOf statics context).setDc .dirty).setReg reg
          fun lane => value lane) := by
  have written := registers_overwrite
    (statics.setDc context .dirty).data context reg value
  rw [CxuStatics.setDc_data] at written
  rw [@soloOf_setReg (statics.setDc context .dirty) _ context reg
    (fun lane => value lane) written, soloOf_setDc, Function.update_self,
    Function.update_idem]

/-- The function moves the register file it is called on as `solo` does, returns
the same and leaves the others. -/
def ActsAs (func : CxFunc Statics) (solo : SoloFunc) (a b : Word) : Prop :=
  ∀ {sysSel context}, contextOf sysSel = some context →
    ∀ statics, ∃ next,
      func a b sysSel statics =
          some ((solo a b (soloOf statics context)).2, next) ∧
        soloOf next = Function.update (soloOf statics) context
          (solo a b (soloOf statics context)).1

private theorem addFunc_actsAs {a b : Word} (aValid : RegOperand a)
    (bValid : RegOperand b) :
    ActsAs (TracedFunc.untraced addFunc) SoloVec.add a b := by
  intro sysSel context located statics
  obtain ⟨target, targetLt, targetEq⟩ := aValid.exists_reg
  obtain ⟨source, sourceLt, sourceEq⟩ := bValid.exists_reg
  obtain ⟨outcome, ran, returnedEq, staticsEq, _⟩ :=
    addFunc_eq located targetLt targetEq sourceLt sourceEq statics
  refine ⟨outcome.statics, ?_, ?_⟩
  · rw [TracedFunc.untraced_eq ran, returnedEq]
    rfl
  · rw [staticsEq, SoloVec.add, regOf_eq targetLt targetEq,
      regOf_eq sourceLt sourceEq]
    exact soloOf_overwrite statics context ⟨target, targetLt⟩ _

private theorem fillFunc_actsAs {a : Word} (aValid : RegOperand a)
    (value : Nat → Word) (b : Word) :
    ActsAs (TracedFunc.untraced (fillFunc value))
      (SoloVec.fill fun lane => value lane) a b := by
  intro sysSel context located statics
  obtain ⟨target, targetLt, targetEq⟩ := aValid.exists_reg
  obtain ⟨outcome, ran, returnedEq, staticsEq, _⟩ :=
    fillFunc_eq located targetLt targetEq value b statics
  refine ⟨outcome.statics, ?_, ?_⟩
  · rw [TracedFunc.untraced_eq ran, returnedEq]
    rfl
  · rw [staticsEq, SoloVec.fill, regOf_eq targetLt targetEq]
    exact soloOf_overwrite statics context ⟨target, targetLt⟩ value

private theorem resetFunc_actsAs (a b : Word) :
    ActsAs (TracedFunc.untraced resetFunc) SoloVec.reset a b := by
  intro sysSel context located statics
  obtain ⟨outcome, ran, returnedEq, staticsEq, _⟩ :=
    resetFunc_eq located a b statics
  refine ⟨outcome.statics, ?_, ?_⟩
  · rw [TracedFunc.untraced_eq ran, returnedEq]
    rfl
  · rw [staticsEq]
    exact (Function.update_eq_self context _).symm

private theorem vectorWriteStateFunc_actsAs {index : Word}
    (valid : IndexOperand index)
    (value : Word) :
    ActsAs (TracedFunc.untraced vectorWriteStateFunc) SoloVec.writeState index
      value := by
  intro sysSel context located statics
  obtain ⟨offset, below, rfl⟩ := valid.exists_index
  refine ⟨_, vectorWriteStateFunc_eq located below value statics, ?_⟩
  apply soloOf_setReg
  have written := registers_update statics.data context
    (indexRegOf (BitVec.ofNat 32 offset))
    (indexLaneOf (BitVec.ofNat 32 offset)) value
  rwa [index_split below] at written

private theorem vectorReadStateFunc_actsAs {index : Word}
    (valid : IndexOperand index)
    (b : Word) :
    ActsAs (TracedFunc.untraced vectorReadStateFunc) SoloVec.readState index
      b := by
  intro sysSel context located statics
  obtain ⟨offset, below, rfl⟩ := valid.exists_index
  refine ⟨statics, ?_, (Function.update_eq_self context _).symm⟩
  rw [vectorReadStateFunc_eq located below b statics,
    wordOf_eq_registers statics.data context below]
  rfl

private theorem vectorWriteStatusFunc_actsAs (value b : Word) :
    ActsAs vectorWriteStatusFunc SoloVec.writeStatus value b := by
  intro sysSel context located statics
  obtain ⟨cs, decoded⟩ := CxCs.dc_surjective (CxStctxs.ofIdx value).dc
  rw [vectorWriteStatusFunc, writeStatusFunc_eq located decoded.symm]
  simp only [SoloVec.writeStatus, ← decoded, CxCs.dc_injective.eq_iff]
  cases cs with
  | off => exact ⟨_, rfl, soloOf_setStatus statics context _⟩
  | preclean =>
      rw [resetStatics_eq located]
      refine ⟨_, rfl, ?_⟩
      rw [soloOf_setDc, soloOf_setStatus, Function.update_self,
        Function.update_idem]
      rfl
  | clean => exact ⟨_, rfl, soloOf_setDc statics context .clean⟩
  | dirty => exact ⟨_, rfl, soloOf_setDc statics context .dirty⟩

private theorem vectorReadStatusFunc_actsAs (a b : Word) :
    ActsAs vectorReadStatusFunc SoloVec.readStatus a b := by
  intro sysSel context located statics
  refine ⟨statics, readStatusFunc_eq located a b statics, ?_⟩
  exact (Function.update_eq_self context _).symm

private theorem cxFuncUndefined_actsAs (a b : Word) :
    ActsAs cxFuncUndefined SoloVec.undefined a b := by
  intro sysSel context _ statics
  exact ⟨statics, rfl, (Function.update_eq_self context _).symm⟩

/-- Every admitted entry of the table acts on one register file. -/
theorem cxFuncVector_actsAs {cfId : Nat} (below : cfId < maxCfIds) {a b : Word}
    (admitted : Admits cfId a b) :
    ∃ func, cxFuncVector cfId = some func ∧ ActsAs func (soloFunc cfId) a b := by
  by_cases isAdd : cfId = 0
  · subst isAdd
    exact ⟨_, rfl, addFunc_actsAs admitted.1 admitted.2⟩
  by_cases isSetInc : cfId = 1
  · subst isSetInc
    exact ⟨_, rfl, fillFunc_actsAs admitted _ b⟩
  by_cases isSet2 : cfId = 2
  · subst isSet2
    exact ⟨_, rfl, fillFunc_actsAs admitted _ b⟩
  by_cases isReset : cfId = 3
  · subst isReset
    exact ⟨_, rfl, resetFunc_actsAs a b⟩
  by_cases isWriteState : cfId = 1020
  · subst isWriteState
    exact ⟨_, rfl, vectorWriteStateFunc_actsAs admitted b⟩
  by_cases isReadState : cfId = 1021
  · subst isReadState
    exact ⟨_, rfl, vectorReadStateFunc_actsAs admitted b⟩
  by_cases isWriteStatus : cfId = 1022
  · subst isWriteStatus
    exact ⟨_, rfl, vectorWriteStatusFunc_actsAs a b⟩
  by_cases isReadStatus : cfId = 1023
  · subst isReadStatus
    exact ⟨_, rfl, vectorReadStatusFunc_actsAs a b⟩
  · have notUser : ¬cfId < cxVectorNumFuncs := by
      simp only [cxVectorNumFuncs]
      omega
    refine ⟨cxFuncUndefined, ?_, ?_⟩
    · simp only [cxFuncVector, if_neg notUser, if_neg isWriteState,
        if_neg isReadState, if_neg isWriteStatus, if_neg isReadStatus,
        if_pos below]
    · simp only [soloFunc, if_neg isAdd, if_neg isSetInc, if_neg isSet2,
        if_neg isReset, if_neg isWriteState, if_neg isReadState,
        if_neg isWriteStatus, if_neg isReadStatus]
      exact cxFuncUndefined_actsAs a b

end CxRuntime.Vector
