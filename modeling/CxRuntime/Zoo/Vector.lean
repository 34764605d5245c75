import CxRuntime.Lib.Cells
import CxRuntime.Zoo.ContextStatics

/-!
# The vector CXU

`vector_common.h` and `vector_func.c`.  The array `regs` is contiguous, so a
register number outside `0..3` lands in another context or outside the array;
only the latter faults here, as it does on the host.  The functions that index
`regs` also report the positions they accessed.
-/

namespace CxRuntime.Vector

abbrev cxVectorNumStates : Nat := 2

abbrev cxVectorNumFuncs : Nat := 4

abbrev cxVectorNumRegs : Nat := 4

abbrev cxVectorVl : Nat := 32

abbrev cxVectorStateSize : Nat := cxVectorVl * cxVectorNumRegs

abbrev cxNumVecInstances : Nat := 2

abbrev Context := ContextId cxNumVecInstances cxVectorNumStates

/-- The number of words of `regs`. -/
abbrev regsLength : Nat :=
  cxNumVecInstances * cxVectorNumStates * cxVectorNumRegs * cxVectorVl

/-- `regs` and `cxu_stctx_status`. -/
abbrev Statics := CxuStatics Context (Nat → Word)

def initialStatusWord : CxStctxs :=
  { dc := CxCs.preclean.dc
    stateSize := BitVec.ofNat 16 cxVectorStateSize
    reserved0 := 0
    version := 1
    r := 0 }

def offStatusWord : CxStctxs :=
  { dc := CxCs.off.dc
    stateSize := BitVec.ofNat 16 cxVectorStateSize
    reserved0 := 0
    version := 1
    r := 0 }

def cxuIdToInstanceNum (cxId : Nat) : Option (Fin cxNumVecInstances) :=
  if cxId = 4 then some ⟨0, by decide⟩
  else if cxId = 5 then some ⟨1, by decide⟩
  else none

def contextOf : CxSelidx → Option Context :=
  locate cxVectorNumStates cxuIdToInstanceNum

/-- The selector of `cx_id` 4 and state 0. -/
def firstSel : CxSelidx := CxSelidx.ofIdx 0x10000004

def firstContext : Context := (⟨0, by decide⟩, ⟨0, by decide⟩)

theorem firstSel_located : contextOf firstSel = some firstContext := rfl

/-- The position of `regs[inst_num][state_id][reg][lane]`. -/
def regIndex (context : Context) (reg lane : Int) : Int :=
  ((context.1.val * cxVectorNumStates + context.2.val) * cxVectorNumRegs + reg) *
    cxVectorVl + lane

/-- What a call returns and leaves, with the positions of `regs` it accessed. -/
structure Outcome where
  returned : Returned
  statics : Statics
  touched : List Int

abbrev TracedFunc := Word → Word → CxSelidx → Statics → Option Outcome

def Statics.traced (statics : Statics) : Cells.Traced Word :=
  { cells := statics.data, touched := [] }

/-- Put the cells back into the statics at the end of a function. -/
def Outcome.ofTraced (returned : Word) (statics : Statics)
    (traced : Cells.Traced Word) : Outcome :=
  { returned := some returned
    statics := { statics with data := traced.cells }
    touched := traced.touched }

def addFunc : TracedFunc := fun a b sysSel statics => do
  let context ← contextOf sysSel
  let dirty := statics.setDc context .dirty
  let final ← Loop.forUpTo cxVectorVl
    (fun i regs => do
      let left ← regs.load regsLength (regIndex context a.toInt i)
      let right ← left.2.load regsLength (regIndex context b.toInt i)
      right.2.store regsLength (regIndex context a.toInt i)
        (left.1 + right.1))
    (Statics.traced dirty)
  some (.ofTraced 0 dirty final)

/-- The body of `set_inc_func` and `set2_func`. -/
def fillFunc (value : Nat → Word) : TracedFunc := fun a _ sysSel statics => do
  let context ← contextOf sysSel
  let dirty := statics.setDc context .dirty
  let final ← Loop.forUpTo cxVectorVl
    (fun i regs =>
      regs.store regsLength (regIndex context a.toInt i) (value i))
    (Statics.traced dirty)
  some (.ofTraced 0 dirty final)

def setIncFunc : TracedFunc := fillFunc fun i => BitVec.ofNat 32 i

def set2Func : TracedFunc := fillFunc fun _ => 2

/-- The statement in the inner loop only names `regs[inst_num][state_id][k][j]`;
it assigns nothing. -/
def resetFunc : TracedFunc := fun _ _ sysSel statics => do
  let context ← contextOf sysSel
  let final ← Loop.forUpTo cxVectorNumRegs
    (fun k regs =>
      Loop.forUpTo cxVectorVl
        (fun j regs =>
          (regs.load regsLength (regIndex context k j)).map Prod.snd)
        regs)
    (Statics.traced statics)
  some (.ofTraced 0 statics final)

def vectorReadStatusFunc : CxFunc Statics := readStatusFunc contextOf

/-- The loop of CF 1022 over the registers. -/
def resetStatics (sysSel : CxSelidx) (statics : Statics) : Option Statics :=
  Loop.forUpTo cxVectorNumRegs
    (fun i statics =>
      (resetFunc (BitVec.ofNat 32 i) 0 sysSel statics).map Outcome.statics)
    statics

def vectorWriteStatusFunc : CxFunc Statics :=
  writeStatusFunc contextOf initialStatusWord offStatusWord resetStatics

/-- `(index / CX_VECTOR_VL) % 4`, stored in a `uint`. -/
def indexReg (index : Word) : Word := (index.sdiv 32).srem 4

/-- `index % CX_VECTOR_VL`, stored in a `uint`. -/
def indexLane (index : Word) : Word := index.srem 32

def vectorReadStateFunc : TracedFunc := fun index _ sysSel statics => do
  let context ← contextOf sysSel
  if (cxVectorStateSize : Int) ≤ index.toInt then
    some (.ofTraced 0xFFFFFFFF statics (Statics.traced statics))
  else
    let loaded ← (Statics.traced statics).load regsLength
      (regIndex context (indexReg index).toNat (indexLane index).toNat)
    some (.ofTraced loaded.1 statics loaded.2)

def vectorWriteStateFunc : TracedFunc := fun index value sysSel statics => do
  let context ← contextOf sysSel
  if (cxVectorStateSize : Int) ≤ index.toInt then
    some (.ofTraced 0xFFFFFFFF statics (Statics.traced statics))
  else
    let stored ← (Statics.traced statics).store regsLength
      (regIndex context (indexReg index).toNat (indexLane index).toNat) value
    some (.ofTraced value statics stored)

def TracedFunc.untraced (func : TracedFunc) : CxFunc Statics :=
  fun a b sysSel statics =>
    (func a b sysSel statics).map fun outcome =>
      (outcome.returned, outcome.statics)

theorem TracedFunc.untraced_eq {func : TracedFunc} {a b : Word}
    {sysSel : CxSelidx} {statics : Statics} {outcome : Outcome}
    (ran : func a b sysSel statics = some outcome) :
    func.untraced a b sysSel statics =
      some (outcome.returned, outcome.statics) := by
  rw [untraced, ran, Option.map_some]

/-- The user functions of the table `cx_func_vector`. -/
def userFunc (cfId : Nat) : Option TracedFunc :=
  if cfId = 0 then some addFunc
  else if cfId = 1 then some setIncFunc
  else if cfId = 2 then some set2Func
  else if cfId = 3 then some resetFunc
  else none

/-- `cx_func_vector` after `init_cx_func_vector`; `none` is outside the table. -/
def cxFuncVector (cfId : Nat) : Option (CxFunc Statics) :=
  if cfId < cxVectorNumFuncs then (userFunc cfId).map TracedFunc.untraced
  else if cfId = 1020 then some vectorWriteStateFunc.untraced
  else if cfId = 1021 then some vectorReadStateFunc.untraced
  else if cfId = 1022 then some vectorWriteStatusFunc
  else if cfId = 1023 then some vectorReadStatusFunc
  else if cfId < maxCfIds then some cxFuncUndefined
  else none

theorem cxFuncVector_filled {cfId : Nat} (below : cfId < maxCfIds) :
    Filled (cxFuncVector cfId) := by
  unfold cxFuncVector
  split
  · rename_i user
    change cfId < 4 at user
    unfold userFunc
    split_ifs
    · exact .some _
    · exact .some _
    · exact .some _
    · exact .some _
    · omega
  · apply Filled.ite (.some _)
    apply Filled.ite (.some _)
    apply Filled.ite (.some _)
    exact .ite (.some _) (.some _)

/-- The static arrays after `init_cx_func_vector`. -/
def initCxFuncVector : Statics :=
  { data := fun _ => 0
    cxuStctxStatus := fun _ => offStatusWord }

/-! ## Positions -/

/-- The first position of a register that exists. -/
def regBase (context : Context) (reg : Nat) : Nat :=
  ((context.1.val * cxVectorNumStates + context.2.val) * cxVectorNumRegs + reg) *
    cxVectorVl

theorem regIndex_natCast (context : Context) (reg lane : Nat) :
    regIndex context reg lane = ((regBase context reg + lane : Nat) : Int) := by
  simp only [regIndex, regBase]
  push_cast
  rfl

theorem regBase_inside (context : Context) {reg : Nat}
    (regLt : reg < cxVectorNumRegs) :
    regBase context reg + cxVectorVl ≤ regsLength := by
  have instLt : context.1.val < 2 := context.1.isLt
  have stateLt : context.2.val < 2 := context.2.isLt
  change reg < 4 at regLt
  change ((context.1.val * 2 + context.2.val) * 4 + reg) * 32 + 32 ≤ 512
  omega

/-- Two registers of the array are the same row or disjoint rows. -/
theorem regBase_aligned (context : Context) (left right : Nat) :
    regBase context left = regBase context right ∨
      regBase context left + cxVectorVl ≤ regBase context right ∨
      regBase context right + cxVectorVl ≤ regBase context left := by
  simp only [regBase, cxVectorNumStates, cxVectorNumRegs, cxVectorVl]
  omega

/-- A register operand that names one of the four registers. -/
def RegOperand (operand : Word) : Prop :=
  0 ≤ operand.toInt ∧ operand.toInt < cxVectorNumRegs

instance (operand : Word) : Decidable (RegOperand operand) :=
  inferInstanceAs (Decidable (_ ∧ _))

/-- The register numbers a user function takes from its operands are valid. -/
def OperandsInRange (cfId : Nat) (a b : Word) : Prop :=
  match cfId with
  | 0 => RegOperand a ∧ RegOperand b
  | 1 | 2 => RegOperand a
  | _ => True

/-- An element of `regs[inst_num][state_id]` that exists. -/
def Own (context : Context) (index : Int) : Prop :=
  ∃ reg lane : Nat, reg < cxVectorNumRegs ∧ lane < cxVectorVl ∧
    index = regIndex context reg lane

theorem own_offset (context : Context) {reg offset : Nat}
    (regLt : reg < cxVectorNumRegs) (offsetLt : offset < cxVectorVl) :
    Own context ((regBase context reg + offset : Nat) : Int) :=
  ⟨reg, offset, regLt, offsetLt, (regIndex_natCast context reg offset).symm⟩

theorem RegOperand.exists_reg {operand : Word} (valid : RegOperand operand) :
    ∃ reg, reg < cxVectorNumRegs ∧ operand.toInt = (reg : Int) := by
  obtain ⟨nonneg, below⟩ := valid
  exact ⟨operand.toInt.toNat, by omega, by omega⟩

/-- Only a valid register operand starts at an element of the context. -/
theorem regOperand_of_own {context : Context} {operand : Word}
    (own : Own context (regIndex context operand.toInt 0)) :
    RegOperand operand := by
  obtain ⟨reg, lane, regLt, laneLt, equality⟩ := own
  simp only [regIndex, cxVectorNumStates, cxVectorNumRegs,
    cxVectorVl] at equality regLt laneLt
  constructor
  · omega
  · change operand.toInt < 4
    omega

/-! ## What each function does on a context -/

variable {sysSel : CxSelidx} {context : Context}

theorem addFunc_eq (located : contextOf sysSel = some context) {a b : Word}
    {target source : Nat} (targetLt : target < cxVectorNumRegs)
    (targetEq : a.toInt = (target : Int)) (sourceLt : source < cxVectorNumRegs)
    (sourceEq : b.toInt = (source : Int)) (statics : Statics) :
    ∃ outcome, addFunc a b sysSel statics = some outcome ∧
      outcome.returned = some 0 ∧
      outcome.statics =
        { statics.setDc context .dirty with
          data := Cells.overwrite statics.data (regBase context target)
            cxVectorVl fun lane =>
              statics.data (regBase context target + lane) +
                statics.data (regBase context source + lane) } ∧
      ∀ index ∈ outcome.touched, Own context index := by
  obtain ⟨final, ran, cellsEq, within⟩ :=
    Cells.forUpTo_combine (regBase_inside context targetLt)
      (regBase_inside context sourceLt)
      (regBase_aligned context source target) (Own context)
      (fun _ below => own_offset context targetLt below)
      (fun _ below => own_offset context sourceLt below)
      (fun left right : Word => left + right)
      (Statics.traced (statics.setDc context .dirty))
  refine ⟨.ofTraced 0 (statics.setDc context .dirty) final, ?_, rfl, ?_, ?_⟩
  · simp only [addFunc, located, targetEq, sourceEq, regIndex_natCast,
      Option.bind_eq_bind, Option.bind_some] at ran ⊢
    rw [ran, Option.bind_some]
  · simp only [Outcome.ofTraced, cellsEq]
    rfl
  · intro index member
    exact (within index member).resolve_left List.not_mem_nil

theorem fillFunc_eq (located : contextOf sysSel = some context) {a : Word}
    {target : Nat} (targetLt : target < cxVectorNumRegs)
    (targetEq : a.toInt = (target : Int)) (value : Nat → Word) (b : Word)
    (statics : Statics) :
    ∃ outcome, fillFunc value a b sysSel statics = some outcome ∧
      outcome.returned = some 0 ∧
      outcome.statics =
        { statics.setDc context .dirty with
          data := Cells.overwrite statics.data (regBase context target)
            cxVectorVl value } ∧
      ∀ index ∈ outcome.touched, Own context index := by
  obtain ⟨final, ran, cellsEq, within⟩ :=
    Cells.forUpTo_fill (regBase_inside context targetLt) (Own context)
      (fun _ below => own_offset context targetLt below) value
      (Statics.traced (statics.setDc context .dirty))
  refine ⟨.ofTraced 0 (statics.setDc context .dirty) final, ?_, rfl, ?_, ?_⟩
  · simp only [fillFunc, located, targetEq, regIndex_natCast,
      Option.bind_eq_bind, Option.bind_some] at ran ⊢
    rw [ran, Option.bind_some]
  · simp only [Outcome.ofTraced, cellsEq]
    rfl
  · intro index member
    exact (within index member).resolve_left List.not_mem_nil

/-- CF 3 reads every element of its context and changes nothing. -/
theorem resetFunc_eq (located : contextOf sysSel = some context) (a b : Word)
    (statics : Statics) :
    ∃ outcome, resetFunc a b sysSel statics = some outcome ∧
      outcome.returned = some 0 ∧ outcome.statics = statics ∧
      ∀ index ∈ outcome.touched, Own context index := by
  obtain ⟨final, ran, cellsEq, within⟩ := Loop.forUpTo_total
    (fun k regs => Loop.forUpTo cxVectorVl
      (fun j regs =>
        (regs.load regsLength (regIndex context k j)).map Prod.snd) regs)
    (Statics.traced statics)
    (fun _ traced => traced.cells = statics.data ∧
      Cells.Traced.Within (Own context) (Statics.traced statics) traced)
    ⟨rfl, .refl _ _⟩ cxVectorNumRegs (by
      intro k regs kLt held
      refine Loop.forUpTo_total _ regs
        (fun _ traced => traced.cells = statics.data ∧
          Cells.Traced.Within (Own context) (Statics.traced statics) traced)
        held cxVectorVl ?_
      intro j traced jLt held
      obtain ⟨cellsEq, within⟩ := held
      have inside : regBase context k + j < regsLength := by
        have := regBase_inside context kLt
        omega
      rw [regIndex_natCast, traced.load_natCast inside]
      exact ⟨_, rfl, cellsEq, within.cons (own_offset context kLt jLt) _⟩)
  refine ⟨.ofTraced 0 statics final, ?_, rfl, ?_, ?_⟩
  · simp only [resetFunc, located, Option.bind_eq_bind, Option.bind_some]
    rw [ran, Option.bind_some]
  · simp only [Outcome.ofTraced, cellsEq]
  · intro index member
    exact (within index member).resolve_left List.not_mem_nil

/-- The reset of CF 1022 leaves the statics as they are. -/
theorem resetStatics_eq (located : contextOf sysSel = some context)
    (statics : Statics) : resetStatics sysSel statics = some statics := by
  obtain ⟨final, ran, finalEq⟩ := Loop.forUpTo_total
    (fun i statics =>
      (resetFunc (BitVec.ofNat 32 i) 0 sysSel statics).map Outcome.statics)
    statics (fun _ current => current = statics) rfl cxVectorNumRegs (by
      intro i current _ currentEq
      obtain ⟨outcome, ran, _, staticsEq, _⟩ :=
        resetFunc_eq located (BitVec.ofNat 32 i) 0 current
      refine ⟨outcome.statics, ?_, staticsEq.trans currentEq⟩
      simp only [ran, Option.map_some])
  rw [finalEq] at ran
  exact ran

/-! ## The words of a context -/

/-- The word of a context that CF 1020 and CF 1021 address by `index`. -/
def wordOf (data : Nat → Word) (context : Context) (index : Nat) : Word :=
  data (regBase context 0 + index)

/-- An index operand inside the context. -/
def IndexOperand (operand : Word) : Prop :=
  0 ≤ operand.toInt ∧ operand.toInt < cxVectorStateSize

instance (operand : Word) : Decidable (IndexOperand operand) :=
  inferInstanceAs (Decidable (_ ∧ _))

theorem toInt_ofNat_index {index : Nat} (below : index < cxVectorStateSize) :
    (BitVec.ofNat 32 index).toInt = index := by
  change index < 128 at below
  rw [BitVec.toInt_ofNat', Int.bmod_def]
  omega

theorem IndexOperand.exists_index {operand : Word}
    (valid : IndexOperand operand) :
    ∃ index, index < cxVectorStateSize ∧ operand = BitVec.ofNat 32 index := by
  obtain ⟨nonneg, below⟩ := valid
  refine ⟨operand.toInt.toNat, by omega, ?_⟩
  apply BitVec.eq_of_toInt_eq
  rw [toInt_ofNat_index (by omega)]
  omega

private theorem indexReg_ofNat {index : Nat}
    (below : index < cxVectorStateSize) :
    (indexReg (BitVec.ofNat 32 index)).toNat = index / cxVectorVl := by
  revert index
  decide

private theorem indexLane_ofNat {index : Nat}
    (below : index < cxVectorStateSize) :
    (indexLane (BitVec.ofNat 32 index)).toNat = index % cxVectorVl := by
  revert index
  decide

/-- Splitting an index into register and lane loses nothing. -/
theorem regIndex_of_index (context : Context) {index : Nat}
    (below : index < cxVectorStateSize) :
    regIndex context (indexReg (BitVec.ofNat 32 index)).toNat
        (indexLane (BitVec.ofNat 32 index)).toNat =
      ((regBase context 0 + index : Nat) : Int) := by
  rw [indexReg_ofNat below, indexLane_ofNat below, regIndex_natCast]
  simp only [regBase, cxVectorNumRegs, cxVectorVl]
  omega

theorem wordAddress_inside (context : Context) {index : Nat}
    (below : index < cxVectorStateSize) :
    regBase context 0 + index < regsLength := by
  have instLt : context.1.val < 2 := context.1.isLt
  have stateLt : context.2.val < 2 := context.2.isLt
  change index < 128 at below
  change ((context.1.val * 2 + context.2.val) * 4 + 0) * 32 + index < 512
  omega

/-- Words of different contexts or different indices lie at different places. -/
theorem wordAddress_injective {left right : Context} {leftIndex rightIndex : Nat}
    (leftBelow : leftIndex < cxVectorStateSize)
    (rightBelow : rightIndex < cxVectorStateSize)
    (equality : regBase left 0 + leftIndex = regBase right 0 + rightIndex) :
    left = right ∧ leftIndex = rightIndex := by
  have leftStateLt : left.2.val < 2 := left.2.isLt
  have rightStateLt : right.2.val < 2 := right.2.isLt
  simp only [regBase, cxVectorNumStates, cxVectorNumRegs, cxVectorVl,
    cxVectorStateSize] at equality leftBelow rightBelow
  refine ⟨Prod.ext (Fin.ext ?_) (Fin.ext ?_), ?_⟩ <;> omega

theorem vectorReadStateFunc_eq (located : contextOf sysSel = some context)
    {index : Nat} (below : index < cxVectorStateSize) (b : Word)
    (statics : Statics) :
    TracedFunc.untraced vectorReadStateFunc (BitVec.ofNat 32 index) b sysSel
        statics =
      some (some (wordOf statics.data context index), statics) := by
  have notPast : ¬((cxVectorStateSize : Nat) : Int) ≤
      (BitVec.ofNat 32 index).toInt := by
    rw [toInt_ofNat_index below]
    omega
  simp only [TracedFunc.untraced, vectorReadStateFunc, located,
    Option.bind_eq_bind, Option.bind_some, if_neg notPast,
    regIndex_of_index context below,
    Cells.Traced.load_natCast _ (wordAddress_inside context below),
    Option.map_some, Outcome.ofTraced, Statics.traced, wordOf]

theorem vectorWriteStateFunc_eq (located : contextOf sysSel = some context)
    {index : Nat} (below : index < cxVectorStateSize) (value : Word)
    (statics : Statics) :
    TracedFunc.untraced vectorWriteStateFunc (BitVec.ofNat 32 index) value
        sysSel statics =
      some (some value, { statics with
        data := Function.update statics.data (regBase context 0 + index)
          value }) := by
  have notPast : ¬((cxVectorStateSize : Nat) : Int) ≤
      (BitVec.ofNat 32 index).toInt := by
    rw [toInt_ofNat_index below]
    omega
  simp only [TracedFunc.untraced, vectorWriteStateFunc, located,
    Option.bind_eq_bind, Option.bind_some, if_neg notPast,
    regIndex_of_index context below,
    Cells.Traced.store_natCast _ (wordAddress_inside context below),
    Option.map_some, Outcome.ofTraced, Statics.traced]

theorem vectorWriteStateFunc_past (located : contextOf sysSel = some context)
    {index : Word} (past : (cxVectorStateSize : Int) ≤ index.toInt)
    (value : Word) (statics : Statics) :
    vectorWriteStateFunc index value sysSel statics =
      some { returned := some 0xFFFFFFFF, statics := statics, touched := [] } := by
  simp only [vectorWriteStateFunc, located, Option.bind_eq_bind,
    Option.bind_some, if_pos past, Outcome.ofTraced, Statics.traced]

theorem vectorReadStateFunc_past (located : contextOf sysSel = some context)
    {index : Word} (past : (cxVectorStateSize : Int) ≤ index.toInt)
    (b : Word) (statics : Statics) :
    vectorReadStateFunc index b sysSel statics =
      some { returned := some 0xFFFFFFFF, statics := statics, touched := [] } := by
  simp only [vectorReadStateFunc, located, Option.bind_eq_bind,
    Option.bind_some, if_pos past, Outcome.ofTraced, Statics.traced]

/-! ## The status words -/

/-- `CX_VECTOR_STATE_SIZE` as the field of a status word. -/
abbrev stateSize : BitVec 16 := BitVec.ofNat 16 cxVectorStateSize

/-- What a user function leaves if its loop finishes. -/
theorem of_finished {loop : Context → Option (Cells.Traced Word)}
    {left : Context → Statics} {outcome : Outcome}
    (ran : ((contextOf sysSel).bind fun context =>
      (loop context).bind fun final =>
        some (Outcome.ofTraced 0 (left context) final)) = some outcome) :
    outcome.returned = some 0 ∧ ∃ context,
      outcome.statics.cxuStctxStatus = (left context).cxuStctxStatus := by
  obtain ⟨context, _, rest⟩ := Option.bind_eq_some_iff.mp ran
  obtain ⟨_, _, equality⟩ := Option.bind_eq_some_iff.mp rest
  cases equality
  exact ⟨rfl, context, rfl⟩

theorem settled_of_finished {loop : Context → Option (Cells.Traced Word)}
    {left : Context → Statics} {outcome : Outcome}
    (ran : ((contextOf sysSel).bind fun context =>
      (loop context).bind fun final =>
        some (Outcome.ofTraced 0 (left context) final)) = some outcome)
    (settled : ∀ context, (left context).AllSettled stateSize) :
    outcome.statics.AllSettled stateSize := by
  obtain ⟨_, context, statusEq⟩ := of_finished ran
  intro other
  rw [statusEq]
  exact settled context other

/-- The two functions of the state port never write a status word. -/
theorem settled_of_accessed {τ : Type} {past : Prop} [Decidable past]
    {access : Context → Option τ} {value : τ → Word}
    {traced : τ → Cells.Traced Word} {statics : Statics} {outcome : Outcome}
    (ran : ((contextOf sysSel).bind fun context =>
      if past then
        some (Outcome.ofTraced 0xFFFFFFFF statics (Statics.traced statics))
      else (access context).bind fun result =>
        some (Outcome.ofTraced (value result) statics (traced result))) =
      some outcome)
    (settled : statics.AllSettled stateSize) :
    outcome.statics.AllSettled stateSize := by
  obtain ⟨_, _, branch⟩ := Option.bind_eq_some_iff.mp ran
  split at branch
  · cases branch
    exact settled
  · obtain ⟨_, _, equality⟩ := Option.bind_eq_some_iff.mp branch
    cases equality
    exact settled

theorem untraced_keepsSettled {func : TracedFunc}
    (settles : ∀ {a b sysSel statics outcome}, statics.AllSettled stateSize →
      func a b sysSel statics = some outcome →
      outcome.statics.AllSettled stateSize) :
    KeepsSettled stateSize func.untraced := by
  intro a b sysSel statics returned next settled ran
  obtain ⟨outcome, traced, equality⟩ := Option.map_eq_some_iff.mp ran
  cases equality
  exact settles settled traced

private theorem addFunc_keepsSettled :
    KeepsSettled stateSize (TracedFunc.untraced addFunc) := by
  apply untraced_keepsSettled
  intro a b sysSel statics outcome settled ran
  apply settled_of_finished ran
  exact fun context => settled.setDc context (by decide)

private theorem fillFunc_keepsSettled (value : Nat → Word) :
    KeepsSettled stateSize (TracedFunc.untraced (fillFunc value)) := by
  apply untraced_keepsSettled
  intro a b sysSel statics outcome settled ran
  apply settled_of_finished ran
  exact fun context => settled.setDc context (by decide)

private theorem resetFunc_keepsSettled :
    KeepsSettled stateSize (TracedFunc.untraced resetFunc) := by
  apply untraced_keepsSettled
  intro a b sysSel statics outcome settled ran
  apply settled_of_finished ran
  exact fun _ => settled

private theorem vectorReadStateFunc_keepsSettled :
    KeepsSettled stateSize (TracedFunc.untraced vectorReadStateFunc) := by
  apply untraced_keepsSettled
  intro a b sysSel statics outcome settled ran
  exact settled_of_accessed ran settled

private theorem vectorWriteStateFunc_keepsSettled :
    KeepsSettled stateSize (TracedFunc.untraced vectorWriteStateFunc) := by
  apply untraced_keepsSettled
  intro a b sysSel statics outcome settled ran
  exact settled_of_accessed ran settled

private theorem resetStatics_status {sysSel : CxSelidx} {statics next : Statics}
    (wasReset : resetStatics sysSel statics = some next) :
    next.cxuStctxStatus = statics.cxuStctxStatus := by
  refine Loop.forUpTo_partial
    (fun _ current => current.cxuStctxStatus = statics.cxuStctxStatus) rfl
    cxVectorNumRegs ?_ wasReset
  intro i current following _ kept ran
  obtain ⟨outcome, traced, rfl⟩ := Option.map_eq_some_iff.mp ran
  obtain ⟨_, _, statusEq⟩ := of_finished traced
  exact statusEq.trans kept

/-- What holds of each function of the table holds of every entry. -/
theorem cxFuncVector_forall (holds : CxFunc Statics → Prop)
    (add : holds (TracedFunc.untraced addFunc))
    (fill : ∀ value, holds (TracedFunc.untraced (fillFunc value)))
    (reset : holds (TracedFunc.untraced resetFunc))
    (writeState : holds (TracedFunc.untraced vectorWriteStateFunc))
    (readState : holds (TracedFunc.untraced vectorReadStateFunc))
    (writeStatus : holds vectorWriteStatusFunc)
    (readStatus : holds vectorReadStatusFunc)
    (undefined : holds cxFuncUndefined) (cfId : Nat) :
    EveryEntry holds (cxFuncVector cfId) :=
  have user : EveryEntry (fun func => holds (TracedFunc.untraced func))
      (userFunc cfId) :=
    .ite (.some add) <| .ite (.some (fill _)) <| .ite (.some (fill _)) <|
      .ite (.some reset) .none
  .ite (.map user) <| .ite (.some writeState) <| .ite (.some readState) <|
    .ite (.some writeStatus) <| .ite (.some readStatus) <|
      .ite (.some undefined) .none

theorem cxFuncVector_keepsSettled (cfId : Nat) :
    EveryEntry (fun func => KeepsSettled stateSize func) (cxFuncVector cfId) :=
  cxFuncVector_forall (fun func => KeepsSettled stateSize func)
    addFunc_keepsSettled fillFunc_keepsSettled resetFunc_keepsSettled
    vectorWriteStateFunc_keepsSettled vectorReadStateFunc_keepsSettled
    (writeStatusFunc_keepsSettled rfl rfl resetStatics_status)
    (readStatusFunc_keepsSettled stateSize contextOf)
    (cxFuncUndefined_keepsSettled stateSize) cfId

/-! ## Calls that do not fault -/

/-- Register operands `0..3` for the user functions and indices `0..127` for
CF 1020 and CF 1021. -/
def Admits (cfId : Nat) (a b : Word) : Prop :=
  if cfId = 1020 ∨ cfId = 1021 then IndexOperand a
  else OperandsInRange cfId a b

theorem addFunc_total (located : contextOf sysSel = some context)
    {a b : Word} (valid : RegOperand a ∧ RegOperand b) (statics : Statics) :
    ∃ answer, TracedFunc.untraced addFunc a b sysSel statics = some answer := by
  obtain ⟨target, targetLt, targetEq⟩ := valid.1.exists_reg
  obtain ⟨source, sourceLt, sourceEq⟩ := valid.2.exists_reg
  obtain ⟨outcome, ran, _⟩ :=
    addFunc_eq located targetLt targetEq sourceLt sourceEq statics
  exact ⟨_, TracedFunc.untraced_eq ran⟩

theorem fillFunc_total (located : contextOf sysSel = some context) {a : Word}
    (valid : RegOperand a) (value : Nat → Word) (b : Word)
    (statics : Statics) :
    ∃ answer,
      TracedFunc.untraced (fillFunc value) a b sysSel statics = some answer := by
  obtain ⟨target, targetLt, targetEq⟩ := valid.exists_reg
  obtain ⟨outcome, ran, _⟩ :=
    fillFunc_eq located targetLt targetEq value b statics
  exact ⟨_, TracedFunc.untraced_eq ran⟩

theorem cxFuncVector_total (located : contextOf sysSel = some context)
    {cfId : Nat} (below : cfId < maxCfIds) {a b : Word}
    (admitted : Admits cfId a b) (statics : Statics) :
    ∃ answer, (cxFuncVector cfId).bind (fun func => func a b sysSel statics) =
      some answer := by
  by_cases isAdd : cfId = 0
  · subst isAdd
    exact addFunc_total located admitted statics
  by_cases isSetInc : cfId = 1
  · subst isSetInc
    exact fillFunc_total located admitted _ b statics
  by_cases isSet2 : cfId = 2
  · subst isSet2
    exact fillFunc_total located admitted _ b statics
  by_cases isReset : cfId = 3
  · subst isReset
    obtain ⟨outcome, ran, _⟩ := resetFunc_eq located a b statics
    exact ⟨_, TracedFunc.untraced_eq ran⟩
  by_cases isWriteState : cfId = 1020
  · subst isWriteState
    obtain ⟨index, indexLt, rfl⟩ := IndexOperand.exists_index admitted
    exact ⟨_, vectorWriteStateFunc_eq located indexLt b statics⟩
  by_cases isReadState : cfId = 1021
  · subst isReadState
    obtain ⟨index, indexLt, rfl⟩ := IndexOperand.exists_index admitted
    exact ⟨_, vectorReadStateFunc_eq located indexLt b statics⟩
  by_cases isWriteStatus : cfId = 1022
  · subst isWriteStatus
    exact writeStatusFunc_total located
      (fun statics => ⟨statics, resetStatics_eq located statics⟩) a b statics
  by_cases isReadStatus : cfId = 1023
  · subst isReadStatus
    exact ⟨_, readStatusFunc_eq located a b statics⟩
  · have notUser : ¬cfId < cxVectorNumFuncs := by
      simp only [cxVectorNumFuncs]
      omega
    simp only [cxFuncVector, if_neg notUser, if_neg isWriteState,
      if_neg isReadState, if_neg isWriteStatus, if_neg isReadStatus,
      if_pos below, Option.bind_some, cxFuncUndefined]
    exact ⟨_, rfl⟩

end CxRuntime.Vector
