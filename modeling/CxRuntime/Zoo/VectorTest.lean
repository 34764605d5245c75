import CxRuntime.Zoo.LogicalContexts
import Mathlib.Order.Fin.Basic

/-!
# The test of the vector unit

`vector_test.c` keeps its own copy of the registers of each logical context in
`vec`, writes it by plain loops, and asserts in a third loop that
`CX_READ_STATE` returns the same words.  A run of such a test, whatever the
kernel chooses, stops at an assertion exactly if its loops left other words in
`vec` than the instructions in the registers.
-/

namespace CxRuntime.VectorTest

open CxRuntime.Vector

/-! ## The copy kept by the test -/

/-- `vec[state_id]`. -/
abbrev Vec := RegFile

def writeVecIdx (vec : Vec) (reg : Reg) (idx : Lane) (v : Word) : Vec :=
  Function.update vec reg (Function.update (vec reg) idx v)

def resetVecReg (vec : Vec) (reg : Reg) : Vec :=
  (List.finRange cxVectorVl).foldl (fun vec i => writeVecIdx vec reg i 0) vec

def initVec (vec : Vec) : Vec :=
  (List.finRange cxVectorNumRegs).foldl resetVecReg vec

def writeVecRegInc (vec : Vec) (reg : Reg) : Vec :=
  (List.finRange cxVectorVl).foldl
    (fun vec i => writeVecIdx vec reg i (BitVec.ofNat 32 i)) vec

def writeVecReg2 (vec : Vec) (reg : Reg) : Vec :=
  (List.finRange cxVectorVl).foldl (fun vec i => writeVecIdx vec reg i 2) vec

def vectorAdd (vec : Vec) (src dest : Reg) : Vec :=
  (List.finRange cxVectorVl).foldl
    (fun vec i => writeVecIdx vec src i (vec src i + vec dest i)) vec

/-- A loop over the lanes of a register, each written by a value that only
depends on its own lane, writes them all at once. -/
theorem foldl_writeVecIdx (value : Vec → Lane → Word)
    (ownLane : ∀ {left right lane}, (∀ reg, left reg lane = right reg lane) →
      value left lane = value right lane) (reg : Reg) {lanes : List Lane}
    (distinct : lanes.Nodup) (vec : Vec) (other : Reg) (lane : Lane) :
    lanes.foldl (fun vec i => writeVecIdx vec reg i (value vec i)) vec other
        lane =
      if other = reg ∧ lane ∈ lanes then value vec lane
      else vec other lane := by
  induction lanes generalizing vec with
  | nil => simp
  | cons first lanes induction =>
      obtain ⟨fresh, rest⟩ := List.nodup_cons.mp distinct
      have elsewhere : ∀ reg', lane ≠ first →
          writeVecIdx vec reg first (value vec first) reg' lane =
            vec reg' lane := by
        intro reg' different
        by_cases same : reg' = reg
        · subst same
          simp [writeVecIdx, different]
        · simp [writeVecIdx, same]
      rw [List.foldl_cons, induction rest]
      by_cases isFirst : lane = first
      · subst isFirst
        by_cases same : other = reg
        · subst same
          simp [fresh, writeVecIdx]
        · simp [same, writeVecIdx]
      · rw [elsewhere other isFirst,
          ownLane fun reg' => elsewhere reg' isFirst]
        simp [isFirst]

theorem foldl_lanes (value : Vec → Lane → Word)
    (ownLane : ∀ {left right lane}, (∀ reg, left reg lane = right reg lane) →
      value left lane = value right lane) (reg : Reg) (vec : Vec) :
    (List.finRange cxVectorVl).foldl
        (fun vec i => writeVecIdx vec reg i (value vec i)) vec =
      Function.update vec reg (value vec) := by
  funext other lane
  rw [foldl_writeVecIdx value ownLane reg (List.nodup_finRange _)]
  by_cases same : other = reg
  · subst same
    simp
  · simp [same]

theorem initVec_eq (vec : Vec) : initVec vec = fun _ _ => 0 := by
  have cleared : ∀ (regs : List Reg) (vec : Vec) (reg : Reg),
      regs.foldl resetVecReg vec reg =
        if reg ∈ regs then fun _ => 0 else vec reg := by
    intro regs
    induction regs with
    | nil => simp
    | cons first regs induction =>
        intro vec reg
        rw [List.foldl_cons, induction, resetVecReg,
          foldl_lanes (fun _ _ => 0) (fun _ => rfl)]
        by_cases later : reg ∈ regs
        · simp [later]
        · by_cases isFirst : reg = first
          · simp [isFirst]
          · simp [later, isFirst]
  funext reg
  rw [initVec, cleared, if_pos (List.mem_finRange reg)]

/-! ## Instructions and loops -/

/-- The instructions of `vector.h`. -/
inductive Instr
  | addv (a b : Reg)
  | setInc (reg : Reg)
  | set2 (reg : Reg)
  | resetv

namespace Instr

def cfCall : Instr → CfCall
  | addv a b => ⟨0, BitVec.ofNat 32 a, BitVec.ofNat 32 b⟩
  | setInc reg => ⟨1, BitVec.ofNat 32 reg, 0⟩
  | set2 reg => ⟨2, BitVec.ofNat 32 reg, 0⟩
  | resetv => ⟨3, 0, 0⟩

/-- The effect on the registers of the context; `reset_func` has none. -/
def apply (file : RegFile) : Instr → RegFile
  | addv a b => Function.update file a fun lane => file a lane + file b lane
  | setInc reg => Function.update file reg fun lane => BitVec.ofNat 32 lane
  | set2 reg => Function.update file reg fun _ => 2
  | resetv => file

private theorem regOperand_ofNat (reg : Reg) :
    RegOperand (BitVec.ofNat 32 reg) := by
  have below := reg.isLt
  rw [RegOperand, toInt_ofNat_reg]
  omega

private theorem userCall (instr : Instr) : vector.UserCall instr.cfCall := by
  cases instr with
  | addv a b =>
      exact ⟨Nat.zero_lt_succ _, regOperand_ofNat a, regOperand_ofNat b⟩
  | setInc reg => exact ⟨Nat.le_add_left 2 2, regOperand_ofNat reg⟩
  | set2 reg => exact ⟨Nat.le_add_left 3 1, regOperand_ofNat reg⟩
  | resetv => exact ⟨Nat.le_refl 4, trivial⟩

def call (instr : Instr) : vector.Instruction :=
  ⟨instr.cfCall, .inl ⟨instr.userCall, trivial⟩⟩

private theorem regOf_ofNat (reg : Reg) : regOf (BitVec.ofNat 32 reg) = reg :=
  regOf_eq reg.isLt (toInt_ofNat_reg reg)

private theorem soloFunc_regs (instr : Instr) (solo : SoloVec) :
    (soloFunc instr.cfCall.cfId instr.cfCall.a instr.cfCall.b solo).1.regs =
      instr.apply solo.regs := by
  cases instr with
  | addv a b =>
      change (SoloVec.add _ _ solo).1.regs = _
      simp only [cfCall, SoloVec.add, regOf_ofNat]
      rfl
  | setInc reg =>
      change (SoloVec.fill _ (BitVec.ofNat 32 reg) 0 solo).1.regs = _
      simp only [SoloVec.fill, regOf_ofNat]
      rfl
  | set2 reg =>
      change (SoloVec.fill _ (BitVec.ofNat 32 reg) 0 solo).1.regs = _
      simp only [SoloVec.fill, regOf_ofNat]
      rfl
  | resetv => rfl

end Instr

/-- `CX_READ_STATE(CX_VECTOR_VL * reg + i)`. -/
def readLane (reg : Reg) (i : Lane) : vector.Instruction :=
  ⟨⟨1021, laneWord reg i, 0⟩, .inr ⟨rfl, by
    have below := laneIndex_lt reg i
    change IndexOperand (laneWord reg i)
    rw [IndexOperand, laneWord, toInt_ofNat_index below]
    omega⟩⟩

private theorem soloFunc_readLane (reg : Reg) (i : Lane) (solo : SoloVec) :
    soloFunc (readLane reg i).1.cfId (readLane reg i).1.a (readLane reg i).1.b
        solo = (solo, some (solo.regs reg i)) := by
  have below := laneIndex_lt reg i
  have regLt := reg.isLt
  have laneLt := i.isLt
  have sameReg : indexRegOf (laneWord reg i) = reg := by
    apply Fin.ext
    rw [laneWord, indexRegOf_ofNat below]
    simp only [cxVectorVl] at laneLt ⊢
    omega
  have sameLane : indexLaneOf (laneWord reg i) = i := by
    apply Fin.ext
    rw [laneWord, indexLaneOf_ofNat below]
    simp only [cxVectorVl] at laneLt ⊢
    omega
  change SoloVec.readState (laneWord reg i) 0 solo = _
  rw [SoloVec.readState, sameReg, sameLane]

/-- The loops of the test over its own copy. -/
inductive Store
  | resetVecReg (reg : Reg)
  | initVec
  | writeVecRegInc (reg : Reg)
  | writeVecReg2 (reg : Reg)
  | vectorAdd (src dest : Reg)

def Store.run (vec : Vec) : Store → Vec
  | resetVecReg reg => VectorTest.resetVecReg vec reg
  | initVec => VectorTest.initVec vec
  | writeVecRegInc reg => VectorTest.writeVecRegInc vec reg
  | writeVecReg2 reg => VectorTest.writeVecReg2 vec reg
  | vectorAdd src dest => VectorTest.vectorAdd vec src dest

/-- What a test does next, with what the kernel chooses at each instruction. -/
inductive Statement {κ : Type} (kernel : vector.Kernel κ)
  | instr (user : κ) (choice : kernel.Choice) (executed : Instr)
  | store (user : κ) (loop : Store)
  | check (user : κ) (choices : Reg → Lane → kernel.Choice)

/-! ## Running a test -/

section Run

variable {κ : Type} {kernel : vector.Kernel κ}

/-- `assert(CX_READ_STATE(reg_start_idx + i) == vec[state_id][reg][i])`. -/
def assertLane (user : κ) (choices : Reg → Lane → kernel.Choice) (vec : Vec)
    (reg : Reg) (contexts : kernel.State) (i : Lane) : Option kernel.State :=
  (kernel.exec user (choices reg i) (readLane reg i) contexts).bind
    fun answer => if answer.1 = some (vec reg i) then some answer.2 else none

def checkVectorRegValid (user : κ) (choices : Reg → Lane → kernel.Choice)
    (vec : Vec) (contexts : kernel.State) (reg : Reg) : Option kernel.State :=
  (List.finRange cxVectorVl).foldlM (assertLane user choices vec reg) contexts

def checkVectorRegsValid (user : κ) (choices : Reg → Lane → kernel.Choice)
    (vec : Vec) (contexts : kernel.State) : Option kernel.State :=
  (List.finRange cxVectorNumRegs).foldlM (checkVectorRegValid user choices vec)
    contexts

/-- The contexts and `vec` after a statement, unless an assertion fails. -/
def exec [DecidableEq κ] (state : kernel.State × (κ → Vec)) :
    Statement kernel → Option (kernel.State × (κ → Vec))
  | .instr user choice executed =>
      (kernel.exec user choice executed.call state.1).map fun answer =>
        (answer.2, state.2)
  | .store user loop =>
      some (state.1,
        Function.update state.2 user (loop.run (state.2 user)))
  | .check user choices =>
      (checkVectorRegsValid user choices (state.2 user) state.1).map
        fun contexts => (contexts, state.2)

end Run

/-! ## The same test on two arrays -/

section Agreement

variable {κ : Type} [DecidableEq κ] {kernel : vector.Kernel κ}

def Statement.registers (files : κ → RegFile) : Statement kernel → κ → RegFile
  | instr user _ executed =>
      Function.update files user (executed.apply (files user))
  | _ => files

def Statement.copies (vec : κ → Vec) : Statement kernel → κ → Vec
  | store user loop => Function.update vec user (loop.run (vec user))
  | _ => vec

/-- A check finds the same words in the registers and in the copy. -/
def Statement.Agrees (files : κ → RegFile) (vec : κ → Vec) :
    Statement kernel → Prop
  | check user _ => files user = vec user
  | _ => True

/-- Every check of a test does. -/
def Agree (files : κ → RegFile) (vec : κ → Vec) : List (Statement kernel) → Prop
  | [] => True
  | statement :: statements =>
      statement.Agrees files vec ∧
        Agree (statement.registers files) (statement.copies vec) statements

end Agreement

/-! ## Tests that mirror the instructions -/

/-- The loop with which the test follows an instruction. -/
def Instr.mirror : Instr → Store
  | addv a b => .vectorAdd a b
  | setInc reg => .writeVecRegInc reg
  | set2 reg => .writeVecReg2 reg
  | resetv => .initVec

/-- The loops do what the instructions do, except that `initVec` clears the copy
and `resetv` no register. -/
theorem Instr.mirror_run (instr : Instr) (vec : Vec) :
    instr.mirror.run vec = instr.apply vec ↔
      (instr = .resetv → vec = fun _ _ => 0) := by
  cases instr with
  | addv a b =>
      have added : vectorAdd vec a b = _ := foldl_lanes
        (fun vec i => vec a i + vec b i)
        (fun same => by rw [same a, same b]) a vec
      exact iff_of_true added nofun
  | setInc reg =>
      have filled : writeVecRegInc vec reg = _ := foldl_lanes
        (fun _ i => BitVec.ofNat 32 i) (fun _ => rfl) reg vec
      exact iff_of_true filled nofun
  | set2 reg =>
      have filled : writeVecReg2 vec reg = _ := foldl_lanes
        (fun _ _ => 2) (fun _ => rfl) reg vec
      exact iff_of_true filled nofun
  | resetv =>
      change initVec vec = vec ↔ _
      rw [initVec_eq]
      constructor
      · exact fun same _ => same.symm
      · exact fun blank => (blank rfl).symm

/-- An instruction, the loop that mirrors it, and checks of any contexts. -/
structure Mirrored {κ : Type} (kernel : vector.Kernel κ) where
  user : κ
  choice : kernel.Choice
  executed : Instr
  checks : List (κ × (Reg → Lane → kernel.Choice))

def Mirrored.statements {κ : Type} {kernel : vector.Kernel κ}
    (step : Mirrored kernel) : List (Statement kernel) :=
  .instr step.user step.choice step.executed ::
    .store step.user step.executed.mirror ::
      step.checks.map fun checked => .check checked.1 checked.2

/-! ## Checks are exact -/

section Checks

variable {κ : Type} [DecidableEq κ] {kernel : vector.Kernel κ}
  {selectors : vector.Selectors} {here : vector.Context}
  {stands : kernel.State → (κ → vector.State) → Prop}
  {contexts : kernel.State} {files : κ → RegFile} {vec : κ → Vec}

def Holding (here : vector.Context)
    (stands : kernel.State → (κ → vector.State) → Prop)
    (contexts : kernel.State) (files : κ → RegFile) : Prop :=
  ∃ machines, stands contexts machines ∧
    ∀ user, (soloOf (machines user) here).regs = files user

private theorem instruction_simulates {sysSel : CxSelidx}
    (located : vector.contextOf sysSel = some here)
    (instruction : vector.Instruction) (machine : vector.State) :
    ∃ next,
      vector.call sysSel instruction.1 machine =
          some ((soloFunc instruction.1.cfId instruction.1.a instruction.1.b
            (soloOf machine here)).2, next) ∧
        soloOf next here = (soloFunc instruction.1.cfId instruction.1.a
          instruction.1.b (soloOf machine here)).1 := by
  obtain ⟨next, called, movedEq⟩ := vector_simulates located
    (vector_programCall instruction.2).1 machine
  exact ⟨next, called, (congrFun movedEq here).trans (Function.update_self ..)⟩

theorem turn_eq (faithful : kernel.Faithful (selectors.sel here) stands)
    (holding : Holding here stands contexts files) (user : κ)
    (choice : kernel.Choice) (call : vector.Instruction) :
    ∃ solo next, solo.regs = files user ∧
      kernel.exec user choice call contexts =
        some ((soloFunc call.1.cfId call.1.a call.1.b solo).2, next) ∧
      Holding here stands next (Function.update files user
        (soloFunc call.1.cfId call.1.a call.1.b solo).1.regs) := by
  obtain ⟨machines, isStanding, regs⟩ := holding
  obtain ⟨next, moved, executed, standsNext, movedEq⟩ :=
    @Cxu.Kernel.Faithful.exec_solo vector κ _ kernel _ stands faithful _
      (soloOf · here)
      (fun solo call => soloFunc call.cfId call.a call.b solo)
      (instruction_simulates (selectors.located here)) contexts machines
      isStanding user choice call
  refine ⟨_, next, regs user, executed, _, standsNext, ?_⟩
  intro other
  by_cases same : other = user
  · subst same
    rw [Function.update_self, Function.update_self, movedEq]
  · rw [Function.update_of_ne same, Function.update_of_ne same]
    exact regs other

private theorem read_eq (faithful : kernel.Faithful (selectors.sel here) stands)
    (holding : Holding here stands contexts files) (user : κ)
    (choice : kernel.Choice) (reg : Reg) (i : Lane) :
    ∃ next,
      kernel.exec user choice (readLane reg i) contexts =
        some (some (files user reg i), next) ∧
      Holding here stands next files := by
  obtain ⟨solo, next, regs, executed, holdingNext⟩ :=
    turn_eq faithful holding user choice (readLane reg i)
  rw [soloFunc_readLane, regs] at executed holdingNext
  rw [Function.update_eq_self] at holdingNext
  exact ⟨next, executed, holdingNext⟩

/-- An assertion passes exactly if the copy has the word of the register. -/
theorem assertLane_guards
    (faithful : kernel.Faithful (selectors.sel here) stands) (user : κ)
    (choices : Reg → Lane → kernel.Choice) (vec : Vec) (reg : Reg) (i : Lane) :
    Transition.Guards (assertLane user choices vec reg · i)
      (Holding here stands · files) (files user reg i = vec reg i) := by
  intro contexts holding
  obtain ⟨next, executed, holdingNext⟩ :=
    read_eq faithful holding user (choices reg i) reg i
  simp only [assertLane, executed, Option.bind_some, Option.some.injEq]
  by_cases same : files user reg i = vec reg i
  · rw [if_pos same]
    refine ⟨fun _ => ⟨next, rfl⟩, ?_⟩
    rintro _ ⟨⟩
    exact ⟨same, holdingNext⟩
  · rw [if_neg same]
    exact ⟨fun equality => absurd equality same, nofun⟩

private theorem checkVectorRegsValid_guards
    (faithful : kernel.Faithful (selectors.sel here) stands) (user : κ)
    (choices : Reg → Lane → kernel.Choice) (vec : Vec) :
    Transition.Guards (checkVectorRegsValid user choices vec)
      (Holding here stands · files) (files user = vec) := by
  intro contexts holding
  have guards := Transition.Guards.foldlM (fun reg =>
    Transition.Guards.foldlM
      (fun i => assertLane_guards faithful user choices vec reg i)
      (List.finRange cxVectorVl))
    (List.finRange cxVectorNumRegs) contexts holding
  have everywhere : (∀ reg ∈ List.finRange cxVectorNumRegs,
      ∀ i ∈ List.finRange cxVectorVl, files user reg i = vec reg i) ↔
      files user = vec := by
    constructor
    · intro same
      funext reg i
      exact same reg (List.mem_finRange reg) i (List.mem_finRange i)
    · intro same reg _ i _
      rw [same]
  rw [everywhere] at guards
  exact guards

/-- A statement runs exactly if it is no check that fails. -/
theorem exec_guards (faithful : kernel.Faithful (selectors.sel here) stands)
    (holding : Holding here stands contexts files)
    (statement : Statement kernel) :
    (statement.Agrees files vec →
        ∃ next, exec (contexts, vec) statement = some next) ∧
      ∀ {next}, exec (contexts, vec) statement = some next →
        statement.Agrees files vec ∧
          Holding here stands next.1 (statement.registers files) ∧
          next.2 = statement.copies vec := by
  cases statement with
  | instr user choice executed =>
      obtain ⟨solo, after, regs, ran, holdingAfter⟩ :=
        turn_eq faithful holding user choice executed.call
      change Holding here stands after (Function.update files user
        (soloFunc executed.cfCall.cfId executed.cfCall.a executed.cfCall.b
          solo).1.regs) at holdingAfter
      rw [executed.soloFunc_regs, regs] at holdingAfter
      simp only [exec, ran, Option.map_some]
      refine ⟨fun _ => ⟨_, rfl⟩, ?_⟩
      rintro _ ⟨⟩
      exact ⟨trivial, holdingAfter, rfl⟩
  | store user loop =>
      refine ⟨fun _ => ⟨_, rfl⟩, ?_⟩
      rintro _ ⟨⟩
      exact ⟨trivial, holding, rfl⟩
  | check user choices =>
      have guards := checkVectorRegsValid_guards faithful user choices
        (vec user) contexts holding
      constructor
      · intro agrees
        obtain ⟨after, passed⟩ := guards.1 agrees
        refine ⟨(after, vec), ?_⟩
        simp only [exec, passed, Option.map_some]
      · intro next ran
        obtain ⟨after, passed, rfl⟩ := Option.map_eq_some_iff.mp ran
        obtain ⟨agrees, holdingAfter⟩ := guards.2 after passed
        exact ⟨agrees, holdingAfter, rfl⟩

theorem foldlM_exec_iff
    (faithful : kernel.Faithful (selectors.sel here) stands)
    (holding : Holding here stands contexts files)
    (statements : List (Statement kernel)) :
    (∃ final, statements.foldlM exec (contexts, vec) = some final) ↔
      Agree files vec statements := by
  induction statements generalizing contexts files vec with
  | nil => exact iff_of_true ⟨_, rfl⟩ trivial
  | cons statement statements induction =>
      have guards := @exec_guards _ _ _ _ _ _ _ _ vec faithful holding
        statement
      constructor
      · intro passes
        obtain ⟨final, ran⟩ := passes
        rw [List.foldlM_cons] at ran
        obtain ⟨⟨after, vecAfter⟩, stepped, rest⟩ :=
          Option.bind_eq_some_iff.mp ran
        obtain ⟨agrees, holdingAfter, copied⟩ := guards.2 stepped
        cases copied
        exact ⟨agrees, (induction holdingAfter).mp ⟨final, rest⟩⟩
      · intro agree
        obtain ⟨⟨after, vecAfter⟩, stepped⟩ := guards.1 agree.1
        obtain ⟨_, holdingAfter, copied⟩ := guards.2 stepped
        cases copied
        obtain ⟨final, ran⟩ := (induction holdingAfter).mpr agree.2
        refine ⟨final, ?_⟩
        rw [List.foldlM_cons, stepped]
        exact ran

end Checks

/-! ## Three contexts over one -/

def selectors : vector.Selectors where
  sel context := contextSel (4 + context.1) context.2
  located := by
    intro context
    obtain ⟨instNum, stateId⟩ := context
    have stateLt : stateId.val < 2 := stateId.isLt
    have instNumEq : ∀ instNum : Fin cxNumVecInstances,
        cxuIdToInstanceNum (BitVec.ofNat 8 (4 + instNum)).toNat =
          some instNum := by
      decide
    apply locate_eq (instNumEq instNum)
    simp only [contextSel, BitVec.toNat_ofNat]
    omega

/-- Three logical contexts, of which only dirty ones are saved. -/
abbrev threeContexts : vector.Kernel (Fin 3) :=
  Cxu.cleanKernel (Fin 3) selectors

theorem threeContexts_faithful :
    threeContexts.Faithful (selectors.sel firstContext)
      (Cxu.LazyVirtual firstContext) :=
  Cxu.cleanKernel_faithful (Fin 3) vector_wordAccess vector_actsLocally
    (vector_marksChanges _) selectors firstContext

/-- The hardware after its init function, and three logical contexts that start
like its first one. -/
def freshContexts : threeContexts.State :=
  { device := vector.initial
    placement := .empty
    images := fun _ => vector.imageOf vector.initial firstContext }

theorem freshContexts_holding :
    Holding firstContext (Cxu.LazyVirtual firstContext) freshContexts fun _ =>
      (soloOf vector.initial firstContext).regs := by
  have isVirtual := @Cxu.lazyVirtual_of_images vector (Fin 3) firstContext
    vector.initial vector.initial_settled (fun _ => vector.initial)
    fun _ => vector.initial_settled
  exact ⟨_, isVirtual, fun _ => rfl⟩

/-! ## Whether a test passes -/

/-- A test runs to its end, whatever the kernel chooses at its instructions,
exactly if at every check the instructions so far and the loops so far have left
the same words. -/
theorem test_passes_iff {κ : Type} [DecidableEq κ] {kernel : vector.Kernel κ}
    {selectors : vector.Selectors} {here : vector.Context}
    {stands : kernel.State → (κ → vector.State) → Prop}
    (faithful : kernel.Faithful (selectors.sel here) stands)
    {contexts : kernel.State} {files vec : κ → RegFile}
    (holding : Holding here stands contexts files)
    (statements : List (Statement kernel)) :
    (∃ final, statements.foldlM exec (contexts, vec) = some final) ↔
      Agree files vec statements :=
  foldlM_exec_iff faithful holding statements

/-- A context that is reset by `resetv` and `initVec` fails its next check. -/
theorem test_passes_iff_reset :
    ¬∃ final, [Statement.instr 0 firstContext (.set2 0),
        .store 0 (.writeVecReg2 0), .instr 0 firstContext .resetv,
        .store 0 .initVec, .check 0 fun _ _ => firstContext].foldlM
      exec (freshContexts, fun _ => (soloOf vector.initial firstContext).regs) =
        some final := by
  rw [test_passes_iff threeContexts_faithful freshContexts_holding]
  intro agree
  have same := agree.2.2.2.2.1
  simp only [Statement.Agrees, Statement.registers, Statement.copies,
    Store.run, initVec_eq, Instr.apply, Function.update_self] at same
  have lane := congrFun (congrFun same 0) 0
  rw [Function.update_self] at lane
  exact absurd lane (by decide)

/-! ## Mirrored tests -/

section Mirrored

variable {κ : Type} [DecidableEq κ] {kernel : vector.Kernel κ}

private theorem agree_checks (files : κ → RegFile)
    (checks : List (κ × (Reg → Lane → kernel.Choice)))
    {statements : List (Statement kernel)}
    (rest : Agree files files statements) :
    Agree files files
      ((checks.map fun checked => .check checked.1 checked.2) ++
        statements) := by
  induction checks with
  | nil => exact rest
  | cons checked checks induction => exact ⟨rfl, induction⟩

private theorem agree_mirrored {steps : List (Mirrored kernel)}
    (noReset : ∀ step ∈ steps, step.executed ≠ .resetv)
    (files : κ → RegFile) :
    Agree files files (steps.flatMap Mirrored.statements) := by
  induction steps generalizing files with
  | nil => trivial
  | cons step steps induction =>
      have mirrored := (step.executed.mirror_run (files step.user)).mpr
        fun isReset => absurd isReset (noReset step List.mem_cons_self)
      rw [List.flatMap_cons]
      refine ⟨trivial, trivial, ?_⟩
      change Agree
        (Function.update files step.user
          (step.executed.apply (files step.user)))
        (Function.update files step.user
          (step.executed.mirror.run (files step.user)))
        ((step.checks.map fun checked => .check checked.1 checked.2) ++
          steps.flatMap Mirrored.statements)
      rw [mirrored]
      exact agree_checks _ step.checks (induction
        (fun other member => noReset other (List.mem_cons_of_mem step member))
        _)

/-- A test that starts with a true copy, follows every instruction by its loop
and nowhere uses `resetv`, passes all its checks, whatever the kernel chooses. -/
theorem mirrored_test_passes {selectors : vector.Selectors}
    {here : vector.Context}
    {stands : kernel.State → (κ → vector.State) → Prop}
    (faithful : kernel.Faithful (selectors.sel here) stands)
    {contexts : kernel.State} {files : κ → RegFile}
    (holding : Holding here stands contexts files)
    {steps : List (Mirrored kernel)}
    (noReset : ∀ step ∈ steps, step.executed ≠ .resetv) :
    ∃ final, (steps.flatMap Mirrored.statements).foldlM exec
      (contexts, files) = some final :=
  (foldlM_exec_iff faithful holding _).mpr (agree_mirrored noReset files)

end Mirrored

/-- `basic_intra` on registers `A` = 0 and `B` = 1. -/
def basicIntra : List (Mirrored threeContexts) :=
  let run (user : Fin 3) (executed : Instr)
      (checks : List (Fin 3)) : Mirrored threeContexts :=
    { user := user
      choice := firstContext
      executed := executed
      checks := checks.map fun other => (other, fun _ _ => firstContext) }
  [run 0 (.setInc 0) [], run 0 (.setInc 1) [], run 0 (.addv 0 1) [0],
    run 1 (.set2 0) [], run 1 (.setInc 1) [], run 1 (.addv 0 1) [1],
    run 2 (.set2 0) [], run 2 (.set2 1) [], run 2 (.addv 0 1) [2, 0, 1, 2]]

theorem mirrored_test_passes_intra :
    ∃ final, (basicIntra.flatMap Mirrored.statements).foldlM exec
      (freshContexts, fun _ => (soloOf vector.initial firstContext).regs) =
        some final := by
  apply mirrored_test_passes threeContexts_faithful freshContexts_holding
  intro step member
  simp only [basicIntra, List.mem_cons, List.not_mem_nil, or_false] at member
  rcases member with rfl | rfl | rfl | rfl | rfl | rfl | rfl | rfl | rfl <;>
    exact nofun

end CxRuntime.VectorTest
