import CxRuntime.Runtime.AbstractAllocator
import CxRuntime.Zoo.ZooObjects

/-!
# Programs in machine mode

`ci_m.c` on the CXUs of `exports.c`, as a program sees them: an allocator of
selectors beside the objects that selectors name.  A call moves the object that
is selected, whoever opened it, and `cx_open` runs its initialisation
instructions on the object of a state that it hands out, which they need not
clear.  Nothing else changes an object.
-/

namespace CxRuntime

/-- The macros that `ci_m.c` uses and no header defines. -/
structure InitMacros where
  cxInitial : Word
  getCxInitializer : Word → Word

namespace InitMacros

/-- `cx_reg` on the CXUs of `exports.c`. -/
def platform (macros : InitMacros) : Platform ZooStatics :=
  { cxReg := fun cxSel cfId rs1 rs2 =>
      callFunc (.ofIdx cxSel) ⟨cfId, rs1, rs2⟩
    cxInitial := macros.cxInitial
    getCxInitializer := macros.getCxInitializer }

/-- The instructions that initialise a state which shows the given status word. -/
def initCalls (macros : InitMacros) (status : Word) : List CfCall :=
  ⟨1022, macros.cxInitial, 0⟩ ::
    if macros.getCxInitializer status ≠ 0 then
      (List.range (getCxStateSize .uint status).toNat).map
          (fun i => ⟨1020, BitVec.ofNat 32 i, 0⟩) ++
        [⟨1022, CxCs.dirty.word, 0⟩]
    else []

/-- The instructions that `cx_open` executes on a state that it hands out. -/
def openCalls (macros : InitMacros) (status : Word) : List CfCall :=
  ⟨1023, 0, 0⟩ :: macros.initCalls status

/-- The objects after an open that was granted a selector, or none. -/
def initialised (macros : InitMacros) (granted : Option Word)
    (objects : ZooObjects) : ZooObjects :=
  match (granted.filter sourceConfig.isStateful).bind fun cxSel =>
      ZooContext.ofSel (.ofIdx cxSel) with
  | some context =>
      Function.update objects context
        (context.1.after (objects context)
          (macros.openCalls (context.1.statusOf (objects context)).idx))
  | none => objects

end InitMacros

/-! ## The machines -/

/-- What a program executes. -/
inductive ProgramOp where
  | cxOpen (cxGuid cxShare userCxSel : Word)
  | cxClose (cxSel : Word)
  | cxSel (cxSel : Word)
  | cxReg (cfId : Nat) (rs1 rs2 : Word)
  | cxErrorClear

def Machine.execute {σ : Type} (platform : Platform σ) (machine : Machine σ) :
    ProgramOp → Option (Machine σ × Returned)
  | .cxOpen cxGuid cxShare userCxSel =>
      (CxRuntime.cxOpen platform cxGuid cxShare userCxSel machine).map
        fun answer => (answer.2, some answer.1)
  | .cxClose cxSel =>
      (CxRuntime.cxClose cxSel machine).map fun next => (next, none)
  | .cxSel cxSel => some (machine.cxSel cxSel, none)
  | .cxReg cfId rs1 rs2 => (machine.cxReg platform cfId rs1 rs2).map Prod.swap
  | .cxErrorClear => some (CxRuntime.cxErrorClear machine, none)

/-- The selectors in use, the one that is selected, and the objects. -/
structure AbstractMachine where
  live : List Word
  selected : Word
  objects : ZooObjects

namespace AbstractMachine

def initial : AbstractMachine :=
  { live := []
    selected := 0
    objects := zooObjects cxInitFuncs }

/-- Only selectors in use are closed; any word may be selected, and any function
called that the objects have an answer for. -/
def step (macros : InitMacros) (machine : AbstractMachine) :
    ProgramOp → Option (AbstractMachine × Returned)
  | .cxOpen cxGuid _ _ =>
      let granted := sourceConfig.grant machine.live cxGuid
      some
        ({ machine with
            live := granted.toList ++ machine.live
            objects := macros.initialised granted machine.objects },
          some (granted.getD (-1)))
  | .cxClose cxSel =>
      (sourceConfig.account machine.live
        (RuntimeCall.cxClose cxSel : RuntimeCall ZooStatics)).map
          fun accounted => ({ machine with live := accounted.1 }, none)
  | .cxSel cxSel => some ({ machine with selected := cxSel }, none)
  | .cxReg cfId rs1 rs2 =>
      (objectCall machine.objects
        (.ofIdx machine.selected, ⟨cfId, rs1, rs2⟩)).map fun moved =>
          ({ machine with objects := moved.1 }, moved.2)
  | .cxErrorClear => some (machine, none)

end AbstractMachine

/-- The runtime and its CXUs implement the abstract machine. -/
structure Implements (abstract : AbstractMachine)
    (machine : Machine ZooStatics) : Prop where
  inv : AllocInv sourceConfig machine abstract.live
  settled : machine.cxus.Settled
  selected : machine.mcxSelector = abstract.selected
  objects : zooObjects machine.cxus = abstract.objects

variable {macros : InitMacros} {machine next : Machine ZooStatics}
  {live : List Word}

/-! ## One instruction -/

/-- Calls on one object led from one machine to the other. -/
structure Executed (context : ZooContext) (calls : List CfCall)
    (machine next : Machine ZooStatics) : Prop where
  sameRuntime : machine.SameRuntime next
  objects : zooObjects next.cxus =
    Function.update (zooObjects machine.cxus) context
      (context.1.after (zooObjects machine.cxus context) calls)

namespace Executed

variable {context : ZooContext} {calls more : List CfCall}
  {last : Machine ZooStatics}

theorem refl (context : ZooContext) (machine : Machine ZooStatics) :
    Executed context [] machine machine where
  sameRuntime := rfl
  objects := (Function.update_eq_self context _).symm

theorem trans (first : Executed context calls machine next)
    (second : Executed context more next last) :
    Executed context (calls ++ more) machine last where
  sameRuntime := by
    have firstSame := first.sameRuntime
    have secondSame := second.sameRuntime
    rw [Machine.SameRuntime] at firstSame secondSame ⊢
    rw [secondSame, firstSame]
  objects := by
    rw [second.objects, first.objects, Function.update_idem,
      Function.update_self, StatefulCxu.after_append]

theorem mcxSelector_eq (executed : Executed context calls machine next) :
    next.mcxSelector = machine.mcxSelector := by
  rw [executed.sameRuntime]

end Executed

theorem platform_cxReg {cxSel : Word} {context : ZooContext}
    (named : ZooContext.ofSel (.ofIdx cxSel) = some context) {call : CfCall}
    (admissible : context.1.cxu.Admissible call) (zoo : ZooStatics) :
    ∃ next, macros.platform.cxReg cxSel call.cfId call.a call.b zoo =
        some ((context.1.soloStep (zooObjects zoo context) call).2, next) ∧
      zooObjects next = Function.update (zooObjects zoo) context
        (context.1.soloStep (zooObjects zoo context) call).1 := by
  have taken : objectCall (zooObjects zoo) (.ofIdx cxSel, call) = some _ :=
    objectCall_named named admissible
  exact callFunc_objects taken

/-- A selected object answers an admissible call. -/
theorem cxReg_executed {context : ZooContext}
    (named : ZooContext.ofSel (.ofIdx machine.mcxSelector) = some context)
    {call : CfCall} (admissible : context.1.cxu.Admissible call) :
    ∃ next, machine.cxReg macros.platform call.cfId call.a call.b =
        some ((context.1.soloStep (zooObjects machine.cxus context) call).2,
          next) ∧
      Executed context [call] machine next := by
  obtain ⟨zoo, answered, objects⟩ :=
    @platform_cxReg macros _ context named call admissible machine.cxus
  refine ⟨{ machine with cxus := zoo }, ?_, rfl, objects⟩
  exact Option.map_eq_some_iff.mpr ⟨_, answered, rfl⟩

/-! ## The instructions of an open -/

section Opening

variable {context : ZooContext}
  (named : ZooContext.ofSel (.ofIdx machine.mcxSelector) = some context)

include named

private theorem cxReadStatus_executed :
    ∃ next, machine.cxReadStatus macros.platform =
        some ((context.1.statusOf (zooObjects machine.cxus context)).idx,
          next) ∧
      Executed context [⟨1023, 0, 0⟩] machine next := by
  have admissible := context.1.admissible_readStatus
  obtain ⟨next, answered, executed⟩ :=
    @cxReg_executed macros machine context named _ admissible
  rw [context.1.soloStep_readStatus] at answered
  refine ⟨next, ?_, executed⟩
  simp only [Machine.cxReadStatus, answered, Option.bind_eq_bind,
    Option.bind_some]

private theorem cxWriteStatus_executed (status : Word) :
    ∃ next, machine.cxWriteStatus macros.platform status = some next ∧
      Executed context [⟨1022, status, 0⟩] machine next := by
  have admissible := context.1.admissible_writeStatus status
  obtain ⟨next, answered, executed⟩ :=
    @cxReg_executed macros machine context named _ admissible
  refine ⟨next, ?_, executed⟩
  exact Option.map_eq_some_iff.mpr ⟨_, answered, rfl⟩

private theorem cxWriteState_executed {index value : Word}
    (admissible : context.1.cxu.Admissible ⟨1020, index, value⟩) :
    ∃ next, machine.cxWriteState macros.platform index value = some next ∧
      Executed context [⟨1020, index, value⟩] machine next := by
  obtain ⟨next, answered, executed⟩ :=
    @cxReg_executed macros machine context named _ admissible
  refine ⟨next, ?_, executed⟩
  exact Option.map_eq_some_iff.mpr ⟨_, answered, rfl⟩

/-- The loop that clears the state. -/
theorem clearLoop_executed {count : Nat}
    (admissible : ∀ i, i < count →
      context.1.cxu.Admissible ⟨1020, BitVec.ofNat 32 i, 0⟩) :
    ∃ next,
      Loop.forUpTo count
          (fun i => Machine.cxWriteState macros.platform (BitVec.ofNat 32 i) 0)
          machine = some next ∧
        Executed context
          ((List.range count).map fun i => ⟨1020, BitVec.ofNat 32 i, 0⟩)
          machine next := by
  apply Loop.forUpTo_total _ machine (fun count next => Executed context
    ((List.range count).map fun i => ⟨1020, BitVec.ofNat 32 i, 0⟩) machine next)
    (.refl context machine)
  intro i current below executed
  rw [← executed.mcxSelector_eq] at named
  obtain ⟨next, written, last⟩ :=
    @cxWriteState_executed macros current context named _ _
      (admissible i below)
  refine ⟨next, written, ?_⟩
  rw [List.range_succ, List.map_append]
  exact executed.trans last

private theorem initState_executed {status : Word}
    (admissible : ∀ i, i < (getCxStateSize .uint status).toNat →
      context.1.cxu.Admissible ⟨1020, BitVec.ofNat 32 i, 0⟩) :
    ∃ next,
      machine.initState macros.platform status
          (getCxStateSize .uint status) = some next ∧
        Executed context (macros.initCalls status) machine next := by
  obtain ⟨marked, written, first⟩ :=
    @cxWriteStatus_executed macros machine context named
      macros.platform.cxInitial
  by_cases swInit : macros.platform.getCxInitializer status ≠ 0
  · have markedNamed := named
    rw [← first.mcxSelector_eq] at markedNamed
    obtain ⟨cleared, looped, clearing⟩ :=
      @clearLoop_executed macros marked context markedNamed _ admissible
    have clearedNamed := markedNamed
    rw [← clearing.mcxSelector_eq] at clearedNamed
    obtain ⟨next, last, ending⟩ :=
      @cxWriteStatus_executed macros cleared context clearedNamed
        CxCs.dirty.word
    refine ⟨next, ?_, ?_⟩
    · simp only [Machine.initState, written, Option.bind_eq_bind,
        Option.bind_some, if_pos swInit, looped, last]
    · have calls : macros.initCalls status = _ :=
        congrArg (List.cons _) (if_pos swInit)
      rw [calls]
      exact first.trans (clearing.trans ending)
  · refine ⟨marked, ?_, ?_⟩
    · simp only [Machine.initState, written, Option.bind_eq_bind,
        Option.bind_some, if_neg swInit]
    · have calls : macros.initCalls status = _ :=
        congrArg (List.cons _) (if_neg swInit)
      rw [calls]
      exact first

end Opening

/-! ## Opens -/

theorem mulacc_named (stateId : Fin Mulacc.cxMulaccNumStates) :
    ZooContext.ofSel (.ofIdx (slotSel mulaccId stateId)) =
      some ⟨.mulacc, mulaccContext stateId⟩ := by
  rw [ZooContext.ofSel, mulacc_located]
  rfl

theorem mulacc_admissible_writeState (index value : Word) :
    StatefulCxu.mulacc.cxu.Admissible ⟨1020, index, value⟩ := by
  have below : 1020 < maxCfIds := by decide
  exact ⟨below, trivial⟩

private theorem getCxStateSize_statusOf {zoo : ZooStatics}
    (settled : zoo.Settled)
    (context : mulacc.Context) :
    getCxStateSize .uint
        (StatefulCxu.mulacc.statusOf (zooObjects zoo ⟨.mulacc, context⟩)).idx =
      1 :=
  mulacc_stateSize (settled.mulacc context)

theorem platform_serves :
    macros.platform.Serves sourceConfig ZooStatics.Settled := by
  refine ⟨callFunc_settled, ?_, ?_⟩
  · intro cxId stateId below
    obtain rfl := sourceConfig_stateful below
    have named := mulacc_named ⟨stateId, below⟩
    refine ⟨?_, ?_, ?_⟩
    · intro zoo
      obtain ⟨next, answered, _⟩ := @platform_cxReg macros _ _ named _
        StatefulCxu.mulacc.admissible_readStatus zoo
      rw [StatefulCxu.soloStep_readStatus] at answered
      exact ⟨_, next, answered⟩
    · intro status zoo
      obtain ⟨next, answered, _⟩ := @platform_cxReg macros _ _ named _
        (StatefulCxu.mulacc.admissible_writeStatus status) zoo
      exact ⟨_, answered⟩
    · intro index value zoo
      obtain ⟨next, answered, _⟩ := @platform_cxReg macros _ _ named
        ⟨1020, index, value⟩ (mulacc_admissible_writeState index value) zoo
      exact ⟨_, answered⟩
  · intro cxId stateId below zoo status after settled answered
    obtain rfl := sourceConfig_stateful below
    obtain ⟨next, read, _⟩ := @platform_cxReg macros _ _
      (mulacc_named ⟨stateId, below⟩) _
      StatefulCxu.mulacc.admissible_readStatus zoo
    rw [StatefulCxu.soloStep_readStatus] at read
    cases read.symm.trans answered
    rw [getCxStateSize_statusOf settled]
    decide

theorem isStateful_slotSel (config : CxConfig) (cxId : Fin numCx)
    (stateId : Nat) :
    config.isStateful (slotSel cxId stateId) =
      decide (config.numStates cxId ≠ 0) := by
  have sameId := getCxId_slotSel .int cxId stateId
  simp [CxConfig.isStateful, sameId]

private theorem initialised_stateless {cxId : Fin numCx}
    (stateless : sourceConfig.numStates cxId = 0) (stateId : Nat)
    (objects : ZooObjects) :
    macros.initialised (some (slotSel cxId stateId)) objects = objects := by
  have isStateless : sourceConfig.isStateful (slotSel cxId stateId) = false := by
    simp [isStateful_slotSel, stateless]
  simp only [InitMacros.initialised, Option.filter_some, isStateless]
  rfl

private theorem initialised_mulacc (stateId : Fin Mulacc.cxMulaccNumStates)
    (objects : ZooObjects) :
    macros.initialised (some (slotSel mulaccId stateId)) objects =
      Function.update objects ⟨.mulacc, mulaccContext stateId⟩
        (StatefulCxu.mulacc.after (objects ⟨.mulacc, mulaccContext stateId⟩)
          (macros.openCalls (StatefulCxu.mulacc.statusOf
            (objects ⟨.mulacc, mulaccContext stateId⟩)).idx)) := by
  have isStateful :
      sourceConfig.isStateful (slotSel mulaccId stateId) = true := by
    rw [isStateful_slotSel]
    rfl
  simp only [InitMacros.initialised, Option.filter_some, isStateful, if_true,
    Option.bind_some, mulacc_named]

/-- What `cx_open` executes on the state that it takes. -/
theorem opened_objects {stateId : Fin Mulacc.cxMulaccNumStates} {status : Word}
    {read taken ready : Machine ZooStatics}
    (isRead : (machine.cxSel (slotSel mulaccId stateId)).cxReadStatus
      macros.platform = some (status, read))
    (isTaken : read.setAvail mulaccId stateId cxUnavailState = some taken)
    (isReady : taken.initState macros.platform status
      (getCxStateSize .uint status) = some ready) :
    zooObjects ready.cxus =
      macros.initialised (some (slotSel mulaccId stateId))
        (zooObjects machine.cxus) := by
  have named := mulacc_named stateId
  obtain ⟨_, readEq, first⟩ := @cxReadStatus_executed macros
    (machine.cxSel (slotSel mulaccId stateId)) _ named
  cases isRead.symm.trans readEq
  obtain ⟨entry, _, rfl⟩ := Option.map_eq_some_iff.mp isTaken
  have takenNamed :
      ZooContext.ofSel (.ofIdx read.mcxSelector) =
        some ⟨.mulacc, mulaccContext stateId⟩ := by
    rw [first.mcxSelector_eq]
    exact named
  obtain ⟨_, readyEq, rest⟩ := @initState_executed macros
    { read with cxMap := Function.update read.cxMap mulaccId entry } _
    takenNamed _ fun i _ => mulacc_admissible_writeState (BitVec.ofNat 32 i) 0
  cases isReady.symm.trans readyEq
  rw [initialised_mulacc, rest.objects, first.objects, Function.update_idem,
    Function.update_self, ← StatefulCxu.after_append]
  rfl

private theorem CxConfig.grant_eq_none {config : CxConfig} {cxGuid : Word}
    (failed : (config.grant live cxGuid).getD (-1) = -1) :
    config.grant live cxGuid = none := by
  cases granted : config.grant live cxGuid with
  | none => rfl
  | some cxSel =>
      rw [granted] at failed
      exact absurd failed (grant_ne_neg_one granted)

private theorem CxConfig.grant_eq_slotSel {config : CxConfig} {cxGuid : Word}
    {cxId : Fin numCx} {stateId : Nat}
    (succeeded : (config.grant live cxGuid).getD (-1) = slotSel cxId stateId) :
    config.grant live cxGuid = some (slotSel cxId stateId) := by
  cases granted : config.grant live cxGuid with
  | none =>
      rw [granted] at succeeded
      exact absurd succeeded.symm (slotSel_ne_neg_one cxId stateId)
  | some cxSel =>
      rw [granted] at succeeded
      exact congrArg some succeeded

/-- An open that the allocator grants runs the initialisation instructions on
the object of its state, and touches no other. -/
theorem open_initialises (inv : AllocInv sourceConfig machine live)
    (settled : machine.cxus.Settled) {cxGuid cxShare userCxSel : Word}
    (completed : cxOpen macros.platform cxGuid cxShare userCxSel machine =
      some ((sourceConfig.grant live cxGuid).getD (-1), next)) :
    next.mcxSelector = machine.mcxSelector ∧
      zooObjects next.cxus =
        macros.initialised (sourceConfig.grant live cxGuid)
          (zooObjects machine.cxus) := by
  have opens := cxOpen_iff.mp completed
  generalize resultEq : (sourceConfig.grant live cxGuid).getD (-1) = result
    at opens
  cases opens with
  | unknown =>
      rw [CxConfig.grant_eq_none resultEq]
      exact ⟨rfl, rfl⟩
  | exhausted =>
      rw [CxConfig.grant_eq_none resultEq]
      exact ⟨rfl, rfl⟩
  | stateless found stateless =>
      rw [CxConfig.grant_eq_slotSel resultEq, initialised_stateless
        ((inv.numStates_eq _).symm.trans stateless)]
      exact ⟨rfl, rfl⟩
  | oversized found isFree isRead large =>
      exact absurd large
        (inv.statusFits platform_serves settled cxGuid found isFree isRead)
  | @opened cxId free _ _ _ _ found isFree isRead _ isTaken isReady =>
      have below := CxEntry.firstFree_lt isFree
      rw [inv.numStates_eq] at below
      obtain rfl := sourceConfig_stateful below
      rw [CxConfig.grant_eq_slotSel resultEq]
      have objects := @opened_objects macros machine ⟨free, below⟩ _ _ _ _
        isRead isTaken isReady
      exact ⟨rfl, objects⟩

/-! ## Runs -/

private theorem execute_implements {abstract : AbstractMachine}
    (implements : Implements abstract machine) {op : ProgramOp}
    {moved : AbstractMachine × Returned}
    (taken : abstract.step macros op = some moved) :
    ∃ next, machine.execute macros.platform op = some (next, moved.2) ∧
      Implements moved.1 next := by
  obtain ⟨inv, settled, selected, objects⟩ := implements
  cases op with
  | cxOpen cxGuid cxShare userCxSel =>
      cases taken
      obtain ⟨next, completed⟩ := inv.open_granted
        (@platform_serves macros) settled cxGuid cxShare userCxSel
      obtain ⟨nextInv, nextSettled⟩ :=
        inv.opened platform_serves settled completed
      obtain ⟨sameSelector, initialised⟩ :=
        open_initialises inv settled completed
      refine ⟨next, ?_, nextInv, nextSettled, sameSelector.trans selected, ?_⟩
      · simp only [Machine.execute, completed, Option.map_some]
      · rw [initialised, objects]
  | cxClose cxSel =>
      obtain ⟨accounted, isLive, equality⟩ := Option.map_eq_some_iff.mp taken
      cases equality
      simp only [CxConfig.account] at isLive
      split at isLive
      · cases isLive
        obtain ⟨next, closed, nextInv⟩ := inv.close ‹_›
        refine ⟨next, ?_, nextInv, ?_, ?_, ?_⟩
        · simp only [Machine.execute, closed, Option.map_some]
        all_goals
          rcases cxClose_cases closed with rfl | ⟨_, _, _, _, rfl⟩ <;>
            assumption
      · cases isLive
  | cxSel cxSel =>
      cases taken
      exact ⟨_, rfl, inv.of_cxMap_eq rfl, settled, rfl, objects⟩
  | cxReg cfId rs1 rs2 =>
      obtain ⟨answered, called, equality⟩ := Option.map_eq_some_iff.mp taken
      cases equality
      rw [← selected, ← objects] at called
      obtain ⟨zoo, instruction, moved⟩ := callFunc_objects called
      have executed : machine.cxReg macros.platform cfId rs1 rs2 =
          some (answered.2, { machine with cxus := zoo }) :=
        Option.map_eq_some_iff.mpr ⟨_, instruction, rfl⟩
      refine ⟨{ machine with cxus := zoo }, ?_, inv.of_cxMap_eq rfl,
        callFunc_settled settled instruction, selected, moved⟩
      simp only [Machine.execute, executed, Option.map_some,
        Prod.swap_prod_mk]
  | cxErrorClear =>
      cases taken
      exact ⟨_, rfl, inv.of_cxMap_eq rfl, settled, selected, objects⟩

theorem implements_initial :
    Implements .initial (cxInit sourceConfig cxInitFuncs) where
  inv := allocInv_init sourceConfig cxInitFuncs
  settled := settled_of_zooReachable .refl
  selected := rfl
  objects := rfl

/-- Every run of the abstract machine is a run of the runtime on all CXUs, with
the same answers; at the end the available states are those that are not in use,
and the contexts are the objects. -/
theorem programs_run_abstractly (macros : InitMacros) {program : List ProgramOp}
    {last : AbstractMachine} {answers : List Returned}
    (taken : Transition.run (AbstractMachine.step macros) .initial program =
      some (last, answers)) :
    ∃ final,
      Transition.run (Machine.execute macros.platform)
          (cxInit sourceConfig cxInitFuncs) program = some (final, answers) ∧
        final.mcxSelector = last.selected ∧
        zooObjects final.cxus = last.objects ∧
        ∀ {cxId stateId}, stateId < sourceConfig.numStates cxId →
          ((final.cxMap cxId).availStateIds[stateId]? = some cxAvailState ↔
            slotSel cxId stateId ∉ last.live) := by
  obtain ⟨final, ran, implements⟩ := @Transition.run_simulates _ _ _ _
    (Machine.execute macros.platform) (AbstractMachine.step macros)
    (fun machine abstract => Implements abstract machine) program
    (fun implements _ taken => execute_implements implements taken)
    _ _ _ _ implements_initial taken
  exact ⟨final, ran, implements.selected, implements.objects,
    implements.inv.available_iff⟩

/-- Two programs on the states of mulacc, one of which closes its state, and an
addition under the selector of a stateless CX. -/
theorem programs_run_abstractly_two :
    ∃ final,
      Transition.run
          (Machine.execute
            (InitMacros.platform ⟨CxCs.preclean.word, fun _ => 0⟩))
          (cxInit sourceConfig cxInitFuncs)
          [.cxOpen 222 0 (-1), .cxSel 0x10000002, .cxReg 0 3 3,
            .cxOpen 222 0 (-1), .cxSel 0x10010002, .cxReg 0 5 5,
            .cxSel 0x10000002, .cxReg 0 2 2, .cxOpen 222 0 (-1),
            .cxClose 0x10000002, .cxOpen 4 0 (-1), .cxSel 0x10000001,
            .cxReg 0 10 3, .cxErrorClear] =
        some (final, [some 0x10000002, none, some 9, some 0x10010002, none,
          some 25, none, some 13, some (-1), none, some 0x10000001, none,
          some 13, none]) ∧
      (final.cxMap mulaccId).availStateIds[0]? = some cxAvailState := by
  obtain ⟨final, ran, _, _, available⟩ :=
    @programs_run_abstractly ⟨CxCs.preclean.word, fun _ => 0⟩
      [.cxOpen 222 0 (-1), .cxSel 0x10000002, .cxReg 0 3 3,
        .cxOpen 222 0 (-1), .cxSel 0x10010002, .cxReg 0 5 5,
        .cxSel 0x10000002, .cxReg 0 2 2, .cxOpen 222 0 (-1),
        .cxClose 0x10000002, .cxOpen 4 0 (-1), .cxSel 0x10000001,
        .cxReg 0 10 3, .cxErrorClear] _ _ rfl
  refine ⟨final, ran, (available ?_).mpr ?_⟩
  · decide
  · decide

end CxRuntime
