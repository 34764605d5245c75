import CxRuntime.Lib.Transition
import CxRuntime.Zoo.Mulacc
import CxRuntime.Zoo.NnAcc
import CxRuntime.Zoo.Vector

/-!
# Stateful CXUs

The three stateful CXUs seen in one way: a table of custom functions over
static arrays, with the state words and the status word of each context.  The
laws that all three satisfy are fields.  A state is reachable if calls with any
selector, CF id and operands lead to it from the arrays left by the init
function.
-/

namespace CxRuntime

structure Cxu where
  instances : Nat
  states : Nat
  Data : Type
  cxuIdToInstanceNum : Nat → Option (Fin instances)
  initial : CxuStatics (ContextId instances states) Data
  func : Nat → Option (CxFunc (CxuStatics (ContextId instances states) Data))
  numFuncs : Nat
  /-- The user function that resets a context. -/
  resetCfId : Nat
  stateSize : BitVec 16
  word : Data → ContextId instances states → Nat → Word
  /-- The operands a custom function is meant to be called with. -/
  admits : Nat → Word → Word → Prop
  /-- The reset that CF 1022 runs on `CX_PRECLEAN`. -/
  hwReset : CxSelidx → CxuStatics (ContextId instances states) Data →
    Option (CxuStatics (ContextId instances states) Data)
  readStatus_entry : func 1023 =
    some (readStatusFunc (locate states cxuIdToInstanceNum))
  writeStatus_entry : func 1022 =
    some (writeStatusFunc (locate states cxuIdToInstanceNum)
      (statusWord stateSize .preclean) (statusWord stateSize .off) hwReset)
  initial_settled : initial.AllSettled stateSize
  func_keepsSettled : ∀ cfId,
    EveryEntry (fun func => KeepsSettled stateSize func) (func cfId)
  func_total : ∀ {sysSel context},
    locate states cxuIdToInstanceNum sysSel = some context →
    ∀ {cfId a b}, cfId < maxCfIds → admits cfId a b → ∀ statics,
      ∃ answer, (func cfId).bind (fun func => func a b sysSel statics) =
        some answer

/-- One custom function call, apart from the selector. -/
structure CfCall where
  cfId : Nat
  a : Word
  b : Word

namespace Cxu

abbrev Context (cxu : Cxu) := ContextId cxu.instances cxu.states

abbrev State (cxu : Cxu) := CxuStatics cxu.Context cxu.Data

def contextOf (cxu : Cxu) : CxSelidx → Option cxu.Context :=
  locate cxu.states cxu.cxuIdToInstanceNum

def call (cxu : Cxu) (sysSel : CxSelidx) (cfCall : CfCall)
    (state : cxu.State) : Option (Returned × cxu.State) :=
  (cxu.func cfCall.cfId).bind fun func =>
    func cfCall.a cfCall.b sysSel state

def Step (cxu : Cxu) (state next : cxu.State) : Prop :=
  ∃ sysSel cfCall returned,
    cxu.call sysSel cfCall state = some (returned, next)

def Reachable (cxu : Cxu) : cxu.State → Prop :=
  Relation.ReflTransGen cxu.Step cxu.initial

/-- Calls one after the other with the same selector. -/
def runOn (cxu : Cxu) (sysSel : CxSelidx) (state : cxu.State)
    (calls : List CfCall) : Option (cxu.State × List Returned) :=
  Transition.run
    (fun state cfCall => (cxu.call sysSel cfCall state).map Prod.swap)
    state calls

/-- A call of any custom function with the operands it is meant for. -/
def Admissible (cxu : Cxu) (cfCall : CfCall) : Prop :=
  cfCall.cfId < maxCfIds ∧ cxu.admits cfCall.cfId cfCall.a cfCall.b

/-- An admissible call of a user function. -/
def UserCall (cxu : Cxu) (cfCall : CfCall) : Prop :=
  cfCall.cfId < cxu.numFuncs ∧ cxu.admits cfCall.cfId cfCall.a cfCall.b

/-- A context has the same words in two states. -/
def SameWords (cxu : Cxu) (context : cxu.Context) (left right : cxu.State) :
    Prop :=
  ∀ index, index < cxu.stateSize.toNat →
    cxu.word left.data context index = cxu.word right.data context index

/-- A context looks the same in two states. -/
def SameContext (cxu : Cxu) (context : cxu.Context)
    (left right : cxu.State) : Prop :=
  left.cxuStctxStatus context = right.cxuStctxStatus context ∧
    cxu.SameWords context left right

variable {cxu : Cxu} {sysSel : CxSelidx} {context : cxu.Context}

theorem call_settled {cfCall : CfCall} {state next : cxu.State}
    {returned : Returned} (settled : state.AllSettled cxu.stateSize)
    (called : cxu.call sysSel cfCall state = some (returned, next)) :
    next.AllSettled cxu.stateSize := by
  obtain ⟨func, entry, ran⟩ := Option.bind_eq_some_iff.mp called
  exact cxu.func_keepsSettled cfCall.cfId func entry settled ran

theorem reachable_settled {state : cxu.State}
    (reachable : cxu.Reachable state) : state.AllSettled cxu.stateSize :=
  Transition.invariant_of_reachable
    (fun state => state.AllSettled cxu.stateSize) cxu.initial_settled
    (fun _ _ settled ⟨_, _, _, called⟩ => call_settled settled called)
    reachable

theorem call_total (located : cxu.contextOf sysSel = some context)
    {cfCall : CfCall} (admissible : cxu.Admissible cfCall)
    (state : cxu.State) :
    ∃ returned next, cxu.call sysSel cfCall state = some (returned, next) := by
  obtain ⟨answer, called⟩ :=
    cxu.func_total located admissible.1 admissible.2 state
  exact ⟨answer.1, answer.2, called⟩

/-- A run of admissible calls on a context does not fault, and leaves every
status word settled. -/
theorem runOn_total (located : cxu.contextOf sysSel = some context)
    {calls : List CfCall} (admissible : ∀ call ∈ calls, cxu.Admissible call)
    {state : cxu.State} (settled : state.AllSettled cxu.stateSize) :
    ∃ final answers, cxu.runOn sysSel state calls = some (final, answers) ∧
      final.AllSettled cxu.stateSize := by
  obtain ⟨final, answers, ran, finalSettled, _⟩ := Transition.run_view
    (fun state cfCall => (cxu.call sysSel cfCall state).map Prod.swap)
    (fun _ => ()) (fun _ _ => ())
    (fun state => state.AllSettled cxu.stateSize) cxu.Admissible
    (by
      intro state call settled allowed
      obtain ⟨returned, next, called⟩ := call_total located allowed state
      refine ⟨next, returned, ?_, call_settled settled called, rfl⟩
      rw [called, Option.map_some, Prod.swap_prod_mk])
    admissible settled
  exact ⟨final, answers, ran, finalSettled⟩

/-! ## CF 1022 and CF 1023 -/

theorem call_readStatus (located : cxu.contextOf sysSel = some context)
    (a b : Word) (state : cxu.State) :
    cxu.call sysSel ⟨1023, a, b⟩ state =
      some (some (state.cxuStctxStatus context).idx, state) := by
  simp only [call, cxu.readStatus_entry, Option.bind_some]
  exact readStatusFunc_eq located a b state

theorem call_writeStatus_resting
    (located : cxu.contextOf sysSel = some context) {value : Word} {cs : CxCs}
    (decoded : (CxStctxs.ofIdx value).dc = cs.dc) (resting : cs ≠ .preclean)
    (b : Word) {state : cxu.State}
    (settled : Settled cxu.stateSize (state.cxuStctxStatus context)) :
    cxu.call sysSel ⟨1022, value, b⟩ state =
      some (some 0,
        state.setStatus context (statusWord cxu.stateSize cs)) := by
  simp only [call, cxu.writeStatus_entry, Option.bind_some]
  exact writeStatusFunc_resting rfl located decoded resting b settled

theorem call_writeStatus_preclean
    (located : cxu.contextOf sysSel = some context) {value : Word}
    (decoded : (CxStctxs.ofIdx value).dc = CxCs.preclean.dc) (b : Word)
    {state resetState : cxu.State}
    (wasReset : cxu.hwReset sysSel (state.setStatus context
      (statusWord cxu.stateSize .preclean)) = some resetState)
    (statusKept : resetState.cxuStctxStatus = (state.setStatus context
      (statusWord cxu.stateSize .preclean)).cxuStctxStatus) :
    cxu.call sysSel ⟨1022, value, b⟩ state =
      some (some 0,
        resetState.setStatus context (statusWord cxu.stateSize .dirty)) := by
  simp only [call, cxu.writeStatus_entry, Option.bind_some]
  exact writeStatusFunc_preclean rfl located decoded b wasReset statusKept

end Cxu

/-- `mulacc_func.c`. -/
def mulacc : Cxu :=
  { instances := Mulacc.cxNumMulaccInstances
    states := Mulacc.cxMulaccNumStates
    Data := Mulacc.Context → Word
    cxuIdToInstanceNum := Mulacc.cxuIdToInstanceNum
    initial := Mulacc.initCxFuncMulacc
    func := Mulacc.cxFuncMulacc
    numFuncs := Mulacc.cxMulaccNumFuncs
    resetCfId := 1
    stateSize := 1
    word := fun acc context _ => acc context
    admits := fun _ _ _ => True
    hwReset := Accumulator.resetStatics Mulacc.contextOf
    readStatus_entry := rfl
    writeStatus_entry := rfl
    initial_settled := fun _ => settled_statusWord 1 (by decide)
    func_keepsSettled := Mulacc.cxFuncMulacc_keepsSettled
    func_total := fun located _ a b below _ statics =>
      Mulacc.cxFuncMulacc_total located below a b statics }

/-- `nn_acc_func.c`. -/
def nnAcc : Cxu :=
  { instances := NnAcc.cxNumNnAccInstances
    states := NnAcc.cxNnAccNumStates
    Data := NnAcc.Context → Word
    cxuIdToInstanceNum := NnAcc.cxuIdToInstanceNum
    initial := NnAcc.initCxFuncNnAcc
    func := NnAcc.cxFuncNnAcc
    numFuncs := NnAcc.cxNnAccNumFuncs
    resetCfId := 1
    stateSize := 1
    word := fun acc context _ => acc context
    admits := fun _ _ _ => True
    hwReset := Accumulator.resetStatics NnAcc.contextOf
    readStatus_entry := rfl
    writeStatus_entry := rfl
    initial_settled := fun _ => settled_statusWord 1 (by decide)
    func_keepsSettled := NnAcc.cxFuncNnAcc_keepsSettled
    func_total := fun located _ a b below _ statics =>
      NnAcc.cxFuncNnAcc_total located below a b statics }

/-- `vector_func.c`. -/
def vector : Cxu :=
  { instances := Vector.cxNumVecInstances
    states := Vector.cxVectorNumStates
    Data := Nat → Word
    cxuIdToInstanceNum := Vector.cxuIdToInstanceNum
    initial := Vector.initCxFuncVector
    func := Vector.cxFuncVector
    numFuncs := Vector.cxVectorNumFuncs
    resetCfId := 3
    stateSize := Vector.stateSize
    word := Vector.wordOf
    admits := Vector.Admits
    hwReset := Vector.resetStatics
    readStatus_entry := rfl
    writeStatus_entry := rfl
    initial_settled := fun _ => settled_statusWord _ (by decide)
    func_keepsSettled := Vector.cxFuncVector_keepsSettled
    func_total := fun located _ _ _ below admitted statics =>
      Vector.cxFuncVector_total located below admitted statics }

end CxRuntime
