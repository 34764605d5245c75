import CxRuntime.Lib.Product
import CxRuntime.Zoo.Cxu

/-!
# Accumulators as independent machines

A single accumulator with its status word, moved by the functions of `mulacc`
or `nn_acc`.  Calls on several contexts in any order run as many of these
machines side by side, and the value of each is the fold of its own calls.
-/

namespace CxRuntime

/-! ## Interleaved calls on the contexts of a CXU -/

/-- A call of a custom function of the table under a selector that names a
context. -/
structure Cxu.LocatedCall (cxu : Cxu) where
  sysSel : CxSelidx
  context : cxu.Context
  located : cxu.contextOf sysSel = some context
  cfCall : CfCall
  defined : cfCall.cfId < maxCfIds

namespace Cxu

variable {cxu : Cxu} {α : Type}

/-- One call; its answer is tagged with its context. -/
def callOn (cxu : Cxu) (state : cxu.State) (call : cxu.LocatedCall) :
    Option (cxu.State × (cxu.Context × Returned)) :=
  (cxu.call call.sysSel call.cfCall state).map fun (returned, next) =>
    (next, (call.context, returned))

/-- The calls made on one context. -/
def callsOn (context : cxu.Context) (calls : List cxu.LocatedCall) :
    List CfCall :=
  Product.only context (calls.map fun call => (call.context, call.cfCall))

private theorem runTotal_tagged (soloStep : α → CfCall → α × Returned)
    (calls : List cxu.LocatedCall) (components : cxu.Context → α) :
    Transition.runTotal (fun components (call : cxu.LocatedCall) =>
        Product.step soloStep components (call.context, call.cfCall))
        components calls =
      Transition.runTotal (Product.step soloStep) components
        (calls.map fun call => (call.context, call.cfCall)) := by
  induction calls generalizing components with
  | nil => rfl
  | cons call calls induction =>
      simp only [Transition.runTotal, List.map_cons, induction]

/-- If each call acts on the view of its context by a local step, any
interleaving runs the contexts independently. -/
theorem interleaved_product (view : cxu.State → cxu.Context → α)
    (soloStep : α → CfCall → α × Returned)
    (simulates : ∀ state (call : cxu.LocatedCall), ∃ next,
      cxu.call call.sysSel call.cfCall state =
          some ((soloStep (view state call.context) call.cfCall).2, next) ∧
        view next = Function.update (view state) call.context
          (soloStep (view state call.context) call.cfCall).1)
    (state : cxu.State) (calls : List cxu.LocatedCall) :
    ∃ final answers,
      Transition.run cxu.callOn state calls = some (final, answers) ∧
        ∀ context, (view final context, Product.only context answers) =
          Transition.runTotal soloStep (view state context)
            (callsOn context calls) := by
  obtain ⟨final, ran, finalEq⟩ := @Transition.run_refines _ _ _ _ _ cxu.callOn
    (fun components call =>
      Product.step soloStep components (call.context, call.cfCall))
    (fun state components => view state = components) id
    (by
      intro state components call same
      subst same
      obtain ⟨next, called, moved⟩ := simulates state call
      refine ⟨next, ?_, moved⟩
      rw [callOn, called]
      rfl)
    calls state (view state) rfl
  rw [List.map_id] at ran
  refine ⟨final, _, ran, ?_⟩
  intro context
  rw [finalEq, runTotal_tagged]
  exact Product.run_only soloStep context _ (view state)

end Cxu

/-! ## One accumulator -/

/-- An accumulator and its status word. -/
structure SoloAcc where
  acc : Word
  status : CxStctxs

/-- A custom function on one accumulator. -/
abbrev SoloFunc := Word → Word → SoloAcc → SoloAcc × Returned

namespace SoloAcc

def setDc (solo : SoloAcc) (cs : CxCs) : SoloAcc :=
  { solo with status := { solo.status with dc := cs.dc } }

def accumulate : SoloFunc := fun a b solo =>
  ({ solo.setDc .dirty with acc := solo.acc + a * b },
    some (solo.acc + a * b))

def reset : SoloFunc := fun _ _ solo => ({ solo with acc := 0 }, some 0)

def nothing : SoloFunc := fun _ _ solo => (solo, some 0)

def zeroMac : SoloFunc := fun a b solo =>
  ({ solo.setDc .clean with acc := 0 }, some (solo.acc + a * b))

def readAcc : SoloFunc := fun _ _ solo =>
  ({ solo.setDc .clean with acc := 0 }, some solo.acc)

def relu : SoloFunc := fun _ _ solo =>
  ({ solo.setDc .dirty with acc := NnAcc.clamped solo.acc },
    some (NnAcc.clamped solo.acc))

def writeState : SoloFunc := fun index value solo =>
  if index = 0 then ({ solo with acc := value }, none)
  else (solo, some 0xFFFFFFFF)

def readState : SoloFunc := fun _ index solo =>
  (solo, if index = 0 then some solo.acc else some 0xFFFFFFFF)

/-- The data-clean field of the written word decides; `CX_PRECLEAN` also clears
the accumulator and ends as `CX_DIRTY`. -/
def writeStatus : SoloFunc := fun value _ solo =>
  let dc := (CxStctxs.ofIdx value).dc
  if dc = CxCs.off.dc then
    ({ solo with status := statusWord 1 .off }, some 0)
  else if dc = CxCs.preclean.dc then
    ({ acc := 0, status := statusWord 1 .dirty }, some 0)
  else if dc = CxCs.dirty.dc then (solo.setDc .dirty, some 0)
  else (solo.setDc .clean, some 0)

def readStatus : SoloFunc := fun _ _ solo => (solo, some solo.status.idx)

def undefined : SoloFunc := fun _ _ solo => (solo, some (-1))

end SoloAcc

def Mulacc.soloFunc (cfId : Nat) : SoloFunc :=
  if cfId = 0 then SoloAcc.accumulate
  else if cfId = 1 then SoloAcc.reset
  else if cfId = 2 then SoloAcc.nothing
  else if cfId = 3 then SoloAcc.zeroMac
  else if cfId = 4 then SoloAcc.readAcc
  else if cfId = 1020 then SoloAcc.writeState
  else if cfId = 1021 then SoloAcc.readState
  else if cfId = 1022 then SoloAcc.writeStatus
  else if cfId = 1023 then SoloAcc.readStatus
  else SoloAcc.undefined

def NnAcc.soloFunc (cfId : Nat) : SoloFunc :=
  if cfId = 0 then SoloAcc.accumulate
  else if cfId = 1 then SoloAcc.reset
  else if cfId = 2 then SoloAcc.relu
  else if cfId = 1020 then SoloAcc.writeState
  else if cfId = 1021 then SoloAcc.readState
  else if cfId = 1022 then SoloAcc.writeStatus
  else if cfId = 1023 then SoloAcc.readStatus
  else SoloAcc.undefined

/-- What the system functions do to the value of an accumulator. -/
def systemAccAfter (acc : Word) (call : CfCall) : Word :=
  if call.cfId = 1020 ∧ call.a = 0 then call.b
  else if call.cfId = 1022 ∧
    (CxStctxs.ofIdx call.a).dc = CxCs.preclean.dc then 0
  else acc

/-- The value of a `mulacc` accumulator after one more call. -/
def Mulacc.accAfter (acc : Word) (call : CfCall) : Word :=
  if call.cfId = 0 then acc + call.a * call.b
  else if call.cfId = 1 ∨ call.cfId = 3 ∨ call.cfId = 4 then 0
  else systemAccAfter acc call

/-- The value of an `nn_acc` accumulator after one more call. -/
def NnAcc.accAfter (acc : Word) (call : CfCall) : Word :=
  if call.cfId = 0 then acc + call.a * call.b
  else if call.cfId = 1 then 0
  else if call.cfId = 2 then NnAcc.clamped acc
  else systemAccAfter acc call

/-! ## The functions act on one accumulator -/

namespace Accumulator

variable {κ : Type} [DecidableEq κ]

def soloOf (statics : AccStatics κ) (context : κ) : SoloAcc :=
  { acc := statics.data context
    status := statics.cxuStctxStatus context }

omit [DecidableEq κ] in
@[simp] theorem soloOf_acc (statics : AccStatics κ) (context : κ) :
    (soloOf statics context).acc = statics.data context := rfl

@[simp] theorem soloOf_setAcc (statics : AccStatics κ) (context : κ)
    (value : Word) :
    soloOf (setAcc statics context value) =
      Function.update (soloOf statics) context
        { soloOf statics context with acc := value } := by
  funext other
  by_cases same : other = context
  · subst same
    rw [Function.update_self, soloOf, setAcc_same, setAcc_status]
    rfl
  · rw [Function.update_of_ne same, soloOf, setAcc_of_ne _ same, setAcc_status]
    rfl

@[simp] theorem soloOf_setStatus (statics : AccStatics κ) (context : κ)
    (word : CxStctxs) :
    soloOf (statics.setStatus context word) =
      Function.update (soloOf statics) context
        { soloOf statics context with status := word } := by
  funext other
  by_cases same : other = context
  · subst same
    rw [Function.update_self, soloOf, CxuStatics.setStatus_same]
    rfl
  · rw [Function.update_of_ne same, soloOf, CxuStatics.setStatus_of_ne _ same]
    rfl

@[simp] theorem soloOf_setDc (statics : AccStatics κ) (context : κ)
    (cs : CxCs) :
    soloOf (statics.setDc context cs) =
      Function.update (soloOf statics) context
        ((soloOf statics context).setDc cs) :=
  soloOf_setStatus statics context _

/-- The function moves the accumulator it is called on as `solo` does, returns
the same and leaves the others. -/
def ActsAs (contextOf : CxSelidx → Option κ) (func : CxFunc (AccStatics κ))
    (solo : SoloFunc) : Prop :=
  ∀ {sysSel context}, contextOf sysSel = some context →
    ∀ (a b : Word) (statics : AccStatics κ), ∃ next,
      func a b sysSel statics =
          some ((solo a b (soloOf statics context)).2, next) ∧
        soloOf next = Function.update (soloOf statics) context
          (solo a b (soloOf statics context)).1

/-- The slot of a table contains such a function. -/
def SlotActsAs (contextOf : CxSelidx → Option κ)
    (slot : Option (CxFunc (AccStatics κ))) (solo : SoloFunc) : Prop :=
  ∃ func, slot = some func ∧ ActsAs contextOf func solo

variable {contextOf : CxSelidx → Option κ}

theorem SlotActsAs.some {func : CxFunc (AccStatics κ)} {solo : SoloFunc}
    (acts : ActsAs contextOf func solo) :
    SlotActsAs contextOf (some func) solo := ⟨func, rfl, acts⟩

theorem SlotActsAs.ite {condition : Prop} [Decidable condition]
    {left right : Option (CxFunc (AccStatics κ))} {leftSolo rightSolo : SoloFunc}
    (inLeft : SlotActsAs contextOf left leftSolo)
    (inRight : SlotActsAs contextOf right rightSolo) :
    SlotActsAs contextOf (if condition then left else right)
      (if condition then leftSolo else rightSolo) := by
  split
  · exact inLeft
  · exact inRight

theorem accumulateFunc_actsAs :
    ActsAs contextOf (accumulateFunc contextOf) SoloAcc.accumulate := by
  intro sysSel context located a b statics
  refine ⟨_, accumulateFunc_eq located a b statics, ?_⟩
  simp [SoloAcc.accumulate]

theorem resetFunc_actsAs :
    ActsAs contextOf (resetFunc contextOf) SoloAcc.reset := by
  intro sysSel context located a b statics
  refine ⟨_, resetFunc_eq located a b statics, ?_⟩
  simp [SoloAcc.reset]

theorem readStateFunc_actsAs :
    ActsAs contextOf (readStateFunc contextOf) SoloAcc.readState := by
  intro sysSel context located a index statics
  refine ⟨statics, ?_, (Function.update_eq_self context _).symm⟩
  simp only [readStateFunc, located, Option.bind_eq_bind, Option.bind_some,
    SoloAcc.readState]
  split <;> rfl

theorem writeStateFunc_actsAs :
    ActsAs contextOf (writeStateFunc contextOf) SoloAcc.writeState := by
  intro sysSel context located index value statics
  simp only [writeStateFunc, located, Option.bind_eq_bind, Option.bind_some,
    SoloAcc.writeState]
  by_cases isZero : index = 0
  · simp only [if_pos isZero]
    exact ⟨_, rfl, soloOf_setAcc statics context value⟩
  · simp only [if_neg isZero]
    exact ⟨statics, rfl, (Function.update_eq_self context _).symm⟩

theorem readStatusFunc_actsAs :
    ActsAs contextOf (readStatusFunc contextOf) SoloAcc.readStatus := by
  intro sysSel context located a b statics
  refine ⟨statics, readStatusFunc_eq located a b statics, ?_⟩
  exact (Function.update_eq_self context _).symm

theorem cxFuncUndefined_actsAs :
    ActsAs contextOf cxFuncUndefined SoloAcc.undefined := by
  intro sysSel context _ a b statics
  exact ⟨statics, rfl, (Function.update_eq_self context _).symm⟩

theorem writeStatusFunc_actsAs :
    ActsAs contextOf
      (writeStatusFunc contextOf (statusWord 1 .preclean) (statusWord 1 .off)
        (resetStatics contextOf))
      SoloAcc.writeStatus := by
  intro sysSel context located value b statics
  obtain ⟨cs, decoded⟩ := CxCs.dc_surjective (CxStctxs.ofIdx value).dc
  rw [writeStatusFunc_eq located decoded.symm]
  simp only [SoloAcc.writeStatus, ← decoded, CxCs.dc_injective.eq_iff]
  cases cs with
  | off => exact ⟨_, rfl, soloOf_setStatus statics context _⟩
  | preclean =>
      rw [resetStatics_eq located]
      refine ⟨_, rfl, ?_⟩
      simp [SoloAcc.setDc]
      rfl
  | clean => exact ⟨_, rfl, soloOf_setDc statics context .clean⟩
  | dirty => exact ⟨_, rfl, soloOf_setDc statics context .dirty⟩

end Accumulator

open Accumulator

private theorem Mulacc.doNothing_actsAs :
    ActsAs contextOf doNothing SoloAcc.nothing := by
  intro sysSel context _ a b statics
  exact ⟨statics, rfl, (Function.update_eq_self context _).symm⟩

private theorem Mulacc.zeroMacFunc_actsAs :
    ActsAs contextOf zeroMacFunc SoloAcc.zeroMac := by
  intro sysSel context located a b statics
  refine ⟨_, zeroMacFunc_eq located a b statics, ?_⟩
  simp [SoloAcc.zeroMac]

private theorem Mulacc.readAccFunc_actsAs :
    ActsAs contextOf readAccFunc SoloAcc.readAcc := by
  intro sysSel context located a b statics
  refine ⟨_, readAccFunc_eq located a b statics, ?_⟩
  simp [SoloAcc.readAcc]

private theorem NnAcc.reluFunc_actsAs :
    ActsAs contextOf reluFunc SoloAcc.relu := by
  intro sysSel context located a b statics
  refine ⟨_, reluFunc_eq located a b statics, ?_⟩
  simp [SoloAcc.relu]

private theorem Mulacc.cxFuncMulacc_actsAs {cfId : Nat}
    (below : cfId < maxCfIds) :
    SlotActsAs contextOf (cxFuncMulacc cfId) (soloFunc cfId) := by
  unfold cxFuncMulacc soloFunc
  rw [if_pos below]
  exact .ite (.some accumulateFunc_actsAs) <| .ite (.some resetFunc_actsAs) <|
    .ite (.some doNothing_actsAs) <| .ite (.some zeroMacFunc_actsAs) <|
      .ite (.some readAccFunc_actsAs) <| .ite (.some writeStateFunc_actsAs) <|
        .ite (.some readStateFunc_actsAs) <|
          .ite (.some writeStatusFunc_actsAs) <|
            .ite (.some readStatusFunc_actsAs) (.some cxFuncUndefined_actsAs)

private theorem NnAcc.cxFuncNnAcc_actsAs {cfId : Nat}
    (below : cfId < maxCfIds) :
    SlotActsAs contextOf (cxFuncNnAcc cfId) (soloFunc cfId) := by
  unfold cxFuncNnAcc soloFunc
  rw [if_pos below]
  exact .ite (.some accumulateFunc_actsAs) <| .ite (.some resetFunc_actsAs) <|
    .ite (.some reluFunc_actsAs) <| .ite (.some writeStateFunc_actsAs) <|
      .ite (.some readStateFunc_actsAs) <| .ite (.some writeStatusFunc_actsAs) <|
        .ite (.some readStatusFunc_actsAs) (.some cxFuncUndefined_actsAs)

/-! ## The value is a fold -/

private theorem SoloAcc.writeStatus_acc (value b : Word) (solo : SoloAcc) :
    (writeStatus value b solo).1.acc =
      if (CxStctxs.ofIdx value).dc = CxCs.preclean.dc then 0 else solo.acc := by
  obtain ⟨cs, decoded⟩ := CxCs.dc_surjective (CxStctxs.ofIdx value).dc
  simp only [writeStatus, ← decoded, CxCs.dc_injective.eq_iff]
  cases cs <;> rfl

private theorem SoloAcc.writeState_acc (index value : Word) (solo : SoloAcc) :
    (writeState index value solo).1.acc =
      if index = 0 then value else solo.acc := by
  unfold writeState
  split <;> rfl

/-- CF 1020 to 1023 and the undefined functions, by their CF ids. -/
theorem SoloAcc.system_acc (call : CfCall) (solo : SoloAcc) :
    ((if call.cfId = 1020 then writeState
      else if call.cfId = 1021 then readState
      else if call.cfId = 1022 then writeStatus
      else if call.cfId = 1023 then readStatus
      else undefined) call.a call.b solo).1.acc =
      systemAccAfter solo.acc call := by
  obtain ⟨cfId, a, b⟩ := call
  by_cases isWriteState : cfId = 1020
  · subst isWriteState
    simp [systemAccAfter, writeState_acc]
  by_cases isReadState : cfId = 1021
  · subst isReadState
    rfl
  by_cases isWriteStatus : cfId = 1022
  · subst isWriteStatus
    simp [systemAccAfter, writeStatus_acc]
  simp only [systemAccAfter, isWriteState, isReadState, isWriteStatus,
    false_and, if_false]
  split <;> rfl

private theorem Mulacc.soloFunc_acc (call : CfCall) (solo : SoloAcc) :
    (soloFunc call.cfId call.a call.b solo).1.acc =
      accAfter solo.acc call := by
  have system := SoloAcc.system_acc call solo
  obtain ⟨cfId, a, b⟩ := call
  by_cases isMac : cfId = 0
  · subst isMac
    rfl
  by_cases isReset : cfId = 1
  · subst isReset
    rfl
  by_cases isNothing : cfId = 2
  · subst isNothing
    rfl
  by_cases isZeroMac : cfId = 3
  · subst isZeroMac
    rfl
  by_cases isReadAcc : cfId = 4
  · subst isReadAcc
    rfl
  simpa only [soloFunc, accAfter, isMac, isReset, isNothing, isZeroMac,
    isReadAcc, if_false, or_self] using system

private theorem NnAcc.soloFunc_acc (call : CfCall) (solo : SoloAcc) :
    (soloFunc call.cfId call.a call.b solo).1.acc =
      accAfter solo.acc call := by
  have system := SoloAcc.system_acc call solo
  obtain ⟨cfId, a, b⟩ := call
  by_cases isNnAcc : cfId = 0
  · subst isNnAcc
    rfl
  by_cases isReset : cfId = 1
  · subst isReset
    rfl
  by_cases isRelu : cfId = 2
  · subst isRelu
    rfl
  simpa only [soloFunc, accAfter, isNnAcc, isReset, isRelu, if_false]
    using system

/-- The value of one accumulator after a run is the fold of its calls. -/
theorem SoloAcc.runTotal_acc {soloFunc : Nat → SoloFunc}
    {accAfter : Word → CfCall → Word}
    (moves : ∀ call solo,
      (soloFunc call.cfId call.a call.b solo).1.acc = accAfter solo.acc call)
    (calls : List CfCall) (solo : SoloAcc) :
    (Transition.runTotal (fun solo call =>
        soloFunc call.cfId call.a call.b solo) solo calls).1.acc =
      calls.foldl accAfter solo.acc := by
  induction calls generalizing solo with
  | nil => rfl
  | cons call calls induction =>
      rw [List.foldl_cons, ← moves call solo]
      exact induction _

/-! ## Both CXUs -/

/-- Any interleaving of calls from a reachable state runs the contexts as
independent accumulators: each gives the answers and ends as the one accumulator
`soloFunc` run on its own calls, with the fold of `accAfter` as its value, and
every status word is settled. -/
def Cxu.RunsAsAccumulators (cxu : Cxu)
    (soloOf : cxu.State → cxu.Context → SoloAcc) (soloFunc : Nat → SoloFunc)
    (accAfter : Word → CfCall → Word) : Prop :=
  ∀ state, cxu.Reachable state → ∀ calls : List cxu.LocatedCall,
    ∃ final answers,
      Transition.run cxu.callOn state calls = some (final, answers) ∧
        (∀ context, (soloOf final context, Product.only context answers) =
          Transition.runTotal
            (fun solo call => soloFunc call.cfId call.a call.b solo)
            (soloOf state context) (callsOn context calls)) ∧
        (∀ context, (soloOf final context).acc =
          (callsOn context calls).foldl accAfter (soloOf state context).acc) ∧
        ∀ context, Settled 1 (soloOf final context).status

private theorem Cxu.runsAsAccumulators {cxu : Cxu}
    {soloOf : cxu.State → cxu.Context → SoloAcc} {soloFunc : Nat → SoloFunc}
    {accAfter : Word → CfCall → Word} (sizeOne : cxu.stateSize = 1)
    (status_eq : ∀ state context,
      (soloOf state context).status = state.cxuStctxStatus context)
    (simulates : ∀ state (call : cxu.LocatedCall), ∃ next,
      cxu.call call.sysSel call.cfCall state =
          some ((soloFunc call.cfCall.cfId call.cfCall.a call.cfCall.b
            (soloOf state call.context)).2, next) ∧
        soloOf next = Function.update (soloOf state) call.context
          (soloFunc call.cfCall.cfId call.cfCall.a call.cfCall.b
            (soloOf state call.context)).1)
    (moves : ∀ call solo,
      (soloFunc call.cfId call.a call.b solo).1.acc =
        accAfter solo.acc call) :
    cxu.RunsAsAccumulators soloOf soloFunc accAfter := by
  intro state reachable calls
  obtain ⟨final, answers, ran, alone⟩ := interleaved_product soloOf
    (fun solo call => soloFunc call.cfId call.a call.b solo) simulates state
    calls
  refine ⟨final, answers, ran, alone, ?_, ?_⟩
  · intro context
    have acc := SoloAcc.runTotal_acc moves (callsOn context calls)
      (soloOf state context)
    rw [← alone context] at acc
    exact acc
  · intro context
    have settled : final.AllSettled cxu.stateSize :=
      Transition.run_invariant (fun state => state.AllSettled cxu.stateSize)
        (by
          intro current call next answer held stepped
          obtain ⟨⟨returned, after⟩, called, equality⟩ :=
            Option.map_eq_some_iff.mp stepped
          cases equality
          exact call_settled held called)
        (reachable_settled reachable) ran
    rw [status_eq, ← sizeOne]
    exact settled context

theorem mulacc_simulates (state : mulacc.State) (call : mulacc.LocatedCall) :
    ∃ next,
      mulacc.call call.sysSel call.cfCall state =
          some ((Mulacc.soloFunc call.cfCall.cfId call.cfCall.a call.cfCall.b
            (soloOf state call.context)).2, next) ∧
        soloOf next = Function.update (soloOf state) call.context
          (Mulacc.soloFunc call.cfCall.cfId call.cfCall.a call.cfCall.b
            (soloOf state call.context)).1 := by
  obtain ⟨func, entry, acts⟩ := Mulacc.cxFuncMulacc_actsAs call.defined
  obtain ⟨next, ran, moved⟩ :=
    acts call.located call.cfCall.a call.cfCall.b state
  exact ⟨next, Option.bind_eq_some_iff.mpr ⟨func, entry, ran⟩, moved⟩

theorem nnAcc_simulates (state : nnAcc.State) (call : nnAcc.LocatedCall) :
    ∃ next,
      nnAcc.call call.sysSel call.cfCall state =
          some ((NnAcc.soloFunc call.cfCall.cfId call.cfCall.a call.cfCall.b
            (soloOf state call.context)).2, next) ∧
        soloOf next = Function.update (soloOf state) call.context
          (NnAcc.soloFunc call.cfCall.cfId call.cfCall.a call.cfCall.b
            (soloOf state call.context)).1 := by
  obtain ⟨func, entry, acts⟩ := NnAcc.cxFuncNnAcc_actsAs call.defined
  obtain ⟨next, ran, moved⟩ :=
    acts call.located call.cfCall.a call.cfCall.b state
  exact ⟨next, Option.bind_eq_some_iff.mpr ⟨func, entry, ran⟩, moved⟩

theorem accumulators_independent :
    mulacc.RunsAsAccumulators soloOf Mulacc.soloFunc Mulacc.accAfter ∧
      nnAcc.RunsAsAccumulators soloOf NnAcc.soloFunc NnAcc.accAfter := by
  constructor
  · exact Cxu.runsAsAccumulators rfl (fun _ _ => rfl) mulacc_simulates
      Mulacc.soloFunc_acc
  · exact Cxu.runsAsAccumulators rfl (fun _ _ => rfl) nnAcc_simulates
      NnAcc.soloFunc_acc

end CxRuntime
