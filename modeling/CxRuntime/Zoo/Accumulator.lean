import CxRuntime.Zoo.ContextStatics

/-!
# Accumulator CXUs

`mulacc_func.c` and `nn_acc_func.c` keep one accumulator for each context and
share most of their functions.  The shared bodies are defined here once, over
the function that finds the context, with one lemma each for a selector that
names a context.
-/

namespace CxRuntime

/-- `acc[instance][state]` with the status words. -/
abbrev AccStatics (κ : Type) := CxuStatics κ (κ → Word)

namespace Accumulator

variable {κ : Type} [DecidableEq κ]

/-- `acc[inst_num][state_id] = value`. -/
def setAcc (statics : AccStatics κ) (context : κ) (value : Word) :
    AccStatics κ :=
  { statics with data := Function.update statics.data context value }

@[simp] theorem setAcc_same (statics : AccStatics κ) (context : κ)
    (value : Word) : (setAcc statics context value).data context = value :=
  Function.update_self ..

@[simp] theorem setAcc_of_ne (statics : AccStatics κ) {context other : κ}
    (different : other ≠ context) (value : Word) :
    (setAcc statics context value).data other = statics.data other :=
  Function.update_of_ne different ..

@[simp] theorem setAcc_status (statics : AccStatics κ) (context : κ)
    (value : Word) :
    (setAcc statics context value).cxuStctxStatus = statics.cxuStctxStatus :=
  rfl

variable (contextOf : CxSelidx → Option κ)

/-- The body of `mac_func` and `nn_acc_func`. -/
def accumulateFunc : CxFunc (AccStatics κ) := fun a b sysSel statics => do
  let context ← contextOf sysSel
  let dirty := statics.setDc context .dirty
  let sum := dirty.data context + a * b
  some (some sum, setAcc dirty context sum)

def resetFunc : CxFunc (AccStatics κ) := fun _ _ sysSel statics => do
  let context ← contextOf sysSel
  some (some 0, setAcc statics context 0)

/-- `reset_func(0, 0, sys_sel)` called for its effect by CF 1022. -/
def resetStatics (sysSel : CxSelidx) (statics : AccStatics κ) :
    Option (AccStatics κ) :=
  (resetFunc contextOf 0 0 sysSel statics).map Prod.snd

/-- The index is taken from the second operand. -/
def readStateFunc : CxFunc (AccStatics κ) := fun _ index sysSel statics => do
  let context ← contextOf sysSel
  if index = 0 then some (some (statics.data context), statics)
  else some (some 0xFFFFFFFF, statics)

/-- A successful write ends without a `return`. -/
def writeStateFunc : CxFunc (AccStatics κ) :=
  fun index value sysSel statics => do
    let context ← contextOf sysSel
    if index = 0 then some (none, setAcc statics context value)
    else some (some 0xFFFFFFFF, statics)

variable {contextOf} {sysSel : CxSelidx} {context : κ}

theorem accumulateFunc_eq (located : contextOf sysSel = some context)
    (a b : Word) (statics : AccStatics κ) :
    accumulateFunc contextOf a b sysSel statics =
      some (some (statics.data context + a * b),
        setAcc (statics.setDc context .dirty) context
          (statics.data context + a * b)) := by
  simp only [accumulateFunc, located, Option.bind_eq_bind, Option.bind_some,
    CxuStatics.setDc_data]

theorem resetFunc_eq (located : contextOf sysSel = some context)
    (a b : Word) (statics : AccStatics κ) :
    resetFunc contextOf a b sysSel statics =
      some (some 0, setAcc statics context 0) := by
  simp only [resetFunc, located, Option.bind_eq_bind, Option.bind_some]

theorem resetStatics_eq (located : contextOf sysSel = some context)
    (statics : AccStatics κ) :
    resetStatics contextOf sysSel statics =
      some (setAcc statics context 0) := by
  rw [resetStatics, resetFunc_eq located, Option.map_some]

omit [DecidableEq κ] in
theorem readStateFunc_eq (located : contextOf sysSel = some context)
    (a : Word) (statics : AccStatics κ) :
    readStateFunc contextOf a 0 sysSel statics =
      some (some (statics.data context), statics) := by
  simp only [readStateFunc, located, Option.bind_eq_bind, Option.bind_some,
    if_true]

theorem writeStateFunc_eq (located : contextOf sysSel = some context)
    (value : Word) (statics : AccStatics κ) :
    writeStateFunc contextOf 0 value sysSel statics =
      some (none, setAcc statics context value) := by
  simp only [writeStateFunc, located, Option.bind_eq_bind, Option.bind_some,
    if_true]

omit [DecidableEq κ] in
theorem readStateFunc_total (located : contextOf sysSel = some context)
    (a index : Word) (statics : AccStatics κ) :
    ∃ answer, readStateFunc contextOf a index sysSel statics = some answer := by
  simp only [readStateFunc, located, Option.bind_eq_bind, Option.bind_some]
  split <;> exact ⟨_, rfl⟩

theorem writeStateFunc_total (located : contextOf sysSel = some context)
    (index value : Word) (statics : AccStatics κ) :
    ∃ answer,
      writeStateFunc contextOf index value sysSel statics = some answer := by
  simp only [writeStateFunc, located, Option.bind_eq_bind, Option.bind_some]
  split <;> exact ⟨_, rfl⟩

/-! ## The status words -/

variable {stateSize : BitVec 16} (contextOf)

theorem AllSettled_setAcc {statics : AccStatics κ}
    (settled : statics.AllSettled stateSize) (context : κ) (value : Word) :
    (setAcc statics context value).AllSettled stateSize := settled

theorem accumulateFunc_keepsSettled :
    KeepsSettled stateSize (accumulateFunc contextOf) := by
  intro a b sysSel statics returned next settled ran
  obtain ⟨context, _, equality⟩ := Option.bind_eq_some_iff.mp ran
  cases equality
  exact AllSettled_setAcc (settled.setDc context (by decide)) context _

theorem resetFunc_keepsSettled :
    KeepsSettled stateSize (resetFunc contextOf) := by
  intro a b sysSel statics returned next settled ran
  obtain ⟨context, _, equality⟩ := Option.bind_eq_some_iff.mp ran
  cases equality
  exact AllSettled_setAcc settled context _

omit [DecidableEq κ] in
theorem readStateFunc_keepsSettled :
    KeepsSettled stateSize (readStateFunc contextOf) := by
  intro a index sysSel statics returned next settled ran
  obtain ⟨context, _, equality⟩ := Option.bind_eq_some_iff.mp ran
  split at equality <;> cases equality <;> exact settled

theorem writeStateFunc_keepsSettled :
    KeepsSettled stateSize (writeStateFunc contextOf) := by
  intro index value sysSel statics returned next settled ran
  obtain ⟨context, _, equality⟩ := Option.bind_eq_some_iff.mp ran
  split at equality
  · cases equality
    exact AllSettled_setAcc settled context _
  · cases equality
    exact settled

variable {contextOf}

theorem resetStatics_status {sysSel : CxSelidx} {statics next : AccStatics κ}
    (wasReset : resetStatics contextOf sysSel statics = some next) :
    next.cxuStctxStatus = statics.cxuStctxStatus := by
  obtain ⟨⟨_, _⟩, ran, rfl⟩ := Option.map_eq_some_iff.mp wasReset
  obtain ⟨context, _, equality⟩ := Option.bind_eq_some_iff.mp ran
  cases equality
  rfl

end Accumulator

end CxRuntime
