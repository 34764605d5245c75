import CxRuntime.Zoo.Cxu
import CxRuntime.Zoo.VectorIsolation

/-!
# The vector CXU as a register file

The reference of `vector_test.c`: each context is four registers of 32 lanes.
`registers` reads this file off the flat array, and each custom function moves
it as the reference operation does, so runs agree by simulation.
-/

namespace CxRuntime.Vector

abbrev Reg := Fin cxVectorNumRegs

abbrev Lane := Fin cxVectorVl

/-- The registers of one context. -/
abbrev RegFile := Reg → Lane → Word

/-- The word of a context that holds a lane. -/
def laneWord (reg : Reg) (lane : Lane) : Word :=
  BitVec.ofNat 32 (cxVectorVl * reg + lane)

/-- An operation of the reference.  The operands its custom function ignores are
arguments as well. -/
inductive RegOp
  | add (rd rs : Reg)
  | setInc (rd : Reg) (b : Word)
  | set2 (rd : Reg) (b : Word)
  | writeState (reg : Reg) (lane : Lane) (value : Word)
  | writeStatus (value b : Word)
      (resting : (CxStctxs.ofIdx value).dc ≠ CxCs.preclean.dc)
  | readState (reg : Reg) (lane : Lane) (b : Word)
  | readStatus (a b : Word)

namespace RegOp

def cfCall : RegOp → CfCall
  | add rd rs => ⟨0, BitVec.ofNat 32 rd, BitVec.ofNat 32 rs⟩
  | setInc rd b => ⟨1, BitVec.ofNat 32 rd, b⟩
  | set2 rd b => ⟨2, BitVec.ofNat 32 rd, b⟩
  | writeState reg lane value => ⟨1020, laneWord reg lane, value⟩
  | writeStatus value b _ => ⟨1022, value, b⟩
  | readState reg lane b => ⟨1021, laneWord reg lane, b⟩
  | readStatus a b => ⟨1023, a, b⟩

def apply (file : RegFile) : RegOp → RegFile
  | add rd rs => Function.update file rd fun lane => file rd lane + file rs lane
  | setInc rd _ => Function.update file rd fun lane => BitVec.ofNat 32 lane
  | set2 rd _ => Function.update file rd fun _ => 2
  | writeState reg lane value =>
      Function.update file reg (Function.update (file reg) lane value)
  | writeStatus .. => file
  | readState .. => file
  | readStatus .. => file

/-- What the reference says about the returned word. -/
def expected (file : RegFile) : RegOp → Returned
  | readState reg lane _ => some (file reg lane)
  | _ => none

/-- The part of the returned word that the reference speaks about. -/
def observed (returned : Returned) : RegOp → Returned
  | readState .. => returned
  | _ => none

end RegOp

structure ContextOp where
  sysSel : CxSelidx
  context : Context
  located : contextOf sysSel = some context
  op : RegOp

namespace ContextOp

def refStep (model : Context → RegFile) (call : ContextOp) :
    (Context → RegFile) × Returned :=
  (Function.update model call.context (call.op.apply (model call.context)),
    call.op.expected (model call.context))

def cxuStep (state : vector.State) (call : ContextOp) :
    Option (vector.State × Returned) :=
  (vector.call call.sysSel call.op.cfCall state).map fun (returned, next) =>
    (next, call.op.observed returned)

end ContextOp

/-! ## Register files in the flat array -/

def registers (data : Nat → Word) (context : Context) : RegFile :=
  fun reg lane => data (regBase context reg + lane)

theorem regBase_add_lane (context : Context) (reg : Reg) (lane : Lane) :
    regBase context reg + lane =
      regBase context 0 + (cxVectorVl * reg + lane) := by
  simp only [regBase, cxVectorNumRegs, cxVectorVl]
  omega

theorem laneIndex_lt (reg : Reg) (lane : Lane) :
    cxVectorVl * reg + lane < cxVectorStateSize := by
  have regLt : reg.val < 4 := reg.isLt
  have laneLt : lane.val < 32 := lane.isLt
  simp only [cxVectorStateSize, cxVectorVl, cxVectorNumRegs]
  omega

/-- Lanes of different registers or contexts are apart. -/
theorem regBase_disjoint {context other : Context} {target reg : Reg}
    (different : ¬(other = context ∧ reg = target)) (lane : Lane) :
    regBase other reg + lane < regBase context target ∨
      regBase context target + cxVectorVl ≤ regBase other reg + lane := by
  by_cases sameContext : other = context
  · subst sameContext
    have regs : reg.val ≠ target.val :=
      fun same => different ⟨rfl, Fin.ext same⟩
    have laneLt := lane.isLt
    simp only [regBase, cxVectorNumRegs, cxVectorVl] at laneLt ⊢
    omega
  · exact regBase_other sameContext target.isLt reg.isLt lane.isLt

theorem registers_overwrite (data : Nat → Word) (context : Context)
    (target : Reg) (value : Nat → Word) :
    registers (Cells.overwrite data (regBase context target) cxVectorVl value) =
      Function.update (registers data) context
        (Function.update (registers data context) target
          fun lane => value lane) := by
  funext other reg lane
  by_cases same : other = context ∧ reg = target
  · obtain ⟨rfl, rfl⟩ := same
    rw [Function.update_self, Function.update_self]
    exact Cells.overwrite_inside data lane.isLt value
  · have kept : registers (Cells.overwrite data (regBase context target)
        cxVectorVl value) other reg lane = registers data other reg lane :=
      Cells.overwrite_outside data (regBase_disjoint same lane) value
    rw [kept]
    by_cases sameContext : other = context
    · subst sameContext
      have otherReg : reg ≠ target := fun sameReg => same ⟨rfl, sameReg⟩
      rw [Function.update_self, Function.update_of_ne otherReg]
    · rw [Function.update_of_ne sameContext]

theorem registers_update (data : Nat → Word) (context : Context)
    (target : Reg) (lane : Lane) (value : Word) :
    registers
        (Function.update data
          (regBase context 0 + (cxVectorVl * target + lane)) value) =
      Function.update (registers data) context
        (Function.update (registers data context) target
          (Function.update (registers data context target) lane value)) := by
  funext other reg otherLane
  rw [registers, regBase_add_lane]
  by_cases same : other = context ∧ reg = target ∧ otherLane = lane
  · obtain ⟨rfl, rfl, rfl⟩ := same
    simp only [Function.update_self]
  · have apart : regBase other 0 + (cxVectorVl * reg + otherLane) ≠
        regBase context 0 + (cxVectorVl * target + lane) := by
      intro equality
      obtain ⟨sameContext, sameIndex⟩ := wordAddress_injective
        (laneIndex_lt reg otherLane) (laneIndex_lt target lane) equality
      have otherLt := otherLane.isLt
      have laneLt := lane.isLt
      simp only [cxVectorVl] at sameIndex otherLt laneLt
      have sameReg : reg = target := Fin.ext (by omega)
      have sameLane : otherLane = lane := Fin.ext (by omega)
      exact same ⟨sameContext, sameReg, sameLane⟩
    have kept : data (regBase other 0 + (cxVectorVl * reg + otherLane)) =
        registers data other reg otherLane :=
      congrArg data (regBase_add_lane other reg otherLane).symm
    rw [Function.update_of_ne apart, kept]
    by_cases sameContext : other = context
    · subst sameContext
      rw [Function.update_self]
      by_cases sameReg : reg = target
      · subst sameReg
        have otherLaneNe : otherLane ≠ lane :=
          fun sameLane => same ⟨rfl, rfl, sameLane⟩
        rw [Function.update_self, Function.update_of_ne otherLaneNe]
      · rw [Function.update_of_ne sameReg]
    · rw [Function.update_of_ne sameContext]

/-! ## The simulation -/

theorem toInt_ofNat_reg (reg : Reg) :
    (BitVec.ofNat 32 reg).toInt = (reg.val : Int) := by
  have below : reg.val < cxVectorStateSize :=
    Nat.lt_of_lt_of_le reg.isLt (by decide)
  exact toInt_ofNat_index below

/-- A call that overwrites one register moves the register files as a reference
step that writes the same lanes. -/
theorem cxuStep_overwrites {state next : vector.State} (call : ContextOp)
    {returned : Returned}
    (called : vector.call call.sysSel call.op.cfCall state =
      some (returned, next))
    (unobserved : call.op.observed returned =
      (ContextOp.refStep (registers state.data) call).2)
    (rd : Reg) (value : Nat → Word)
    (overwritten : next.data =
      Cells.overwrite state.data (regBase call.context rd) cxVectorVl value)
    (written : (ContextOp.refStep (registers state.data) call).1 =
      Function.update (registers state.data) call.context
        (Function.update (registers state.data call.context) rd
          fun lane => value lane)) :
    ∃ next,
      ContextOp.cxuStep state call =
          some (next, (ContextOp.refStep (registers state.data) call).2) ∧
        registers next.data =
          (ContextOp.refStep (registers state.data) call).1 := by
  refine ⟨next, ?_, ?_⟩
  · rw [ContextOp.cxuStep, called, ← unobserved]
    rfl
  · rw [overwritten, written]
    exact registers_overwrite state.data call.context rd value

private theorem cxuStep_simulates (state : vector.State) (call : ContextOp) :
    ∃ next,
      ContextOp.cxuStep state call =
          some (next, (ContextOp.refStep (registers state.data) call).2) ∧
        registers next.data =
          (ContextOp.refStep (registers state.data) call).1 := by
  obtain ⟨sysSel, context, located, op⟩ := call
  cases op with
  | add rd rs =>
      obtain ⟨outcome, ran, _, staticsEq, _⟩ := addFunc_eq located rd.isLt
        (toInt_ofNat_reg rd) rs.isLt (toInt_ofNat_reg rs) state
      have called : vector.call sysSel (RegOp.add rd rs).cfCall state =
          some (outcome.returned, outcome.statics) := TracedFunc.untraced_eq ran
      apply cxuStep_overwrites ⟨sysSel, context, located, .add rd rs⟩ called
        rfl rd (fun lane => state.data (regBase context rd + lane) +
          state.data (regBase context rs + lane))
      · rw [staticsEq]
      · rfl
  | setInc rd b =>
      obtain ⟨outcome, ran, _, staticsEq, _⟩ := fillFunc_eq located rd.isLt
        (toInt_ofNat_reg rd) (fun i => BitVec.ofNat 32 i) b state
      have called : vector.call sysSel (RegOp.setInc rd b).cfCall state =
          some (outcome.returned, outcome.statics) := TracedFunc.untraced_eq ran
      apply cxuStep_overwrites ⟨sysSel, context, located, .setInc rd b⟩ called
        rfl rd (fun lane => BitVec.ofNat 32 lane)
      · rw [staticsEq]
      · rfl
  | set2 rd b =>
      obtain ⟨outcome, ran, _, staticsEq, _⟩ := fillFunc_eq located rd.isLt
        (toInt_ofNat_reg rd) (fun _ => 2) b state
      have called : vector.call sysSel (RegOp.set2 rd b).cfCall state =
          some (outcome.returned, outcome.statics) := TracedFunc.untraced_eq ran
      apply cxuStep_overwrites ⟨sysSel, context, located, .set2 rd b⟩ called
        rfl rd (fun _ => 2)
      · rw [staticsEq]
      · rfl
  | writeState reg lane value =>
      have called := vectorWriteStateFunc_eq located (laneIndex_lt reg lane)
        value state
      refine ⟨_, congrArg (Option.map _) called, ?_⟩
      exact registers_update state.data context reg lane value
  | writeStatus value b resting =>
      obtain ⟨cs, decoded⟩ := CxCs.dc_surjective (CxStctxs.ofIdx value).dc
      have called := @writeStatusFunc_eq _ _ _ contextOf initialStatusWord
        offStatusWord resetStatics sysSel context located value cs decoded.symm
        b state
      cases cs with
      | preclean => exact absurd decoded.symm resting
      | _ =>
          exact ⟨_, congrArg (Option.map _) called,
            (Function.update_eq_self context (registers state.data)).symm⟩
  | readState reg lane b =>
      have called := vectorReadStateFunc_eq located (laneIndex_lt reg lane) b
        state
      rw [wordOf, ← regBase_add_lane] at called
      exact ⟨_, congrArg (Option.map _) called,
        (Function.update_eq_self context (registers state.data)).symm⟩
  | readStatus a b =>
      have called := readStatusFunc_eq located a b state
      exact ⟨_, congrArg (Option.map _) called,
        (Function.update_eq_self context (registers state.data)).symm⟩

private theorem refRun_other {context : Context} {calls : List ContextOp}
    (elsewhere : ∀ call ∈ calls, call.context ≠ context)
    (model : Context → RegFile) :
    (Transition.runTotal ContextOp.refStep model calls).1 context =
      model context := by
  induction calls generalizing model with
  | nil => rfl
  | cons call calls induction =>
      have apart : context ≠ call.context :=
        (elsewhere call List.mem_cons_self).symm
      have rest := induction
        (fun other member => elsewhere other (List.mem_cons_of_mem call member))
        (ContextOp.refStep model call).1
      exact rest.trans (Function.update_of_ne apart ..)

/-- For every interleaving of operations on the four contexts and every state to
start from, the CXU returns the lanes of the reference and ends in its register
files. -/
theorem refines_register_file (state : vector.State)
    (calls : List ContextOp) :
    ∃ final,
      Transition.run ContextOp.cxuStep state calls =
          some (final, (Transition.runTotal ContextOp.refStep
            (registers state.data) calls).2) ∧
        registers final.data = (Transition.runTotal ContextOp.refStep
          (registers state.data) calls).1 ∧
        ∀ context, (∀ call ∈ calls, call.context ≠ context) →
          registers final.data context = registers state.data context := by
  obtain ⟨final, ran, finalEq⟩ := @Transition.run_refines _ _ _ _ _
    ContextOp.cxuStep ContextOp.refStep
    (fun state model => registers state.data = model) id
    (by
      intro state model call same
      subst same
      exact cxuStep_simulates state call)
    calls state (registers state.data) rfl
  rw [List.map_id] at ran
  refine ⟨final, ran, finalEq, ?_⟩
  intro context elsewhere
  rw [finalEq]
  exact refRun_other elsewhere _

end CxRuntime.Vector
