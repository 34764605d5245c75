import CxRuntime.Zoo.Cxu
import CxRuntime.Zoo.Pext
import CxRuntime.Zoo.Stateless

/-!
# The table of CXUs

`exports.c`: the tables `cx_funcs` of the eight registered CXUs over the static
arrays of the stateful ones.
-/

namespace CxRuntime

/-- The static arrays of all CXUs.  The two vector slots share theirs. -/
structure ZooStatics where
  mulacc : Mulacc.Statics
  vector : Vector.Statics
  nnAcc : NnAcc.Statics

/-- A function of a stateless CXU. -/
def StatelessFunc.onZoo (func : StatelessFunc) : CxFunc ZooStatics :=
  fun a b _ zoo => (func a b).map fun result => (some result, zoo)

def onMulacc (func : CxFunc Mulacc.Statics) : CxFunc ZooStatics :=
  fun a b sysSel zoo => (func a b sysSel zoo.mulacc).map fun answer =>
    (answer.1, { zoo with mulacc := answer.2 })

def onVector (func : CxFunc Vector.Statics) : CxFunc ZooStatics :=
  fun a b sysSel zoo => (func a b sysSel zoo.vector).map fun answer =>
    (answer.1, { zoo with vector := answer.2 })

def onNnAcc (func : CxFunc NnAcc.Statics) : CxFunc ZooStatics :=
  fun a b sysSel zoo => (func a b sysSel zoo.nnAcc).map fun answer =>
    (answer.1, { zoo with nnAcc := answer.2 })

/-- `cx_funcs[cx_id][cf_id]`; `none` where the table has no function. -/
def cxFuncs (cxId cfId : Nat) : Option (CxFunc ZooStatics) :=
  match cxId with
  | 0 => (Muldiv.cxFuncMuldiv cfId).map StatelessFunc.onZoo
  | 1 => (Addsub.cxFuncAddsub cfId).map StatelessFunc.onZoo
  | 2 => (Mulacc.cxFuncMulacc cfId).map onMulacc
  | 3 => (Pext.cxFuncPext cfId).map StatelessFunc.onZoo
  | 4 | 5 => (Vector.cxFuncVector cfId).map onVector
  | 6 => (Max.cxFuncMax cfId).map StatelessFunc.onZoo
  | 7 => (NnAcc.cxFuncNnAcc cfId).map onNnAcc
  | _ => none

/-- A custom function called through the table. -/
def callFunc (sysSel : CxSelidx) (cfCall : CfCall) (zoo : ZooStatics) :
    Option (Returned × ZooStatics) :=
  (cxFuncs sysSel.cxId.toNat cfCall.cfId).bind fun func =>
    func cfCall.a cfCall.b sysSel zoo

/-- The static arrays after `cx_init_funcs`. -/
def cxInitFuncs : ZooStatics :=
  { mulacc := Mulacc.initCxFuncMulacc
    vector := Vector.initCxFuncVector
    nnAcc := NnAcc.initCxFuncNnAcc }

def ZooStep (zoo next : ZooStatics) : Prop :=
  ∃ sysSel cfCall returned,
    callFunc sysSel cfCall zoo = some (returned, next)

/-- The states that calls of any custom functions lead to. -/
def ZooReachable : ZooStatics → Prop :=
  Relation.ReflTransGen ZooStep cxInitFuncs

/-- Every status word is settled. -/
structure ZooStatics.Settled (zoo : ZooStatics) : Prop where
  mulacc : zoo.mulacc.AllSettled 1
  vector : zoo.vector.AllSettled Vector.stateSize
  nnAcc : zoo.nnAcc.AllSettled 1

theorem callFunc_settled {sysSel : CxSelidx} {cfCall : CfCall}
    {zoo next : ZooStatics} {returned : Returned} (settled : zoo.Settled)
    (called : callFunc sysSel cfCall zoo = some (returned, next)) :
    next.Settled := by
  obtain ⟨func, entry, ran⟩ := Option.bind_eq_some_iff.mp called
  have stateless : ∀ {slot : Option StatelessFunc},
      slot.map StatelessFunc.onZoo = some func → next.Settled := by
    intro slot isEntry
    obtain ⟨inner, _, rfl⟩ := Option.map_eq_some_iff.mp isEntry
    obtain ⟨_, _, equality⟩ := Option.map_eq_some_iff.mp ran
    cases equality
    exact settled
  have onVectorSlot : (Vector.cxFuncVector cfCall.cfId).map onVector =
      some func → next.Settled := by
    intro isEntry
    obtain ⟨inner, isInner, rfl⟩ := Option.map_eq_some_iff.mp isEntry
    obtain ⟨_, ranInner, equality⟩ := Option.map_eq_some_iff.mp ran
    cases equality
    exact { settled with
      vector := Vector.cxFuncVector_keepsSettled _ _ isInner settled.vector
        ranInner }
  unfold cxFuncs at entry
  split at entry
  · exact stateless entry
  · exact stateless entry
  · obtain ⟨inner, isInner, rfl⟩ := Option.map_eq_some_iff.mp entry
    obtain ⟨_, ranInner, equality⟩ := Option.map_eq_some_iff.mp ran
    cases equality
    exact { settled with
      mulacc := Mulacc.cxFuncMulacc_keepsSettled _ _ isInner settled.mulacc
        ranInner }
  · exact stateless entry
  · exact onVectorSlot entry
  · exact onVectorSlot entry
  · exact stateless entry
  · obtain ⟨inner, isInner, rfl⟩ := Option.map_eq_some_iff.mp entry
    obtain ⟨_, ranInner, equality⟩ := Option.map_eq_some_iff.mp ran
    cases equality
    exact { settled with
      nnAcc := NnAcc.cxFuncNnAcc_keepsSettled _ _ isInner settled.nnAcc
        ranInner }
  · cases entry

theorem settled_of_zooReachable {zoo : ZooStatics}
    (reachable : ZooReachable zoo) : zoo.Settled := by
  have initial : cxInitFuncs.Settled :=
    { mulacc := mulacc.initial_settled
      vector := vector.initial_settled
      nnAcc := nnAcc.initial_settled }
  apply Transition.invariant_of_reachable ZooStatics.Settled initial ?_
    reachable
  intro _ _ settled step
  obtain ⟨_, _, _, called⟩ := step
  exact callFunc_settled settled called

end CxRuntime
