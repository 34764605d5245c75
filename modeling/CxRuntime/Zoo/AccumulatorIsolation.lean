import CxRuntime.Zoo.Cxu

/-!
# Isolation of accumulator contexts

Unlike the vector unit, the accumulators index their arrays with the selector
alone.  Every custom function of mulacc, whatever its CF id and operands, changes
at most the context that the selector names.
-/

namespace CxRuntime

namespace Accumulator

variable {κ : Type} [DecidableEq κ]

/-- Two states that differ at most in one context. -/
def AgreeOff (context : κ) (left right : AccStatics κ) : Prop :=
  ∀ other, other ≠ context → right.data other = left.data other ∧
    right.cxuStctxStatus other = left.cxuStctxStatus other

namespace AgreeOff

variable {context : κ} {left right : AccStatics κ}

omit [DecidableEq κ] in
theorem refl (context : κ) (statics : AccStatics κ) :
    AgreeOff context statics statics := fun _ _ => ⟨rfl, rfl⟩

omit [DecidableEq κ] in
theorem trans {middle : AccStatics κ} (first : AgreeOff context left middle)
    (second : AgreeOff context middle right) : AgreeOff context left right := by
  intro other different
  obtain ⟨firstData, firstStatus⟩ := first other different
  obtain ⟨secondData, secondStatus⟩ := second other different
  exact ⟨secondData.trans firstData, secondStatus.trans firstStatus⟩

theorem setAcc (agree : AgreeOff context left right) (value : Word) :
    AgreeOff context left (Accumulator.setAcc right context value) := by
  intro other different
  rw [setAcc_of_ne right different]
  exact agree other different

theorem setStatus (agree : AgreeOff context left right) (word : CxStctxs) :
    AgreeOff context left (right.setStatus context word) := by
  intro other different
  rw [CxuStatics.setStatus_of_ne right different]
  exact agree other different

theorem setDc (agree : AgreeOff context left right) (cs : CxCs) :
    AgreeOff context left (right.setDc context cs) := agree.setStatus _

end AgreeOff

/-- A custom function that only touches the context it is called on. -/
def Local (contextOf : CxSelidx → Option κ) (func : CxFunc (AccStatics κ)) :
    Prop :=
  ∀ {a b sysSel context statics returned next},
    contextOf sysSel = some context →
    func a b sysSel statics = some (returned, next) →
    AgreeOff context statics next

variable (contextOf : CxSelidx → Option κ)

theorem accumulateFunc_local : Local contextOf (accumulateFunc contextOf) := by
  intro a b sysSel context statics returned next located ran
  rw [accumulateFunc_eq located] at ran
  cases ran
  exact ((AgreeOff.refl context statics).setDc .dirty).setAcc _

theorem resetFunc_local : Local contextOf (resetFunc contextOf) := by
  intro a b sysSel context statics returned next located ran
  rw [resetFunc_eq located] at ran
  cases ran
  exact (AgreeOff.refl context statics).setAcc 0

omit [DecidableEq κ] in
theorem readStateFunc_local : Local contextOf (readStateFunc contextOf) := by
  intro a index sysSel context statics returned next _ ran
  obtain ⟨_, _, branch⟩ := Option.bind_eq_some_iff.mp ran
  split at branch <;> cases branch <;> exact AgreeOff.refl context statics

theorem writeStateFunc_local : Local contextOf (writeStateFunc contextOf) := by
  intro index value sysSel context statics returned next located ran
  simp only [writeStateFunc, located, Option.bind_eq_bind,
    Option.bind_some] at ran
  split at ran
  · cases ran
    exact (AgreeOff.refl context statics).setAcc value
  · cases ran
    exact AgreeOff.refl context statics

omit [DecidableEq κ] in
theorem readStatusFunc_local :
    Local contextOf (readStatusFunc (δ := κ → Word) contextOf) := by
  intro a b sysSel context statics returned next located ran
  rw [readStatusFunc_eq located] at ran
  cases ran
  exact AgreeOff.refl context statics

omit [DecidableEq κ] in
theorem cxFuncUndefined_local :
    Local contextOf (cxFuncUndefined (σ := AccStatics κ)) := by
  intro a b sysSel context statics returned next _ ran
  cases ran
  exact AgreeOff.refl context statics

theorem writeStatusFunc_local (initialStatusWord offStatusWord : CxStctxs) :
    Local contextOf (writeStatusFunc contextOf initialStatusWord offStatusWord
      (resetStatics contextOf)) := by
  intro value b sysSel context statics returned next located ran
  have start := AgreeOff.refl context statics
  obtain ⟨cs, decoded⟩ := CxCs.dc_surjective (CxStctxs.ofIdx value).dc
  rw [writeStatusFunc_eq located decoded.symm, resetStatics_eq located] at ran
  cases cs with
  | off =>
      cases ran
      exact start.setStatus offStatusWord
  | preclean =>
      cases ran
      exact ((start.setStatus initialStatusWord).setAcc 0).setDc .dirty
  | clean =>
      cases ran
      exact start.setDc .clean
  | dirty =>
      cases ran
      exact start.setDc .dirty

end Accumulator

open Accumulator

theorem Mulacc.cxFuncMulacc_local (cfId : Nat) :
    EveryEntry (fun func => Local Mulacc.contextOf func)
      (Mulacc.cxFuncMulacc cfId) := by
  refine Mulacc.cxFuncMulacc_forall
    (fun func => Local Mulacc.contextOf func)
    (accumulateFunc_local _) (resetFunc_local _) ?_ ?_ ?_
    (writeStateFunc_local _) (readStateFunc_local _)
    (writeStatusFunc_local _ _ _) (readStatusFunc_local _)
    (cxFuncUndefined_local _) cfId
  · intro _ _ _ context statics _ _ _ ran
    cases ran
    exact AgreeOff.refl context statics
  · intro a b sysSel context statics returned next located ran
    rw [Mulacc.zeroMacFunc_eq located] at ran
    cases ran
    exact ((AgreeOff.refl context statics).setDc .clean).setAcc 0
  · intro a b sysSel context statics returned next located ran
    rw [Mulacc.readAccFunc_eq located] at ran
    cases ran
    exact ((AgreeOff.refl context statics).setDc .clean).setAcc 0

/-- A call on one context of mulacc leaves the others alone. -/
theorem mulacc_call_agreeOff {sysSel : CxSelidx} {context : mulacc.Context}
    (located : mulacc.contextOf sysSel = some context) {cfCall : CfCall}
    {state next : mulacc.State} {returned : Returned}
    (called : mulacc.call sysSel cfCall state = some (returned, next)) :
    AgreeOff context state next := by
  obtain ⟨func, entry, ran⟩ := Option.bind_eq_some_iff.mp called
  exact Mulacc.cxFuncMulacc_local cfCall.cfId func entry located ran

end CxRuntime
