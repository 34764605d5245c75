import CxRuntime.Zoo.Vector

/-!
# Isolation of vector contexts

A user function indexes `regs` with register numbers taken from the guest.  It
stays inside its own context exactly when the register numbers it uses are
`0..3`; any other number is already accessed in the first iteration of its loop.
-/

namespace CxRuntime.Vector

/-- A call of a user function accesses only elements of its own context that
exist, and leaves every word and status word of the others as it was. -/
def Isolated (func : TracedFunc) (a b : Word) (sysSel : CxSelidx)
    (context : Context) (statics : Statics) : Prop :=
  ∃ outcome, func a b sysSel statics = some outcome ∧
    (∀ index ∈ outcome.touched, Own context index) ∧
    ∀ other, other ≠ context →
      outcome.statics.cxuStctxStatus other = statics.cxuStctxStatus other ∧
        ∀ reg lane, reg < cxVectorNumRegs → lane < cxVectorVl →
          outcome.statics.data (regBase other reg + lane) =
            statics.data (regBase other reg + lane)

theorem regBase_other {context other : Context} (different : other ≠ context)
    {target reg lane : Nat} (targetLt : target < cxVectorNumRegs)
    (regLt : reg < cxVectorNumRegs) (laneLt : lane < cxVectorVl) :
    regBase other reg + lane < regBase context target ∨
      regBase context target + cxVectorVl ≤ regBase other reg + lane := by
  have instLt : context.1.val < 2 := context.1.isLt
  have stateLt : context.2.val < 2 := context.2.isLt
  have otherInstLt : other.1.val < 2 := other.1.isLt
  have otherStateLt : other.2.val < 2 := other.2.isLt
  have notBoth : other.1.val ≠ context.1.val ∨ other.2.val ≠ context.2.val := by
    by_contra both
    push Not at both
    exact different (Prod.ext (Fin.ext both.1) (Fin.ext both.2))
  simp only [regBase, cxVectorNumStates, cxVectorNumRegs,
    cxVectorVl] at targetLt regLt laneLt ⊢
  omega

/-- Overwriting one register of a context keeps the words of the others. -/
theorem isolated_of_overwrite {func : TracedFunc} {a b : Word}
    {sysSel : CxSelidx} {context : Context} {statics : Statics}
    {outcome : Outcome} {target : Nat} {value : Nat → Word}
    (ran : func a b sysSel statics = some outcome)
    (targetLt : target < cxVectorNumRegs)
    (staticsEq : outcome.statics =
      { statics.setDc context .dirty with
        data := Cells.overwrite statics.data (regBase context target)
          cxVectorVl value })
    (own : ∀ index ∈ outcome.touched, Own context index) :
    Isolated func a b sysSel context statics := by
  refine ⟨outcome, ran, own, ?_⟩
  intro other different
  rw [staticsEq]
  refine ⟨CxuStatics.setDc_of_ne statics different _, ?_⟩
  intro reg lane regLt laneLt
  exact Cells.overwrite_outside statics.data
    (regBase_other different targetLt regLt laneLt) value

section Located

variable {sysSel : CxSelidx} {context : Context}

private theorem addFunc_isolated (located : contextOf sysSel = some context)
    {a b : Word} (targetValid : RegOperand a) (sourceValid : RegOperand b)
    (statics : Statics) : Isolated addFunc a b sysSel context statics := by
  obtain ⟨target, targetLt, targetEq⟩ := targetValid.exists_reg
  obtain ⟨source, sourceLt, sourceEq⟩ := sourceValid.exists_reg
  obtain ⟨outcome, ran, _, staticsEq, own⟩ :=
    addFunc_eq located targetLt targetEq sourceLt sourceEq statics
  exact isolated_of_overwrite ran targetLt staticsEq own

private theorem fillFunc_isolated (located : contextOf sysSel = some context)
    {a : Word} (valid : RegOperand a) (value : Nat → Word) (b : Word)
    (statics : Statics) :
    Isolated (fillFunc value) a b sysSel context statics := by
  obtain ⟨target, targetLt, targetEq⟩ := valid.exists_reg
  obtain ⟨outcome, ran, _, staticsEq, own⟩ :=
    fillFunc_eq located targetLt targetEq value b statics
  exact isolated_of_overwrite ran targetLt staticsEq own

private theorem resetFunc_isolated (located : contextOf sysSel = some context)
    (a b : Word) (statics : Statics) :
    Isolated resetFunc a b sysSel context statics := by
  obtain ⟨outcome, ran, _, staticsEq, own⟩ :=
    resetFunc_eq located a b statics
  refine ⟨outcome, ran, own, ?_⟩
  rw [staticsEq]
  exact fun _ _ => ⟨rfl, fun _ _ _ _ => rfl⟩

/-- The first iteration of CF 0 accesses both registers. -/
theorem addFunc_touches (located : contextOf sysSel = some context)
    {a b : Word} {statics : Statics} {outcome : Outcome}
    (ran : addFunc a b sysSel statics = some outcome) :
    regIndex context a.toInt 0 ∈ outcome.touched ∧
      regIndex context b.toInt 0 ∈ outcome.touched := by
  simp only [addFunc, located, Option.bind_eq_bind, Option.bind_some] at ran
  obtain ⟨final, looped, equality⟩ := Option.bind_eq_some_iff.mp ran
  cases equality
  refine Loop.forUpTo_partial
    (fun i traced => 0 < i →
      regIndex context a.toInt 0 ∈ traced.touched ∧
        regIndex context b.toInt 0 ∈ traced.touched)
    (fun positive => absurd positive (Nat.lt_irrefl 0)) cxVectorVl ?_ looped
    (by decide)
  intro i traced next _ held stepped _
  obtain ⟨left, leftLoaded, stepped⟩ := Option.bind_eq_some_iff.mp stepped
  obtain ⟨right, rightLoaded, stored⟩ := Option.bind_eq_some_iff.mp stepped
  rw [Cells.Traced.touched_of_store stored,
    Cells.Traced.touched_of_load rightLoaded,
    Cells.Traced.touched_of_load leftLoaded]
  cases i with
  | zero => simp
  | succ i =>
      obtain ⟨targetIn, sourceIn⟩ := held (Nat.succ_pos i)
      simp [targetIn, sourceIn]

/-- The first iteration of CF 1 and CF 2 accesses the register. -/
theorem fillFunc_touches (located : contextOf sysSel = some context)
    {value : Nat → Word} {a b : Word} {statics : Statics} {outcome : Outcome}
    (ran : fillFunc value a b sysSel statics = some outcome) :
    regIndex context a.toInt 0 ∈ outcome.touched := by
  simp only [fillFunc, located, Option.bind_eq_bind, Option.bind_some] at ran
  obtain ⟨final, looped, equality⟩ := Option.bind_eq_some_iff.mp ran
  cases equality
  refine Loop.forUpTo_partial
    (fun i traced => 0 < i → regIndex context a.toInt 0 ∈ traced.touched)
    (fun positive => absurd positive (Nat.lt_irrefl 0)) cxVectorVl ?_ looped
    (by decide)
  intro i traced next _ held stored _
  rw [Cells.Traced.touched_of_store stored]
  cases i with
  | zero => exact List.mem_cons_self
  | succ i => exact List.mem_cons_of_mem _ (held (Nat.succ_pos i))

private theorem regOperands_of_addFunc_isolated
    (located : contextOf sysSel = some context) {a b : Word}
    {statics : Statics} (isolated : Isolated addFunc a b sysSel context statics) :
    RegOperand a ∧ RegOperand b := by
  obtain ⟨outcome, ran, own, _⟩ := isolated
  obtain ⟨targetIn, sourceIn⟩ := addFunc_touches located ran
  exact ⟨regOperand_of_own (own _ targetIn), regOperand_of_own (own _ sourceIn)⟩

theorem regOperand_of_fillFunc_isolated
    (located : contextOf sysSel = some context) {value : Nat → Word}
    {a b : Word} {statics : Statics}
    (isolated : Isolated (fillFunc value) a b sysSel context statics) :
    RegOperand a := by
  obtain ⟨outcome, ran, own, _⟩ := isolated
  exact regOperand_of_own (own _ (fillFunc_touches located ran))

/-- A user function is isolated exactly when the register numbers it uses name
registers of the context. -/
theorem isolated_iff_operands_in_range
    (located : contextOf sysSel = some context) {cfId : Nat} {func : TracedFunc}
    (user : userFunc cfId = some func) (a b : Word) (statics : Statics) :
    Isolated func a b sysSel context statics ↔ OperandsInRange cfId a b := by
  unfold userFunc at user
  split at user
  · rename_i cfIdEq
    subst cfIdEq
    cases user
    exact ⟨regOperands_of_addFunc_isolated located,
      fun valid => addFunc_isolated located valid.1 valid.2 statics⟩
  split at user
  · rename_i cfIdEq
    subst cfIdEq
    cases user
    exact ⟨regOperand_of_fillFunc_isolated located,
      fun valid => fillFunc_isolated located valid _ b statics⟩
  split at user
  · rename_i cfIdEq
    subst cfIdEq
    cases user
    exact ⟨regOperand_of_fillFunc_isolated located,
      fun valid => fillFunc_isolated located valid _ b statics⟩
  split at user
  · rename_i cfIdEq
    subst cfIdEq
    cases user
    exact iff_of_true (resetFunc_isolated located a b statics) trivial
  · cases user

end Located

theorem isolated_iff_operands_in_range_first :
    Isolated setIncFunc 3 0 firstSel (0, 0) initCxFuncVector ↔
      OperandsInRange 1 3 0 :=
  isolated_iff_operands_in_range (by decide) rfl 3 0 initCxFuncVector

/-- Register 4 of context `(0, 0)` is register 0 of context `(0, 1)`. -/
theorem set_inc_escapes :
    contextOf firstSel = some (0, 0) ∧
      (setIncFunc 4 0 firstSel initCxFuncVector).map
          (fun outcome => outcome.statics.data (regBase (0, 1) 0 + 31)) =
        some 31 ∧
      ¬Isolated setIncFunc 4 0 firstSel (0, 0) initCxFuncVector := by
  refine ⟨by decide, by rfl, ?_⟩
  intro isolated
  have valid : RegOperand 4 :=
    regOperand_of_fillFunc_isolated (by decide) isolated
  exact absurd valid (by decide)

end CxRuntime.Vector
