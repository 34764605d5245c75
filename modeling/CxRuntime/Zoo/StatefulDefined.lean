import CxRuntime.Zoo.StatefulCollisions

/-!
# Where the stateful CXUs return a word

A custom function called on a context of its CXU returns a word, except that the
write of the state word of an accumulator ends without a `return`, and that the
vector unit may name a row or a word outside `regs`.
-/

namespace CxRuntime

def ReturnsWord {σ : Type} (answer : Option (Returned × σ)) : Prop :=
  ∃ word next, answer = some (some word, next)

namespace ReturnsWord

variable {σ : Type}

theorem some (word : Word) (next : σ) :
    ReturnsWord (Option.some (Option.some word, next)) := ⟨word, next, rfl⟩

theorem not_none : ¬ReturnsWord (none : Option (Returned × σ)) := by
  rintro ⟨_, _, ⟨⟩⟩

private theorem not_noReturn (next : σ) :
    ¬ReturnsWord (Option.some (none, next) : Option (Returned × σ)) := by
  rintro ⟨_, _, ⟨⟩⟩

theorem map_iff {ρ : Type} (answer : Option (Returned × σ)) (put : σ → ρ) :
    ReturnsWord (answer.map fun result => (result.1, put result.2)) ↔
      ReturnsWord answer := by
  constructor
  · rintro ⟨word, _, answered⟩
    obtain ⟨⟨_, before⟩, isAnswer, equality⟩ :=
      Option.map_eq_some_iff.mp answered
    cases equality
    exact ⟨word, before, isAnswer⟩
  · rintro ⟨word, next, rfl⟩
    exact .some word (put next)

end ReturnsWord

section StatusFunctions

variable {κ δ : Type} {contextOf : CxSelidx → Option κ} {sysSel : CxSelidx}
  {context : κ}

private theorem readStatusFunc_returnsWord
    (located : contextOf sysSel = some context) (a b : Word)
    (statics : CxuStatics κ δ) :
    ReturnsWord (readStatusFunc contextOf a b sysSel statics) := by
  rw [readStatusFunc_eq located]
  exact .some _ _

private theorem writeStatusFunc_returnsWord [DecidableEq κ]
    {initialStatusWord offStatusWord : CxStctxs}
    {reset : CxSelidx → CxuStatics κ δ → Option (CxuStatics κ δ)}
    (located : contextOf sysSel = some context)
    (resets : ∀ statics, ∃ next, reset sysSel statics = some next)
    (value b : Word) (statics : CxuStatics κ δ) :
    ReturnsWord (writeStatusFunc contextOf initialStatusWord offStatusWord reset
      value b sysSel statics) := by
  obtain ⟨cs, decoded⟩ := CxCs.dc_surjective (CxStctxs.ofIdx value).dc
  obtain ⟨next, wasReset⟩ :=
    resets (statics.setStatus context initialStatusWord)
  rw [writeStatusFunc_eq located decoded.symm, wasReset]
  cases cs <;> exact .some _ _

/-- The entries that end every table. -/
private theorem statusEntries_returnsWord [DecidableEq κ]
    {initialStatusWord offStatusWord : CxStctxs}
    {reset : CxSelidx → CxuStatics κ δ → Option (CxuStatics κ δ)}
    (located : contextOf sysSel = some context)
    (resets : ∀ statics, ∃ next, reset sysSel statics = some next)
    (cfId : Nat) (a b : Word) (statics : CxuStatics κ δ) :
    EveryEntry (fun func => ReturnsWord (func a b sysSel statics))
      (if cfId = 1022 then
        some (writeStatusFunc contextOf initialStatusWord offStatusWord reset)
      else if cfId = 1023 then some (readStatusFunc contextOf)
      else if cfId < maxCfIds then some cxFuncUndefined
      else none) :=
  .ite (.some (writeStatusFunc_returnsWord located resets a b statics)) <|
    .ite (.some (readStatusFunc_returnsWord located a b statics)) <|
    .ite (.some (.some _ _)) .none

end StatusFunctions

/-! ## The accumulators -/

namespace Accumulator

variable {κ : Type} {contextOf : CxSelidx → Option κ} {sysSel : CxSelidx}
  {context : κ}

private theorem readStateFunc_returnsWord
    (located : contextOf sysSel = some context) (a index : Word)
    (statics : AccStatics κ) :
    ReturnsWord (readStateFunc contextOf a index sysSel statics) := by
  simp only [readStateFunc, located, Option.bind_eq_bind, Option.bind_some]
  split <;> exact .some _ _

variable [DecidableEq κ]

private theorem accumulateFunc_returnsWord
    (located : contextOf sysSel = some context) (a b : Word)
    (statics : AccStatics κ) :
    ReturnsWord (accumulateFunc contextOf a b sysSel statics) := by
  rw [accumulateFunc_eq located]
  exact .some _ _

private theorem resetFunc_returnsWord
    (located : contextOf sysSel = some context) (a b : Word)
    (statics : AccStatics κ) :
    ReturnsWord (resetFunc contextOf a b sysSel statics) := by
  rw [resetFunc_eq located]
  exact .some _ _

/-- `case 0` breaks out of the `switch`, behind which nothing is returned. -/
private theorem writeStateFunc_returnsWord_iff
    (located : contextOf sysSel = some context) (index value : Word)
    (statics : AccStatics κ) :
    ReturnsWord (writeStateFunc contextOf index value sysSel statics) ↔
      index ≠ 0 := by
  by_cases isZero : index = 0
  · subst isZero
    rw [writeStateFunc_eq located]
    exact iff_of_false (ReturnsWord.not_noReturn _) fun different =>
      different rfl
  · simp only [writeStateFunc, located, Option.bind_eq_bind, Option.bind_some,
      if_neg isZero]
    exact iff_of_true (.some _ _) isZero

end Accumulator

theorem Mulacc.returnsWord_iff {sysSel : CxSelidx} {context : Context}
    (located : contextOf sysSel = some context) {cfId : Nat}
    (below : cfId < maxCfIds) (a b : Word) (statics : Statics) :
    ReturnsWord
        ((cxFuncMulacc cfId).bind fun func => func a b sysSel statics) ↔
      ¬(cfId = 1020 ∧ a = 0) := by
  by_cases writes : cfId = 1020
  · subst writes
    simp only [true_and]
    exact Accumulator.writeStateFunc_returnsWord_iff located a b statics
  · have every : EveryEntry
        (fun func => ReturnsWord (func a b sysSel statics))
        (cxFuncMulacc cfId) := by
      simp only [cxFuncMulacc, if_neg writes]
      exact .ite (.some
          (Accumulator.accumulateFunc_returnsWord located a b statics)) <|
        .ite (.some (Accumulator.resetFunc_returnsWord located a b statics)) <|
        .ite (.some (.some _ _)) <|
        .ite (.some ⟨_, _, zeroMacFunc_eq located a b statics⟩) <|
        .ite (.some ⟨_, _, readAccFunc_eq located a b statics⟩) <|
        .ite (.some
          (Accumulator.readStateFunc_returnsWord located a b statics)) <|
        statusEntries_returnsWord located
          (fun statics => ⟨_, Accumulator.resetStatics_eq located statics⟩)
          cfId a b statics
    obtain ⟨func, entry⟩ := cxFuncMulacc_filled below
    rw [entry, Option.bind_some]
    exact iff_of_true (every func entry) fun noReturn => writes noReturn.1

theorem NnAcc.returnsWord_iff {sysSel : CxSelidx} {context : Context}
    (located : contextOf sysSel = some context) {cfId : Nat}
    (below : cfId < maxCfIds) (a b : Word) (statics : Statics) :
    ReturnsWord
        ((cxFuncNnAcc cfId).bind fun func => func a b sysSel statics) ↔
      ¬(cfId = 1020 ∧ a = 0) := by
  by_cases writes : cfId = 1020
  · subst writes
    simp only [true_and]
    exact Accumulator.writeStateFunc_returnsWord_iff located a b statics
  · have every : EveryEntry
        (fun func => ReturnsWord (func a b sysSel statics))
        (cxFuncNnAcc cfId) := by
      simp only [cxFuncNnAcc, if_neg writes]
      exact .ite (.some
          (Accumulator.accumulateFunc_returnsWord located a b statics)) <|
        .ite (.some (Accumulator.resetFunc_returnsWord located a b statics)) <|
        .ite (.some ⟨_, _, reluFunc_eq located a b statics⟩) <|
        .ite (.some
          (Accumulator.readStateFunc_returnsWord located a b statics)) <|
        statusEntries_returnsWord located
          (fun statics => ⟨_, Accumulator.resetStatics_eq located statics⟩)
          cfId a b statics
    obtain ⟨func, entry⟩ := cxFuncNnAcc_filled below
    rw [entry, Option.bind_some]
    exact iff_of_true (every func entry) fun noReturn => writes noReturn.1

/-! ## The vector unit -/

namespace Vector

variable {sysSel : CxSelidx} {context : Context}

/-- The row that a register operand leads to is one of `regs`, if not always of
its context. -/
def RowInside (context : Context) (operand : Word) : Prop :=
  0 ≤ regIndex context operand.toInt 0 ∧
    regIndex context operand.toInt 0 < regsLength

/-- The calls that access `regs` outside its bounds. -/
def Overruns (context : Context) (cfId : Nat) (a b : Word) : Prop :=
  match cfId with
  | 0 => ¬(RowInside context a ∧ RowInside context b)
  | 1 | 2 => ¬RowInside context a
  | 1020 | 1021 => a.toInt < 0 ∧ ¬(cxVectorStateSize : Int) ∣ a.toInt
  | _ => False

private theorem RowInside.exists_row {operand : Word}
    (inside : RowInside context operand) :
    ∃ row, row < 16 ∧ ∀ lane : Nat, regIndex context operand.toInt lane =
      ((row * cxVectorVl + lane : Nat) : Int) := by
  obtain ⟨nonneg, below⟩ := inside
  simp only [regIndex, cxVectorNumStates, cxVectorNumRegs, cxVectorVl,
    regsLength, cxNumVecInstances] at nonneg below ⊢
  refine ⟨((((context.1.val : Int) * 2 + context.2.val) * 4 +
    operand.toInt).toNat), by omega, ?_⟩
  intro lane
  omega

private theorem regIndex_outside {operand : Word}
    (outside : ¬RowInside context operand) :
    regIndex context operand.toInt ((0 : Nat) : Int) < 0 ∨
      (regsLength : Int) ≤ regIndex context operand.toInt ((0 : Nat) : Int) := by
  rw [RowInside, not_and_or, Int.not_le, Int.not_lt] at outside
  exact outside

/-- A loop over the lanes whose result becomes the outcome of a function. -/
private theorem finished_returnsWord_iff
    {loop : Option (Cells.Traced Word)} {left : Statics} :
    ReturnsWord (((loop.bind fun final =>
        some (Outcome.ofTraced 0 left final)).map fun outcome =>
      (outcome.returned, outcome.statics))) ↔ ∃ final, loop = some final := by
  cases loop with
  | none => simp [ReturnsWord.not_none]
  | some final => exact iff_of_true (.some _ _) ⟨final, rfl⟩

private theorem addFunc_returnsWord_iff
    (located : contextOf sysSel = some context)
    (a b : Word) (statics : Statics) :
    ReturnsWord (addFunc.untraced a b sysSel statics) ↔
      RowInside context a ∧ RowInside context b := by
  simp only [TracedFunc.untraced, addFunc, located, Option.bind_eq_bind,
    Option.bind_some, finished_returnsWord_iff]
  constructor
  · rintro ⟨final, ran⟩
    by_contra outside
    rw [Loop.forUpTo_none] at ran
    · cases ran
    by_cases target : RowInside context a
    · have source : ¬RowInside context b := fun source =>
        outside ⟨target, source⟩
      obtain ⟨row, rowLt, indexEq⟩ := target.exists_row
      have inside : row * cxVectorVl + 0 < regsLength := by
        change row * 32 + 0 < 512
        omega
      rw [indexEq, Cells.Traced.load_natCast _ inside, Option.bind_some,
        Cells.Traced.load_outside _ (regIndex_outside source),
        Option.bind_none]
    · rw [Cells.Traced.load_outside _ (regIndex_outside target),
        Option.bind_none]
  · rintro ⟨target, source⟩
    obtain ⟨targetRow, targetLt, targetEq⟩ := target.exists_row
    obtain ⟨sourceRow, sourceLt, sourceEq⟩ := source.exists_row
    simp only [targetEq, sourceEq]
    have fits : ∀ {row}, row < 16 →
        row * cxVectorVl + cxVectorVl ≤ regsLength := by
      intro row rowLt
      change row * 32 + 32 ≤ 512
      omega
    obtain ⟨final, ran, _⟩ := Cells.forUpTo_combine (fits targetLt)
      (fits sourceLt) (by simp only [cxVectorVl]; omega) (fun _ => True)
      (fun _ _ => trivial) (fun _ _ => trivial)
      (fun left right : Word => left + right)
      (Statics.traced (statics.setDc context .dirty))
    exact ⟨final, ran⟩

private theorem fillFunc_returnsWord_iff
    (located : contextOf sysSel = some context)
    (value : Nat → Word) (a b : Word) (statics : Statics) :
    ReturnsWord ((fillFunc value).untraced a b sysSel statics) ↔
      RowInside context a := by
  simp only [TracedFunc.untraced, fillFunc, located, Option.bind_eq_bind,
    Option.bind_some, finished_returnsWord_iff]
  constructor
  · rintro ⟨final, ran⟩
    by_contra outside
    rw [Loop.forUpTo_none] at ran
    · cases ran
    exact Cells.Traced.store_outside _ (regIndex_outside outside) _
  · intro target
    obtain ⟨row, rowLt, indexEq⟩ := target.exists_row
    simp only [indexEq]
    have fits : row * cxVectorVl + cxVectorVl ≤ regsLength := by
      change row * 32 + 32 ≤ 512
      omega
    obtain ⟨final, ran, _⟩ := Cells.forUpTo_fill fits (fun _ => True)
      (fun _ _ => trivial) value (Statics.traced (statics.setDc context .dirty))
    exact ⟨final, ran⟩

/-- A function of the state port returns a word unless the index is below the
size and not served. -/
private theorem port_returnsWord_iff {index : Word}
    {answer : Option (Returned × Statics)}
    (atServed : Served index → ReturnsWord answer)
    (atUnserved : index.toInt < cxVectorStateSize → ¬Served index →
      answer = none)
    (atPast : (cxVectorStateSize : Int) ≤ index.toInt → ReturnsWord answer) :
    ReturnsWord answer ↔
      ¬(index.toInt < 0 ∧ ¬(cxVectorStateSize : Int) ∣ index.toInt) := by
  by_cases below : index.toInt < cxVectorStateSize
  · have served_iff : Served index ↔
        ¬(index.toInt < 0 ∧ ¬(cxVectorStateSize : Int) ∣ index.toInt) := by
      simp only [Served, below, true_and, not_and_or, Int.not_lt, not_not]
    rw [← served_iff]
    by_cases served : Served index
    · exact iff_of_true (atServed served) served
    · rw [atUnserved below served]
      exact iff_of_false ReturnsWord.not_none served
  · refine iff_of_true (atPast (Int.not_lt.mp below)) fun outside => below ?_
    exact Int.lt_trans outside.1 (by decide)

private theorem vectorReadStateFunc_returnsWord_iff
    (located : contextOf sysSel = some context) (index b : Word)
    (statics : Statics) :
    ReturnsWord (vectorReadStateFunc.untraced index b sysSel statics) ↔
      ¬(index.toInt < 0 ∧ ¬(cxVectorStateSize : Int) ∣ index.toInt) := by
  apply port_returnsWord_iff
  · intro served
    rw [vectorReadStateFunc_served located served]
    exact .some _ _
  · intro below unserved
    exact vectorReadStateFunc_unserved located below unserved b statics
  · intro past
    rw [TracedFunc.untraced_eq
      (vectorReadStateFunc_past located past b statics)]
    exact .some _ _

private theorem vectorWriteStateFunc_returnsWord_iff
    (located : contextOf sysSel = some context) (index value : Word)
    (statics : Statics) :
    ReturnsWord (vectorWriteStateFunc.untraced index value sysSel statics) ↔
      ¬(index.toInt < 0 ∧ ¬(cxVectorStateSize : Int) ∣ index.toInt) := by
  apply port_returnsWord_iff
  · intro served
    obtain ⟨next, wrote⟩ :=
      vectorWriteStateFunc_served located served value statics
    rw [wrote]
    exact .some _ _
  · intro below unserved
    exact vectorWriteStateFunc_unserved located below unserved value statics
  · intro past
    rw [TracedFunc.untraced_eq
      (vectorWriteStateFunc_past located past value statics)]
    exact .some _ _

private theorem userFunc_returnsWord_iff
    (located : contextOf sysSel = some context) {cfId : Nat}
    (user : cfId < cxVectorNumFuncs) (a b : Word) (statics : Statics) :
    ReturnsWord
        ((cxFuncVector cfId).bind fun func => func a b sysSel statics) ↔
      ¬Overruns context cfId a b := by
  match cfId with
  | 0 => exact (addFunc_returnsWord_iff located a b statics).trans not_not.symm
  | 1 =>
      exact (fillFunc_returnsWord_iff located _ a b statics).trans not_not.symm
  | 2 =>
      exact (fillFunc_returnsWord_iff located _ a b statics).trans not_not.symm
  | 3 =>
      obtain ⟨outcome, ran, returned, _⟩ := resetFunc_eq located a b statics
      refine iff_of_true ⟨0, outcome.statics, ?_⟩ id
      rw [← returned]
      exact TracedFunc.untraced_eq ran

theorem returnsWord_iff (located : contextOf sysSel = some context)
    {cfId : Nat} (below : cfId < maxCfIds) (a b : Word) (statics : Statics) :
    ReturnsWord
        ((cxFuncVector cfId).bind fun func => func a b sysSel statics) ↔
      ¬Overruns context cfId a b := by
  by_cases user : cfId < cxVectorNumFuncs
  · exact userFunc_returnsWord_iff located user a b statics
  by_cases writes : cfId = 1020
  · subst writes
    exact vectorWriteStateFunc_returnsWord_iff located a b statics
  by_cases reads : cfId = 1021
  · subst reads
    exact vectorReadStateFunc_returnsWord_iff located a b statics
  have every : EveryEntry (fun func => ReturnsWord (func a b sysSel statics))
      (cxFuncVector cfId) := by
    simp only [cxFuncVector, if_neg user, if_neg writes, if_neg reads]
    exact statusEntries_returnsWord located
      (fun statics => ⟨_, resetStatics_eq located statics⟩) cfId a b statics
  have inside : ¬Overruns context cfId a b := by
    change ¬cfId < 4 at user
    unfold Overruns
    split <;> simp_all
  obtain ⟨func, entry⟩ := cxFuncVector_filled below
  rw [entry, Option.bind_some]
  exact iff_of_true (every func entry) inside

end Vector

end CxRuntime
