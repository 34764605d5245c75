import CxRuntime.Zoo.Exports
import CxRuntime.Zoo.StatelessCollisions

/-!
# Sentinels among the results of the stateful CXUs

For each function the operands and the state before the call on which its result
is a reserved value.  The error -1, the answers of the resets and the status
words are never reserved.
-/

namespace CxRuntime

/-- The returned word, if there is one, is no reserved value. -/
def Unreserved {σ : Type} (answer : Option (Returned × σ)) : Prop :=
  ∀ word next, answer = some (some word, next) → ¬IsSentinel word

namespace Unreserved

variable {σ : Type}

theorem none : Unreserved (none : Option (Returned × σ)) :=
  fun _ _ absent => nomatch absent

private theorem noReturn (next : σ) : Unreserved (some (Option.none, next)) :=
  fun _ _ absent => nomatch absent

theorem some_iff (word : Word) (next : σ) :
    Unreserved (some (some word, next)) ↔ ¬IsSentinel word := by
  constructor
  · intro unreserved
    exact unreserved word next rfl
  · intro notSentinel _ _ equality
    cases equality
    exact notSentinel

/-- Every answer returns one of the words that are not reserved. -/
theorem of_returns {answer : Option (Returned × σ)} {word : Word}
    (notSentinel : ¬IsSentinel word)
    (returns : ∀ returned next, answer = some (returned, next) →
      returned = some word) : Unreserved answer := by
  intro other next answered
  obtain rfl := Option.some.inj (returns _ _ answered)
  exact notSentinel

theorem map_iff {ρ : Type} (answer : Option (Returned × σ)) (put : σ → ρ) :
    Unreserved (answer.map fun result => (result.1, put result.2)) ↔
      Unreserved answer := by
  constructor
  · intro unreserved word next answered
    apply unreserved word (put next)
    rw [answered, Option.map_some]
  · intro unreserved word next answered
    obtain ⟨⟨_, before⟩, isAnswer, equality⟩ :=
      Option.map_eq_some_iff.mp answered
    cases equality
    exact unreserved word before isAnswer

/-- One entry of a table after the other. -/
theorem ite {condition : Prop} [Decidable condition] {φ : Type}
    {run : φ → Option (Returned × σ)} {left right : Option φ} {collides : Prop}
    (inLeft : condition → (Unreserved (left.bind run) ↔ ¬collides))
    (inRight : ¬condition → (Unreserved (right.bind run) ↔ ¬collides)) :
    Unreserved ((if condition then left else right).bind run) ↔ ¬collides := by
  split
  · rename_i holds
    exact inLeft holds
  · rename_i fails
    exact inRight fails

end Unreserved

theorem notSentinel_zero : ¬IsSentinel 0 := by
  rw [isSentinel_iff_toNat]
  decide

theorem notSentinel_minusOne : ¬IsSentinel 0xFFFFFFFF := by
  rw [isSentinel_iff_toNat]
  decide

/-! ## The status functions -/

section StatusFunctions

variable {κ δ : Type} {contextOf : CxSelidx → Option κ} {sysSel : CxSelidx}

/-- The two highest bits of a status word are clear, so it is below the limits. -/
theorem notSentinel_status {stateSize : BitVec 16} {status : CxStctxs}
    (settled : Settled stateSize status) : ¬IsSentinel status.idx := by
  obtain ⟨cs, _, rfl⟩ := settled
  have small : (statusWord stateSize cs).idx.toNat < 2 ^ 30 := by
    rw [CxStctxs.idx, BitVec.toNat_append]
    apply Nat.or_lt_two_pow
    · have upper : ∀ cs : CxCs, ((0 : BitVec 1) ++ (1 : BitVec 3) ++ cs.dc ++
          (0 : BitVec 10)).toNat <<< 16 < 2 ^ 30 := by
        intro cs
        cases cs <;> decide
      exact upper cs
    · exact Nat.lt_trans stateSize.isLt (by decide)
  rw [isSentinel_iff_toNat]
  omega

private theorem readStatusFunc_unreserved {stateSize : BitVec 16} (a b : Word)
    {statics : CxuStatics κ δ} (settled : statics.AllSettled stateSize) :
    Unreserved (readStatusFunc contextOf a b sysSel statics) := by
  intro word next ran
  obtain ⟨context, _, equality⟩ := Option.bind_eq_some_iff.mp ran
  cases equality
  exact notSentinel_status (settled context)

private theorem writeStatusFunc_unreserved [DecidableEq κ]
    (initialStatusWord offStatusWord : CxStctxs)
    (reset : CxSelidx → CxuStatics κ δ → Option (CxuStatics κ δ))
    (value b : Word) (statics : CxuStatics κ δ) :
    Unreserved (writeStatusFunc contextOf initialStatusWord offStatusWord reset
      value b sysSel statics) := by
  apply Unreserved.of_returns notSentinel_zero
  intro returned next ran
  obtain ⟨context, located, _⟩ := Option.bind_eq_some_iff.mp ran
  obtain ⟨cs, decoded⟩ := CxCs.dc_surjective (CxStctxs.ofIdx value).dc
  rw [writeStatusFunc_eq located decoded.symm] at ran
  cases cs with
  | preclean =>
      obtain ⟨_, _, equality⟩ := Option.map_eq_some_iff.mp ran
      cases equality
      rfl
  | _ =>
      cases ran
      rfl

/-- The entries that end every table. -/
theorem statusEntries_unreserved [DecidableEq κ] {stateSize : BitVec 16}
    (initialStatusWord offStatusWord : CxStctxs)
    (reset : CxSelidx → CxuStatics κ δ → Option (CxuStatics κ δ))
    {statics : CxuStatics κ δ} (settled : statics.AllSettled stateSize)
    (cfId : Nat) (a b : Word) :
    Unreserved ((if cfId = 1022 then
          some (writeStatusFunc contextOf initialStatusWord offStatusWord reset)
        else if cfId = 1023 then some (readStatusFunc contextOf)
        else if cfId < maxCfIds then some cxFuncUndefined
        else none).bind fun func => func a b sysSel statics) := by
  split
  · exact writeStatusFunc_unreserved _ _ _ a b statics
  split
  · exact readStatusFunc_unreserved a b settled
  split
  · exact (Unreserved.some_iff _ _).mpr notSentinel_minusOne
  · exact Unreserved.none

end StatusFunctions

/-! ## The accumulators -/

namespace Accumulator

variable {κ : Type} {contextOf : CxSelidx → Option κ} {sysSel : CxSelidx}
  {context : κ}

theorem readStateFunc_unreserved (located : contextOf sysSel = some context)
    (a index : Word) (statics : AccStatics κ) :
    Unreserved (readStateFunc contextOf a index sysSel statics) ↔
      ¬(index = 0 ∧ NearLimit (statics.data context).toInt) := by
  by_cases isZero : index = 0
  · subst isZero
    rw [readStateFunc_eq located, Unreserved.some_iff, isSentinel_iff_nearLimit]
    simp only [true_and]
  · have answered : readStateFunc contextOf a index sysSel statics =
        some (some 0xFFFFFFFF, statics) := by
      simp only [readStateFunc, located, Option.bind_eq_bind,
        Option.bind_some, if_neg isZero]
    have noCollision :
        ¬(index = 0 ∧ NearLimit (statics.data context).toInt) :=
      fun collides => isZero collides.1
    rw [answered, Unreserved.some_iff]
    exact iff_of_true notSentinel_minusOne noCollision

variable [DecidableEq κ]

theorem accumulateFunc_unreserved (located : contextOf sysSel = some context)
    (a b : Word) (statics : AccStatics κ) :
    Unreserved (accumulateFunc contextOf a b sysSel statics) ↔
      ¬NearLimit ((statics.data context).toInt + a.toInt * b.toInt) := by
  rw [accumulateFunc_eq located, Unreserved.some_iff, isSentinel_addMul]

theorem resetFunc_unreserved (located : contextOf sysSel = some context)
    (a b : Word) (statics : AccStatics κ) :
    Unreserved (resetFunc contextOf a b sysSel statics) := by
  rw [resetFunc_eq located, Unreserved.some_iff]
  exact notSentinel_zero

theorem writeStateFunc_unreserved (located : contextOf sysSel = some context)
    (index value : Word) (statics : AccStatics κ) :
    Unreserved (writeStateFunc contextOf index value sysSel statics) := by
  simp only [writeStateFunc, located, Option.bind_eq_bind, Option.bind_some]
  split
  · exact Unreserved.noReturn _
  · exact (Unreserved.some_iff _ _).mpr notSentinel_minusOne

end Accumulator

namespace Mulacc

def Collides (cfId : Nat) (a b acc : Word) : Prop :=
  match cfId with
  | 0 | 3 => NearLimit (acc.toInt + a.toInt * b.toInt)
  | 4 => NearLimit acc.toInt
  | 1021 => b = 0 ∧ NearLimit acc.toInt
  | _ => False

theorem unreserved_iff {sysSel : CxSelidx} {context : Context}
    (located : contextOf sysSel = some context) {statics : Statics}
    (settled : statics.AllSettled 1) (cfId : Nat) (a b : Word) :
    Unreserved ((cxFuncMulacc cfId).bind fun func => func a b sysSel statics) ↔
      ¬Collides cfId a b (statics.data context) := by
  apply Unreserved.ite
  · rintro rfl
    exact Accumulator.accumulateFunc_unreserved located a b statics
  intro notMac
  apply Unreserved.ite
  · rintro rfl
    exact iff_of_true (Accumulator.resetFunc_unreserved located a b statics) id
  intro notReset
  apply Unreserved.ite
  · rintro rfl
    exact iff_of_true ((Unreserved.some_iff _ _).mpr notSentinel_zero) id
  intro notNothing
  apply Unreserved.ite
  · rintro rfl
    rw [Option.bind_some, zeroMacFunc_eq located, Unreserved.some_iff,
      isSentinel_addMul]
    rfl
  intro notZeroMac
  apply Unreserved.ite
  · rintro rfl
    rw [Option.bind_some, readAccFunc_eq located, Unreserved.some_iff,
      isSentinel_iff_nearLimit]
    rfl
  intro notReadAcc
  apply Unreserved.ite
  · rintro rfl
    exact iff_of_true
      (Accumulator.writeStateFunc_unreserved located a b statics) id
  intro notWriteState
  apply Unreserved.ite
  · rintro rfl
    exact Accumulator.readStateFunc_unreserved located a b statics
  intro notReadState
  have noCollision : ¬Collides cfId a b (statics.data context) := by
    unfold Collides
    split <;> simp_all
  exact iff_of_true (statusEntries_unreserved _ _ _ settled cfId a b)
    noCollision

end Mulacc

namespace NnAcc

/-- `relu_func` clamps a negative accumulator to 0. -/
def Collides (cfId : Nat) (a b acc : Word) : Prop :=
  match cfId with
  | 0 => NearLimit (acc.toInt + a.toInt * b.toInt)
  | 2 => 0 ≤ acc.toInt ∧ NearLimit acc.toInt
  | 1021 => b = 0 ∧ NearLimit acc.toInt
  | _ => False

private theorem isSentinel_clamped (acc : Word) :
    IsSentinel (clamped acc) ↔ 0 ≤ acc.toInt ∧ NearLimit acc.toInt := by
  rw [clamped, BitVec.slt_eq_decide]
  split
  · rename_i less
    have negative : acc.toInt < 0 := of_decide_eq_true less
    have noCollision : ¬(0 ≤ acc.toInt ∧ NearLimit acc.toInt) := by omega
    exact iff_of_false notSentinel_zero noCollision
  · rename_i notLess
    have nonneg : 0 ≤ acc.toInt := by
      by_contra negative
      exact notLess (decide_eq_true (Int.not_le.mp negative))
    rw [isSentinel_iff_nearLimit]
    simp only [nonneg, true_and]

theorem unreserved_iff {sysSel : CxSelidx} {context : Context}
    (located : contextOf sysSel = some context) {statics : Statics}
    (settled : statics.AllSettled 1) (cfId : Nat) (a b : Word) :
    Unreserved ((cxFuncNnAcc cfId).bind fun func => func a b sysSel statics) ↔
      ¬Collides cfId a b (statics.data context) := by
  apply Unreserved.ite
  · rintro rfl
    exact Accumulator.accumulateFunc_unreserved located a b statics
  intro notNnAcc
  apply Unreserved.ite
  · rintro rfl
    exact iff_of_true (Accumulator.resetFunc_unreserved located a b statics) id
  intro notReset
  apply Unreserved.ite
  · rintro rfl
    rw [Option.bind_some, reluFunc_eq located, Unreserved.some_iff,
      isSentinel_clamped]
    rfl
  intro notRelu
  apply Unreserved.ite
  · rintro rfl
    exact iff_of_true
      (Accumulator.writeStateFunc_unreserved located a b statics) id
  intro notWriteState
  apply Unreserved.ite
  · rintro rfl
    exact Accumulator.readStateFunc_unreserved located a b statics
  intro notReadState
  have noCollision : ¬Collides cfId a b (statics.data context) := by
    unfold Collides
    split <;> simp_all
  exact iff_of_true (statusEntries_unreserved _ _ _ settled cfId a b)
    noCollision

end NnAcc

/-! ## The vector unit -/

namespace Vector

variable {sysSel : CxSelidx} {context : Context}

/-- A user function returns nothing but 0, whatever its operands. -/
theorem untraced_unreserved {func : TracedFunc} {a b : Word} {statics : Statics}
    (returnsZero : ∀ outcome, func a b sysSel statics = some outcome →
      outcome.returned = some 0) :
    Unreserved (func.untraced a b sysSel statics) := by
  apply Unreserved.of_returns notSentinel_zero
  intro returned next ran
  obtain ⟨outcome, finished, equality⟩ := Option.map_eq_some_iff.mp ran
  cases equality
  exact returnsZero outcome finished

private theorem addFunc_unreserved (a b : Word) (statics : Statics) :
    Unreserved (addFunc.untraced a b sysSel statics) :=
  untraced_unreserved fun _ ran => (of_finished ran).1

private theorem fillFunc_unreserved (value : Nat → Word) (a b : Word)
    (statics : Statics) :
    Unreserved ((fillFunc value).untraced a b sysSel statics) :=
  untraced_unreserved fun _ ran => (of_finished ran).1

theorem resetFunc_unreserved (a b : Word) (statics : Statics) :
    Unreserved (resetFunc.untraced a b sysSel statics) :=
  untraced_unreserved fun _ ran => (of_finished ran).1

/-! ### The indices of the state port -/

/-- The indices that CF 1020 and CF 1021 serve: those of the context and the
negative multiples of its size, which address word 0. -/
def Served (index : Word) : Prop :=
  index.toInt < cxVectorStateSize ∧
    (0 ≤ index.toInt ∨ (cxVectorStateSize : Int) ∣ index.toInt)

/-- The word that a served index addresses. -/
def servedOffset (index : Word) : Nat :=
  (index.toInt % cxVectorStateSize).toNat

/-- At a negative index C truncates towards zero, so register and lane, too, are
negative until they are stored in a `uint`. -/
theorem index_negative {index : Word} (negative : index.toInt < 0) :
    (indexReg index).toInt = -(-index.toInt / 32 % 4) ∧
      (indexLane index).toInt = -(-index.toInt % 32) := by
  have defined : index ≠ BitVec.intMin 32 ∨ (32 : Word) ≠ -1 :=
    Or.inr (by decide)
  have reg : (indexReg index).toInt = (index.toInt.tdiv 32).tmod 4 := by
    rw [indexReg, BitVec.toInt_srem,
      BitVec.toInt_sdiv_of_ne_or_ne index 32 defined]
    rfl
  have lane : (indexLane index).toInt = index.toInt.tmod 32 := by
    rw [indexLane, BitVec.toInt_srem]
    rfl
  obtain ⟨opposite, isOpposite⟩ : ∃ opposite, index.toInt = -opposite :=
    ⟨-index.toInt, by omega⟩
  rw [reg, lane, isOpposite, Int.neg_neg, Int.neg_tdiv, Int.neg_tmod,
    Int.neg_tmod, Int.tdiv_eq_ediv_of_nonneg (by omega),
    Int.tmod_eq_emod_of_nonneg (by omega),
    Int.tmod_eq_emod_of_nonneg (by omega)]
  exact ⟨rfl, rfl⟩

/-- The position a served index leads to. -/
theorem regIndex_served (context : Context) {index : Word}
    (served : Served index) :
    regIndex context (indexReg index).toNat (indexLane index).toNat =
      ((regBase context 0 + servedOffset index : Nat) : Int) := by
  obtain ⟨below, inside⟩ := served
  by_cases negative : index.toInt < 0
  · obtain ⟨reg, lane⟩ := index_negative negative
    simp only [regIndex, regBase, servedOffset, cxVectorStateSize, cxVectorVl,
      cxVectorNumRegs] at *
    rw [BitVec.toInt_eq_toNat_cond] at reg lane
    omega
  · have valid : IndexOperand index := ⟨Int.not_lt.mp negative, below⟩
    obtain ⟨offset, offsetBelow, rfl⟩ := valid.exists_index
    have sameOffset : servedOffset (BitVec.ofNat 32 offset) = offset := by
      change offset < 128 at offsetBelow
      rw [servedOffset, toInt_ofNat_index offsetBelow]
      change ((offset : Int) % 128).toNat = offset
      omega
    rw [regIndex_of_index context offsetBelow, sameOffset]

/-- All other negative indices lead outside the array. -/
theorem regIndex_notServed (context : Context) {index : Word}
    (below : index.toInt < cxVectorStateSize) (notServed : ¬Served index) :
    (regsLength : Int) ≤
      regIndex context (indexReg index).toNat (indexLane index).toNat := by
  have outside : ¬(0 ≤ index.toInt ∨ (cxVectorStateSize : Int) ∣ index.toInt) :=
    fun inside => notServed ⟨below, inside⟩
  have negative : index.toInt < 0 :=
    Int.not_le.mp fun nonneg => outside (Or.inl nonneg)
  obtain ⟨reg, lane⟩ := index_negative negative
  simp only [regIndex, regsLength, cxNumVecInstances, cxVectorNumStates,
    cxVectorStateSize, cxVectorVl, cxVectorNumRegs] at *
  rw [BitVec.toInt_eq_toNat_cond] at reg lane
  omega

theorem servedOffset_lt (index : Word) :
    servedOffset index < cxVectorStateSize := by
  simp only [servedOffset, cxVectorStateSize, cxVectorVl, cxVectorNumRegs]
  omega

theorem vectorReadStateFunc_served (located : contextOf sysSel = some context)
    {index : Word} (served : Served index) (b : Word) (statics : Statics) :
    vectorReadStateFunc.untraced index b sysSel statics =
      some (some (wordOf statics.data context (servedOffset index)),
        statics) := by
  have notPast : ¬(cxVectorStateSize : Int) ≤ index.toInt :=
    Int.not_le.mpr served.1
  have address := wordAddress_inside context (servedOffset_lt index)
  simp only [TracedFunc.untraced, vectorReadStateFunc, located,
    Option.bind_eq_bind, Option.bind_some, if_neg notPast,
    regIndex_served context served, Cells.Traced.load_natCast _ address,
    Option.map_some, Outcome.ofTraced, Statics.traced, wordOf]

theorem vectorReadStateFunc_unserved (located : contextOf sysSel = some context)
    {index : Word} (below : index.toInt < cxVectorStateSize)
    (notServed : ¬Served index) (b : Word) (statics : Statics) :
    vectorReadStateFunc.untraced index b sysSel statics = none := by
  have notPast : ¬(cxVectorStateSize : Int) ≤ index.toInt :=
    Int.not_le.mpr below
  simp only [TracedFunc.untraced, vectorReadStateFunc, located,
    Option.bind_eq_bind, Option.bind_some, if_neg notPast, Option.bind_none,
    Cells.Traced.load_outside _
      (Or.inr (regIndex_notServed context below notServed)), Option.map_none]

theorem vectorWriteStateFunc_served (located : contextOf sysSel = some context)
    {index : Word} (served : Served index) (value : Word) (statics : Statics) :
    ∃ next, vectorWriteStateFunc.untraced index value sysSel statics =
      some (some value, next) := by
  have notPast : ¬(cxVectorStateSize : Int) ≤ index.toInt :=
    Int.not_le.mpr served.1
  have address := wordAddress_inside context (servedOffset_lt index)
  simp only [TracedFunc.untraced, vectorWriteStateFunc, located,
    Option.bind_eq_bind, Option.bind_some, if_neg notPast,
    regIndex_served context served, Cells.Traced.store_natCast _ address,
    Option.map_some, Outcome.ofTraced]
  exact ⟨_, rfl⟩

theorem vectorWriteStateFunc_unserved
    (located : contextOf sysSel = some context) {index : Word}
    (below : index.toInt < cxVectorStateSize) (notServed : ¬Served index)
    (value : Word) (statics : Statics) :
    vectorWriteStateFunc.untraced index value sysSel statics = none := by
  have notPast : ¬(cxVectorStateSize : Int) ≤ index.toInt :=
    Int.not_le.mpr below
  simp only [TracedFunc.untraced, vectorWriteStateFunc, located,
    Option.bind_eq_bind, Option.bind_some, if_neg notPast, Option.bind_none,
    Cells.Traced.store_outside _
      (Or.inr (regIndex_notServed context below notServed)), Option.map_none]

private theorem vectorReadStateFunc_unreserved
    (located : contextOf sysSel = some context) (index b : Word)
    (statics : Statics) :
    Unreserved (vectorReadStateFunc.untraced index b sysSel statics) ↔
      ¬(Served index ∧
        NearLimit (wordOf statics.data context (servedOffset index)).toInt) := by
  by_cases below : index.toInt < (cxVectorStateSize : Int)
  · by_cases served : Served index
    · rw [vectorReadStateFunc_served located served, Unreserved.some_iff,
        isSentinel_iff_nearLimit]
      simp only [served, true_and]
    · rw [vectorReadStateFunc_unserved located below served]
      exact iff_of_true Unreserved.none fun collides => served collides.1
  · have past := Int.not_lt.mp below
    rw [TracedFunc.untraced_eq
      (vectorReadStateFunc_past located past b statics), Unreserved.some_iff]
    exact iff_of_true notSentinel_minusOne fun collides =>
      below collides.1.1

private theorem vectorWriteStateFunc_unreserved
    (located : contextOf sysSel = some context) (index value : Word)
    (statics : Statics) :
    Unreserved (vectorWriteStateFunc.untraced index value sysSel statics) ↔
      ¬(Served index ∧ NearLimit value.toInt) := by
  by_cases below : index.toInt < (cxVectorStateSize : Int)
  · by_cases served : Served index
    · obtain ⟨next, wrote⟩ :=
        vectorWriteStateFunc_served located served value statics
      rw [wrote, Unreserved.some_iff, isSentinel_iff_nearLimit]
      simp only [served, true_and]
    · rw [vectorWriteStateFunc_unserved located below served]
      exact iff_of_true Unreserved.none fun collides => served collides.1
  · have past := Int.not_lt.mp below
    rw [TracedFunc.untraced_eq
      (vectorWriteStateFunc_past located past value statics),
      Unreserved.some_iff]
    exact iff_of_true notSentinel_minusOne fun collides =>
      below collides.1.1

def Collides (cfId : Nat) (a b : Word) (context : Context)
    (data : Nat → Word) : Prop :=
  match cfId with
  | 1020 => Served a ∧ NearLimit b.toInt
  | 1021 => Served a ∧ NearLimit (wordOf data context (servedOffset a)).toInt
  | _ => False

theorem unreserved_iff (located : contextOf sysSel = some context)
    {statics : Statics} (settled : statics.AllSettled stateSize) (cfId : Nat)
    (a b : Word) :
    Unreserved ((cxFuncVector cfId).bind fun func => func a b sysSel statics) ↔
      ¬Collides cfId a b context statics.data := by
  apply Unreserved.ite
  · intro user
    have noCollision : ¬Collides cfId a b context statics.data := by
      change cfId < 4 at user
      unfold Collides
      split
      · omega
      · omega
      · exact not_false
    refine iff_of_true ?_ noCollision
    have everyUser : EveryEntry (fun func : TracedFunc =>
        Unreserved (func.untraced a b sysSel statics)) (userFunc cfId) :=
      .ite (.some (addFunc_unreserved a b statics)) <|
        .ite (.some (fillFunc_unreserved _ a b statics)) <|
          .ite (.some (fillFunc_unreserved _ a b statics)) <|
            .ite (.some (resetFunc_unreserved a b statics)) .none
    intro word next ran
    obtain ⟨func, entry, answered⟩ := Option.bind_eq_some_iff.mp ran
    obtain ⟨inner, isInner, rfl⟩ := Option.map_eq_some_iff.mp entry
    exact everyUser inner isInner word next answered
  intro _
  apply Unreserved.ite
  · rintro rfl
    exact vectorWriteStateFunc_unreserved located a b statics
  intro notWriteState
  apply Unreserved.ite
  · rintro rfl
    exact vectorReadStateFunc_unreserved located a b statics
  intro notReadState
  have noCollision : ¬Collides cfId a b context statics.data := by
    unfold Collides
    split <;> simp_all
  exact iff_of_true (statusEntries_unreserved _ _ _ settled cfId a b)
    noCollision

end Vector

end CxRuntime
