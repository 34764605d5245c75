import CxRuntime.Utils

/-!
# Selectors of the machine-mode runtime

`gen_cx_sel` packs a CX id, a state id and the version into one word.  The
accessors read them back, so selectors of different slots differ, and none of
them is zero or negative.
-/

namespace CxRuntime

def genCxSel (cxId stateId cxVersion : Word) : Word :=
  CxSelidx.idx
    { cxId := cxId.setWidth 8
      reserved1 := 0
      stateId := stateId.setWidth 8
      reserved0 := 0
      version := cxVersion.setWidth 3
      cxe := 0 }

/-- The selector of a state of a slot of `cx_map`. -/
def slotSel (cxId : Fin numCx) (stateId : Nat) : Word :=
  genCxSel (BitVec.ofNat 32 cxId) (BitVec.ofNat 32 stateId) mcxVersion

theorem ofIdx_slotSel (cxId : Fin numCx) (stateId : Nat) :
    CxSelidx.ofIdx (slotSel cxId stateId) =
      { cxId := (BitVec.ofNat 32 cxId).setWidth 8
        reserved1 := 0
        stateId := (BitVec.ofNat 32 stateId).setWidth 8
        reserved0 := 0
        version := 1
        cxe := 0 } :=
  CxSelidx.ofIdx_idx _

theorem cxId_slotSel (cxId : Fin numCx) (stateId : Nat) :
    (CxSelidx.ofIdx (slotSel cxId stateId)).cxId.toNat = cxId := by
  have small : cxId.val < 8 := cxId.isLt
  rw [ofIdx_slotSel]
  simp only [BitVec.toNat_setWidth, BitVec.toNat_ofNat]
  omega

theorem stateId_slotSel (cxId : Fin numCx) {stateId : Nat}
    (small : stateId < 256) :
    (CxSelidx.ofIdx (slotSel cxId stateId)).stateId.toNat = stateId := by
  rw [ofIdx_slotSel]
  simp only [BitVec.toNat_setWidth, BitVec.toNat_ofNat]
  omega

theorem getCxId_slotSel (operand : Operand) (cxId : Fin numCx) (stateId : Nat) :
    (getCxId operand (slotSel cxId stateId)).toNat = cxId := by
  rw [getCxId_eq, BitVec.toNat_setWidth, cxId_slotSel]
  have small : cxId.val < 8 := cxId.isLt
  omega

theorem getCxState_slotSel (operand : Operand) (cxId : Fin numCx)
    {stateId : Nat} (small : stateId < 256) :
    (getCxState operand (slotSel cxId stateId)).toNat = stateId := by
  rw [getCxState_eq, BitVec.toNat_setWidth, stateId_slotSel cxId small]
  omega

theorem slotSel_inj {leftId rightId : Fin numCx} {leftState rightState : Nat}
    (leftSmall : leftState < 256) (rightSmall : rightState < 256) :
    slotSel leftId leftState = slotSel rightId rightState ↔
      leftId = rightId ∧ leftState = rightState := by
  constructor
  · intro equality
    have sameId := cxId_slotSel leftId leftState
    have sameState := stateId_slotSel leftId leftSmall
    rw [equality, cxId_slotSel] at sameId
    rw [equality, stateId_slotSel rightId rightSmall] at sameState
    exact ⟨Fin.ext sameId.symm, sameState.symm⟩
  · rintro ⟨rfl, rfl⟩
    rfl

/-- The `cxe` bit is the sign of a selector. -/
theorem msb_eq_false_of_cxe {word : Word}
    (clear : (CxSelidx.ofIdx word).cxe = 0) : word.msb = false := by
  have bit := congrArg (fun field => field.getLsbD 0) clear
  rw [BitVec.msb_eq_getLsbD_last]
  simpa [CxSelidx.ofIdx] using bit

/-- The `cxe` bit is clear and the version is not zero. -/
theorem slotSel_pos (cxId : Fin numCx) (stateId : Nat) :
    0 < (slotSel cxId stateId).toInt := by
  have nonneg : (slotSel cxId stateId).msb = false :=
    msb_eq_false_of_cxe (congrArg CxSelidx.cxe (ofIdx_slotSel cxId stateId))
  have nonzero : slotSel cxId stateId ≠ 0 := by
    intro zero
    have version : (CxSelidx.ofIdx (slotSel cxId stateId)).version = 1 :=
      congrArg CxSelidx.version (ofIdx_slotSel cxId stateId)
    rw [zero] at version
    exact absurd version (by decide)
  have positive : 0 < (slotSel cxId stateId).toNat :=
    Nat.pos_of_ne_zero fun zero => nonzero (BitVec.eq_of_toNat_eq zero)
  rw [BitVec.toInt_eq_toNat_of_msb nonneg]
  omega

theorem slotSel_ne_neg_one (cxId : Fin numCx) (stateId : Nat) :
    slotSel cxId stateId ≠ -1 := by
  intro equality
  have positive := slotSel_pos cxId stateId
  rw [equality] at positive
  exact absurd positive (by decide)

end CxRuntime
