import CxRuntime.Runtime.Selector

/-!
# Two descriptions of the control words

`utils.h` places the fields of the selector and of the status word twice: as
start and width in the accessors, and as bit-fields of the unions.  Both read
the same fields, no bit of a word is outside them, and `gen_cx_sel` loses none
of its arguments when they fit.
-/

namespace CxRuntime

/-- The accessors of the selector return the bit-fields of `cx_selidx_t`. -/
structure SelectorFieldsAgree (operand : Operand) (word : Word) : Prop where
  cxId : getCxId operand word = (CxSelidx.ofIdx word).cxId.setWidth 32
  stateId : getCxState operand word = (CxSelidx.ofIdx word).stateId.setWidth 32
  version :
    getCxVersion operand word = (CxSelidx.ofIdx word).version.setWidth 32
  cxe : getCxCxe operand word = (CxSelidx.ofIdx word).cxe.setWidth 32
  repacked : (CxSelidx.ofIdx word).idx = word

/-- The accessors of the status word return the bit-fields of `cx_stctxs_t`. -/
structure StatusFieldsAgree (operand : Operand) (word : Word) : Prop where
  stateSize :
    getCxStateSize operand word = (CxStctxs.ofIdx word).stateSize.setWidth 32
  dc : getCxDataClean operand word = (CxStctxs.ofIdx word).dc.setWidth 32
  version :
    getCxStatusVersion operand word = (CxStctxs.ofIdx word).version.setWidth 32
  r : getCxReset operand word = (CxStctxs.ofIdx word).r.setWidth 32
  repacked : (CxStctxs.ofIdx word).idx = word

private theorem selectorFieldsAgree (operand : Operand) (word : Word) :
    SelectorFieldsAgree operand word := by
  constructor
  · apply getCxId_eq
  · apply getCxState_eq
  · apply getCxVersion_eq
  · apply getCxCxe_eq
  · apply CxSelidx.idx_ofIdx

private theorem statusFieldsAgree (operand : Operand) (word : Word) :
    StatusFieldsAgree operand word := by
  constructor
  · apply getCxStateSize_eq
  · apply getCxDataClean_eq
  · apply getCxStatusVersion_eq
  · apply getCxReset_eq
  · apply CxStctxs.idx_ofIdx

/-! ## Packed selectors -/

/-- Arguments of `gen_cx_sel` that fit their fields. -/
structure SelectorArguments where
  cxId : Word
  stateId : Word
  cxVersion : Word
  cxIdFits : cxId.toNat < 256
  stateIdFits : stateId.toNat < 256
  cxVersionFits : cxVersion.toNat < 8

namespace SelectorArguments

variable (arguments : SelectorArguments)

def genCxSel : Word :=
  CxRuntime.genCxSel arguments.cxId arguments.stateId arguments.cxVersion

theorem ofIdx_genCxSel :
    CxSelidx.ofIdx arguments.genCxSel =
      { cxId := arguments.cxId.setWidth 8
        reserved1 := 0
        stateId := arguments.stateId.setWidth 8
        reserved0 := 0
        version := arguments.cxVersion.setWidth 3
        cxe := 0 } :=
  CxSelidx.ofIdx_idx _

/-- A word that fits a field comes back from it unchanged. -/
theorem setWidth_setWidth_of_fits {width : Nat} {word : Word}
    (fits : (word.setWidth width).toNat = word.toNat) :
    (word.setWidth width).setWidth 32 = word := by
  apply BitVec.eq_of_toNat_eq
  rw [BitVec.toNat_setWidth, fits]
  exact Nat.mod_eq_of_lt word.isLt

theorem getCxId_genCxSel (operand : Operand) :
    getCxId operand arguments.genCxSel = arguments.cxId := by
  have fits := arguments.cxIdFits
  rw [getCxId_eq, ofIdx_genCxSel]
  apply setWidth_setWidth_of_fits
  rw [BitVec.toNat_setWidth]
  omega

theorem getCxState_genCxSel (operand : Operand) :
    getCxState operand arguments.genCxSel = arguments.stateId := by
  have fits := arguments.stateIdFits
  rw [getCxState_eq, ofIdx_genCxSel]
  apply setWidth_setWidth_of_fits
  rw [BitVec.toNat_setWidth]
  omega

theorem getCxVersion_genCxSel (operand : Operand) :
    getCxVersion operand arguments.genCxSel = arguments.cxVersion := by
  have fits := arguments.cxVersionFits
  rw [getCxVersion_eq, ofIdx_genCxSel]
  apply setWidth_setWidth_of_fits
  rw [BitVec.toNat_setWidth]
  omega

/-- The `cxe` bit is clear. -/
theorem genCxSel_nonneg : 0 ≤ arguments.genCxSel.toInt := by
  have positive : arguments.genCxSel.msb = false :=
    msb_eq_false_of_cxe (congrArg CxSelidx.cxe arguments.ofIdx_genCxSel)
  rw [BitVec.toInt_eq_toNat_of_msb positive]
  omega

private theorem genCxSel_injective : Function.Injective genCxSel := by
  intro left right same
  have sameCxId := left.getCxId_genCxSel .uint
  have sameStateId := left.getCxState_genCxSel .uint
  have sameVersion := left.getCxVersion_genCxSel .uint
  rw [same, getCxId_genCxSel] at sameCxId
  rw [same, getCxState_genCxSel] at sameStateId
  rw [same, getCxVersion_genCxSel] at sameVersion
  cases left
  cases right
  simp only [mk.injEq]
  exact ⟨sameCxId.symm, sameStateId.symm, sameVersion.symm⟩

end SelectorArguments

/-- Reading a control word by accessor or by bit-field is the same, the fields
cover the word, and `gen_cx_sel` is non-negative, decodable and injective. -/
theorem controlWords_agree :
    (∀ operand word, SelectorFieldsAgree operand word ∧
      StatusFieldsAgree operand word) ∧
    (∀ arguments : SelectorArguments,
      0 ≤ arguments.genCxSel.toInt ∧
      ∀ operand, getCxId operand arguments.genCxSel = arguments.cxId ∧
        getCxState operand arguments.genCxSel = arguments.stateId ∧
        getCxVersion operand arguments.genCxSel = arguments.cxVersion) ∧
    Function.Injective SelectorArguments.genCxSel := by
  refine ⟨?_, ?_, SelectorArguments.genCxSel_injective⟩
  · intro operand word
    exact ⟨selectorFieldsAgree operand word, statusFieldsAgree operand word⟩
  · intro arguments
    refine ⟨arguments.genCxSel_nonneg, ?_⟩
    intro operand
    exact ⟨arguments.getCxId_genCxSel operand,
      arguments.getCxState_genCxSel operand,
      arguments.getCxVersion_genCxSel operand⟩

end CxRuntime
