import CxRuntime.Lib.BitSlice

/-!
# Control words of `utils.h`

The selector word `cx_selidx_t` and the context status word `cx_stctxs_t` as
bit-field structures, the shift-and-mask accessors that read the same fields
from a plain word, and the constants of the header the runtime uses.
-/

namespace CxRuntime

/-- A 32-bit register or C `int`/`uint`. -/
abbrev Word := BitVec 32

def mcxVersion : Word := 1

abbrev numCx : Nat := 8

def maxCfIds : Nat := 1024

abbrev maxCxId : Nat := 255

abbrev maxStateSize : Nat := 1024

/-- The returned word, or `none` if the function ends without a `return`. -/
abbrev Returned := Option Word

/-- The type of the operand of `GET_BITS` selects the right shift. -/
inductive Operand where
  | int
  | uint
  deriving DecidableEq, Repr

/-- `GET_BITS(cx_sel, start_bit, n)`. -/
def getBits (operand : Operand) (word : Word) (startBit n : Nat) : Word :=
  let shifted :=
    match operand with
    | .int => word.sshiftRight startBit
    | .uint => word >>> startBit
  shifted &&& ((1#32 <<< n) - 1#32)

def getCxId (operand : Operand) (cxSel : Word) : Word :=
  getBits operand cxSel 0 8

def getCxState (operand : Operand) (cxSel : Word) : Word :=
  getBits operand cxSel 16 8

def getCxCxe (operand : Operand) (cxSel : Word) : Word :=
  getBits operand cxSel 31 1

def getCxVersion (operand : Operand) (cxSel : Word) : Word :=
  getBits operand cxSel 28 3

def getCxStatusVersion (operand : Operand) (status : Word) : Word :=
  getBits operand status 28 3

def getCxDataClean (operand : Operand) (status : Word) : Word :=
  getBits operand status 26 2

def getCxStateSize (operand : Operand) (status : Word) : Word :=
  getBits operand status 0 16

def getCxReset (operand : Operand) (status : Word) : Word :=
  getBits operand status 31 1

/-- `cx_selidx_t`, least significant field first. -/
structure CxSelidx where
  cxId : BitVec 8
  reserved1 : BitVec 8
  stateId : BitVec 8
  reserved0 : BitVec 4
  version : BitVec 3
  cxe : BitVec 1
  deriving DecidableEq, Repr

/-- `cx_stctxs_t`, least significant field first. -/
structure CxStctxs where
  stateSize : BitVec 16
  reserved0 : BitVec 10
  dc : BitVec 2
  version : BitVec 3
  r : BitVec 1
  deriving DecidableEq, Repr

/-- `enum CX_CS`. -/
inductive CxCs where
  | off
  | preclean
  | clean
  | dirty
  deriving DecidableEq, Repr

/-- The enumerator as an integer. -/
def CxCs.word : CxCs → Word
  | .off => 0
  | .preclean => 1
  | .clean => 2
  | .dirty => 3

/-- The enumerator stored in the two-bit field `dc`. -/
def CxCs.dc (cs : CxCs) : BitVec 2 := cs.word.setWidth 2

/-! ## The unions -/

/-- The member `idx` of the union, from its fields. -/
def CxSelidx.idx (sel : CxSelidx) : Word :=
  sel.cxe ++ sel.version ++ sel.reserved0 ++ sel.stateId ++ sel.reserved1 ++
    sel.cxId

/-- The fields of the union, from its member `idx`. -/
def CxSelidx.ofIdx (word : Word) : CxSelidx :=
  { cxId := word.extractLsb' 0 8
    reserved1 := word.extractLsb' 8 8
    stateId := word.extractLsb' 16 8
    reserved0 := word.extractLsb' 24 4
    version := word.extractLsb' 28 3
    cxe := word.extractLsb' 31 1 }

def CxStctxs.idx (status : CxStctxs) : Word :=
  status.r ++ status.version ++ status.dc ++ status.reserved0 ++
    status.stateSize

def CxStctxs.ofIdx (word : Word) : CxStctxs :=
  { stateSize := word.extractLsb' 0 16
    reserved0 := word.extractLsb' 16 10
    dc := word.extractLsb' 26 2
    version := word.extractLsb' 28 3
    r := word.extractLsb' 31 1 }

@[simp] theorem CxSelidx.idx_ofIdx (word : Word) :
    (CxSelidx.ofIdx word).idx = word := by
  simp only [CxSelidx.idx, CxSelidx.ofIdx]
  rw [BitVec.extractLsb'_append_extractLsb'_eq_extractLsb'
      (show 31 = 28 + 3 from rfl),
    BitVec.extractLsb'_append_extractLsb'_eq_extractLsb'
      (show 28 = 24 + 4 from rfl),
    BitVec.extractLsb'_append_extractLsb'_eq_extractLsb'
      (show 24 = 16 + 8 from rfl),
    BitVec.extractLsb'_append_extractLsb'_eq_extractLsb'
      (show 16 = 8 + 8 from rfl),
    BitVec.extractLsb'_append_extractLsb'_eq_extractLsb'
      (show 8 = 0 + 8 from rfl)]
  exact BitVec.extractLsb'_eq_self

@[simp] theorem CxSelidx.ofIdx_idx (sel : CxSelidx) :
    CxSelidx.ofIdx sel.idx = sel := by
  cases sel
  simp only [CxSelidx.ofIdx, CxSelidx.idx, CxSelidx.mk.injEq]
  -- each append skipped drops one field from the low end
  refine ⟨?_, ?_, ?_, ?_, ?_, ?_⟩
  · exact BitVec.extractLsb'_append_eq_right
  · refine (BitVec.extractLsb'_append_eq_of_le (by decide)).trans ?_
    exact BitVec.extractLsb'_append_eq_right
  · iterate 2 refine (BitVec.extractLsb'_append_eq_of_le (by decide)).trans ?_
    exact BitVec.extractLsb'_append_eq_right
  · iterate 3 refine (BitVec.extractLsb'_append_eq_of_le (by decide)).trans ?_
    exact BitVec.extractLsb'_append_eq_right
  · iterate 4 refine (BitVec.extractLsb'_append_eq_of_le (by decide)).trans ?_
    exact BitVec.extractLsb'_append_eq_right
  · iterate 5 refine (BitVec.extractLsb'_append_eq_of_le (by decide)).trans ?_
    exact BitVec.extractLsb'_eq_self

@[simp] theorem CxStctxs.idx_ofIdx (word : Word) :
    (CxStctxs.ofIdx word).idx = word := by
  simp only [CxStctxs.idx, CxStctxs.ofIdx]
  rw [BitVec.extractLsb'_append_extractLsb'_eq_extractLsb'
      (show 31 = 28 + 3 from rfl),
    BitVec.extractLsb'_append_extractLsb'_eq_extractLsb'
      (show 28 = 26 + 2 from rfl),
    BitVec.extractLsb'_append_extractLsb'_eq_extractLsb'
      (show 26 = 16 + 10 from rfl),
    BitVec.extractLsb'_append_extractLsb'_eq_extractLsb'
      (show 16 = 0 + 16 from rfl)]
  exact BitVec.extractLsb'_eq_self

@[simp] theorem CxStctxs.ofIdx_idx (status : CxStctxs) :
    CxStctxs.ofIdx status.idx = status := by
  cases status
  simp only [CxStctxs.ofIdx, CxStctxs.idx, CxStctxs.mk.injEq]
  refine ⟨?_, ?_, ?_, ?_, ?_⟩
  · exact BitVec.extractLsb'_append_eq_right
  · refine (BitVec.extractLsb'_append_eq_of_le (by decide)).trans ?_
    exact BitVec.extractLsb'_append_eq_right
  · iterate 2 refine (BitVec.extractLsb'_append_eq_of_le (by decide)).trans ?_
    exact BitVec.extractLsb'_append_eq_right
  · iterate 3 refine (BitVec.extractLsb'_append_eq_of_le (by decide)).trans ?_
    exact BitVec.extractLsb'_append_eq_right
  · iterate 4 refine (BitVec.extractLsb'_append_eq_of_le (by decide)).trans ?_
    exact BitVec.extractLsb'_eq_self

theorem CxStctxs.idx_injective : Function.Injective CxStctxs.idx := by
  intro left right equality
  simpa using congrArg CxStctxs.ofIdx equality

/-! ## The accessors read the fields -/

theorem getBits_eq (operand : Operand) (word : Word) {startBit n : Nat}
    (inside : startBit + n ≤ 32) (narrow : n < 32) :
    getBits operand word startBit n =
      (word.extractLsb' startBit n).setWidth 32 := by
  cases operand with
  | int => exact BitSlice.sshiftRight_and_mask word inside narrow
  | uint => exact BitSlice.ushiftRight_and_mask word narrow

theorem getCxId_eq (operand : Operand) (cxSel : Word) :
    getCxId operand cxSel = (CxSelidx.ofIdx cxSel).cxId.setWidth 32 :=
  getBits_eq operand cxSel (by decide) (by decide)

theorem getCxState_eq (operand : Operand) (cxSel : Word) :
    getCxState operand cxSel = (CxSelidx.ofIdx cxSel).stateId.setWidth 32 :=
  getBits_eq operand cxSel (by decide) (by decide)

theorem getCxCxe_eq (operand : Operand) (cxSel : Word) :
    getCxCxe operand cxSel = (CxSelidx.ofIdx cxSel).cxe.setWidth 32 :=
  getBits_eq operand cxSel (by decide) (by decide)

theorem getCxVersion_eq (operand : Operand) (cxSel : Word) :
    getCxVersion operand cxSel = (CxSelidx.ofIdx cxSel).version.setWidth 32 :=
  getBits_eq operand cxSel (by decide) (by decide)

theorem getCxStatusVersion_eq (operand : Operand) (status : Word) :
    getCxStatusVersion operand status =
      (CxStctxs.ofIdx status).version.setWidth 32 :=
  getBits_eq operand status (by decide) (by decide)

theorem getCxDataClean_eq (operand : Operand) (status : Word) :
    getCxDataClean operand status = (CxStctxs.ofIdx status).dc.setWidth 32 :=
  getBits_eq operand status (by decide) (by decide)

theorem getCxStateSize_eq (operand : Operand) (status : Word) :
    getCxStateSize operand status =
      (CxStctxs.ofIdx status).stateSize.setWidth 32 :=
  getBits_eq operand status (by decide) (by decide)

theorem getCxReset_eq (operand : Operand) (status : Word) :
    getCxReset operand status = (CxStctxs.ofIdx status).r.setWidth 32 :=
  getBits_eq operand status (by decide) (by decide)

/-! ## The data-clean field -/

theorem CxCs.dc_injective : Function.Injective CxCs.dc := by
  intro left right equality
  cases left <;> cases right <;> first | rfl | exact absurd equality (by decide)

theorem CxCs.dc_surjective (dc : BitVec 2) : ∃ cs : CxCs, cs.dc = dc := by
  have bound := dc.isLt
  have cases : dc = 0#2 ∨ dc = 1#2 ∨ dc = 2#2 ∨ dc = 3#2 := by
    simp only [← BitVec.toNat_inj, BitVec.toNat_ofNat]
    omega
  rcases cases with rfl | rfl | rfl | rfl
  · exact ⟨.off, rfl⟩
  · exact ⟨.preclean, rfl⟩
  · exact ⟨.clean, rfl⟩
  · exact ⟨.dirty, rfl⟩

/-- The word read from `dc` equals an enumerator exactly when the field does. -/
theorem CxCs.setWidth_dc_eq_word (left right : CxCs) :
    left.dc.setWidth 32 = right.word ↔ left = right := by
  cases left <;> cases right <;> decide

end CxRuntime
