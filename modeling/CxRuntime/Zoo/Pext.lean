import CxRuntime.Lib.Lanes
import CxRuntime.Utils

/-!
# The packed SIMD CXU

`p-ext_func.c`.  Its six functions run one loop over the lanes of their
operands.  A right shift whose count is not below the width of the promoted
operand is undefined in C and `none` here.
-/

namespace CxRuntime.Pext

abbrev cxPextNumFuncs : Nat := 6

abbrev cxPextNumStates : Nat := 0

abbrev xlen : Nat := 32

/-- `GET_BITS_U`: the cast keeps the word. -/
def getBitsU (reg : Word) (startBit n : Nat) : Word :=
  getBits .int reg startBit n

/-- `value >> count` on two `int`s. -/
def shiftRight (value count : Word) : Option Word :=
  if count.toNat < 32 then some (value.sshiftRight count.toNat) else none

/-- The loop of the six functions: each lane value is promoted to `int`, shifted
into place and or-ed into the result under the moving mask. -/
def laneLoop (width : Nat) (firstMask : Word)
    (lane : Nat → Option (BitVec width)) : Option Word :=
  (Loop.forUpTo (xlen / width)
    (fun i (packed : Word × Word) =>
      (lane i).map fun (sum : BitVec width) =>
        (packed.1 ||| (sum.signExtend 32 <<< (i * width)) &&& packed.2,
          packed.2 <<< width))
    (0, firstMask)).map Prod.fst

/-- The body of the functions that combine two operands. -/
def combineFunc (width : Nat) (firstMask : Word)
    (getBits : Word → Nat → Nat → Word) (op : Word → Word → Word)
    (a b : Word) : Option Word :=
  laneLoop width firstMask fun i =>
    let rs1H := (getBits a (i * width) width).setWidth width
    let rs2H := (getBits b (i * width) width).setWidth width
    some ((op (rs1H.signExtend 32) (rs2H.signExtend 32)).setWidth width)

/-- The body of the shifts.  Every iteration masks `sa` again, to no effect. -/
def sraFunc (width : Nat) (firstMask keep : Word) (a sa : Word) :
    Option Word :=
  laneLoop width firstMask fun i =>
    let rs1H := (getBits .int a (i * width) width).setWidth width
    (shiftRight (rs1H.signExtend 32) (sa &&& keep)).map
      fun res => res.setWidth width

def add16Func : Word → Word → Option Word :=
  combineFunc 16 0xFFFF (getBits .int) fun rs1H rs2H => rs1H + rs2H

def sra16Func : Word → Word → Option Word := sraFunc 16 0xFFFF 0xFF

def smul16Func : Word → Word → Option Word :=
  combineFunc 16 0xFFFF (getBits .int) fun rs1H rs2H => rs1H * rs2H

def add8Func : Word → Word → Option Word :=
  combineFunc 8 0xFF getBitsU fun rs1H rs2H => rs1H + rs2H

def sra8Func : Word → Word → Option Word := sraFunc 8 0xFF 0xF

def smul8Func : Word → Word → Option Word :=
  combineFunc 8 0xFF (getBits .int) fun rs1H rs2H => rs1H * rs2H

/-- `cx_func_pext`; `none` is outside the table. -/
def cxFuncPext (cfId : Nat) : Option (Word → Word → Option Word) :=
  if cfId = 0 then some add16Func
  else if cfId = 1 then some sra16Func
  else if cfId = 2 then some smul16Func
  else if cfId = 3 then some add8Func
  else if cfId = 4 then some sra8Func
  else if cfId = 5 then some smul8Func
  else none

/-- `pack_32_i16` of the tests. -/
def pack32I16 (a b : BitVec 16) : Word :=
  (a.signExtend 32 &&& 0xFFFF) |||
    ((b.signExtend 32 <<< 16) &&& 0xFFFF0000)

/-- `pack_32_i8` of the tests. -/
def pack32I8 (a b c d : BitVec 8) : Word :=
  (a.signExtend 32 &&& 0xFF) ||| ((b.signExtend 32 <<< 8) &&& 0xFF00) |||
    ((c.signExtend 32 <<< 16) &&& 0xFF0000) |||
    ((d.signExtend 32 <<< 24) &&& 0xFF000000)

/-! ## Lanes of the operands -/

open Lanes

/-- The narrowed bit field is the lane. -/
theorem getBits_lane (operand : Operand) (word : Word) {width index : Nat}
    (inside : index * width + width ≤ 32) (narrow : width < 32) :
    (getBits operand word (index * width) width).setWidth width =
      lane width word index := by
  rw [getBits_eq operand word inside narrow,
    BitVec.setWidth_setWidth_of_le _ (Nat.le_of_lt narrow),
    BitVec.setWidth_eq]
  rfl

theorem setWidth_signExtend {width : Nat} (narrow : width < 32)
    (value : BitVec width) : (value.signExtend 32).setWidth width = value := by
  apply BitVec.eq_of_getLsbD_eq
  intro bit below
  have inWord : bit < 32 := by omega
  rw [BitVec.getLsbD_setWidth, BitVec.getLsbD_signExtend]
  simp only [below, inWord, decide_true, Bool.true_and, if_true]

/-- Shifting the promoted lane and narrowing shifts the lane. -/
theorem setWidth_sshiftRight_signExtend {width : Nat} (narrow : width < 32)
    (value : BitVec width) (count : Nat) :
    ((value.signExtend 32).sshiftRight count).setWidth width =
      value.sshiftRight count := by
  have sameSign : (value.signExtend 32).msb = value.msb := by
    have notWide : ¬width ≥ 32 := by omega
    rw [BitVec.msb_signExtend, if_neg notWide]
    rfl
  apply BitVec.eq_of_getLsbD_eq
  intro bit below
  have notPast : ¬width ≤ bit := by omega
  have notPastWord : ¬32 ≤ bit := by omega
  rw [BitVec.getLsbD_setWidth, BitVec.getLsbD_sshiftRight,
    BitVec.getLsbD_sshiftRight, BitVec.getLsbD_signExtend, sameSign]
  simp only [below, notPast, notPastWord, decide_true, decide_false,
    Bool.not_false, Bool.true_and]
  by_cases inLane : count + bit < width
  · have inWord : count + bit < 32 := by omega
    simp only [inLane, inWord, if_true, decide_true, Bool.true_and]
  · by_cases inWord : count + bit < 32
    · simp only [inLane, inWord, if_true, if_false, decide_true, Bool.true_and]
    · simp only [inLane, inWord, if_false]

private theorem pack_two (value : Nat → BitVec 16) :
    pack 32 value 2 = pack32I16 (value 0) (value 1) := by
  simp [pack, placed, pack32I16, mask]

private theorem pack_four (value : Nat → BitVec 8) :
    pack 32 value 4 = pack32I8 (value 0) (value 1) (value 2) (value 3) := by
  simp [pack, placed, pack32I8, mask]

/-! ## The loops -/

theorem laneLoop_eq {width : Nat} {firstMask : Word}
    (isMask : firstMask = mask 32 width 0)
    {laneAt : Nat → Option (BitVec width)} {value : Nat → BitVec width}
    (defined : ∀ i, i < xlen / width → laneAt i = some (value i)) :
    laneLoop width firstMask laneAt =
      some (pack 32 value (xlen / width)) := by
  subst isMask
  rw [laneLoop, forUpTo_pack (xlen / width) defined, Option.map_some]

/-- A lane position that the loop visits lies in the word. -/
theorem lane_inside {width i : Nat} (visited : i < xlen / width) :
    i * width + width ≤ 32 := by
  have below : (i + 1) * width ≤ xlen :=
    Nat.le_trans (Nat.mul_le_mul_right width visited)
      (Nat.div_mul_le_self xlen width)
  rwa [Nat.succ_mul] at below

theorem combineFunc_eq {width : Nat} (narrow : width < 32) {firstMask : Word}
    (isMask : firstMask = mask 32 width 0) (op : Word → Word → Word)
    (a b : Word) :
    combineFunc width firstMask (getBits .int) op a b =
      some (pack 32
        (fun i => (op ((lane width a i).signExtend 32)
          ((lane width b i).signExtend 32)).setWidth width)
        (xlen / width)) := by
  apply laneLoop_eq isMask
  intro i visited
  have inside := lane_inside visited
  simp only [getBits_lane .int a inside narrow,
    getBits_lane .int b inside narrow]

/-- With a count below 32 the shifts act on each lane. -/
theorem sraFunc_eq {width : Nat} (narrow : width < 32) {firstMask : Word}
    (isMask : firstMask = mask 32 width 0) (keep a : Word) {sa : Word}
    (counted : (sa &&& keep).toNat < 32) :
    sraFunc width firstMask keep a sa =
      some (pack 32
        (fun i => (lane width a i).sshiftRight (sa &&& keep).toNat)
        (xlen / width)) := by
  apply laneLoop_eq isMask
  intro i visited
  simp only [getBits_lane .int a (lane_inside visited) narrow, shiftRight,
    if_pos counted, Option.map_some,
    setWidth_sshiftRight_signExtend narrow]

/-- With any other count the first shift is undefined. -/
theorem sraFunc_undefined {width : Nat} (fits : width ≤ 32)
    (positive : 0 < width) (firstMask keep a : Word) {sa : Word}
    (past : ¬(sa &&& keep).toNat < 32) :
    sraFunc width firstMask keep a sa = none := by
  obtain ⟨lanes, countEq⟩ : ∃ lanes, xlen / width = lanes + 1 :=
    Nat.exists_eq_succ_of_ne_zero (Nat.ne_of_gt (Nat.div_pos fits positive))
  simp only [sraFunc, laneLoop, countEq, shiftRight, if_neg past,
    Option.map_none]
  rw [Loop.forUpTo_none rfl, Option.map_none]

/-! ## Lane by lane -/

/-- The returned word has these 16-bit lanes and is what the tests pack from
them. -/
def LaneWise16 (returned : Option Word) (value : Nat → BitVec 16) : Prop :=
  ∃ result, returned = some result ∧
    (∀ i, i < 2 → lane 16 result i = value i) ∧
    result = pack32I16 (value 0) (value 1)

/-- The same for 8-bit lanes. -/
def LaneWise8 (returned : Option Word) (value : Nat → BitVec 8) : Prop :=
  ∃ result, returned = some result ∧
    (∀ i, i < 4 → lane 8 result i = value i) ∧
    result = pack32I8 (value 0) (value 1) (value 2) (value 3)

theorem laneWise16_of_pack (value : Nat → BitVec 16) :
    LaneWise16 (some (pack 32 value 2)) value :=
  ⟨_, rfl, fun _ below => lane_pack value below (by decide), pack_two value⟩

private theorem laneWise8_of_pack (value : Nat → BitVec 8) :
    LaneWise8 (some (pack 32 value 4)) value :=
  ⟨_, rfl, fun _ below => lane_pack value below (by decide), pack_four value⟩

theorem firstMask16 : (0xFFFF : Word) = mask 32 16 0 := by decide

theorem firstMask8 : (0xFF : Word) = mask 32 8 0 := by decide

/-- The sum of two promoted lanes, narrowed, is the wrapped sum of the lanes. -/
theorem narrowed_sum {width : Nat} (narrow : width < 32)
    (left right : BitVec width) :
    (left.signExtend 32 + right.signExtend 32).setWidth width =
      BitVec.ofInt width (left.toInt + right.toInt) := by
  rw [BitVec.setWidth_add _ _ (Nat.le_of_lt narrow), setWidth_signExtend narrow,
    setWidth_signExtend narrow, BitVec.ofInt_add, BitVec.ofInt_toInt,
    BitVec.ofInt_toInt]

theorem narrowed_product {width : Nat} (narrow : width < 32)
    (left right : BitVec width) :
    (left.signExtend 32 * right.signExtend 32).setWidth width =
      BitVec.ofInt width (left.toInt * right.toInt) := by
  rw [BitVec.setWidth_mul _ _ (Nat.le_of_lt narrow), setWidth_signExtend narrow,
    setWidth_signExtend narrow, BitVec.ofInt_mul, BitVec.ofInt_toInt,
    BitVec.ofInt_toInt]

/-- The lane values of the sums, as signed numbers that wrap. -/
def signedSum (width : Nat) (a b : Word) (i : Nat) : BitVec width :=
  BitVec.ofInt width ((lane width a i).toInt + (lane width b i).toInt)

def signedProduct (width : Nat) (a b : Word) (i : Nat) : BitVec width :=
  BitVec.ofInt width ((lane width a i).toInt * (lane width b i).toInt)

theorem sra8_count (sa : Word) : (sa &&& 0xF).toNat = sa.toNat % 16 := by
  rw [BitVec.toNat_and]
  exact Nat.and_two_pow_sub_one_eq_mod sa.toNat 4

theorem packed_functions_lanewise (a b : Word) :
    LaneWise16 (add16Func a b) (signedSum 16 a b) ∧
      LaneWise8 (add8Func a b) (signedSum 8 a b) ∧
      LaneWise16 (smul16Func a b) (signedProduct 16 a b) ∧
      LaneWise8 (smul8Func a b) (signedProduct 8 a b) ∧
      LaneWise8 (sra8Func a b)
        fun i => (lane 8 a i).sshiftRight (b.toNat % 16) := by
  refine ⟨?_, ?_, ?_, ?_, ?_⟩
  · rw [add16Func, combineFunc_eq (by decide) firstMask16]
    simp only [narrowed_sum (show 16 < 32 by decide)]
    exact laneWise16_of_pack (signedSum 16 a b)
  · have same : add8Func = combineFunc 8 0xFF (getBits .int) _ := rfl
    rw [same, combineFunc_eq (by decide) firstMask8]
    simp only [narrowed_sum (show 8 < 32 by decide)]
    exact laneWise8_of_pack (signedSum 8 a b)
  · rw [smul16Func, combineFunc_eq (by decide) firstMask16]
    simp only [narrowed_product (show 16 < 32 by decide)]
    exact laneWise16_of_pack (signedProduct 16 a b)
  · rw [smul8Func, combineFunc_eq (by decide) firstMask8]
    simp only [narrowed_product (show 8 < 32 by decide)]
    exact laneWise8_of_pack (signedProduct 8 a b)
  · have counted : (b &&& 0xF).toNat < 32 := by
      rw [sra8_count]
      omega
    rw [sra8Func, sraFunc_eq (by decide) firstMask8 0xF a counted, sra8_count]
    exact laneWise8_of_pack _

/-- `sra16_func` only executes defined shifts, and its lanes are the shifted
lanes, exactly if the masked amount is below 32. -/
theorem sra16_lanewise_iff (a sa : Word) :
    LaneWise16 (sra16Func a sa)
        (fun i => (lane 16 a i).sshiftRight (sa &&& 0xFF).toNat) ↔
      (sa &&& 0xFF).toNat < 32 := by
  constructor
  · intro lanewise
    by_contra past
    obtain ⟨result, returned, _⟩ := lanewise
    rw [sra16Func, sraFunc_undefined (by decide) (by decide) _ _ _ past]
      at returned
    cases returned
  · intro counted
    rw [sra16Func, sraFunc_eq (by decide) firstMask16 0xFF a counted]
    exact laneWise16_of_pack _

/-- An amount of 32 leaves the shift undefined. -/
theorem sra16_undefined :
    sra16Func 0x00010001 32 = none ∧
      ¬LaneWise16 (sra16Func 0x00010001 32)
        fun i => (lane 16 (0x00010001 : Word) i).sshiftRight
          ((32 : Word) &&& 0xFF).toNat := by
  have undefined : sra16Func 0x00010001 32 = none :=
    sraFunc_undefined (by decide) (by decide) _ _ _ (by decide)
  refine ⟨undefined, ?_⟩
  intro lanewise
  obtain ⟨result, returned, _⟩ := lanewise
  rw [undefined] at returned
  cases returned

end CxRuntime.Pext
