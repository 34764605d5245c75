import CxRuntime.Lib.Transition
import CxRuntime.Zoo.Pext

/-!
# Programs of packed instructions

Straight-line programs over registers of packed lanes, of one width each.  A lane
of the registers goes through the program as plain numbers do and meets no other
lane but lane 0: `sra16_func` and `sra8_func` shift every lane by the low bits of
the register.
-/

namespace CxRuntime.Pext

open Lanes

/-- The two lane widths of the CXU. -/
inductive LaneWidth
  | half
  | byte
  deriving DecidableEq, Repr

inductive LaneOp
  | add
  | sra
  | smul
  deriving DecidableEq, Repr

namespace LaneWidth

def bits : LaneWidth → Nat
  | half => 16
  | byte => 8

def cfId : LaneWidth → LaneOp → Nat
  | half, .add => 0
  | half, .sra => 1
  | half, .smul => 2
  | byte, .add => 3
  | byte, .sra => 4
  | byte, .smul => 5

/-- The number of shift amounts that the functions tell apart. -/
def amounts : LaneWidth → Nat
  | half => 256
  | byte => 16

end LaneWidth

/-- `rd = op(rs1, rs2)`. -/
structure PackedInstr (ρ : Type) where
  op : LaneOp
  rd : ρ
  rs1 : ρ
  rs2 : ρ

variable {ρ : Type} [DecidableEq ρ]

/-- The instruction through the table of the CXU. -/
def packedStep (width : LaneWidth) (regs : ρ → Word) (instr : PackedInstr ρ) :
    Option (ρ → Word) := do
  let func ← cxFuncPext (width.cfId instr.op)
  let result ← func (regs instr.rs1) (regs instr.rs2)
  some (Function.update regs instr.rd result)

/-! ## A lane beside lane 0 -/

/-- The values of lane 0 and of one more lane. -/
abbrev LanePair (width : LaneWidth) :=
  BitVec width.bits × BitVec width.bits

/-- A shift by 32 or more is undefined. -/
def laneOp {bits : Nat} (op : LaneOp) (amount : Nat)
    (left right : BitVec bits) : Option (BitVec bits) :=
  match op with
  | .add => some (left + right)
  | .smul => some (left * right)
  | .sra => if amount < 32 then some (left.sshiftRight amount) else none

/-- The operation on both lanes, with the shift amount in the first. -/
def pairOp (width : LaneWidth) (op : LaneOp) (left right : LanePair width) :
    Option (LanePair width) := do
  let amount := right.1.toNat % width.amounts
  let first ← laneOp op amount left.1 right.1
  let value ← laneOp op amount left.2 right.2
  some (first, value)

def pairStep (width : LaneWidth) (regs : ρ → LanePair width)
    (instr : PackedInstr ρ) : Option (ρ → LanePair width) :=
  (pairOp width instr.op (regs instr.rs1) (regs instr.rs2)).map
    (Function.update regs instr.rd)

/-- Lanes 0 and `i` of a register. -/
def lanePair (width : LaneWidth) (i : Nat) (word : Word) : LanePair width :=
  (lane width.bits word 0, lane width.bits word i)

/-! ## One instruction -/

theorem LaneWidth.narrow (width : LaneWidth) : width.bits < 32 := by
  cases width <;> decide

private theorem LaneWidth.lanes_positive (width : LaneWidth) :
    0 < xlen / width.bits := by
  cases width <;> decide

theorem lanePair_pack (width : LaneWidth) (value : Nat → BitVec width.bits)
    {i : Nat} (inWord : i < xlen / width.bits) :
    lanePair width i (pack 32 value (xlen / width.bits)) =
      (value 0, value i) := by
  have fits : xlen / width.bits * width.bits ≤ 32 :=
    Nat.div_mul_le_self xlen width.bits
  rw [lanePair, lane_pack value width.lanes_positive fits,
    lane_pack value inWord fits]

/-- The amount is in the low bits of lane 0. -/
theorem amount_lane (width : LaneWidth) (sa : Word) :
    (lane width.bits sa 0).toNat % width.amounts =
      sa.toNat % width.amounts := by
  have divides : width.amounts ∣ 2 ^ width.bits := by
    cases width <;> decide
  rw [lane, Nat.zero_mul, BitVec.extractLsb'_toNat, Nat.shiftRight_zero,
    Nat.mod_mod_of_dvd _ divides]

private theorem sra16_count (sa : Word) :
    (sa &&& 0xFF).toNat = sa.toNat % 256 := by
  rw [BitVec.toNat_and]
  exact Nat.and_two_pow_sub_one_eq_mod sa.toNat 8

/-- A function that combines the promoted operands acts on each lane. -/
theorem combineFunc_pair (width : LaneWidth) {firstMask : Word}
    (isMask : firstMask = mask 32 width.bits 0) {op : LaneOp}
    {promoted : Word → Word → Word}
    (narrows : ∀ amount (left right : BitVec width.bits),
      laneOp op amount left right =
        some ((promoted (left.signExtend 32) (right.signExtend 32)).setWidth
          width.bits))
    {i : Nat} (inWord : i < xlen / width.bits) (a b : Word) :
    (combineFunc width.bits firstMask (getBits .int) promoted a b).map
        (lanePair width i) =
      pairOp width op (lanePair width i a) (lanePair width i b) := by
  rw [combineFunc_eq width.narrow isMask, Option.map_some,
    lanePair_pack width _ inWord]
  simp only [pairOp, narrows]
  rfl

/-- A shift acts on each lane if its amount does not reach the promoted width,
and is undefined on every lane otherwise. -/
theorem sraFunc_pair (width : LaneWidth) {firstMask : Word}
    (isMask : firstMask = mask 32 width.bits 0) {keep : Word}
    (keeps : ∀ sa : Word, (sa &&& keep).toNat = sa.toNat % width.amounts)
    {i : Nat} (inWord : i < xlen / width.bits) (a sa : Word) :
    (sraFunc width.bits firstMask keep a sa).map (lanePair width i) =
      pairOp width .sra (lanePair width i a) (lanePair width i sa) := by
  have sameAmount : (lanePair width i sa).1.toNat % width.amounts =
      (sa &&& keep).toNat := by
    rw [keeps]
    exact amount_lane width sa
  by_cases counted : (sa &&& keep).toNat < 32
  · rw [sraFunc_eq width.narrow isMask keep a counted, Option.map_some,
      lanePair_pack width _ inWord]
    simp only [pairOp, sameAmount, laneOp, if_pos counted]
    rfl
  · have positive : 0 < width.bits := by
      cases width <;> decide
    rw [sraFunc_undefined (Nat.le_of_lt width.narrow) positive firstMask keep a
      counted]
    simp only [pairOp, sameAmount, laneOp, if_neg counted]
    rfl

private theorem laneOp_add (width : LaneWidth) (amount : Nat)
    (left right : BitVec width.bits) :
    laneOp .add amount left right =
      some ((left.signExtend 32 + right.signExtend 32).setWidth
        width.bits) := by
  rw [BitVec.setWidth_add _ _ (Nat.le_of_lt width.narrow),
    setWidth_signExtend width.narrow, setWidth_signExtend width.narrow]
  rfl

private theorem laneOp_smul (width : LaneWidth) (amount : Nat)
    (left right : BitVec width.bits) :
    laneOp .smul amount left right =
      some ((left.signExtend 32 * right.signExtend 32).setWidth
        width.bits) := by
  rw [BitVec.setWidth_mul _ _ (Nat.le_of_lt width.narrow),
    setWidth_signExtend width.narrow, setWidth_signExtend width.narrow]
  rfl

/-- The function in the table acts on lanes 0 and `i` alone. -/
theorem func_pair (width : LaneWidth) (op : LaneOp) {i : Nat}
    (inWord : i < xlen / width.bits) :
    ∃ func, cxFuncPext (width.cfId op) = some func ∧
      ∀ a b, (func a b).map (lanePair width i) =
        pairOp width op (lanePair width i a) (lanePair width i b) := by
  cases width with
  | half =>
      cases op with
      | add =>
          exact ⟨add16Func, rfl, combineFunc_pair .half firstMask16
            (laneOp_add .half) inWord⟩
      | sra =>
          exact ⟨sra16Func, rfl, sraFunc_pair .half firstMask16 sra16_count
            inWord⟩
      | smul =>
          exact ⟨smul16Func, rfl, combineFunc_pair .half firstMask16
            (laneOp_smul .half) inWord⟩
  | byte =>
      cases op with
      | add =>
          -- `GET_BITS_U` casts to the type that the field already has
          exact ⟨add8Func, rfl, combineFunc_pair .byte firstMask8
            (laneOp_add .byte) inWord⟩
      | sra =>
          exact ⟨sra8Func, rfl, sraFunc_pair .byte firstMask8 sra8_count
            inWord⟩
      | smul =>
          exact ⟨smul8Func, rfl, combineFunc_pair .byte firstMask8
            (laneOp_smul .byte) inWord⟩

private theorem packedStep_pair (width : LaneWidth) {i : Nat}
    (inWord : i < xlen / width.bits) (regs : ρ → Word) (instr : PackedInstr ρ) :
    (packedStep width regs instr).map (lanePair width i ∘ ·) =
      pairStep width (lanePair width i ∘ regs) instr := by
  obtain ⟨func, inTable, acts⟩ := func_pair width instr.op inWord
  have onLanes := acts (regs instr.rs1) (regs instr.rs2)
  simp only [packedStep, inTable, pairStep, Function.comp_apply, ← onLanes]
  cases returned : func (regs instr.rs1) (regs instr.rs2) with
  | none => simp [returned]
  | some result => simp [returned, Function.comp_update]

/-! ## Programs -/

/-- What a program of one lane width leaves in a lane, and whether it has a
defined result at all, is decided by that lane and lane 0 of the registers. -/
theorem packed_program_lanes (width : LaneWidth) (i : Fin (xlen / width.bits))
    (program : List (PackedInstr ρ)) (regs : ρ → Word) :
    (program.foldlM (packedStep width) regs).map (lanePair width i ∘ ·) =
      program.foldlM (pairStep width) (lanePair width i ∘ regs) :=
  Transition.foldlM_map _ (packedStep_pair width i.isLt) program regs

end CxRuntime.Pext
