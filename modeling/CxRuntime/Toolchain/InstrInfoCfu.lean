import CxRuntime.Lib.BitFields
import CxRuntime.Utils
import Mathlib.Algebra.Group.Nat.Defs

/-!
# The custom instructions

`RISCVInstrInfoCFU.td`: the instructions `cfu_reg` and `cfu_imm`, the ranges of
their immediate operands and the fields of their words.  Assembling and
disassembling are inverse to each other as partial functions.
-/

namespace CxRuntime.Cfu

/-- `OPC_CUSTOM_0`, that is `CUSTOM0` of `utils.h`. -/
def opcCustom0 : BitVec 7 := 0x0b

def opcCustom1 : BitVec 7 := 0x2b

abbrev Gpr := BitVec 5

def isUInt (n : Nat) (imm : Int) : Bool := 0 ≤ imm ∧ imm.toNat < 2 ^ n

/-- An instruction with the operands of its assembly text. -/
inductive Insn where
  | cfuReg (cfId : Int) (rd rs1 rs2 : Gpr)
  | cfuImm (cfId : Int) (rd rs1 : Gpr) (imm : Int)
  deriving DecidableEq, Repr

/-- The fields of `RVInstR_CFU` from the lowest: opcode, `rd`, `cf_id{2-0}`,
`rs1`, `rs2`, `cf_id{9-3}`. -/
abbrev regLayout : List Nat := [7, 5, 3, 5, 5, 7]

/-- The fields of `RVInstI_CFU` from the lowest: opcode, `rd`, `0b000`, `rs1`,
`cf_id`, `imm`. -/
abbrev immLayout : List Nat := [7, 5, 3, 5, 4, 8]

/-- The two parts of the CF id of `RVInstR_CFU`. -/
abbrev cfIdLayout : List Nat := [3, 7]

def regFields (cfId : BitVec 10) (rd rs1 rs2 : Gpr) :
    BitFields.Fields regLayout :=
  let parts := BitFields.unpack cfIdLayout cfId
  (opcCustom0, rd, parts.1, rs1, rs2, parts.2.1, ())

def immFields (cfId : BitVec 4) (rd rs1 : Gpr) (imm : BitVec 8) :
    BitFields.Fields immLayout :=
  (opcCustom1, rd, 0, rs1, cfId, imm, ())

/-- The word of an instruction whose operands are in range. -/
def assemble : Insn → Option Word
  | .cfuReg cfId rd rs1 rs2 =>
      if isUInt 10 cfId then
        some (BitFields.pack regLayout
          (regFields (BitVec.ofInt 10 cfId) rd rs1 rs2))
      else none
  | .cfuImm cfId rd rs1 imm =>
      if isUInt 4 cfId ∧ isUInt 8 imm then
        some (BitFields.pack immLayout
          (immFields (BitVec.ofInt 4 cfId) rd rs1 (BitVec.ofInt 8 imm)))
      else none

/-- The instruction whose fixed bits the word has. -/
def disassemble (word : Word) : Option Insn :=
  let reg := BitFields.unpack regLayout word
  let imm := BitFields.unpack immLayout word
  if reg.1 = opcCustom0 then
    let cfId := BitFields.pack cfIdLayout (reg.2.2.1, reg.2.2.2.2.2.1, ())
    some (.cfuReg cfId.toNat reg.2.1 reg.2.2.2.1 reg.2.2.2.2.1)
  else if imm.1 = opcCustom1 ∧ imm.2.2.1 = 0 then
    some (.cfuImm imm.2.2.2.2.1.toNat imm.2.1 imm.2.2.2.1
      imm.2.2.2.2.2.1.toNat)
  else none

example : assemble (.cfuReg 1020 0 10 11) = some 0xFEB5400B := by decide

example : disassemble 0xFEB5400B = some (.cfuReg 1020 0 10 11) := by decide

/-! ## Operands in range -/

/-- The operands in range are the values of an immediate field. -/
theorem isUInt_iff {n : Nat} {imm : Int} :
    isUInt n imm = true ↔ ((BitVec.ofInt n imm).toNat : Int) = imm := by
  have positive : (0 : Int) < (2 ^ n : Nat) :=
    Int.natCast_pos.mpr (Nat.two_pow_pos n)
  have nonneg := Int.emod_nonneg imm (Int.ne_of_gt positive)
  have below := Int.emod_lt_of_pos imm positive
  rw [BitVec.toNat_ofInt, Int.toNat_of_nonneg nonneg]
  simp only [isUInt, decide_eq_true_eq]
  constructor
  · intro inRange
    exact Int.emod_eq_of_lt inRange.1 (by omega)
  · intro unchanged
    omega

private theorem ofInt_toNat {n : Nat} (field : BitVec n) :
    BitVec.ofInt n field.toNat = field := by
  rw [BitVec.ofInt_natCast, BitVec.ofNat_toNat, BitVec.setWidth_eq]

private theorem isUInt_iff_lt {n bound : Nat} (boundEq : 2 ^ n = bound)
    {imm : Int} :
    isUInt n imm = true ↔ 0 ≤ imm ∧ imm < bound := by
  subst boundEq
  simp only [isUInt, decide_eq_true_eq]
  omega

def Insn.Fits : Insn → Prop
  | .cfuReg cfId _ _ _ => 0 ≤ cfId ∧ cfId < maxCfIds
  | .cfuImm cfId _ _ imm => (0 ≤ cfId ∧ cfId < 16) ∧ 0 ≤ imm ∧ imm < 256

/-! ## The words of an instruction -/

/-- The fields that the words of an instruction have. -/
def Insn.Encodes (word : Word) : Insn → Prop
  | .cfuReg cfId rd rs1 rs2 => ∃ id : BitVec 10, cfId = id.toNat ∧
      BitFields.unpack regLayout word = regFields id rd rs1 rs2
  | .cfuImm cfId rd rs1 imm => ∃ id : BitVec 4, ∃ value : BitVec 8,
      cfId = id.toNat ∧ imm = value.toNat ∧
      BitFields.unpack immLayout word = immFields id rd rs1 value

private theorem assemble_iff {insn : Insn} {word : Word} :
    assemble insn = some word ↔ insn.Encodes word := by
  cases insn with
  | cfuReg cfId rd rs1 rs2 =>
      constructor
      · intro assembled
        rw [assemble] at assembled
        split at assembled
        · rename_i inRange
          refine ⟨BitVec.ofInt 10 cfId, (isUInt_iff.mp inRange).symm, ?_⟩
          exact (BitFields.pack_eq_iff.mp (Option.some.inj assembled)).symm
        · cases assembled
      · rintro ⟨id, rfl, fields⟩
        have inRange : isUInt 10 id.toNat = true := by
          rw [isUInt_iff, ofInt_toNat]
        rw [assemble, if_pos inRange, ofInt_toNat, ← fields]
        exact congrArg some (BitFields.pack_unpack regLayout word)
  | cfuImm cfId rd rs1 imm =>
      constructor
      · intro assembled
        rw [assemble] at assembled
        split at assembled
        · rename_i inRange
          refine ⟨BitVec.ofInt 4 cfId, BitVec.ofInt 8 imm,
            (isUInt_iff.mp inRange.1).symm, (isUInt_iff.mp inRange.2).symm, ?_⟩
          exact (BitFields.pack_eq_iff.mp (Option.some.inj assembled)).symm
        · cases assembled
      · rintro ⟨id, value, rfl, rfl, fields⟩
        have inRange : isUInt 4 id.toNat = true ∧
            isUInt 8 value.toNat = true := by
          rw [isUInt_iff, isUInt_iff, ofInt_toNat, ofInt_toNat]
          exact ⟨rfl, rfl⟩
        rw [assemble, if_pos inRange, ofInt_toNat, ofInt_toNat, ← fields]
        exact congrArg some (BitFields.pack_unpack immLayout word)

private theorem opcode_eq (word : Word) :
    (BitFields.unpack regLayout word).1 =
      (BitFields.unpack immLayout word).1 := rfl

private theorem regFields_pack (low : BitVec 3) (high : BitVec 7)
    (rd rs1 rs2 : Gpr) :
    regFields (BitFields.pack cfIdLayout (low, high, ())) rd rs1 rs2 =
      (opcCustom0, rd, low, rs1, rs2, high, ()) := by
  have parts := BitFields.unpack_pack cfIdLayout (low, high, ())
  exact congrArg (fun parts : BitFields.Fields cfIdLayout =>
    ((opcCustom0, rd, parts.1, rs1, rs2, parts.2.1, ()) :
      BitFields.Fields regLayout)) parts

private theorem disassemble_iff {insn : Insn} {word : Word} :
    disassemble word = some insn ↔ insn.Encodes word := by
  constructor
  · intro read
    rw [disassemble] at read
    split at read
    · rename_i isReg
      cases read
      refine ⟨_, rfl, ?_⟩
      rw [regFields_pack, ← isReg]
      rfl
    · split at read
      · rename_i isImm
        cases read
        refine ⟨_, _, rfl, rfl, ?_⟩
        rw [immFields, ← isImm.1, ← isImm.2]
        rfl
      · cases read
  · intro encodes
    cases insn with
    | cfuReg cfId rd rs1 rs2 =>
        obtain ⟨id, rfl, fields⟩ := encodes
        have whole := BitFields.pack_unpack cfIdLayout id
        simp only [disassemble, fields, regFields, if_true]
        exact congrArg
          (fun id : BitVec 10 => some (Insn.cfuReg id.toNat rd rs1 rs2)) whole
    | cfuImm cfId rd rs1 imm =>
        obtain ⟨id, value, rfl, rfl, fields⟩ := encodes
        have other : (BitFields.unpack regLayout word).1 ≠ opcCustom0 := by
          rw [opcode_eq, fields]
          change opcCustom1 ≠ opcCustom0
          decide
        simp only [disassemble, if_neg other, fields, immFields, and_self,
          if_true]

private theorem assemble_isSome_iff {insn : Insn} :
    (assemble insn).isSome ↔ insn.Fits := by
  cases insn with
  | cfuReg cfId rd rs1 rs2 =>
      have fits := @isUInt_iff_lt 10 maxCfIds rfl cfId
      by_cases inRange : isUInt 10 cfId = true
      · rw [assemble, if_pos inRange]
        exact iff_of_true rfl (fits.mp inRange)
      · rw [assemble, if_neg inRange]
        exact iff_of_false Bool.false_ne_true fun both => inRange (fits.mpr both)
  | cfuImm cfId rd rs1 imm =>
      have fits := and_congr (@isUInt_iff_lt 4 16 rfl cfId)
        (@isUInt_iff_lt 8 256 rfl imm)
      by_cases inRange : isUInt 4 cfId = true ∧ isUInt 8 imm = true
      · rw [assemble, if_pos inRange]
        exact iff_of_true rfl (fits.mp inRange)
      · rw [assemble, if_neg inRange]
        exact iff_of_false Bool.false_ne_true fun both => inRange (fits.mpr both)

/-- What the assembler accepts are the instructions whose operands fit, each has
one word, and disassembling a word gives the only instruction that assembles to
it. -/
theorem assemble_disassemble (insn : Insn) (word : Word) :
    (assemble insn = some word ↔ disassemble word = some insn) ∧
      ((∃ word, assemble insn = some word) ↔ insn.Fits) := by
  constructor
  · rw [assemble_iff, disassemble_iff]
  · rw [← assemble_isSome_iff, Option.isSome_iff_exists]

end CxRuntime.Cfu
