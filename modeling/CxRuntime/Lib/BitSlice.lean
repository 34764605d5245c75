import Mathlib.Tactic.Common

/-!
# Bit slices read by shift and mask

`(word >> start) & ((1 << count) - 1)` reads `count` bits from position `start`.
When the slice lies inside the word this holds for the logical and for the
arithmetic shift alike, since the mask drops every copied sign bit.
-/

namespace BitSlice

variable {width : Nat}

theorem mask_eq {count : Nat} (narrow : count < width) :
    (BitVec.ofNat width 1 <<< count) - BitVec.ofNat width 1 =
      (BitVec.allOnes count).setWidth width := by
  have powLt : 2 ^ count < 2 ^ width :=
    Nat.pow_lt_pow_right (by decide) narrow
  have powPos : 0 < 2 ^ count := Nat.two_pow_pos count
  have one : (BitVec.ofNat width 1).toNat = 1 :=
    BitVec.toNat_one (Nat.zero_lt_of_lt narrow)
  have shifted : (BitVec.ofNat width 1 <<< count).toNat = 2 ^ count := by
    rw [BitVec.toNat_shiftLeft, one, Nat.shiftLeft_eq, Nat.one_mul,
      Nat.mod_eq_of_lt powLt]
  have oneLe : BitVec.ofNat width 1 ≤ BitVec.ofNat width 1 <<< count := by
    rw [BitVec.le_def, shifted, one]
    exact powPos
  apply BitVec.eq_of_toNat_eq
  rw [BitVec.toNat_sub_of_le oneLe, shifted, one, BitVec.toNat_setWidth,
    BitVec.toNat_allOnes, Nat.mod_eq_of_lt (by omega)]

theorem ushiftRight_and_mask (word : BitVec width) {start count : Nat}
    (narrow : count < width) :
    word >>> start &&&
        ((BitVec.ofNat width 1 <<< count) - BitVec.ofNat width 1) =
      (word.extractLsb' start count).setWidth width := by
  rw [mask_eq narrow]
  ext index below
  simp only [BitVec.getElem_and, BitVec.getElem_ushiftRight,
    BitVec.getElem_setWidth, BitVec.getLsbD_allOnes,
    BitVec.getLsbD_extractLsb']
  exact Bool.and_comm _ _

theorem sshiftRight_and_mask (word : BitVec width) {start count : Nat}
    (inside : start + count ≤ width) (narrow : count < width) :
    word.sshiftRight start &&&
        ((BitVec.ofNat width 1 <<< count) - BitVec.ofNat width 1) =
      (word.extractLsb' start count).setWidth width := by
  rw [mask_eq narrow]
  ext index below
  simp only [BitVec.getElem_and, BitVec.getElem_sshiftRight,
    BitVec.getElem_setWidth, BitVec.getLsbD_allOnes,
    BitVec.getLsbD_extractLsb']
  by_cases counted : index < count
  · have inWord : start + index < width := by omega
    rw [dif_pos inWord, ← BitVec.getLsbD_eq_getElem inWord]
    exact Bool.and_comm _ _
  · simp only [decide_eq_false counted, Bool.and_false, Bool.false_and]

end BitSlice
