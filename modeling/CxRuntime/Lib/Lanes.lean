import CxRuntime.Lib.Loop
import Mathlib.Tactic.Positivity
import Mathlib.Tactic.Ring

/-!
# Packed lanes

A word read as lanes of equal width, lane 0 lowest.  `pack` is what a loop
builds that widens each lane value by its sign, shifts it into place and keeps
the bits under a mask that moves along; the mask drops the copied sign bits, so
the lanes of the packed word are the given values.
-/

namespace Lanes

variable {total width : Nat}

def lane (width : Nat) (word : BitVec total) (index : Nat) : BitVec width :=
  word.extractLsb' (index * width) width

/-- The bits of one lane. -/
def mask (total width index : Nat) : BitVec total :=
  (BitVec.allOnes width).setWidth total <<< (index * width)

/-- A sign-extended value shifted into its lane, under the mask of the lane. -/
def placed (total index : Nat) (value : BitVec width) : BitVec total :=
  (value.signExtend total <<< (index * width)) &&& mask total width index

/-- The values of the lanes below `count`, or-ed together. -/
def pack (total : Nat) (value : Nat → BitVec width) : Nat → BitVec total
  | 0 => 0
  | count + 1 => pack total value count ||| placed total count (value count)

theorem mask_shiftLeft (total width index : Nat) :
    mask total width index <<< width = mask total width (index + 1) := by
  rw [mask, mask, ← BitVec.shiftLeft_add, Nat.succ_mul]

theorem getLsbD_mask (total width index bit : Nat) :
    (mask total width index).getLsbD bit =
      decide (bit < total ∧ index * width ≤ bit ∧ bit < (index + 1) * width) := by
  simp only [mask, BitVec.getLsbD_shiftLeft, BitVec.getLsbD_setWidth,
    BitVec.getLsbD_allOnes, Nat.succ_mul]
  by_cases inWord : bit < total
  · by_cases past : bit < index * width
    · have outside : ¬index * width ≤ bit := Nat.not_le.mpr past
      simp [past, outside]
    · have inside : index * width ≤ bit := Nat.not_lt.mp past
      have inTotal : bit - index * width < total := by omega
      have sameBound : bit - index * width < width ↔
          bit < index * width + width := by omega
      simp [inWord, past, inside, inTotal, sameBound]
  · simp [inWord]

/-- A placed value shows its own bits inside its lane and none elsewhere. -/
theorem getLsbD_placed (total index : Nat) (value : BitVec width) (bit : Nat) :
    (placed total index value).getLsbD bit =
      (decide (bit < total ∧ index * width ≤ bit ∧ bit < (index + 1) * width) &&
        value.getLsbD (bit - index * width)) := by
  simp only [placed, BitVec.getLsbD_and, getLsbD_mask, BitVec.getLsbD_shiftLeft,
    BitVec.getLsbD_signExtend]
  by_cases inLane :
      bit < total ∧ index * width ≤ bit ∧ bit < (index + 1) * width
  · obtain ⟨inWord, start, stop⟩ := inLane
    rw [Nat.succ_mul] at stop
    have notBefore : ¬bit < index * width := Nat.not_lt.mpr start
    have inTotal : bit - index * width < total := by omega
    have inValue : bit - index * width < width := by omega
    simp [inWord, start, Nat.succ_mul, stop, notBefore, inTotal, inValue]
  · simp [inLane]

/-- Bits past the packed lanes are clear. -/
theorem getLsbD_pack_above (value : Nat → BitVec width) {count bit : Nat}
    (past : count * width ≤ bit) :
    (pack total value count).getLsbD bit = false := by
  induction count with
  | zero => exact BitVec.getLsbD_zero
  | succ count induction =>
      rw [Nat.succ_mul] at past
      have outside : ¬(bit < total ∧ count * width ≤ bit ∧
          bit < (count + 1) * width) := by
        rw [Nat.succ_mul]
        omega
      simp only [pack, BitVec.getLsbD_or, getLsbD_placed]
      rw [induction (by omega), decide_eq_false outside, Bool.false_and,
        Bool.or_false]

/-- A packed word shows the bits of its lane values. -/
theorem getLsbD_pack (value : Nat → BitVec width) {count index offset : Nat}
    (below : index < count) (inLane : offset < width)
    (fits : count * width ≤ total) :
    (pack total value count).getLsbD (index * width + offset) =
      (value index).getLsbD offset := by
  induction count with
  | zero => exact absurd below (Nat.not_lt_zero index)
  | succ count induction =>
      rw [Nat.succ_mul] at fits
      simp only [pack, BitVec.getLsbD_or, getLsbD_placed]
      by_cases last : index = count
      · subst last
        have earlier : (pack total value index).getLsbD
            (index * width + offset) = false := by
          apply getLsbD_pack_above
          exact Nat.le_add_right ..
        have bounds : index * width + offset < total ∧
            index * width ≤ index * width + offset ∧
            index * width + offset < (index + 1) * width := by
          rw [Nat.succ_mul]
          omega
        rw [earlier, decide_eq_true bounds, Nat.add_sub_cancel_left,
          Bool.false_or, Bool.true_and]
      · have earlier : index < count := by omega
        have atMost : (index + 1) * width ≤ count * width :=
          Nat.mul_le_mul_right width earlier
        rw [Nat.succ_mul] at atMost
        have outside : ¬(index * width + offset < total ∧
            count * width ≤ index * width + offset ∧
            index * width + offset < (count + 1) * width) := by omega
        rw [induction earlier (by omega), decide_eq_false outside,
          Bool.false_and, Bool.or_false]

theorem lane_pack (value : Nat → BitVec width) {count index : Nat}
    (below : index < count) (fits : count * width ≤ total) :
    lane width (pack total value count) index = value index := by
  apply BitVec.eq_of_getLsbD_eq
  intro offset inLane
  rw [lane, BitVec.getLsbD_extractLsb', decide_eq_true inLane, Bool.true_and,
    getLsbD_pack value below inLane fits]

/-- The loop that packs lane values under a moving mask. -/
theorem forUpTo_pack {lane : Nat → Option (BitVec width)}
    {value : Nat → BitVec width} (count : Nat)
    (defined : ∀ index, index < count → lane index = some (value index)) :
    Loop.forUpTo count
        (fun index (packed : BitVec total × BitVec total) =>
          (lane index).map fun (result : BitVec width) =>
            (packed.1 |||
              (result.signExtend total <<< (index * width)) &&& packed.2,
              packed.2 <<< width))
        (0, mask total width 0) =
      some (pack total value count, mask total width count) := by
  induction count with
  | zero => rfl
  | succ count induction =>
      have before := induction fun index below =>
        defined index (Nat.lt_succ_of_lt below)
      rw [Loop.forUpTo_succ, before, Option.bind_some,
        defined count (Nat.lt_succ_self count), Option.map_some,
        mask_shiftLeft]
      rfl

/-! ## The number that the lanes spell -/

/-- The number whose digits to base `2^width` are the given values, each reduced
to its lane. -/
def joined (width : Nat) (value : Nat → Int) : Nat → Int
  | 0 => 0
  | count + 1 =>
      joined width value count + value count % 2 ^ width * 2 ^ (count * width)

theorem toNat_pack_lt (value : Nat → BitVec width) (count : Nat) :
    (pack total value count).toNat < 2 ^ (count * width) := by
  apply Nat.lt_pow_two_of_testBit
  intro bit past
  exact getLsbD_pack_above value past

theorem toNat_placed {index : Nat} (value : BitVec width)
    (fits : (index + 1) * width ≤ total) :
    (placed total index value).toNat = value.toNat <<< (index * width) := by
  apply Nat.eq_of_testBit_eq
  intro bit
  have placedBit := getLsbD_placed total index value bit
  rw [BitVec.getLsbD, Nat.succ_mul] at placedBit
  rw [Nat.succ_mul] at fits
  rw [placedBit, Nat.testBit_shiftLeft]
  by_cases start : index * width ≤ bit
  · by_cases stop : bit < index * width + width
    · have inWord : bit < total := by omega
      simp [start, stop, inWord, BitVec.testBit_toNat]
    · have past : width ≤ bit - index * width := by omega
      simp [stop, BitVec.getLsbD_of_ge value _ past, BitVec.testBit_toNat]
  · simp [start]

theorem toNat_pack_ofInt (value : Nat → Int) {count : Nat}
    (fits : count * width ≤ total) :
    ((pack total (fun index => BitVec.ofInt width (value index)) count).toNat :
      Int) = joined width value count := by
  induction count with
  | zero => simp [pack, joined]
  | succ count induction =>
      have fewer : count * width ≤ total := by
        rw [Nat.succ_mul] at fits
        omega
      have digit : ((BitVec.ofInt width (value count)).toNat : Int) =
          value count % 2 ^ width := by
        rw [BitVec.toNat_ofInt, Int.toNat_of_nonneg]
        · push_cast
          rfl
        · apply Int.emod_nonneg
          positivity
      rw [pack, BitVec.toNat_or, toNat_placed _ fits, Nat.or_comm,
        ← Nat.shiftLeft_add_eq_or_of_lt (toNat_pack_lt _ count),
        Nat.shiftLeft_eq, joined, ← induction fewer, ← digit]
      push_cast
      ring

end Lanes
