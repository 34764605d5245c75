import CxRuntime.Utils

/-!
# Sentinel results

The return values that `utils.h` reserves for signalling flags.  They are the
18 largest and the 19 smallest values of `int32_t`, which modulo `2^32` is one
window around `2^31`.
-/

namespace CxRuntime

/-- The `FUNC_SENTINEL_*` constants. -/
inductive FuncSentinel
  | opPos
  | ifInvalidRet0
  | cuCustomBit (n : Fin 32)
  | opNeg
  | opDomain
  | ifInvalidRetNeg1

namespace FuncSentinel

def word : FuncSentinel → Word
  | opPos => 0x7FFFFFFF
  | ifInvalidRet0 => 0x7FFFFFFE
  | cuCustomBit n =>
      if n.val < 16 then 0x7FFFFFFD - BitVec.ofNat 32 n
      else 0x80000002 + BitVec.ofNat 32 (n - 16)
  | opNeg => 0x80000000
  | opDomain => 0x80000001
  | ifInvalidRetNeg1 => 0x80000012

end FuncSentinel

/-- The runtime reads this result as a signal. -/
def IsSentinel (word : Word) : Prop := ∃ sentinel : FuncSentinel, sentinel.word = word

/-- The exact value of a result lies within 18 of an odd multiple of `2^31`, where
the `int32_t` range wraps around. -/
def NearLimit (exact : Int) : Prop := (exact + 2147483666) % 4294967296 ≤ 36

instance (exact : Int) : Decidable (NearLimit exact) :=
  inferInstanceAs (Decidable (_ ≤ _))

private theorem FuncSentinel.cuCustomBit_low {n : Fin 32} (low : n.val < 16) :
    (cuCustomBit n).word.toNat = 0x7FFFFFFD - n.val := by
  simp only [word, if_pos low]
  bv_omega

private theorem FuncSentinel.cuCustomBit_high {n : Fin 32} (high : 16 ≤ n.val) :
    (cuCustomBit n).word.toNat = 0x80000002 + (n.val - 16) := by
  have below : n.val < 32 := n.isLt
  simp only [word, if_neg (Nat.not_lt.mpr high)]
  bv_omega

/-- The sentinels fill the window. -/
theorem isSentinel_iff_toNat (word : Word) :
    IsSentinel word ↔
      0x7FFFFFEE ≤ word.toNat ∧ word.toNat ≤ 0x80000012 := by
  constructor
  · intro isSentinel
    obtain ⟨sentinel, rfl⟩ := isSentinel
    cases sentinel with
    | cuCustomBit n =>
        rcases Nat.lt_or_ge n.val 16 with low | high
        · have value := FuncSentinel.cuCustomBit_low low
          omega
        · have value := FuncSentinel.cuCustomBit_high high
          omega
    | _ => decide
  · intro bounds
    obtain ⟨least, most⟩ := bounds
    have named : ∀ sentinel : FuncSentinel,
        sentinel.word.toNat = word.toNat → IsSentinel word :=
      fun sentinel same => ⟨sentinel, BitVec.eq_of_toNat_eq same⟩
    rcases Nat.lt_or_ge word.toNat 0x7FFFFFFE with custom | positive
    · have below : 0x7FFFFFFD - word.toNat < 32 := by omega
      apply named (.cuCustomBit ⟨0x7FFFFFFD - word.toNat, below⟩)
      rw [FuncSentinel.cuCustomBit_low (by dsimp only; omega)]
      dsimp only
      omega
    rcases Nat.lt_or_ge word.toNat 0x80000002 with plain | custom
    · have cases : word.toNat = 0x7FFFFFFE ∨ word.toNat = 0x7FFFFFFF ∨
          word.toNat = 0x80000000 ∨ word.toNat = 0x80000001 := by omega
      rcases cases with same | same | same | same
      · exact named .ifInvalidRet0 same.symm
      · exact named .opPos same.symm
      · exact named .opNeg same.symm
      · exact named .opDomain same.symm
    rcases Nat.lt_or_ge word.toNat 0x80000012 with inner | last
    · have below : word.toNat - 0x80000002 + 16 < 32 := by omega
      apply named (.cuCustomBit ⟨word.toNat - 0x80000002 + 16, below⟩)
      rw [FuncSentinel.cuCustomBit_high (by dsimp only; omega)]
      dsimp only
      omega
    · have same : word.toNat = 0x80000012 := by omega
      exact named .ifInvalidRetNeg1 same.symm

/-- A wrapped result collides with a sentinel exactly near the limits. -/
theorem isSentinel_ofInt (exact : Int) :
    IsSentinel (BitVec.ofInt 32 exact) ↔ NearLimit exact := by
  rw [isSentinel_iff_toNat, NearLimit, BitVec.toNat_ofInt]
  omega

theorem isSentinel_iff_natCast (word : Word) :
    IsSentinel word ↔ NearLimit word.toNat := by
  have small : word.toNat < 2 ^ 32 := word.isLt
  rw [isSentinel_iff_toNat, NearLimit]
  omega

theorem isSentinel_iff_nearLimit (word : Word) :
    IsSentinel word ↔ NearLimit word.toInt := by
  rw [← isSentinel_ofInt, BitVec.ofInt_toInt]

end CxRuntime
