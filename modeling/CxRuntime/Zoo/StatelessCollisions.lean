import CxRuntime.Zoo.Pext
import CxRuntime.Zoo.Stateless

/-!
# Sentinels among the results of the stateless CXUs

For each function the operands on which its result is a reserved value, in exact
integer arithmetic.
-/

namespace CxRuntime

/-- The function returns no reserved value on these operands. -/
def StatelessFunc.UnreservedAt (func : StatelessFunc) (a b : Word) : Prop :=
  ∀ result, func a b = some result → ¬IsSentinel result

theorem StatelessFunc.unreservedAt_iff {func : StatelessFunc} {a b result : Word}
    (returned : func a b = some result) :
    func.UnreservedAt a b ↔ ¬IsSentinel result := by
  constructor
  · intro unreserved
    exact unreserved result returned
  · intro notSentinel other alsoReturned
    obtain rfl := Option.some.inj (returned.symm.trans alsoReturned)
    exact notSentinel

theorem StatelessFunc.unreservedAt_of_none {func : StatelessFunc} {a b : Word}
    (absent : func a b = none) : func.UnreservedAt a b := by
  intro result returned
  rw [absent] at returned
  cases returned

/-- The entry, if there is one, returns no reserved value on these operands. -/
def UnreservedEntry (slot : Option StatelessFunc) (a b : Word) : Prop :=
  ∀ func, slot = some func → func.UnreservedAt a b

theorem UnreservedEntry.some_iff {func : StatelessFunc} {a b : Word} :
    UnreservedEntry (some func) a b ↔ func.UnreservedAt a b := by
  constructor
  · intro entry
    exact entry func rfl
  · rintro unreserved _ ⟨⟩
    exact unreserved

theorem UnreservedEntry.none (a b : Word) : UnreservedEntry none a b :=
  fun _ absent => nomatch absent

private theorem isSentinel_add (left right : Word) :
    IsSentinel (left + right) ↔ NearLimit (left.toInt + right.toInt) := by
  rw [← isSentinel_ofInt, BitVec.ofInt_add, BitVec.ofInt_toInt,
    BitVec.ofInt_toInt]

private theorem isSentinel_sub (left right : Word) :
    IsSentinel (left - right) ↔ NearLimit (left.toInt - right.toInt) := by
  rw [← isSentinel_ofInt, Int.sub_eq_add_neg, BitVec.ofInt_add,
    BitVec.ofInt_neg, BitVec.ofInt_toInt, BitVec.ofInt_toInt,
    BitVec.sub_eq_add_neg]

private theorem isSentinel_mul (left right : Word) :
    IsSentinel (left * right) ↔ NearLimit (left.toInt * right.toInt) := by
  rw [← isSentinel_ofInt, BitVec.ofInt_mul, BitVec.ofInt_toInt,
    BitVec.ofInt_toInt]

theorem isSentinel_addMul (acc left right : Word) :
    IsSentinel (acc + left * right) ↔
      NearLimit (acc.toInt + left.toInt * right.toInt) := by
  rw [← isSentinel_ofInt, BitVec.ofInt_add, BitVec.ofInt_mul,
    BitVec.ofInt_toInt, BitVec.ofInt_toInt, BitVec.ofInt_toInt]

/-! ## Multiplication and division -/

namespace Muldiv

/-- Only a division by 1 or -1 leaves a dividend near the limits. -/
def Collides (cfId : Nat) (a b : Word) : Prop :=
  match cfId with
  | 0 => NearLimit (a.toInt * b.toInt)
  | 1 => ¬DivUndefined a b ∧ (b = 1 ∨ b = -1) ∧ NearLimit a.toInt
  | _ => False

private theorem natAbs_tdiv_le {dividend divisor : Int}
    (large : 2 ≤ divisor.natAbs) :
    2 * (dividend.tdiv divisor).natAbs ≤ dividend.natAbs := by
  have atMost : dividend.natAbs / divisor.natAbs ≤ dividend.natAbs / 2 :=
    Nat.div_le_div_left large (by decide)
  have quotient : (dividend.tdiv divisor).natAbs =
      dividend.natAbs / divisor.natAbs := Int.natAbs_tdiv ..
  omega

private theorem isSentinel_sdiv {a b : Word} (defined : ¬DivUndefined a b) :
    IsSentinel (a.sdiv b) ↔ (b = 1 ∨ b = -1) ∧ NearLimit a.toInt := by
  have notZero : b.toInt ≠ 0 := by
    intro isZero
    exact defined (Or.inl (BitVec.eq_of_toInt_eq isZero))
  have noOverflow : a ≠ BitVec.intMin 32 ∨ b ≠ -1 := by
    by_contra overflow
    obtain ⟨isMin, isMinusOne⟩ := not_or.mp overflow
    exact defined (Or.inr ⟨not_not.mp isMin, not_not.mp isMinusOne⟩)
  rw [isSentinel_iff_nearLimit, BitVec.toInt_sdiv_of_ne_or_ne a b noOverflow]
  have lower : -2147483648 ≤ a.toInt := BitVec.le_toInt a
  have upper : a.toInt < 2147483648 := BitVec.toInt_lt
  by_cases large : 2 ≤ b.toInt.natAbs
  · have half := @natAbs_tdiv_le a.toInt b.toInt large
    have notOne : ¬(b = 1 ∨ b = -1) := by
      rintro (rfl | rfl)
      · exact absurd large (by decide)
      · exact absurd large (by decide)
    simp only [notOne, false_and, iff_false, NearLimit]
    omega
  · have unit : b.toInt = 1 ∨ b.toInt = -1 := by omega
    rcases unit with isOne | isMinusOne
    · have same : b = 1 := BitVec.eq_of_toInt_eq isOne
      rw [isOne, Int.tdiv_one]
      simp only [same, true_or, true_and]
    · have same : b = -1 := BitVec.eq_of_toInt_eq isMinusOne
      rw [isMinusOne, Int.tdiv_neg, Int.tdiv_one]
      simp only [same, or_true, true_and, NearLimit]
      omega

theorem unreserved_iff (cfId : Nat) (a b : Word) :
    UnreservedEntry (cxFuncMuldiv cfId) a b ↔ ¬Collides cfId a b := by
  match cfId with
  | 0 =>
      apply UnreservedEntry.some_iff.trans
      rw [StatelessFunc.unreservedAt_iff rfl, isSentinel_mul]
      rfl
  | 1 =>
      apply UnreservedEntry.some_iff.trans
      by_cases undefined : DivUndefined a b
      · have unreserved : StatelessFunc.UnreservedAt divFunc a b :=
          StatelessFunc.unreservedAt_of_none (if_pos undefined)
        have noCollision : ¬Collides 1 a b := fun collides =>
          collides.1 undefined
        exact iff_of_true unreserved noCollision
      · have returned : divFunc a b = some (a.sdiv b) := if_neg undefined
        rw [StatelessFunc.unreservedAt_iff returned, isSentinel_sdiv undefined]
        simp only [Collides, undefined, not_false_eq_true, true_and]
  | cfId + 2 => exact iff_of_true (UnreservedEntry.none a b) not_false

end Muldiv

/-! ## Addition and subtraction -/

namespace Addsub

/-- The entries that return a reserved value on purpose. -/
def Signals (cfId : Nat) : Prop := cfId = 3 ∨ cfId = 5 ∨ cfId = 6

def Collides (cfId : Nat) (a b : Word) : Prop :=
  match cfId with
  | 0 => NearLimit (a.toInt + b.toInt)
  | 2 => NearLimit (a.toInt - b.toInt)
  | 4 => NearLimit (a.toInt + b.toInt + 1000)
  | _ => False

private theorem isSentinel_add1000 (a b : Word) :
    IsSentinel (a + b + 1000) ↔ NearLimit (a.toInt + b.toInt + 1000) := by
  have thousand : (1000 : Word) = BitVec.ofInt 32 1000 := rfl
  rw [← isSentinel_ofInt, BitVec.ofInt_add, BitVec.ofInt_add,
    BitVec.ofInt_toInt, BitVec.ofInt_toInt, thousand]

theorem unreserved_iff {cfId : Nat} (silent : ¬Signals cfId) (a b : Word) :
    UnreservedEntry (cxFuncAddsub cfId) a b ↔ ¬Collides cfId a b := by
  match cfId with
  | 0 =>
      apply UnreservedEntry.some_iff.trans
      rw [StatelessFunc.unreservedAt_iff rfl, isSentinel_add]
      rfl
  | 1 => exact iff_of_true (UnreservedEntry.none a b) not_false
  | 2 =>
      apply UnreservedEntry.some_iff.trans
      rw [StatelessFunc.unreservedAt_iff rfl, isSentinel_sub]
      rfl
  | 3 => exact absurd (Or.inl rfl) silent
  | 4 =>
      apply UnreservedEntry.some_iff.trans
      rw [StatelessFunc.unreservedAt_iff rfl, isSentinel_add1000]
      rfl
  | 5 => exact absurd (Or.inr (Or.inl rfl)) silent
  | 6 => exact absurd (Or.inr (Or.inr rfl)) silent
  | cfId + 7 => exact iff_of_true (UnreservedEntry.none a b) not_false

end Addsub

/-! ## The greater operand -/

namespace Max

def Collides (cfId : Nat) (a b : Word) : Prop :=
  cfId = 0 ∧ NearLimit (max a.toInt b.toInt)

private theorem toInt_greater (a b : Word) :
    (if b.slt a then a else b).toInt = max a.toInt b.toInt := by
  rw [BitVec.slt_eq_decide]
  split
  · rename_i less
    have below := of_decide_eq_true less
    omega
  · rename_i notLess
    have above : ¬b.toInt < a.toInt := fun below =>
      notLess (decide_eq_true below)
    omega

theorem unreserved_iff (cfId : Nat) (a b : Word) :
    UnreservedEntry (cxFuncMax cfId) a b ↔ ¬Collides cfId a b := by
  match cfId with
  | 0 =>
      apply UnreservedEntry.some_iff.trans
      rw [StatelessFunc.unreservedAt_iff rfl, isSentinel_iff_nearLimit,
        toInt_greater]
      simp only [Collides, true_and]
  | cfId + 1 =>
      have noCollision : ¬Collides (cfId + 1) a b := fun collides =>
        absurd collides.1 (Nat.succ_ne_zero cfId)
      exact iff_of_true (UnreservedEntry.none a b) noCollision

end Max

/-! ## Packed lanes -/

namespace Pext

open Lanes

theorem isSentinel_pack {width : Nat} (value : Nat → Int) {count : Nat}
    (fits : count * width ≤ 32) :
    IsSentinel (pack 32 (fun i => BitVec.ofInt width (value i)) count) ↔
      NearLimit (joined width value count) := by
  rw [isSentinel_iff_natCast, toNat_pack_ofInt value fits]

/-- The exact lane values of each function. -/
def sumLane (width : Nat) (a b : Word) (i : Nat) : Int :=
  (lane width a i).toInt + (lane width b i).toInt

def productLane (width : Nat) (a b : Word) (i : Nat) : Int :=
  (lane width a i).toInt * (lane width b i).toInt

def shiftedLane (width : Nat) (a : Word) (count i : Nat) : Int :=
  (lane width a i).toInt / 2 ^ count

/-- The lanes join to a number near the limits. -/
def Collides (cfId : Nat) (a b : Word) : Prop :=
  match cfId with
  | 0 => NearLimit (joined 16 (sumLane 16 a b) 2)
  | 1 => (b &&& 0xFF).toNat < 32 ∧
      NearLimit (joined 16 (shiftedLane 16 a (b &&& 0xFF).toNat) 2)
  | 2 => NearLimit (joined 16 (productLane 16 a b) 2)
  | 3 => NearLimit (joined 8 (sumLane 8 a b) 4)
  | 4 => NearLimit (joined 8 (shiftedLane 8 a (b &&& 0xF).toNat) 4)
  | 5 => NearLimit (joined 8 (productLane 8 a b) 4)
  | _ => False

private theorem sshiftRight_eq {width : Nat} (value : BitVec width)
    (count : Nat) :
    value.sshiftRight count = BitVec.ofInt width (value.toInt / 2 ^ count) := by
  rw [← @BitVec.ofInt_toInt width (value.sshiftRight count),
    BitVec.toInt_sshiftRight, Int.shiftRight_eq_div_pow]
  push_cast
  rfl

/-- A lane operation that is exact up to the width of a lane. -/
theorem unreserved_combine {width : Nat} (narrow : width < 32) {firstMask : Word}
    (isMask : firstMask = mask 32 width 0) (op : Word → Word → Word)
    (exact : Int → Int → Int)
    (narrowed : ∀ left right : BitVec width,
      (op (left.signExtend 32) (right.signExtend 32)).setWidth width =
        BitVec.ofInt width (exact left.toInt right.toInt))
    (a b : Word) :
    StatelessFunc.UnreservedAt
        (combineFunc width firstMask (getBits .int) op) a b ↔
      ¬NearLimit (joined width
        (fun i => exact (lane width a i).toInt (lane width b i).toInt)
        (xlen / width)) := by
  have returned := combineFunc_eq narrow isMask op a b
  simp only [narrowed] at returned
  rw [StatelessFunc.unreservedAt_iff returned]
  exact not_congr (isSentinel_pack _ (Nat.div_mul_le_self xlen width))

private theorem unreserved_shift {width : Nat} (narrow : width < 32)
    {firstMask : Word}
    (isMask : firstMask = mask 32 width 0) (keep a : Word) {sa : Word}
    (counted : (sa &&& keep).toNat < 32) :
    StatelessFunc.UnreservedAt (sraFunc width firstMask keep) a sa ↔
      ¬NearLimit (joined width (shiftedLane width a (sa &&& keep).toNat)
        (xlen / width)) := by
  have returned := sraFunc_eq narrow isMask keep a counted
  simp only [sshiftRight_eq] at returned
  rw [StatelessFunc.unreservedAt_iff returned]
  exact not_congr (isSentinel_pack (shiftedLane width a _)
    (Nat.div_mul_le_self xlen width))

theorem unreserved_iff (cfId : Nat) (a b : Word) :
    UnreservedEntry (cxFuncPext cfId) a b ↔ ¬Collides cfId a b := by
  match cfId with
  | 0 =>
      apply UnreservedEntry.some_iff.trans
      exact unreserved_combine (by decide) firstMask16 _ (fun x y => x + y)
        (narrowed_sum (by decide)) a b
  | 1 =>
      apply UnreservedEntry.some_iff.trans
      by_cases counted : (b &&& 0xFF).toNat < 32
      · simp only [Collides, counted, true_and]
        exact unreserved_shift (by decide) firstMask16 0xFF a counted
      · have unreserved : StatelessFunc.UnreservedAt sra16Func a b :=
          StatelessFunc.unreservedAt_of_none
            (sraFunc_undefined (by decide) (by decide) _ _ _ counted)
        have noCollision : ¬Collides 1 a b := fun collides =>
          counted collides.1
        exact iff_of_true unreserved noCollision
  | 2 =>
      apply UnreservedEntry.some_iff.trans
      exact unreserved_combine (by decide) firstMask16 _ (fun x y => x * y)
        (narrowed_product (by decide)) a b
  | 3 =>
      apply UnreservedEntry.some_iff.trans
      exact unreserved_combine (by decide) firstMask8 _ (fun x y => x + y)
        (narrowed_sum (by decide)) a b
  | 4 =>
      apply UnreservedEntry.some_iff.trans
      have counted : (b &&& 0xF).toNat < 32 := by
        rw [sra8_count]
        omega
      exact unreserved_shift (by decide) firstMask8 0xF a counted
  | 5 =>
      apply UnreservedEntry.some_iff.trans
      exact unreserved_combine (by decide) firstMask8 _ (fun x y => x * y)
        (narrowed_product (by decide)) a b
  | cfId + 6 => exact iff_of_true (UnreservedEntry.none a b) not_false

end Pext

end CxRuntime
