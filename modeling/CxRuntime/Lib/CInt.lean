import Mathlib.Tactic.Common

/-!
# Checked 32-bit signed arithmetic

Signed overflow, division by zero and `INT_MIN % -1` are undefined in C, so
each operation returns `none` there.  Division truncates towards zero.
-/

namespace CInt

/-- The values of a 32-bit signed integer. -/
def Fits (value : Int) : Prop := -2147483648 ≤ value ∧ value < 2147483648

instance (value : Int) : Decidable (Fits value) :=
  inferInstanceAs (Decidable (_ ∧ _))

def add (left right : Int) : Option Int :=
  if Fits (left + right) then some (left + right) else none

def sub (left right : Int) : Option Int :=
  if Fits (left - right) then some (left - right) else none

def mul (left right : Int) : Option Int :=
  if Fits (left * right) then some (left * right) else none

def mod (left right : Int) : Option Int :=
  if right = 0 ∨ (left = -2147483648 ∧ right = -1) then none
  else some (left.tmod right)

theorem add_natCast {left right : Nat} (small : left + right < 2147483648) :
    add left right = some ((left + right : Nat) : Int) := by
  have fits : Fits ((left : Int) + right) := by
    unfold Fits
    omega
  rw [add, if_pos fits, Int.natCast_add]

theorem mul_natCast {left right : Nat} (small : left * right < 2147483648) :
    mul left right = some ((left * right : Nat) : Int) := by
  have fits : Fits ((left : Int) * right) := by
    unfold Fits
    rw [← Int.natCast_mul]
    omega
  rw [mul, if_pos fits, Int.natCast_mul]

theorem mul_overflow {left right : Nat} (large : 2147483648 ≤ left * right) :
    mul left right = none := by
  have outside : ¬Fits ((left : Int) * right) := by
    unfold Fits
    rw [← Int.natCast_mul]
    omega
  rw [mul, if_neg outside]

theorem add_one {left : Nat} (small : left + 1 < 2147483648) :
    add left 1 = some ((left + 1 : Nat) : Int) := by
  have fits : Fits ((left : Int) + 1) := by
    unfold Fits
    omega
  rw [add, if_pos fits, Int.natCast_add, Int.natCast_one]

theorem sub_one {left : Nat} (small : left < 2147483648) :
    sub left 1 = some ((left : Int) - 1) := by
  have fits : Fits ((left : Int) - 1) := by
    unfold Fits
    omega
  rw [sub, if_pos fits]

/-- On a non-negative dividend and a positive divisor C's remainder is the
ordinary one. -/
theorem mod_natCast {left right : Nat} (positive : 0 < right) :
    mod left right = some ((left % right : Nat) : Int) := by
  have defined :
      ¬((right : Int) = 0 ∨ ((left : Int) = -2147483648 ∧ (right : Int) = -1)) := by
    omega
  rw [mod, if_neg defined, Int.tmod_eq_emod_of_nonneg (by omega),
    Int.natCast_emod]

end CInt
