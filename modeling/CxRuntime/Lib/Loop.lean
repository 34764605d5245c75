import Mathlib.Tactic.Common

/-!
# Counted loops

A counted loop `for (i = 0; i < n; i++)` over a state whose body may fault.  A
fault is `none` and stops the loop.  `forUpTo_total` and `forUpTo_partial` are
the two invariant rules: under the first every iteration succeeds, so the loop
reaches its end; the second only speaks about loops that finish.  A loop one of
whose prefixes faults does not finish.
-/

namespace Loop

variable {τ : Type*}

/-- Run `body 0`, `body 1`, ..., `body (count - 1)` in this order. -/
def forUpTo : Nat → (Nat → τ → Option τ) → τ → Option τ
  | 0, _, start => some start
  | count + 1, body, start => (forUpTo count body start).bind (body count)

theorem forUpTo_succ (count : Nat) (body : Nat → τ → Option τ) (start : τ) :
    forUpTo (count + 1) body start =
      (forUpTo count body start).bind (body count) := rfl

theorem forUpTo_total (body : Nat → τ → Option τ) (start : τ)
    (invariant : Nat → τ → Prop) (initial : invariant 0 start)
    (count : Nat)
    (step : ∀ index state, index < count → invariant index state →
      ∃ next, body index state = some next ∧ invariant (index + 1) next) :
    ∃ final, forUpTo count body start = some final ∧
      invariant count final := by
  induction count with
  | zero => exact ⟨start, rfl, initial⟩
  | succ count induction =>
      obtain ⟨middle, ran, held⟩ := induction (fun index state below =>
        step index state (Nat.lt_succ_of_lt below))
      obtain ⟨final, last, heldFinal⟩ :=
        step count middle (Nat.lt_succ_self count) held
      exact ⟨final, by rw [forUpTo_succ, ran]; exact last, heldFinal⟩

theorem forUpTo_partial {body : Nat → τ → Option τ} {start final : τ}
    (invariant : Nat → τ → Prop) (initial : invariant 0 start)
    (count : Nat)
    (step : ∀ index state next, index < count → invariant index state →
      body index state = some next → invariant (index + 1) next)
    (ran : forUpTo count body start = some final) :
    invariant count final := by
  induction count generalizing final with
  | zero =>
      cases ran
      exact initial
  | succ count induction =>
      obtain ⟨middle, ranMiddle, last⟩ := Option.bind_eq_some_iff.mp ran
      have held := induction (fun index state next below =>
        step index state next (Nat.lt_succ_of_lt below)) ranMiddle
      exact step count middle final (Nat.lt_succ_self count) held last

theorem forUpTo_none_of_prefix {body : Nat → τ → Option τ} {start : τ}
    {done count : Nat} (within : done ≤ count)
    (faults : forUpTo done body start = none) :
    forUpTo count body start = none := by
  induction within with
  | refl => exact faults
  | step _ induction => rw [forUpTo_succ, induction, Option.bind_none]

theorem forUpTo_none {body : Nat → τ → Option τ} {start : τ}
    (faults : body 0 start = none) (count : Nat) :
    forUpTo (count + 1) body start = none :=
  forUpTo_none_of_prefix (Nat.succ_le_succ (Nat.zero_le count)) faults

/-- An iteration that faults from every state keeps the loop from finishing. -/
theorem forUpTo_none_at {body : Nat → τ → Option τ} {index count : Nat}
    (below : index < count) (faults : ∀ state, body index state = none)
    (start : τ) : forUpTo count body start = none := by
  apply forUpTo_none_of_prefix (Nat.succ_le_of_lt below)
  rw [forUpTo_succ]
  cases forUpTo index body start with
  | none => rfl
  | some state => exact faults state

theorem forUpTo_congr {left right : Nat → τ → Option τ} (start : τ)
    {count : Nat}
    (agree : ∀ index state, index < count →
      left index state = right index state) :
    forUpTo count left start = forUpTo count right start := by
  induction count with
  | zero => rfl
  | succ count induction =>
      have earlier := induction (fun index state below =>
        agree index state (Nat.lt_succ_of_lt below))
      rw [forUpTo_succ, forUpTo_succ, earlier]
      congr 1
      funext state
      exact agree count state (Nat.lt_succ_self count)

/-! ## Strided loops -/

/-- `for (k = 0; k < bound; k += stride)`. -/
def forStride (bound stride : Nat) (body : Nat → τ → Option τ) (start : τ) :
    Option τ :=
  forUpTo ((bound + stride - 1) / stride) (fun turn => body (turn * stride))
    start

/-- If the stride divides the bound, each turn has a full stride before it. -/
theorem forStride_total {bound stride : Nat} (positive : 0 < stride)
    (divides : stride ∣ bound) (body : Nat → τ → Option τ) (start : τ)
    (invariant : Nat → τ → Prop) (initial : invariant 0 start)
    (step : ∀ k state, stride ∣ k → k + stride ≤ bound → invariant k state →
      ∃ next, body k state = some next ∧ invariant (k + stride) next) :
    ∃ final, forStride bound stride body start = some final ∧
      invariant bound final := by
  obtain ⟨turns, rfl⟩ := divides
  have count : (stride * turns + stride - 1) / stride = turns := by
    have split : stride * turns + stride - 1 =
        (stride - 1) + stride * turns := by omega
    rw [split, Nat.add_mul_div_left _ _ positive,
      Nat.div_eq_of_lt (by omega), Nat.zero_add]
  have final := forUpTo_total (fun turn => body (turn * stride)) start
    (fun turn => invariant (turn * stride)) (by rwa [Nat.zero_mul]) turns
    (by
      intro turn state below held
      have full : turn * stride + stride ≤ stride * turns := by
        rw [← Nat.succ_mul, Nat.mul_comm stride]
        exact Nat.mul_le_mul_right stride below
      have stepped :=
        step (turn * stride) state (Nat.dvd_mul_left ..) full held
      rwa [← Nat.succ_mul] at stepped)
  rw [Nat.mul_comm turns] at final
  rw [forStride, count]
  exact final

end Loop
