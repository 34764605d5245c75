import CxRuntime.Zoo.Exports

/-!
# Where the stateless CXUs are defined

The packed functions once more with every shift checked against the width of
its promoted operand, and the operands on which a registered function of a
stateless CXU returns a word.
-/

namespace CxRuntime

namespace Pext

/-! ## Checked shifts -/

/-- `value << count` on an `int` or a `uint`. -/
def shiftLeft (value : Word) (count : Nat) : Option Word :=
  if count < 32 then some (value <<< count) else none

/-- `GET_BITS(reg, start_bit, n)` on an `int`. -/
def checkedGetBits (reg : Word) (startBit n : Nat) : Option Word := do
  let shifted ← shiftRight reg (BitVec.ofNat 32 startBit)
  let power ← shiftLeft 1 n
  some (shifted &&& (power - 1))

def checkedLaneLoop (width : Nat) (firstMask : Word)
    (lane : Nat → Option (BitVec width)) : Option Word :=
  (Loop.forUpTo (xlen / width)
    (fun i (packed : Word × Word) => do
      let sum ← lane i
      let placed ← shiftLeft (sum.signExtend 32) (i * width)
      let mask ← shiftLeft packed.2 width
      some (packed.1 ||| placed &&& packed.2, mask))
    (0, firstMask)).map Prod.fst

def checkedCombineFunc (width : Nat) (firstMask : Word)
    (op : Word → Word → Word) (a b : Word) : Option Word :=
  checkedLaneLoop width firstMask fun i => do
    let left ← checkedGetBits a (i * width) width
    let right ← checkedGetBits b (i * width) width
    let rs1H := left.setWidth width
    let rs2H := right.setWidth width
    some ((op (rs1H.signExtend 32) (rs2H.signExtend 32)).setWidth width)

def checkedSraFunc (width : Nat) (firstMask keep : Word) (a sa : Word) :
    Option Word :=
  checkedLaneLoop width firstMask fun i => do
    let left ← checkedGetBits a (i * width) width
    let rs1H := left.setWidth width
    let res ← shiftRight (rs1H.signExtend 32) (sa &&& keep)
    some (res.setWidth width)

/-- `cx_func_pext` with checked shifts; `none` is outside the table. -/
def checkedFunc (cfId : Nat) : Option StatelessFunc :=
  if cfId = 0 then
    some (checkedCombineFunc 16 0xFFFF fun rs1H rs2H => rs1H + rs2H)
  else if cfId = 1 then some (checkedSraFunc 16 0xFFFF 0xFF)
  else if cfId = 2 then
    some (checkedCombineFunc 16 0xFFFF fun rs1H rs2H => rs1H * rs2H)
  else if cfId = 3 then
    some (checkedCombineFunc 8 0xFF fun rs1H rs2H => rs1H + rs2H)
  else if cfId = 4 then some (checkedSraFunc 8 0xFF 0xF)
  else if cfId = 5 then
    some (checkedCombineFunc 8 0xFF fun rs1H rs2H => rs1H * rs2H)
  else none

theorem checkedGetBits_eq (reg : Word) {startBit n : Nat}
    (inside : startBit < 32) (narrow : n < 32) :
    checkedGetBits reg startBit n = some (getBits .int reg startBit n) := by
  have startEq : (BitVec.ofNat 32 startBit).toNat = startBit := by
    rw [BitVec.toNat_ofNat]
    exact Nat.mod_eq_of_lt (by omega)
  simp only [checkedGetBits, shiftRight, startEq, if_pos inside, shiftLeft,
    if_pos narrow, Option.bind_eq_bind, Option.bind_some]
  rfl

variable {width : Nat}

/-- Every shift that places a lane or moves the mask is by less than a word. -/
theorem checkedLaneLoop_eq (positive : 0 < width) (narrow : width < 32)
    (firstMask : Word) {checked lane : Nat → Option (BitVec width)}
    (agree : ∀ i, i < xlen / width → checked i = lane i) :
    checkedLaneLoop width firstMask checked =
      laneLoop width firstMask lane := by
  rw [checkedLaneLoop, laneLoop]
  congr 1
  apply Loop.forUpTo_congr
  intro i packed visited
  have inside := lane_inside visited
  have below : i * width < 32 := by omega
  rw [agree i visited]
  cases lane i with
  | none => rfl
  | some sum =>
      simp only [shiftLeft, if_pos below, if_pos narrow, Option.bind_eq_bind,
        Option.bind_some, Option.map_some]

theorem checkedCombineFunc_eq (positive : 0 < width) (narrow : width < 32)
    (firstMask : Word) (op : Word → Word → Word) (a b : Word) :
    checkedCombineFunc width firstMask op a b =
      combineFunc width firstMask (getBits .int) op a b := by
  apply checkedLaneLoop_eq positive narrow
  intro i visited
  have inside := lane_inside visited
  have below : i * width < 32 := by omega
  simp only [checkedGetBits_eq a below narrow, checkedGetBits_eq b below narrow,
    Option.bind_eq_bind, Option.bind_some]

theorem checkedSraFunc_eq (positive : 0 < width) (narrow : width < 32)
    (firstMask keep a sa : Word) :
    checkedSraFunc width firstMask keep a sa =
      sraFunc width firstMask keep a sa := by
  apply checkedLaneLoop_eq positive narrow
  intro i visited
  have inside := lane_inside visited
  have below : i * width < 32 := by omega
  simp only [checkedGetBits_eq a below narrow, Option.bind_eq_bind,
    Option.bind_some]
  cases shiftRight _ (sa &&& keep) <;> rfl

/-- Checking the shifts changes no function of the table. -/
theorem checkedFunc_eq (cfId : Nat) : checkedFunc cfId = cxFuncPext cfId := by
  have combine : ∀ {width : Nat}, 0 < width → width < 32 →
      ∀ firstMask op, checkedCombineFunc width firstMask op =
        combineFunc width firstMask (getBits .int) op := by
    intro width positive narrow firstMask op
    funext a b
    exact checkedCombineFunc_eq positive narrow firstMask op a b
  have sra : ∀ {width : Nat}, 0 < width → width < 32 →
      ∀ firstMask keep, checkedSraFunc width firstMask keep =
        sraFunc width firstMask keep := by
    intro width positive narrow firstMask keep
    funext a sa
    exact checkedSraFunc_eq positive narrow firstMask keep a sa
  simp only [checkedFunc, combine (show 0 < 16 by decide) (by decide),
    combine (show 0 < 8 by decide) (by decide),
    sra (show 0 < 16 by decide) (by decide),
    sra (show 0 < 8 by decide) (by decide)]
  rfl

end Pext

/-! ## The registered functions -/

/-- The CXUs without a context. -/
inductive StatelessCxu where
  | muldiv
  | addsub
  | pext
  | max
  deriving DecidableEq, Repr

/-- The table of a stateless CXU. -/
def StatelessCxu.func : StatelessCxu → Nat → Option StatelessFunc
  | .muldiv => Muldiv.cxFuncMuldiv
  | .addsub => Addsub.cxFuncAddsub
  | .pext => Pext.checkedFunc
  | .max => Max.cxFuncMax

def StatelessCxu.cxId : StatelessCxu → Nat
  | .muldiv => 0
  | .addsub => 1
  | .pext => 3
  | .max => 6

theorem cxFuncs_stateless (cxu : StatelessCxu) (cfId : Nat) :
    cxFuncs cxu.cxId cfId = (cxu.func cfId).map StatelessFunc.onZoo := by
  cases cxu with
  | muldiv => rfl
  | addsub => rfl
  | pext =>
      rw [StatelessCxu.func, Pext.checkedFunc_eq]
      rfl
  | max => rfl

/-- The operands that the division and the 16-bit shift leave undefined. -/
def StatelessCxu.Undefined (cxu : StatelessCxu) (cfId : Nat) (a b : Word) :
    Prop :=
  cxu = .muldiv ∧ cfId = 1 ∧ Muldiv.DivUndefined a b ∨
    cxu = .pext ∧ cfId = 1 ∧ ¬(b &&& 0xFF).toNat < 32

def Returns (func : StatelessFunc) (a b : Word) : Prop :=
  ∃ result, func a b = some result

theorem Muldiv.returns_iff {cfId : Nat} {func : StatelessFunc}
    (registered : cxFuncMuldiv cfId = some func) (a b : Word) :
    Returns func a b ↔ ¬(cfId = 1 ∧ DivUndefined a b) := by
  unfold cxFuncMuldiv at registered
  split at registered
  · rename_i isMul
    cases registered
    apply iff_of_true ⟨a * b, rfl⟩
    intro divides
    omega
  · split at registered
    · rename_i isDiv
      cases registered
      constructor
      · intro returns undefined
        obtain ⟨result, ran⟩ := returns
        rw [divFunc, if_pos undefined.2] at ran
        cases ran
      · intro defined
        have quotient : ¬DivUndefined a b := fun undefined =>
          defined ⟨isDiv, undefined⟩
        exact ⟨a.sdiv b, if_neg quotient⟩
    · cases registered

theorem Addsub.returns {cfId : Nat} {func : StatelessFunc}
    (registered : cxFuncAddsub cfId = some func) (a b : Word) :
    Returns func a b := by
  have every : EveryEntry (fun func => Returns func a b)
      (cxFuncAddsub cfId) :=
    .ite (.some ⟨_, rfl⟩) <| .ite (.some ⟨_, rfl⟩) <| .ite (.some ⟨_, rfl⟩) <|
      .ite (.some ⟨_, rfl⟩) <| .ite (.some ⟨_, rfl⟩) <|
        .ite (.some ⟨_, rfl⟩) .none
  exact every func registered

theorem Max.returns {cfId : Nat} {func : StatelessFunc}
    (registered : cxFuncMax cfId = some func) (a b : Word) :
    Returns func a b := by
  have every : EveryEntry (fun func => Returns func a b) (cxFuncMax cfId) :=
    .ite (.some ⟨_, rfl⟩) .none
  exact every func registered

namespace Pext

private theorem combineFunc_returns {width : Nat} (narrow : width < 32)
    {firstMask : Word} (isMask : firstMask = Lanes.mask 32 width 0)
    (op : Word → Word → Word) (a b : Word) :
    Returns (combineFunc width firstMask (getBits .int) op) a b :=
  ⟨_, combineFunc_eq narrow isMask op a b⟩

/-- Every function but the 16-bit shift masks its counts below the width. -/
theorem returns_of_ne_sra16 {cfId : Nat} {func : StatelessFunc}
    (registered : cxFuncPext cfId = some func) (other : cfId ≠ 1)
    (a b : Word) : Returns func a b := by
  have counted : (b &&& 0xF).toNat < 32 := by
    rw [sra8_count]
    omega
  have every : EveryEntry (fun func => Returns func a b)
      (cxFuncPext cfId) := by
    rw [cxFuncPext, if_neg other]
    exact .ite (.some (combineFunc_returns (by decide) firstMask16 _ a b)) <|
      .ite (.some (combineFunc_returns (by decide) firstMask16 _ a b)) <|
      .ite (.some (combineFunc_returns (by decide) firstMask8 _ a b)) <|
      .ite (.some ⟨_, sraFunc_eq (by decide) firstMask8 0xF a counted⟩) <|
      .ite (.some (combineFunc_returns (by decide) firstMask8 _ a b)) .none
  exact every func registered

theorem returns_iff {cfId : Nat} {func : StatelessFunc}
    (registered : checkedFunc cfId = some func) (a b : Word) :
    Returns func a b ↔ ¬(cfId = 1 ∧ ¬(b &&& 0xFF).toNat < 32) := by
  rw [checkedFunc_eq] at registered
  by_cases shifts : cfId = 1
  · subst shifts
    obtain rfl : sra16Func = func := Option.some.inj registered
    constructor
    · intro returns past
      obtain ⟨result, ran⟩ := returns
      rw [sra16Func, sraFunc_undefined (by decide) (by decide) _ _ _ past.2]
        at ran
      cases ran
    · intro counted
      simp only [true_and, not_not] at counted
      exact ⟨_, sraFunc_eq (by decide) firstMask16 0xFF a counted⟩
  · apply iff_of_true (returns_of_ne_sra16 registered shifts a b)
    intro past
    exact shifts past.1

end Pext

/-- A registered function of a stateless CXU returns a word exactly on the
operands of no undefined division and no undefined shift. -/
theorem statelessFunc_returns_iff {cxu : StatelessCxu} {cfId : Nat}
    {func : StatelessFunc} (registered : cxu.func cfId = some func)
    (a b : Word) : Returns func a b ↔ ¬cxu.Undefined cfId a b := by
  cases cxu with
  | muldiv =>
      simpa [StatelessCxu.Undefined] using Muldiv.returns_iff registered a b
  | addsub =>
      simpa [StatelessCxu.Undefined] using Addsub.returns registered a b
  | pext =>
      simpa [StatelessCxu.Undefined] using Pext.returns_iff registered a b
  | max =>
      simpa [StatelessCxu.Undefined] using Max.returns registered a b

/-- 7 / 2 and a shift by 31 are defined. -/
theorem statelessFunc_returns_at :
    (Returns Muldiv.divFunc 7 2 ↔ ¬StatelessCxu.muldiv.Undefined 1 7 2) ∧
      (Returns (Pext.checkedSraFunc 16 0xFFFF 0xFF) 0x00010001 31 ↔
        ¬StatelessCxu.pext.Undefined 1 0x00010001 31) := by
  constructor
  · exact @statelessFunc_returns_iff .muldiv 1 _ rfl 7 2
  · exact @statelessFunc_returns_iff .pext 1 _ rfl _ _

/-- Dividing by zero is undefined. -/
theorem divFunc_by_zero :
    StatelessCxu.muldiv.func 1 = some Muldiv.divFunc ∧
      Muldiv.divFunc 7 0 = none ∧
      ¬∀ (cxu : StatelessCxu) (cfId : Nat) (func : StatelessFunc),
        cxu.func cfId = some func → ∀ a b, Returns func a b := by
  refine ⟨rfl, rfl, ?_⟩
  intro everywhere
  obtain ⟨result, ran⟩ := everywhere .muldiv 1 Muldiv.divFunc rfl 7 0
  cases ran

end CxRuntime
