import CxRuntime.Zoo.Sentinel

/-!
# The stateless CXUs

`muldiv_func.c`, `addsub_func.c` and `max_func.c`.  Their functions read neither
the selector nor a context.  Sums and products wrap.
-/

namespace CxRuntime

/-- The operands and the result of a function of a stateless CXU. -/
abbrev StatelessFunc := Word → Word → Option Word

namespace Muldiv

abbrev cxMuldivNumFuncs : Nat := 2

abbrev cxMuldivNumStates : Nat := 0

def mulFunc : StatelessFunc := fun a b => some (a * b)

/-- The divisions that C leaves undefined. -/
def DivUndefined (a b : Word) : Prop := b = 0 ∨ a = 0x80000000 ∧ b = -1

instance (a b : Word) : Decidable (DivUndefined a b) :=
  inferInstanceAs (Decidable (_ ∨ _))

def divFunc : StatelessFunc := fun a b =>
  if DivUndefined a b then none else some (a.sdiv b)

/-- `cx_func_muldiv`; `none` is outside the table. -/
def cxFuncMuldiv (cfId : Nat) : Option StatelessFunc :=
  if cfId = 0 then some mulFunc
  else if cfId = 1 then some divFunc
  else none

end Muldiv

namespace Addsub

abbrev cxAddsubNumFuncs : Nat := 7

abbrev cxAddsubNumStates : Nat := 0

def addFunc : StatelessFunc := fun a b => some (a + b)

def subFunc : StatelessFunc := fun a b => some (a - b)

def add1000 : StatelessFunc := fun a b => some (a + b + 1000)

def cxFuncUndefined : StatelessFunc :=
  fun _ _ => some FuncSentinel.ifInvalidRet0.word

def cxFuncOpPos : StatelessFunc := fun _ _ => some FuncSentinel.opPos.word

def cxFuncCuBit0 : StatelessFunc :=
  fun _ _ => some (FuncSentinel.cuCustomBit ⟨0, by decide⟩).word

/-- `cx_func_addsub`; `none` is the unused entry or outside the table. -/
def cxFuncAddsub (cfId : Nat) : Option StatelessFunc :=
  if cfId = 0 then some addFunc
  else if cfId = 2 then some subFunc
  else if cfId = 3 then some cxFuncUndefined
  else if cfId = 4 then some add1000
  else if cfId = 5 then some cxFuncOpPos
  else if cfId = 6 then some cxFuncCuBit0
  else none

end Addsub

namespace Max

abbrev cxMaxNumFuncs : Nat := 1

abbrev cxMaxNumStates : Nat := 0

def maxFunc : StatelessFunc := fun a b => some (if b.slt a then a else b)

/-- `cx_func_max`; `none` is outside the table. -/
def cxFuncMax (cfId : Nat) : Option StatelessFunc :=
  if cfId = 0 then some maxFunc else none

end Max

end CxRuntime
