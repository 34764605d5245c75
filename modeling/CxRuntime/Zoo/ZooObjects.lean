import CxRuntime.Zoo.ClientIsolation

/-!
# The zoo as objects

Every context of the zoo is an object of its own: an accumulator or a register
file, with a status word.  A call through the table of `exports.c` moves the one
object that its selector names, or answers from its operands alone.
-/

namespace CxRuntime

namespace Vector

instance (cfId : Nat) (a b : Word) : Decidable (OperandsInRange cfId a b) :=
  match cfId with
  | 0 => inferInstanceAs (Decidable (_ ∧ _))
  | 1 => inferInstanceAs (Decidable (RegOperand a))
  | 2 => inferInstanceAs (Decidable (RegOperand a))
  | _ + 3 => .isTrue trivial

instance (cfId : Nat) (a b : Word) : Decidable (Admits cfId a b) :=
  inferInstanceAs (Decidable (if cfId = 1020 ∨ cfId = 1021 then IndexOperand a
    else OperandsInRange cfId a b))

end Vector

namespace StatefulCxu

/-- What one context of the CXU is. -/
def Solo : StatefulCxu → Type
  | .mulacc => SoloAcc
  | .vector => Vector.SoloVec
  | .nnAcc => SoloAcc

def soloStep :
    (unit : StatefulCxu) → unit.Solo → CfCall → unit.Solo × Returned
  | .mulacc, solo, call => Mulacc.soloFunc call.cfId call.a call.b solo
  | .vector, solo, call => Vector.soloFunc call.cfId call.a call.b solo
  | .nnAcc, solo, call => NnAcc.soloFunc call.cfId call.a call.b solo

def soloOf :
    (unit : StatefulCxu) → unit.cxu.State → unit.cxu.Context → unit.Solo
  | .mulacc => Accumulator.soloOf
  | .vector => Vector.soloOf
  | .nnAcc => Accumulator.soloOf

def statusOf : (unit : StatefulCxu) → unit.Solo → CxStctxs
  | .mulacc, solo => SoloAcc.status solo
  | .vector, solo => Vector.SoloVec.status solo
  | .nnAcc, solo => SoloAcc.status solo

/-- An object after some calls. -/
def after (unit : StatefulCxu) (solo : unit.Solo) (calls : List CfCall) :
    unit.Solo :=
  calls.foldl (fun solo call => (unit.soloStep solo call).1) solo

theorem after_append (unit : StatefulCxu) (solo : unit.Solo)
    (calls more : List CfCall) :
    unit.after solo (calls ++ more) = unit.after (unit.after solo calls) more :=
  List.foldl_append

theorem soloStep_readStatus (unit : StatefulCxu) (solo : unit.Solo) :
    (unit.soloStep solo ⟨1023, 0, 0⟩).2 = some (unit.statusOf solo).idx := by
  cases unit with
  | mulacc => rfl
  | vector => rfl
  | nnAcc => rfl

instance (unit : StatefulCxu) (cfCall : CfCall) :
    Decidable (unit.cxu.Admissible cfCall) :=
  match unit with
  | .mulacc => inferInstanceAs (Decidable (_ < _ ∧ True))
  | .vector => inferInstanceAs (Decidable (_ < _ ∧ Vector.Admits _ _ _))
  | .nnAcc => inferInstanceAs (Decidable (_ < _ ∧ True))

theorem admissible_readStatus (unit : StatefulCxu) :
    unit.cxu.Admissible ⟨1023, 0, 0⟩ := by
  cases unit with
  | mulacc => exact ⟨by decide, trivial⟩
  | vector => exact ⟨by decide, trivial⟩
  | nnAcc => exact ⟨by decide, trivial⟩

theorem admissible_writeStatus (unit : StatefulCxu) (status : Word) :
    unit.cxu.Admissible ⟨1022, status, 0⟩ := by
  have below : 1022 < maxCfIds := by decide
  cases unit with
  | mulacc => exact ⟨below, trivial⟩
  | vector => exact ⟨below, trivial⟩
  | nnAcc => exact ⟨below, trivial⟩

/-- An admissible call moves the object that its selector names. -/
theorem simulates (unit : StatefulCxu) {sysSel : CxSelidx}
    {context : unit.cxu.Context}
    (located : unit.cxu.contextOf sysSel = some context) {cfCall : CfCall}
    (admissible : unit.cxu.Admissible cfCall) (state : unit.cxu.State) :
    ∃ next,
      unit.cxu.call sysSel cfCall state =
          some ((unit.soloStep (unit.soloOf state context) cfCall).2, next) ∧
        unit.soloOf next = Function.update (unit.soloOf state) context
          (unit.soloStep (unit.soloOf state context) cfCall).1 := by
  cases unit with
  | mulacc =>
      exact mulacc_simulates state
        ⟨sysSel, context, located, cfCall, admissible.1⟩
  | vector => exact vector_simulates located admissible state
  | nnAcc =>
      exact nnAcc_simulates state
        ⟨sysSel, context, located, cfCall, admissible.1⟩

end StatefulCxu

/-- The object that a selector names. -/
def ZooContext.ofSel (sysSel : CxSelidx) : Option ZooContext :=
  ((mulacc.contextOf sysSel).map (Sigma.mk StatefulCxu.mulacc)).or
    (((vector.contextOf sysSel).map (Sigma.mk StatefulCxu.vector)).or
      ((nnAcc.contextOf sysSel).map (Sigma.mk StatefulCxu.nnAcc)))

def StatelessCxu.ofCxId : Nat → Option StatelessCxu
  | 0 => some .muldiv
  | 1 => some .addsub
  | 3 => some .pext
  | 6 => some .max
  | _ => none

abbrev ZooObjects := (context : ZooContext) → context.1.Solo

def zooObjects (zoo : ZooStatics) : ZooObjects := fun context =>
  context.1.soloOf (context.1.statics zoo) context.2

/-- A call on the objects; `none` if the function is not in the table, or not
meant for the operands. -/
def objectCall (objects : ZooObjects) (call : ZooCall) :
    Option (ZooObjects × Returned) :=
  match ZooContext.ofSel call.1 with
  | some context =>
      if context.1.cxu.Admissible call.2 then
        let moved := context.1.soloStep (objects context) call.2
        some (Function.update objects context moved.1, moved.2)
      else none
  | none => do
      let cxu ← StatelessCxu.ofCxId call.1.cxId.toNat
      let func ← cxu.func call.2.cfId
      let result ← func call.2.a call.2.b
      some (objects, some result)

/-! ## Calls through the table -/

theorem objectCall_named {objects : ZooObjects} {call : ZooCall}
    {context : ZooContext} (named : ZooContext.ofSel call.1 = some context)
    (admissible : context.1.cxu.Admissible call.2) :
    objectCall objects call =
      some (Function.update objects context
        (context.1.soloStep (objects context) call.2).1,
          (context.1.soloStep (objects context) call.2).2) := by
  simp only [objectCall, named, if_pos admissible]

private theorem ZooContext.located_of_ofSel {sysSel : CxSelidx}
    {context : ZooContext}
    (named : ofSel sysSel = some context) :
    context.1.cxu.contextOf sysSel = some context.2 := by
  unfold ofSel at named
  cases inMulacc : mulacc.contextOf sysSel with
  | some located =>
      rw [inMulacc] at named
      cases named
      exact inMulacc
  | none =>
      cases inVector : vector.contextOf sysSel with
      | some located =>
          rw [inMulacc, inVector] at named
          cases named
          exact inVector
      | none =>
          cases inNnAcc : nnAcc.contextOf sysSel with
          | some located =>
              rw [inMulacc, inVector, inNnAcc] at named
              cases named
              exact inNnAcc
          | none =>
              rw [inMulacc, inVector, inNnAcc] at named
              cases named

private theorem StatelessCxu.cxId_of_ofCxId {cxId : Nat} {cxu : StatelessCxu}
    (isCxu : ofCxId cxId = some cxu) : cxu.cxId = cxId := by
  unfold ofCxId at isCxu
  split at isCxu <;> cases isCxu <;> rfl

private theorem zooObjects_withStatics {unit : StatefulCxu}
    {context : unit.cxu.Context}
    {zoo : ZooStatics} {statics : unit.cxu.State} {moved : unit.Solo}
    (movedEq : unit.soloOf statics =
      Function.update (unit.soloOf (unit.statics zoo)) context moved) :
    zooObjects (unit.withStatics zoo statics) =
      Function.update (zooObjects zoo) ⟨unit, context⟩ moved := by
  funext other
  by_cases sameUnit : other.1 = unit
  · obtain ⟨unit, other⟩ := other
    cases sameUnit
    rw [zooObjects, StatefulCxu.statics_withStatics, movedEq]
    by_cases same : other = context
    · subst same
      rw [Function.update_self, Function.update_self]
    · have different : (⟨unit, other⟩ : ZooContext) ≠ ⟨unit, context⟩ :=
        fun equality => same (eq_of_heq (Sigma.mk.inj equality).2)
      rw [Function.update_of_ne same, Function.update_of_ne different]
      rfl
  · have different : other ≠ ⟨unit, context⟩ :=
      fun equality => sameUnit (congrArg Sigma.fst equality)
    rw [Function.update_of_ne different, zooObjects,
      StatefulCxu.statics_withStatics_other sameUnit]
    rfl

/-- The table simulates the objects. -/
theorem callFunc_objects {zoo : ZooStatics} {sysSel : CxSelidx}
    {cfCall : CfCall} {moved : ZooObjects × Returned}
    (taken : objectCall (zooObjects zoo) (sysSel, cfCall) = some moved) :
    ∃ next, callFunc sysSel cfCall zoo = some (moved.2, next) ∧
      zooObjects next = moved.1 := by
  unfold objectCall at taken
  split at taken
  · rename_i context named
    split at taken
    · rename_i admissible
      cases taken
      have located := ZooContext.located_of_ofSel named
      obtain ⟨unit, context⟩ := context
      obtain ⟨statics, called, movedEq⟩ :=
        unit.simulates located admissible (unit.statics zoo)
      refine ⟨unit.withStatics zoo statics, ?_, zooObjects_withStatics movedEq⟩
      rw [callFunc_located located, called, Option.map_some]
      rfl
    · cases taken
  · obtain ⟨cxu, isCxu, taken⟩ := Option.bind_eq_some_iff.mp taken
    obtain ⟨func, registered, taken⟩ := Option.bind_eq_some_iff.mp taken
    obtain ⟨result, ran, equality⟩ := Option.bind_eq_some_iff.mp taken
    cases equality
    refine ⟨zoo, ?_, rfl⟩
    simp only [callFunc, ← StatelessCxu.cxId_of_ofCxId isCxu,
      cxFuncs_stateless, registered, Option.map_some, Option.bind_some,
      StatelessFunc.onZoo, ran]

end CxRuntime
