import CxRuntime.Lib.Noninterference
import CxRuntime.Zoo.Exports
import CxRuntime.Zoo.StatelessDefined
import CxRuntime.Zoo.VirtualContexts

/-!
# Clients of the whole zoo

Programs call custom functions of all eight CXUs through the table of
`exports.c`.  If no two programs use the same context, each gets from any
interleaving the answers that it gets from a zoo of its own.
-/

namespace CxRuntime

/-- The CXUs with contexts. -/
inductive StatefulCxu where
  | mulacc
  | vector
  | nnAcc
  deriving DecidableEq, Repr

namespace StatefulCxu

def cxu : StatefulCxu → Cxu
  | .mulacc => CxRuntime.mulacc
  | .vector => CxRuntime.vector
  | .nnAcc => CxRuntime.nnAcc

/-- The static arrays of a CXU in those of the zoo. -/
def statics : (unit : StatefulCxu) → ZooStatics → unit.cxu.State
  | .mulacc, zoo => zoo.mulacc
  | .vector, zoo => zoo.vector
  | .nnAcc, zoo => zoo.nnAcc

def withStatics :
    (unit : StatefulCxu) → ZooStatics → unit.cxu.State → ZooStatics
  | .mulacc, zoo, statics => { zoo with mulacc := statics }
  | .vector, zoo, statics => { zoo with vector := statics }
  | .nnAcc, zoo, statics => { zoo with nnAcc := statics }

@[simp] theorem statics_withStatics (unit : StatefulCxu) (zoo : ZooStatics)
    (statics : unit.cxu.State) :
    unit.statics (unit.withStatics zoo statics) = statics := by
  cases unit with
  | mulacc => rfl
  | vector => rfl
  | nnAcc => rfl

theorem statics_withStatics_other {unit other : StatefulCxu}
    (different : other ≠ unit) (zoo : ZooStatics)
    (statics : unit.cxu.State) :
    other.statics (unit.withStatics zoo statics) = other.statics zoo := by
  cases unit <;> cases other <;> first | rfl | exact absurd rfl different

theorem actsLocally (unit : StatefulCxu) : unit.cxu.ActsLocally := by
  cases unit with
  | mulacc => exact mulacc_actsLocally
  | vector => exact vector_actsLocally
  | nnAcc => exact nnAcc_actsLocally

end StatefulCxu

/-- A context of one of the stateful CXUs. -/
abbrev ZooContext := (unit : StatefulCxu) × unit.cxu.Context

/-- A context looks the same in two states of the zoo. -/
def ZooContext.Same (context : ZooContext) (left right : ZooStatics) : Prop :=
  context.1.cxu.Alike (context.1.statics left) context.2
    (context.1.statics right) context.2

/-- A custom instruction: the selector that is active and the call. -/
abbrev ZooCall := CxSelidx × CfCall

def zooCall (zoo : ZooStatics) (call : ZooCall) :
    Option (ZooStatics × Returned) :=
  (callFunc call.1 call.2 zoo).map Prod.swap

/-- A call that a client makes: a function of a stateless CXU on operands for
which it is defined, or any function of a stateful CXU on a context of the
client with the operands it is meant for. -/
inductive ZooClientCall {κ : Type} (owner : ZooContext → κ) (client : κ) :
    ZooCall → Prop
  | stateless {sysSel : CxSelidx} {cfCall : CfCall} {cxu : StatelessCxu}
      {func : StatelessFunc} (selects : sysSel.cxId.toNat = cxu.cxId)
      (registered : cxu.func cfCall.cfId = some func)
      (defined : ¬cxu.Undefined cfCall.cfId cfCall.a cfCall.b) :
      ZooClientCall owner client (sysSel, cfCall)
  | stateful {sysSel : CxSelidx} {cfCall : CfCall} {unit : StatefulCxu}
      {context : unit.cxu.Context}
      (located : unit.cxu.contextOf sysSel = some context)
      (owns : owner ⟨unit, context⟩ = client)
      (admissible : unit.cxu.Admissible cfCall) :
      ZooClientCall owner client (sysSel, cfCall)

/-- The contexts of a client look the same. -/
def SameFor {κ : Type} (owner : ZooContext → κ) (client : κ)
    (left right : ZooStatics) : Prop :=
  ∀ context, owner context = client → context.Same left right

/-! ## One call through the table -/

private theorem instanceNum_of_located {instances states : Nat}
    {cxuIdToInstanceNum : Nat → Option (Fin instances)} {sysSel : CxSelidx}
    {context : ContextId instances states}
    (located : locate states cxuIdToInstanceNum sysSel = some context) :
    cxuIdToInstanceNum sysSel.cxId.toNat = some context.1 := by
  obtain ⟨instNum, isInstance, rest⟩ := Option.bind_eq_some_iff.mp located
  split at rest
  · cases rest
    exact isInstance
  · cases rest

/-- The function of a CXU, on the static arrays of the zoo. -/
def StatefulCxu.onZoo (unit : StatefulCxu) (func : CxFunc unit.cxu.State) :
    CxFunc ZooStatics :=
  fun a b sysSel zoo => (func a b sysSel (unit.statics zoo)).map fun answer =>
    (answer.1, unit.withStatics zoo answer.2)

/-- A selector of a context dispatches to the table of its CXU. -/
theorem cxFuncs_located {unit : StatefulCxu} {sysSel : CxSelidx}
    {context : unit.cxu.Context}
    (located : unit.cxu.contextOf sysSel = some context) (cfId : Nat) :
    cxFuncs sysSel.cxId.toNat cfId =
      (unit.cxu.func cfId).map unit.onZoo := by
  have isInstance := instanceNum_of_located located
  cases unit with
  | mulacc =>
      change Mulacc.cxuIdToInstanceNum sysSel.cxId.toNat = _ at isInstance
      unfold Mulacc.cxuIdToInstanceNum at isInstance
      split at isInstance
      · rename_i cxIdEq
        rw [cxIdEq]
        rfl
      · cases isInstance
  | vector =>
      change Vector.cxuIdToInstanceNum sysSel.cxId.toNat = _ at isInstance
      unfold Vector.cxuIdToInstanceNum at isInstance
      split at isInstance
      · rename_i cxIdEq
        rw [cxIdEq]
        rfl
      split at isInstance
      · rename_i cxIdEq
        rw [cxIdEq]
        rfl
      · cases isInstance
  | nnAcc =>
      change NnAcc.cxuIdToInstanceNum sysSel.cxId.toNat = _ at isInstance
      unfold NnAcc.cxuIdToInstanceNum at isInstance
      split at isInstance
      · rename_i cxIdEq
        rw [cxIdEq]
        rfl
      · cases isInstance

theorem callFunc_located {unit : StatefulCxu} {sysSel : CxSelidx}
    {context : unit.cxu.Context}
    (located : unit.cxu.contextOf sysSel = some context) (cfCall : CfCall)
    (zoo : ZooStatics) :
    callFunc sysSel cfCall zoo =
      (unit.cxu.call sysSel cfCall (unit.statics zoo)).map fun answer =>
        (answer.1, unit.withStatics zoo answer.2) := by
  simp only [callFunc, cxFuncs_located located, Cxu.call]
  cases unit.cxu.func cfCall.cfId with
  | none => rfl
  | some func => rfl

theorem zooCall_stateful {unit : StatefulCxu} {sysSel : CxSelidx}
    {context : unit.cxu.Context}
    (located : unit.cxu.contextOf sysSel = some context) (cfCall : CfCall)
    (zoo : ZooStatics) :
    zooCall zoo (sysSel, cfCall) =
      (unit.cxu.call sysSel cfCall (unit.statics zoo)).map fun answer =>
        (unit.withStatics zoo answer.2, answer.1) := by
  rw [zooCall, callFunc_located located, Option.map_map]
  rfl

/-- A stateless function answers by its operands and touches no array. -/
theorem zooCall_stateless {sysSel : CxSelidx} {cfCall : CfCall}
    {cxu : StatelessCxu} {func : StatelessFunc}
    (selects : sysSel.cxId.toNat = cxu.cxId)
    (registered : cxu.func cfCall.cfId = some func)
    (defined : ¬cxu.Undefined cfCall.cfId cfCall.a cfCall.b) :
    ∃ result, ∀ zoo,
      zooCall zoo (sysSel, cfCall) = some (zoo, some result) := by
  have returns : Returns func cfCall.a cfCall.b := by
    cases cxu with
    | muldiv =>
        apply (Muldiv.returns_iff registered _ _).mpr
        simpa [StatelessCxu.Undefined] using defined
    | addsub => exact Addsub.returns registered _ _
    | pext =>
        apply (Pext.returns_iff registered _ _).mpr
        simpa [StatelessCxu.Undefined] using defined
    | max => exact Max.returns registered _ _
  obtain ⟨result, ran⟩ := returns
  refine ⟨result, ?_⟩
  intro zoo
  simp only [zooCall, callFunc, selects, cxFuncs_stateless, registered,
    Option.map_some, Option.bind_some, StatelessFunc.onZoo, ran,
    Prod.swap_prod_mk]

/-! ## What a client sees -/

section Alike

variable {cxu : Cxu} {sysSel : CxSelidx} {context : cxu.Context}
  {cfCall : CfCall}

theorem Cxu.Alike.refl (state : cxu.State) (context : cxu.Context) :
    cxu.Alike state context state context where
  status := rfl
  words _ _ := rfl

theorem Cxu.Alike.symm {left : cxu.State} {leftContext : cxu.Context}
    {right : cxu.State} {rightContext : cxu.Context}
    (alike : cxu.Alike left leftContext right rightContext) :
    cxu.Alike right rightContext left leftContext where
  status := alike.status.symm
  words index below := (alike.words index below).symm

/-- A call on contexts that look the same keeps what looks the same. -/
theorem Cxu.ActsLocally.own (acts : cxu.ActsLocally)
    (located : cxu.contextOf sysSel = some context)
    (admissible : cxu.Admissible cfCall) {left right : cxu.State}
    (alike : cxu.Alike left context right context) :
    ∃ returned nextLeft nextRight,
      cxu.call sysSel cfCall left = some (returned, nextLeft) ∧
      cxu.call sysSel cfCall right = some (returned, nextRight) ∧
      ∀ other, cxu.Alike left other right other →
        cxu.Alike nextLeft other nextRight other := by
  obtain ⟨returned, nextLeft, nextRight, calledLeft, calledRight, moved⟩ :=
    acts.alike located located alike admissible
  refine ⟨returned, nextLeft, nextRight, calledLeft, calledRight, ?_⟩
  intro other looksSame
  by_cases named : other = context
  · rwa [named]
  · have keptLeft := acts.others located admissible calledLeft other named
    have keptRight := acts.others located admissible calledRight other named
    exact ((looksSame.trans_same keptLeft).symm.trans_same keptRight).symm

/-- A call on another context changes nothing. -/
theorem Cxu.ActsLocally.kept (acts : cxu.ActsLocally)
    (located : cxu.contextOf sysSel = some context)
    (admissible : cxu.Admissible cfCall) {state next alone : cxu.State}
    {returned : Returned}
    (called : cxu.call sysSel cfCall state = some (returned, next))
    {other : cxu.Context} (different : other ≠ context)
    (alike : cxu.Alike state other alone other) :
    cxu.Alike next other alone other :=
  alike.trans_same (acts.others located admissible called other different)

end Alike

theorem ZooContext.Same.refl (context : ZooContext) (zoo : ZooStatics) :
    context.Same zoo zoo := Cxu.Alike.refl (context.1.statics zoo) context.2

/-- The contexts of the other CXUs look as before. -/
theorem ZooContext.same_withStatics_other {unit : StatefulCxu}
    {context : ZooContext} (different : context.1 ≠ unit)
    {left right : ZooStatics} (leftStatics rightStatics : unit.cxu.State)
    (same : context.Same left right) :
    context.Same (unit.withStatics left leftStatics)
      (unit.withStatics right rightStatics) := by
  rw [Same, StatefulCxu.statics_withStatics_other different,
    StatefulCxu.statics_withStatics_other different]
  exact same

section Unwinding

variable {κ : Type} {owner : ZooContext → κ} {client : κ} {call : ZooCall}

private theorem zooClientCall_own (isCall : ZooClientCall owner client call)
    {left right : ZooStatics} (same : SameFor owner client left right) :
    ∃ answer nextLeft nextRight,
      zooCall left call = some (nextLeft, answer) ∧
      zooCall right call = some (nextRight, answer) ∧
      SameFor owner client nextLeft nextRight := by
  cases isCall with
  | stateless selects registered defined =>
      obtain ⟨result, called⟩ := zooCall_stateless selects registered defined
      exact ⟨some result, left, right, called left, called right, same⟩
  | @stateful sysSel cfCall unit context located owns admissible =>
      obtain ⟨returned, nextLeft, nextRight, calledLeft, calledRight, kept⟩ :=
        unit.actsLocally.own located admissible (same _ owns)
      refine ⟨returned, unit.withStatics left nextLeft,
        unit.withStatics right nextRight, ?_, ?_, ?_⟩
      · rw [zooCall_stateful located, calledLeft, Option.map_some]
      · rw [zooCall_stateful located, calledRight, Option.map_some]
      · intro other ownsOther
        have before := same other ownsOther
        by_cases sameUnit : other.1 = unit
        · obtain ⟨unit, other⟩ := other
          cases sameUnit
          rw [ZooContext.Same, StatefulCxu.statics_withStatics,
            StatefulCxu.statics_withStatics]
          exact kept other before
        · exact ZooContext.same_withStatics_other sameUnit _ _ before

private theorem zooClientCall_others (isCall : ZooClientCall owner client call)
    {zoo next : ZooStatics} {answer : Returned}
    (called : zooCall zoo call = some (next, answer)) {other : κ}
    (different : other ≠ client) {alone : ZooStatics}
    (same : SameFor owner other zoo alone) : SameFor owner other next alone := by
  intro context owns
  have before := same context owns
  cases isCall with
  | stateless selects registered defined =>
      obtain ⟨result, calledAny⟩ :=
        zooCall_stateless selects registered defined
      cases called.symm.trans (calledAny zoo)
      exact before
  | @stateful sysSel cfCall unit named located ownsNamed admissible =>
      rw [zooCall_stateful located] at called
      obtain ⟨⟨returned, moved⟩, ran, equality⟩ :=
        Option.map_eq_some_iff.mp called
      cases equality
      by_cases sameUnit : context.1 = unit
      · obtain ⟨unit, context⟩ := context
        cases sameUnit
        rw [ZooContext.Same, StatefulCxu.statics_withStatics]
        apply unit.actsLocally.kept located admissible ran ?_ before
        rintro rfl
        exact different (owns.symm.trans ownsNamed)
      · rw [ZooContext.Same, StatefulCxu.statics_withStatics_other sameUnit]
        exact before

private theorem zoo_unwinding (owner : ZooContext → κ) :
    Noninterference.Unwinding zooCall (ZooClientCall owner) (SameFor owner) where
  refl _ zoo context _ := ZooContext.Same.refl context zoo
  own isCall _ _ same := zooClientCall_own isCall same
  others isCall _ _ _ called _ different _ same :=
    zooClientCall_others isCall called different same

end Unwinding

/-- Clients that share no context get, from any interleaving, the answers that
each gets alone, from any zoo in which its contexts look the same. -/
theorem zoo_clients_unnoticed {κ : Type} [DecidableEq κ]
    (owner : ZooContext → κ) {calls : List (κ × ZooCall)}
    (allCalls : ∀ call ∈ calls, ZooClientCall owner call.1 call.2)
    (zoo : ZooStatics) :
    ∃ final answers,
      Transition.run (Noninterference.tagged zooCall) zoo calls =
          some (final, answers) ∧
        ∀ client {alone}, SameFor owner client zoo alone →
          ∃ finalAlone,
            Transition.run zooCall alone (Product.only client calls) =
                some (finalAlone, Product.only client answers) ∧
              SameFor owner client final finalAlone :=
  (zoo_unwinding owner).run_alone allCalls zoo

/-- One client accumulates on `mulacc` and multiplies, the other accumulates on
`nn_acc`. -/
theorem zoo_clients_unnoticed_two :
    let mac (a b : Word) : Bool × ZooCall := (false, contextSel 2 0, ⟨0, a, b⟩)
    let mul (a b : Word) : Bool × ZooCall := (false, contextSel 0 0, ⟨0, a, b⟩)
    let nn (a b : Word) : Bool × ZooCall := (true, contextSel 7 0, ⟨0, a, b⟩)
    ∃ final answers,
      Transition.run (Noninterference.tagged zooCall) cxInitFuncs
          [mac 5 5, nn 2 3, mac 2 2, mul 6 7, nn 4 4] =
        some (final, answers) ∧
      Product.only false answers = [some 25, some 29, some 42] ∧
      Product.only true answers = [some 6, some 22] := by
  intro mac mul nn
  have isMac : ∀ a b, ZooClientCall (fun context => context.1 == .nnAcc)
      (mac a b).1 (mac a b).2 := by
    intro a b
    apply @ZooClientCall.stateful _ _ _ _ _ .mulacc Mulacc.firstContext
    · exact rfl
    · exact rfl
    · exact ⟨Nat.zero_lt_succ _, trivial⟩
  have isNn : ∀ a b, ZooClientCall (fun context => context.1 == .nnAcc)
      (nn a b).1 (nn a b).2 := by
    intro a b
    apply @ZooClientCall.stateful _ _ _ _ _ .nnAcc
      (⟨0, by decide⟩, ⟨0, by decide⟩)
    · exact rfl
    · exact rfl
    · exact ⟨Nat.zero_lt_succ _, trivial⟩
  have isMul : ∀ a b, ZooClientCall (fun context => context.1 == .nnAcc)
      (mul a b).1 (mul a b).2 := by
    intro a b
    apply @ZooClientCall.stateless _ _ _ _ _ .muldiv Muldiv.mulFunc
    · exact rfl
    · exact rfl
    · simp [StatelessCxu.Undefined]
  obtain ⟨final, answers, ran, alone⟩ := @zoo_clients_unnoticed
    Bool _ (fun context => context.1 == .nnAcc)
    [mac 5 5, nn 2 3, mac 2 2, mul 6 7, nn 4 4]
    (by
      intro call member
      simp only [List.mem_cons, List.not_mem_nil, or_false] at member
      rcases member with rfl | rfl | rfl | rfl | rfl
      · exact isMac 5 5
      · exact isNn 2 3
      · exact isMac 2 2
      · exact isMul 6 7
      · exact isNn 4 4)
    cxInitFuncs
  refine ⟨final, answers, ran, ?_, ?_⟩
  · obtain ⟨finalAlone, ranAlone, _⟩ :=
      alone false fun context _ => ZooContext.Same.refl context cxInitFuncs
    have answered := congrArg (Option.map Prod.snd) ranAlone
    exact (Option.some.inj answered).symm
  · obtain ⟨finalAlone, ranAlone, _⟩ :=
      alone true fun context _ => ZooContext.Same.refl context cxInitFuncs
    have answered := congrArg (Option.map Prod.snd) ranAlone
    exact (Option.some.inj answered).symm

end CxRuntime
